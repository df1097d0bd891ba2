import Mathlib.Data.Set.Card
import StableSupply.Table

/-! # Keys of a table

A key is in a table if something is found under it, and no key is there twice, so that the size of a
table is the number of its keys (`Table.encard_keys`). -/

namespace StableSupply.Table

open KeyOrder

variable {κ ν : Type} [KeyOrder κ]

theorem entries_inj {t u : Table κ ν} : t.entries = u.entries ↔ t = u := by
  cases t
  cases u
  simp

/-- Among sorted entries, those that are found are those that are there. -/
theorem findIn_eq_some_iff {k : κ} {v : ν} {l : List (κ × ν)}
    (hl : l.Pairwise fun a b => Before a.1 b.1) : findIn k l = some v ↔ (k, v) ∈ l := by
  induction l with
  | nil => simp [findIn]
  | cons e rest ih =>
    obtain ⟨j, u⟩ := e
    obtain ⟨hhead, hrest⟩ := List.pairwise_cons.1 hl
    rw [List.mem_cons, findIn]
    by_cases hkj : Before k j
    · -- everything in the table comes after the key
      rw [if_pos hkj]
      constructor
      · intro hnone
        cases hnone
      · intro hmem
        rcases hmem with heq | hmem
        · obtain ⟨rfl, rfl⟩ := Prod.mk.inj heq
          exact absurd hkj (KeyOrder.irrefl k)
        · exact absurd (KeyOrder.trans hkj (hhead _ hmem)) (KeyOrder.irrefl k)
    · rw [if_neg hkj]
      by_cases hjk : Before j k
      · rw [if_pos hjk, ih hrest]
        refine ⟨.inr, fun hmem => hmem.resolve_left fun heq => ?_⟩
        obtain ⟨rfl, rfl⟩ := Prod.mk.inj heq
        exact KeyOrder.irrefl k hjk
      · obtain rfl := KeyOrder.connected hkj hjk
        rw [if_neg hjk, Option.some.injEq]
        refine ⟨fun h => .inl (by rw [h]), fun hmem => ?_⟩
        rcases hmem with heq | hmem
        · exact (Prod.mk.inj heq).2.symm
        · exact absurd (hhead _ hmem) hkj

theorem mem_keys_iff {t : Table κ ν} {k : κ} : k ∈ t.keys ↔ ∃ v, t.find? k = some v := by
  rw [keys, List.mem_map]
  constructor
  · rintro ⟨⟨k, v⟩, hmem, rfl⟩
    exact ⟨v, (findIn_eq_some_iff t.sorted).2 hmem⟩
  · rintro ⟨v, hv⟩
    exact ⟨(k, v), (findIn_eq_some_iff t.sorted).1 hv, rfl⟩

theorem isSome_find?_congr {t u : Table κ ν} (h : t.keys = u.keys) (k : κ) :
    (t.find? k).isSome = (u.find? k).isSome := by
  rw [Bool.eq_iff_iff, Option.isSome_iff_exists, Option.isSome_iff_exists, ← mem_keys_iff,
    ← mem_keys_iff, h]

/-- No key has two entries. -/
theorem nodup_keys (t : Table κ ν) : t.keys.Nodup := by
  refine List.pairwise_map.2 (t.sorted.imp fun hbefore heq => ?_)
  rw [heq] at hbefore
  exact KeyOrder.irrefl _ hbefore

/-- There are as many keys with a value as entries. -/
theorem encard_keys (t : Table κ ν) : {k | ∃ v, t.find? k = some v}.encard = t.size := by
  classical
  have hset : {k | ∃ v, t.find? k = some v} = (t.keys.toFinset : Set κ) := by
    ext k
    rw [Set.mem_ofPred_eq, Finset.mem_coe, List.mem_toFinset, mem_keys_iff]
  rw [hset, Set.encard_coe_eq_coe_finsetCard, List.toFinset_card_of_nodup t.nodup_keys, keys,
    List.length_map, size]

end StableSupply.Table
