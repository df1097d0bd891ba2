/-! # Sorted tables

Finite maps as lists of entries in strictly increasing order of their keys. The order is part of the
type, so a table is determined by what can be looked up in it (`Table.ext_find?`). -/

namespace StableSupply

/-- A strict total order on keys. -/
class KeyOrder (κ : Type) where
  Before : κ → κ → Prop
  decidableBefore : DecidableRel Before
  irrefl : ∀ a, ¬ Before a a
  trans : ∀ {a b c}, Before a b → Before b c → Before a c
  connected : ∀ {a b}, ¬ Before a b → ¬ Before b a → a = b

namespace KeyOrder

instance {κ : Type} [KeyOrder κ] : DecidableRel (Before (κ := κ)) := decidableBefore

/-- The order of the numbers that determine the keys. -/
abbrev ofRank {κ : Type} (rank : κ → Nat) (h : ∀ a b, rank a = rank b → a = b) : KeyOrder κ where
  Before a b := rank a < rank b
  decidableBefore _ _ := inferInstance
  irrefl _ := Nat.lt_irrefl _
  trans := Nat.lt_trans
  connected h1 h2 := h _ _ (Nat.le_antisymm (Nat.not_lt.1 h2) (Nat.not_lt.1 h1))

/-- Texts in the order of their characters' codes, which is also the order of their UTF-8 bytes. -/
instance : KeyOrder String where
  Before a b := a < b
  decidableBefore _ _ := inferInstance
  irrefl := String.lt_irrefl
  trans := String.lt_trans
  connected h1 h2 := String.le_antisymm h2 h1

end KeyOrder

/-- Entries in the order of their keys, at most one for a key. -/
structure Table (κ ν : Type) [KeyOrder κ] where
  entries : List (κ × ν)
  sorted : entries.Pairwise fun a b => KeyOrder.Before a.1 b.1

namespace Table

open KeyOrder

variable {κ ν : Type} [KeyOrder κ]

instance [DecidableEq κ] [DecidableEq ν] : DecidableEq (Table κ ν) := fun a b =>
  decidable_of_iff (a.entries = b.entries) (by cases a; cases b; simp)

def empty : Table κ ν := ⟨[], .nil⟩

def size (t : Table κ ν) : Nat := t.entries.length

def keys (t : Table κ ν) : List κ := t.entries.map (·.1)

/-! ## Looking up -/

/-- Looks for a key among sorted entries. -/
def findIn (k : κ) : List (κ × ν) → Option ν
  | [] => none
  | (j, v) :: rest => if Before k j then none else if Before j k then findIn k rest else some v

/-- The value of a key. -/
def find? (t : Table κ ν) (k : κ) : Option ν := findIn k t.entries

/-! ## Inserting -/

/-- Enters a value among sorted entries, in place of the one that its key had. -/
def insertIn (k : κ) (v : ν) : List (κ × ν) → List (κ × ν)
  | [] => [(k, v)]
  | (j, u) :: rest =>
    if Before k j then (k, v) :: (j, u) :: rest
    else if Before j k then (j, u) :: insertIn k v rest
    else (k, v) :: rest

theorem mem_insertIn {k : κ} {v : ν} {e : κ × ν} {l : List (κ × ν)} (h : e ∈ insertIn k v l) :
    e = (k, v) ∨ e ∈ l := by
  fun_induction insertIn k v l with
  | case1 => simpa using h
  | case2 => simpa using h
  | case3 j u rest _ _ ih =>
    rcases List.mem_cons.1 h with h | h
    · simp [h]
    · rcases ih h with h | h <;> simp [h]
  | case4 j u rest => rcases List.mem_cons.1 h with h | h <;> simp [h]

/-- Entering a value keeps the order. -/
theorem sorted_insertIn (k : κ) (v : ν) {l : List (κ × ν)}
    (h : l.Pairwise fun a b => Before a.1 b.1) :
    (insertIn k v l).Pairwise fun a b => Before a.1 b.1 := by
  fun_induction insertIn k v l with
  | case1 => simp
  | case2 j u rest hlt =>
    refine List.pairwise_cons.2 ⟨fun e he => ?_, h⟩
    rcases List.mem_cons.1 he with rfl | he
    · exact hlt
    · exact KeyOrder.trans hlt ((List.pairwise_cons.1 h).1 e he)
  | case3 j u rest _ hlt ih =>
    refine List.pairwise_cons.2 ⟨fun e he => ?_, ih (List.pairwise_cons.1 h).2⟩
    rcases mem_insertIn he with rfl | he
    · exact hlt
    · exact (List.pairwise_cons.1 h).1 e he
  | case4 j u rest h1 h2 =>
    obtain rfl := KeyOrder.connected h1 h2
    exact List.pairwise_cons.2 (List.pairwise_cons.1 h)

/-- Adds an entry, or replaces the one of the same key. -/
def insert (t : Table κ ν) (k : κ) (v : ν) : Table κ ν :=
  ⟨insertIn k v t.entries, sorted_insertIn k v t.sorted⟩

/-- Later entries replace earlier ones of the same key. -/
def ofList (l : List (κ × ν)) : Table κ ν :=
  l.foldl (fun t e => t.insert e.1 e.2) empty

/-! ## Erasing -/

/-- Takes a key from sorted entries. -/
def eraseIn (k : κ) : List (κ × ν) → List (κ × ν)
  | [] => []
  | (j, u) :: rest =>
    if Before k j then (j, u) :: rest
    else if Before j k then (j, u) :: eraseIn k rest
    else rest

theorem sublist_eraseIn (k : κ) (l : List (κ × ν)) : (eraseIn k l).Sublist l := by
  fun_induction eraseIn k l with
  | case1 => exact .slnil
  | case2 => exact .refl _
  | case3 _ _ _ _ _ ih => exact ih.cons_cons _
  | case4 => exact List.sublist_cons_self ..

/-- Takes a key from the table. -/
def erase (t : Table κ ν) (k : κ) : Table κ ν :=
  ⟨eraseIn k t.entries, t.sorted.sublist (sublist_eraseIn k _)⟩

/-! ## What a look-up finds -/

/-- A key that comes before all others is not among them. -/
theorem findIn_eq_none {k : κ} {l : List (κ × ν)} (h : ∀ e ∈ l, Before k e.1) :
    findIn k l = none := by
  cases l with
  | nil => rfl
  | cons e rest => rw [findIn, if_pos (h e (by simp))]

@[simp] theorem find?_empty (k : κ) : (empty : Table κ ν).find? k = none := rfl

theorem find?_insert_self (t : Table κ ν) (k : κ) (v : ν) : (t.insert k v).find? k = some v := by
  simp only [find?, insert]
  fun_induction insertIn k v t.entries with
  | case1 => simp [findIn, KeyOrder.irrefl]
  | case2 => simp [findIn, KeyOrder.irrefl]
  | case3 j u rest h1 h2 ih => rw [findIn, if_neg h1, if_pos h2, ih]
  | case4 => simp [findIn, KeyOrder.irrefl]

theorem find?_insert_of_ne (t : Table κ ν) {j k : κ} (v : ν) (h : j ≠ k) :
    (t.insert k v).find? j = t.find? j := by
  obtain ⟨l, hl⟩ := t
  simp only [find?, insert]
  fun_induction insertIn k v l with
  | case1 =>
    by_cases hb : Before j k
    · simp [findIn, hb]
    · simp only [findIn, hb, if_false]
      exact if_pos (Decidable.not_not.1 fun hc => h (KeyOrder.connected hb hc))
  | case2 i u rest hki =>
    rw [findIn]
    by_cases hb : Before j k
    · rw [if_pos hb, findIn, if_pos (KeyOrder.trans hb hki)]
    · rw [if_neg hb, if_pos (Decidable.not_not.1 fun hc => h (KeyOrder.connected hb hc))]
  | case3 i u rest h1 h2 ih =>
    rw [findIn, ih (List.pairwise_cons.1 hl).2, findIn]
  | case4 i u rest h1 h2 =>
    obtain rfl := KeyOrder.connected h1 h2
    by_cases hb : Before j k
    · rw [findIn, findIn, if_pos hb, if_pos hb]
    · have hc : Before k j := Decidable.not_not.1 fun hc => h (KeyOrder.connected hb hc)
      rw [findIn, findIn, if_neg hb, if_pos hc, if_neg hb, if_pos hc]

theorem find?_erase_self (t : Table κ ν) (k : κ) : (t.erase k).find? k = none := by
  obtain ⟨l, hl⟩ := t
  simp only [find?, erase]
  fun_induction eraseIn k l with
  | case1 => rfl
  | case2 j u rest h => rw [findIn, if_pos h]
  | case3 j u rest h1 h2 ih => rw [findIn, if_neg h1, if_pos h2, ih (List.pairwise_cons.1 hl).2]
  | case4 j u rest h1 h2 =>
    obtain rfl := KeyOrder.connected h1 h2
    exact findIn_eq_none (List.pairwise_cons.1 hl).1

theorem find?_erase_of_ne (t : Table κ ν) {j k : κ} (h : j ≠ k) :
    (t.erase k).find? j = t.find? j := by
  obtain ⟨l, hl⟩ := t
  simp only [find?, erase]
  fun_induction eraseIn k l with
  | case1 => rfl
  | case2 => rfl
  | case3 i u rest h1 h2 ih => rw [findIn, ih (List.pairwise_cons.1 hl).2, findIn]
  | case4 i u rest h1 h2 =>
    obtain rfl := KeyOrder.connected h1 h2
    rw [findIn]
    by_cases hb : Before j k
    · rw [if_pos hb,
        findIn_eq_none fun e he => KeyOrder.trans hb ((List.pairwise_cons.1 hl).1 e he)]
    · rw [if_neg hb, if_pos (Decidable.not_not.1 fun hc => h (KeyOrder.connected hb hc))]

private theorem findIn_cons_self {k : κ} {v : ν} {l : List (κ × ν)} :
    findIn k ((k, v) :: l) = some v := by
  simp [findIn, KeyOrder.irrefl]

private theorem entries_ext {l m : List (κ × ν)}
    (hl : l.Pairwise fun a b => Before a.1 b.1) (hm : m.Pairwise fun a b => Before a.1 b.1)
    (h : ∀ k, findIn k l = findIn k m) : l = m := by
  induction l generalizing m with
  | nil =>
    cases m with
    | nil => rfl
    | cons e m => have := h e.1; rw [findIn_cons_self] at this; cases this
  | cons d l ih =>
    cases m with
    | nil => have := h d.1; rw [findIn_cons_self] at this; cases this
    | cons e m =>
      obtain ⟨i, u⟩ := d
      obtain ⟨j, v⟩ := e
      have hij : i = j := by
        refine KeyOrder.connected (fun hb => ?_) fun hb => ?_
        · have := h i; rw [findIn_cons_self, findIn, if_pos hb] at this; cases this
        · have := h j; rw [findIn_cons_self, findIn, if_pos hb] at this; cases this
      subst hij
      have huv : u = v := by
        have := h i; rwa [findIn_cons_self, findIn_cons_self, Option.some.injEq] at this
      subst huv
      rw [List.pairwise_cons] at hl hm
      refine congrArg _ (ih hl.2 hm.2 fun k => ?_)
      have hk := h k
      rw [findIn, findIn] at hk
      by_cases hb : Before i k
      · have hn : ¬ Before k i := fun hc => KeyOrder.irrefl i (KeyOrder.trans hb hc)
        rwa [if_neg hn, if_pos hb, if_neg hn, if_pos hb] at hk
      · have all {n : List (κ × ν)} (hn : ∀ e ∈ n, Before i e.1) : ∀ e ∈ n, Before k e.1 :=
          fun e he =>
            if hc : Before k i then KeyOrder.trans hc (hn e he)
            else KeyOrder.connected hc hb ▸ hn e he
        rw [findIn_eq_none (all hl.1), findIn_eq_none (all hm.1)]

/-- A table is determined by the values of its keys. -/
theorem ext_find? {t u : Table κ ν} (h : ∀ k, t.find? k = u.find? k) : t = u := by
  obtain ⟨l, hl⟩ := t
  obtain ⟨m, hm⟩ := u
  obtain rfl := entries_ext hl hm h
  rfl

end Table

end StableSupply
