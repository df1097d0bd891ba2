import StableSupply.Keccak
import StableSupply.Proofs.Slot.Names

/-! # The slots of a cycle

A cycle writes the source's values to the ledger and then reads the state that it may adjust. What it
reads is not what it wrote if the digest keeps seven names apart (`Slot.Apart`), and Keccak-256 does
(`Slot.apart_keccak`). -/

namespace StableSupply.Slot

/-- The slots that show what the source held at the last update. -/
def observed : List Slot := [.targetValue, .currentValue, .lastUpdateTime]

theorem inUse_of_mem_observed {token : StableToken} {slot : Slot} (h : slot ∈ observed) :
    slot.InUse token := by
  simp only [observed, List.mem_cons, List.not_mem_nil, or_false] at h
  rcases h with rfl | rfl | rfl <;> trivial

/-- No other slot is touched by writing one of these. -/
theorem ne_of_mem_observed {slot other : Slot} (h : slot ∈ observed) (hother : other ∉ observed) :
    other ≠ slot := fun heq => hother (heq ▸ h)

theorem key_notMem_observed [Digest] {token : StableToken} (hsep : Digest.Separates token)
    {slot : Slot} (huse : slot.InUse token) (hslot : slot ∉ observed) :
    slot.key ∉ observed.map key := by
  intro hmem
  obtain ⟨other, hother, hkey⟩ := List.mem_map.1 hmem
  exact ne_of_mem_observed hother hslot
    (hsep.key_injective (inUse_of_mem_observed hother) huse hkey).symm

/-- The slots that are read once the source's values have been written. -/
def consulted : List Slot := [.currentSupply, .minimumSupply, .historyCount, .treasuryAddress]

section Apart

variable [Digest]

/-- The slots for the source's values are none of those that are read after them, and the counter of
the history is not the supply. -/
def Apart : Prop := ((observed ++ consulted).map key).Nodup

theorem Apart.key_notMem (h : Apart) {slot : Slot} (hslot : slot ∈ consulted) :
    slot.key ∉ observed.map key := by
  rw [Apart, List.map_append, List.nodup_append] at h
  intro hmem
  exact h.2.2 _ hmem _ (List.mem_map_of_mem hslot) rfl

theorem Apart.key_ne (h : Apart) : historyCount.key ≠ currentSupply.key := by
  rw [Apart, List.map_append, List.nodup_append] at h
  have hnodup := h.2.1
  simp only [consulted, List.map_cons, List.nodup_cons, List.mem_cons, not_or] at hnodup
  exact Ne.symm hnodup.1.2.1

end Apart

/-! ## Keccak-256 -/

/-- The first two bytes of the key. -/
def brief [Digest] (slot : Slot) : Nat := slot.key.toNat / 2 ^ 240

theorem apart_of_brief [Digest] (h : ((observed ++ consulted).map brief).Nodup) : Apart := by
  refine List.Nodup.of_map (fun key => key.toNat / 2 ^ 240) ?_
  rwa [List.map_map]

-- Each digest is evaluated by itself: the kernel then holds the terms of one permutation at a time.

theorem brief_observed :
    observed.map (@brief Keccak.digest) = [0x8de5, 0x0f6f, 0x86f6] := by
  simp only [observed, List.map_cons, List.map_nil, List.cons.injEq, and_true]
  refine ⟨?_, ?_, ?_⟩
  all_goals decide +kernel

theorem brief_consulted :
    consulted.map (@brief Keccak.digest) = [0xd3be, 0xc916, 0x5650, 0x8dc4] := by
  simp only [consulted, List.map_cons, List.map_nil, List.cons.injEq, and_true]
  refine ⟨?_, ?_, ?_, ?_⟩
  all_goals decide +kernel

theorem apart_keccak : @Apart Keccak.digest := by
  refine @apart_of_brief Keccak.digest ?_
  rw [List.map_append, brief_observed, brief_consulted]
  decide

end StableSupply.Slot
