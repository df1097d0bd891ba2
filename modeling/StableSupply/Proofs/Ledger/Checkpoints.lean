import StableSupply.Ledger.Basic

/-! # Checkpoints

Reverting to an outstanding checkpoint gives the state that was saved there and keeps the
checkpoints before it as they were (`Ledger.revert_of_getElem?`); any other name is refused
(`Ledger.revert_of_length_le`). -/

namespace StableSupply.Ledger

/-- Removing an entry moves none of those before it. -/
theorem take_swapRemove {α : Type} {l : List α} {i : Nat} (h : i < l.length) :
    (swapRemove l i).take i = l.take i := by
  unfold swapRemove
  split
  · next last _ =>
    have hlength : i ≤ (l.set i last).length - 1 := by
      rw [List.length_set]
      omega
    rw [List.dropLast_eq_take, List.take_take, Nat.min_eq_left hlength,
      List.take_set_of_le (Nat.le_refl i)]
  · next hnone =>
    rw [List.getLast?_eq_none_iff] at hnone
    rw [hnone]

/-- Going back to a checkpoint drops it, together with those taken after it. -/
theorem revert_of_getElem? {l : Ledger} {id : Nat} {saved : State}
    (h : l.checkpoints[id]? = some saved) :
    l.revert id = .ok { l.restore saved with checkpoints := l.checkpoints.take id } := by
  obtain ⟨hlt, -⟩ := List.getElem?_eq_some_iff.1 h
  rw [revert, h]
  simp only [take_swapRemove hlt]

/-- There are no checkpoints but those on the stack. -/
theorem revert_of_length_le {l : Ledger} {id : Nat} (h : l.checkpoints.length ≤ id) :
    l.revert id = .error (.invalidCheckpoint id) := by
  rw [revert, List.getElem?_eq_none h]

/-- A checkpoint that another ledger has as well reverts to the same there. -/
theorem revert_saved {l l' : Ledger} (h : l'.checkpoints = l.checkpoints) {id : Nat}
    {saved : State} (hid : l.checkpoints[id]? = some saved) :
    ∃ r, l'.revert id = .ok r ∧ r.state = saved ∧ r.checkpoints = l.checkpoints.take id := by
  rw [← h] at hid ⊢
  exact ⟨_, revert_of_getElem? hid, rfl, rfl⟩

/-- The same state above the same checkpoints. -/
structure Agrees (l l' : Ledger) : Prop where
  state : l'.state = l.state
  checkpoints : l'.checkpoints = l.checkpoints

theorem Agrees.rfl {l : Ledger} : l.Agrees l := ⟨.refl _, .refl _⟩

end StableSupply.Ledger
