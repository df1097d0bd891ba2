import Mathlib.Algebra.Order.Ring.Nat
import StableSupply.Proofs.Ledger.Writes
import StableSupply.Proofs.Word

/-! # The sum of all balances

Setting a balance changes the sum by the difference to the balance before (`State.total_setBalance`),
and writing slots does not change it. -/

namespace StableSupply

namespace Table

open KeyOrder

variable {κ ν : Type} [KeyOrder κ]

theorem sum_insertIn (amount : ν → Nat) (k : κ) (v : ν) (l : List (κ × ν)) :
    ((insertIn k v l).map fun e => amount e.2).sum + ((findIn k l).map amount).getD 0 =
      (l.map fun e => amount e.2).sum + amount v := by
  fun_induction insertIn k v l with
  | case1 => simp [findIn]
  | case2 j u rest hbefore =>
    simp only [findIn, if_pos hbefore, List.map_cons, List.sum_cons, Option.map_none,
      Option.getD_none]
    omega
  | case3 j u rest hnot hbefore ih =>
    simp only [findIn, if_neg hnot, if_pos hbefore, List.map_cons, List.sum_cons]
    omega
  | case4 j u rest hnot hnot' =>
    simp only [findIn, if_neg hnot, if_neg hnot', List.map_cons, List.sum_cons, Option.map_some,
      Option.getD_some]
    omega

end Table

namespace State

/-- All balances together. -/
def total (s : State) : Nat := (s.balances.entries.map fun e => e.2.toNat).sum

/-- Recording a balance changes the total by as much as the balance. -/
theorem total_setBalance (s : State) (account : Address) (amount : Word) :
    (s.setBalance account amount).total + (s.balance account).toNat = s.total + amount.toNat := by
  have hsum := Table.sum_insertIn Word.toNat account amount s.balances.entries
  have hbalance : (s.balance account).toNat =
      ((Table.findIn account s.balances.entries).map Word.toNat).getD 0 := by
    rw [balance, Table.find?]
    cases Table.findIn account s.balances.entries <;> rfl
  rw [hbalance]
  exact hsum

/-- Slots do not count for the total. -/
theorem total_setSlots (s : State) (ws : List SlotWrite) : (s.setSlots ws).total = s.total := by
  induction ws generalizing s with
  | nil => rfl
  | cons w ws ih => rw [setSlots_cons, ih, total, balances_setSlot, total]

end State

namespace Ledger

/-! ## Credits -/

theorem credit_of_lt {l : Ledger} {account : Address} {amount : Word}
    (h : (l.state.balance account).toNat + amount.toNat < 2 ^ 256) :
    l.credit account amount = .ok (l.setBalance account ⟨_, h⟩) := by
  have hadd : (l.state.balance account).add? amount = some ⟨_, h⟩ := Word.add?_eq_some.2 rfl
  rw [credit, hadd]

theorem credit_of_le {l : Ledger} {account : Address} {amount : Word}
    (h : 2 ^ 256 ≤ (l.state.balance account).toNat + amount.toNat) :
    l.credit account amount = .error (.balanceOverflow account) := by
  rw [credit, Word.add?_eq_none.2 h]

end Ledger

end StableSupply
