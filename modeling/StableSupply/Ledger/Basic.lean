import StableSupply.Ledger.State

/-! # The ledger

A state with a stack of checkpoints and the set of accounts whose balance was set since the last
commit. A checkpoint is named by its place in the stack; reverting to one, or discarding it, drops
it and every later one. -/

namespace StableSupply

/-- Why a request to the ledger fails. -/
inductive LedgerError
  | unavailable (reason : String)
  | insufficientBalance (account : Address) (balance amount : Word)
  | balanceOverflow (account : Address)
  | invalidCheckpoint (id : Nat)
  deriving DecidableEq

def LedgerError.message : LedgerError → String
  | unavailable reason => "state unavailable: " ++ reason
  | insufficientBalance account balance amount =>
    "insufficient balance in " ++ account.text ++ ": have " ++ toString balance.toNat ++
      ", need " ++ toString amount.toNat
  | balanceOverflow account => "balance overflow for " ++ account.text
  | invalidCheckpoint id => "invalid snapshot id " ++ toString id

/-- Why a balance changes. -/
inductive BalanceChange
  | genesis
  | adjustment
  deriving DecidableEq, Repr

namespace BalanceChange

/-- The name of the reason. -/
def text : BalanceChange → String
  | genesis => "genesis_init"
  | adjustment => "stablecoin_adjustment"

/-- The code that stands for the reason. -/
def code : BalanceChange → Nat
  | genesis => 0
  | adjustment => 1

end BalanceChange

/-- A state, the checkpoints to which it can go back, and the accounts marked as changed. -/
structure Ledger where
  state : State
  /-- Oldest first. -/
  checkpoints : List State
  dirty : Table Address Unit
  deriving DecidableEq

namespace Ledger

/-- A ledger on which nothing was recorded. -/
def empty : Ledger := ⟨.empty, [], .empty⟩

/-! ## Balances and slots -/

/-- Records a balance and marks its account. -/
def setBalance (l : Ledger) (account : Address) (amount : Word) : Ledger :=
  { l with state := l.state.setBalance account amount, dirty := l.dirty.insert account () }

/-- Adds to a balance, unless the sum does not fit into a word. -/
def credit (l : Ledger) (account : Address) (amount : Word) : Except LedgerError Ledger :=
  match (l.state.balance account).add? amount with
  | some total => .ok (l.setBalance account total)
  | none => .error (.balanceOverflow account)

/-- Takes from a balance, unless it holds less. -/
def debit (l : Ledger) (account : Address) (amount : Word) : Except LedgerError Ledger :=
  let balance := l.state.balance account
  match balance.sub? amount with
  | some rest => .ok (l.setBalance account rest)
  | none => .error (.insufficientBalance account balance amount)

/-- Writes a slot. No account is marked for it. -/
def setSlot (l : Ledger) (owner : Address) (key : Hash) (word : Word) : Ledger :=
  { l with state := l.state.setSlot owner key word }

/-! ## Checkpoints -/

/-- Removes the entry at a position and puts the last one in its place. -/
def swapRemove {α : Type} (l : List α) (i : Nat) : List α :=
  match l.getLast? with
  | some last => (l.set i last).dropLast
  | none => []

/-- Saves the state; the new checkpoint's name comes with the ledger. -/
def checkpoint (l : Ledger) : Nat × Ledger :=
  (l.checkpoints.length, { l with checkpoints := l.checkpoints ++ [l.state] })

/-- Puts a saved state back. Every account recorded in it counts as changed. -/
def restore (l : Ledger) (saved : State) : Ledger :=
  { l with
    state := saved
    dirty := saved.balances.keys.foldl (fun dirty account => dirty.insert account ()) l.dirty }

/-- Puts the state back that was saved under the name. The checkpoint is removed from the stack
before the ones after it are dropped. -/
def revert (l : Ledger) (id : Nat) : Except LedgerError Ledger :=
  match l.checkpoints[id]? with
  | some saved =>
    .ok { l.restore saved with checkpoints := (swapRemove l.checkpoints id).take id }
  | none => .error (.invalidCheckpoint id)

/-- Forgets a checkpoint and those taken after it. -/
def discard (l : Ledger) (id : Nat) : Ledger :=
  { l with checkpoints := l.checkpoints.take id }

/-! ## Committing -/

/-- Takes the marks off all accounts. -/
def clearDirty (l : Ledger) : Ledger := { l with dirty := .empty }

/-- Takes the marks off all accounts and forgets the checkpoints. The state stays. -/
def commit (l : Ledger) : Ledger := { l.clearDirty with checkpoints := [] }

end Ledger

end StableSupply
