import StableSupply.Ledger.Basic

/-! # Access to a ledger that may refuse

The parts of the program above the ledger reach it through requests. A gate decides for each
request, in the order they are made, whether it is served or refused; a refused request has no
effect. Checkpoints are taken and discarded without asking.

Programs are actions: what an action did before it failed stays done. -/

namespace StableSupply

/-- A computation on a state that may fail; the state it reached survives its failure. -/
abbrev Act (S ε α : Type) := ExceptT ε (StateM S) α

namespace Act

variable {S P ε δ α : Type}

/-- Runs an action from a state: its result and the state it leaves. -/
def apply (act : Act S ε α) (s : S) : Except ε α × S := act.run.run s

/-- An action on a part of a larger state. -/
def on (part : S → P) (put : P → S → S) (act : Act P ε α) : Act S ε α :=
  ExceptT.mk fun s =>
    let (result, p) := act.apply (part s)
    (result, put p s)

/-- An action whose failure is reported in other words. -/
def failingWith (convert : δ → ε) (act : Act S δ α) : Act S ε α :=
  ExceptT.mk fun s =>
    let (result, s) := act.apply s
    (result.mapError convert, s)

/-- The result of an action as a value, failure included. -/
def attempt (act : Act S δ α) : Act S ε (Except δ α) :=
  ExceptT.mk fun s =>
    let (result, s) := act.apply s
    (.ok result, s)

end Act

/-- What may be asked of a ledger. -/
inductive Request
  /-- To be handed the current ledger. -/
  | attach
  | read (owner : Address) (key : Hash)
  | write (owner : Address) (key : Hash) (word : Word)
  | balance (account : Address)
  | credit (account : Address) (amount : Word) (reason : BalanceChange)
  | debit (account : Address) (amount : Word) (reason : BalanceChange)
  | revert (id : Nat)

/-- What decides about requests: the reason of a refusal, or none, and its own next state. -/
class Gate (σ : Type) where
  check : Request → σ → Option String × σ

/-- The gate that lets every request pass. -/
structure OpenGate where

instance : Gate OpenGate := ⟨fun _ g => (none, g)⟩

/-- A ledger and the gate that requests to it have to pass. -/
structure Access (σ : Type) where
  ledger : Ledger
  gate : σ

namespace Access

variable {σ ε : Type}

/-- Saves the state and gives the new checkpoint's name. -/
def checkpoint : Act (Access σ) ε Nat :=
  ExceptT.mk fun s =>
    let (id, ledger) := s.ledger.checkpoint
    (.ok id, { s with ledger })

/-- Forgets a checkpoint and those taken after it. The gate is not asked. -/
def discard (id : Nat) : Act (Access σ) ε Unit :=
  ExceptT.mk fun s => (.ok (), { s with ledger := s.ledger.discard id })

variable [Gate σ]

/-- Puts a request to the gate, which may refuse it and is changed by it either way. -/
def ask (request : Request) : Act (Access σ) LedgerError Unit :=
  ExceptT.mk fun s =>
    match Gate.check request s.gate with
    | (none, gate) => (.ok (), { s with gate })
    | (some reason, gate) => (.error (.unavailable reason), { s with gate })

/-- Replaces the ledger by what a step on it gives, if it gives one. -/
def update (step : Ledger → Except LedgerError Ledger) : Act (Access σ) LedgerError Unit :=
  ExceptT.mk fun s =>
    match step s.ledger with
    | .ok ledger => (.ok (), { s with ledger })
    | .error e => (.error e, s)

/-- Asks for the ledger to be handed out. -/
def attach : Act (Access σ) LedgerError Unit := ask .attach

/-- Reads a slot. -/
def read (owner : Address) (key : Hash) : Act (Access σ) LedgerError Word := do
  ask (.read owner key)
  return (← get).ledger.state.slot owner key

/-- Writes a slot. -/
def write (owner : Address) (key : Hash) (word : Word) : Act (Access σ) LedgerError Unit := do
  ask (.write owner key word)
  update fun l => .ok (l.setSlot owner key word)

/-- Reads a balance. -/
def balance (account : Address) : Act (Access σ) LedgerError Word := do
  ask (.balance account)
  return (← get).ledger.state.balance account

/-- Adds to a balance. -/
def credit (account : Address) (amount : Word) (reason : BalanceChange) :
    Act (Access σ) LedgerError Unit := do
  ask (.credit account amount reason)
  update (·.credit account amount)

/-- Takes from a balance. -/
def debit (account : Address) (amount : Word) (reason : BalanceChange) :
    Act (Access σ) LedgerError Unit := do
  ask (.debit account amount reason)
  update (·.debit account amount)

/-- Goes back to a checkpoint. -/
def revert (id : Nat) : Act (Access σ) LedgerError Unit := do
  ask (.revert id)
  update (·.revert id)

end Access

end StableSupply
