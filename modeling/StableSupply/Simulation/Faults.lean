import StableSupply.Ledger.Access

/-! # Faults

A gate that refuses the requests it is told to refuse: reads and writes of listed slots, whole kinds
of requests, and every write after a number of them. -/

namespace StableSupply.Simulation

/-- The requests that are to be refused. -/
structure Faults where
  reads : List (Address × Hash) := []
  writes : List (Address × Hash) := []
  balance : Bool := false
  credit : Bool := false
  debit : Bool := false
  revert : Bool := false
  /-- How many more writes are served, if they are limited. -/
  writeBudget : Option Nat := none

/-- Faults, and the way to the ledger that they stand in. -/
structure FaultGate where
  faults : Faults
  /-- No ledger is handed out. -/
  down : Bool
  /-- Requests pass the faults by. -/
  direct : Bool

namespace FaultGate

/-- Refuses nothing. -/
def initial : FaultGate := ⟨{}, false, false⟩

/-- Refuses a request of a kind, if it is to be refused. -/
def refusal (kind : String) (refused : Bool) : Option String :=
  if refused then some (kind ++ " refused") else none

/-- A write of a listed slot is refused without using up the budget. -/
def checkWrite (owner : Address) (key : Hash) (g : FaultGate) : Option String × FaultGate :=
  if (owner, key) ∈ g.faults.writes then (refusal "set" true, g)
  else
    match g.faults.writeBudget with
    | none => (none, g)
    | some 0 => (refusal "set" true, g)
    | some (n + 1) => (none, { g with faults := { g.faults with writeBudget := some n } })

instance : Gate FaultGate where
  check request g :=
    match request with
    | .attach => (refusal "state" g.down, g)
    | request =>
      if g.direct then (none, g)
      else
        match request with
        | .attach => (none, g)
        | .read owner key => (refusal "get" (g.faults.reads.contains (owner, key)), g)
        | .write owner key _ => checkWrite owner key g
        | .balance _ => (refusal "balance" g.faults.balance, g)
        | .credit .. => (refusal "add" g.faults.credit, g)
        | .debit .. => (refusal "sub" g.faults.debit, g)
        | .revert _ => (refusal "revert" g.faults.revert, g)

end FaultGate

end StableSupply.Simulation
