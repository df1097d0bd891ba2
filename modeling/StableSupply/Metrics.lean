import StableSupply.Adjustment

/-! # Metrics

Counters are read off the list of what was counted, latest first. -/

namespace StableSupply

/-- How an attempt ended, as far as it is counted. -/
inductive Status
  | noChange
  | skipped
  | applied
  | failed
  deriving DecidableEq, Repr

namespace Status

def all : List Status := [noChange, skipped, applied, failed]

/-- The name of the status in counters. -/
def text : Status → String
  | noChange => "no_change"
  | skipped => "skipped"
  | applied => "applied"
  | failed => "failed"

end Status

/-- Under which status an outcome is counted. -/
def Outcome.status : Outcome → Status
  | noChange => .noChange
  | skipped _ => .skipped
  | applied _ => .applied

/-- What was counted and measured. -/
structure Metrics where
  adjustments : List (Kind × Status)
  cycles : List Status
  /-- How many cycles were timed. -/
  timed : Nat
  /-- The stable supply in whole tokens, as the last adjustment left it. -/
  supply : Nat

namespace Metrics

def empty : Metrics := ⟨[], [], 0, 0⟩

/-- Counts an attempt at an adjustment. -/
def countAdjustment (m : Metrics) (kind : Kind) (status : Status) : Metrics :=
  { m with adjustments := (kind, status) :: m.adjustments }

/-- Counts a cycle, and times it. -/
def countCycle (m : Metrics) (status : Status) : Metrics :=
  { m with cycles := status :: m.cycles, timed := m.timed + 1 }

/-- The gauge holds the low 128 bits of the number of whole tokens. -/
def setSupply (m : Metrics) (supply : Word) : Metrics :=
  { m with supply := supply.toNat / 10 ^ 18 % 2 ^ 128 }

/-- How many attempts of a kind ended with a status. -/
def adjustmentCount (m : Metrics) (kind : Kind) (status : Status) : Nat :=
  m.adjustments.count (kind, status)

/-- How many cycles ended with a status. -/
def cycleCount (m : Metrics) (status : Status) : Nat := m.cycles.count status

end Metrics

end StableSupply
