import StableSupply.Source.Basic

/-! # The peg band

A proportional controller with a dead band. The deviation is `(current - target) / target` in basis
points. Outside the band the supply moves by the deviation, but by no more than the greatest step,
and by less the more volatile the market is: a volatility of 100 halves the step. A value above the
target expands the supply and one below contracts it. The counterpart is the change of supply at the
target value, converted to value tokens at the reference price. -/

namespace StableSupply

/-- A controller that keeps the value of the token in a band around its target. -/
structure PegBand where
  /-- Deviations up to this one cause no adjustment. -/
  deadbandBps : UInt64
  /-- The greatest step, as a share of the supply. -/
  maxStepBps : UInt64
  token : StableToken
  deriving DecidableEq

namespace PegBand

def default : PegBand := ⟨50, 500, .default⟩

/-- The controller with what it has observed. -/
structure State where
  band : PegBand
  target : Word
  current : Word
  lastUpdate : Option Instant
  /-- Half the volatility of the last adjustment, in percent: the damping in 200ths. -/
  damping : Nat
  running : Bool

/-- The value is on target, and no data has been seen. -/
def State.initial (band : PegBand) : State :=
  ⟨band, band.token.initialValue, band.token.initialValue, none, 0, false⟩

/-! ## Arithmetic -/

/-- The size of the deviation in basis points, rounded down, at most the greatest 64-bit integer. -/
def deviationSize (current target : Word) : Nat :=
  let distance := (current.toNat - target.toNat) + (target.toNat - current.toNat)
  min (distance * 10000 / target.toNat) (2 ^ 63 - 1)

/-- By how many basis points the value is above its target. -/
def deviation (current target : Word) : Int :=
  if target ≤ current then deviationSize current target else -deviationSize current target

/-- The step in basis points for a deviation of this size. The product is a 64-bit number. -/
def step (maxStepBps deviationSize volatility : Nat) : Nat :=
  min deviationSize maxStepBps * (200 - min volatility 100) % 2 ^ 64 / 200

/-- An amount of 512 bits, or the report that there is none. -/
def wide (n : Nat) : Except SourceError Wide :=
  match Wide.ofNat? n with
  | some w => .ok w
  | none => .error .overflow

/-! ## Deciding -/

/-- The adjustment for a deviation outside the dead band. -/
def adjust (s : State) (timestamp : UInt64) (supply price : Word) (volatility : Nat) :
    Except SourceError Decision := do
  let bps := step s.band.maxStepBps.toNat (deviationSize s.current s.target) volatility
  let product ← wide (supply.toNat * bps)
  let supplyDelta ← wide (product.toNat / 10000)
  let worth ← wide (supplyDelta.toNat * s.target.toNat)
  let counterpart ← wide (worth.toNat / price.toNat)
  let expands := 0 < deviation s.current s.target
  let resultingSupply ←
    wide (if expands then supply.toNat + supplyDelta.toNat else supply.toNat - supplyDelta.toNat)
  return { kind := if expands then .expansion else .contraction
           supplyDelta, counterpart
           deviationBps := .ofInt (deviation s.current s.target)
           resultingSupply, timestamp }

/-- Decides on the values that the source holds. -/
def decide (moment : Moment) (supply price : Word) (volatility : UInt8) :
    Act State SourceError Decision := do
  let s ← get
  if s.target.IsZero then throw (.invalidInput "target value is zero")
  if price.IsZero then throw (.invalidInput "reference price is zero")
  let timestamp := moment.now.unixSeconds
  if deviationSize s.current s.target ≤ s.band.deadbandBps.toNat then
    set { s with damping := 0 }
    return .hold supply (.ofInt (deviation s.current s.target)) timestamp
  else
    set { s with damping := min volatility.toNat 100 }
    adjust s timestamp supply price volatility.toNat

/-- An expansion has to be paid by the treasury, and a contraction must leave the least supply. -/
def feasible (d : Decision) (treasury minimum : Word) : Feasibility :=
  match d.kind with
  | .none => .feasible
  | .expansion =>
    if d.counterpart.toNat ≤ treasury.toNat then .feasible
    else .infeasible ("treasury balance " ++ toString treasury.toNat ++ " below required " ++
      toString d.counterpart.toNat)
  | .contraction =>
    if minimum.toNat ≤ d.resultingSupply.toNat then .feasible
    else .infeasible ("resulting supply " ++ toString d.resultingSupply.toNat ++
      " below minimum " ++ toString minimum.toNat)

/-! ## The controller as a source

Observations are pushed to it; a query only marks what it holds as fresh. -/

/-- Sets the target, which counts as data. -/
def setTarget (now : Instant) (value : Word) (s : State) : State :=
  { s with target := value, lastUpdate := some now }

/-- Marks the values at hand as fresh, unless the controller is not running. -/
def query (moment : Moment) : Act State SourceError Unit := do
  if (← get).running then modify fun s => { s with lastUpdate := some moment.now }
  else throw (.unavailable "peg band source is not running")

instance : DecisionSource State where
  start := modify fun s => { s with running := true }
  stop s := { s with running := false }
  lastUpdate s := (s.lastUpdate, s)
  latency _ := 0
  query := query
  decide := decide
  feasible _ d treasury minimum s := (feasible d treasury minimum, s)
  targetValue := State.target
  currentValue := State.current
  setCurrentValue moment value s := { s with current := value, lastUpdate := some moment.now }
  damping s := ⟨s.damping, 200⟩
  token s := s.band.token

end PegBand

end StableSupply
