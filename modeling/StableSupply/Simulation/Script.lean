import StableSupply.Source.PegBand

/-! # Scripted sources

A decision source that answers what a script says, for rehearsing a manager against decisions,
delays and failures of every kind. It remembers what it was last asked. -/

namespace StableSupply.Simulation

/-- What a scripted source was asked, and what the scheduler was doing then. -/
inductive Asked
  | decide (supply price : Word) (volatility : UInt8) (phase : Phase)
  | feasible (treasury minimum : Word) (phase : Phase)
  deriving DecidableEq

/-- What the source answers, and what it was asked. -/
structure Script where
  decision : Decision
  decideError : Option SourceError
  /-- The reason to decline every decision, if there is one. -/
  infeasible : Option String
  /-- For how long a query keeps its caller waiting, in milliseconds. -/
  delay : Nat
  queryError : Option SourceError
  startError : Option SourceError
  target : Word
  current : Word
  lastUpdate : Option Instant
  lastAsked : Option Asked
  deriving DecidableEq

/-- New values for the parts of a script that have one. -/
structure ScriptChange where
  decision : Option Decision := none
  decideError : Option (Option SourceError) := none
  infeasible : Option (Option String) := none
  delay : Option Nat := none
  queryError : Option (Option SourceError) := none
  startError : Option (Option SourceError) := none
  target : Option Word := none

namespace Script

/-- Decides to leave the supply as it is, and has seen no data. -/
def initial : Script where
  decision := .hold .zero 0 0
  decideError := none
  infeasible := none
  delay := 0
  queryError := none
  startError := none
  target := units 1
  current := units 1
  lastUpdate := none
  lastAsked := none

/-- Puts the new values into the script. -/
def change (s : Script) (c : ScriptChange) : Script :=
  { s with
    decision := c.decision.getD s.decision
    decideError := c.decideError.getD s.decideError
    infeasible := c.infeasible.getD s.infeasible
    delay := c.delay.getD s.delay
    queryError := c.queryError.getD s.queryError
    startError := c.startError.getD s.startError
    target := c.target.getD s.target }

/-- Fails with a scripted error, if there is one. -/
def failWith (error : Option SourceError) : Act Script SourceError Unit :=
  match error with
  | some e => throw e
  | none => pure ()

instance : DecisionSource Script where
  start := do failWith (← get).startError
  stop s := s
  lastUpdate s := (s.lastUpdate, s)
  latency := Script.delay
  query moment := do
    failWith (← get).queryError
    modify fun s => { s with lastUpdate := some moment.now }
  decide moment supply price volatility := do
    modify fun s => { s with lastAsked := some (.decide supply price volatility moment.phase) }
    failWith (← get).decideError
    return (← get).decision
  feasible moment _ treasury minimum s :=
    (s.infeasible.elim .feasible .infeasible,
      { s with lastAsked := some (.feasible treasury minimum moment.phase) })
  targetValue := Script.target
  currentValue := Script.current
  setCurrentValue moment value s := { s with current := value, lastUpdate := some moment.now }
  damping _ := ⟨1, 4⟩
  token _ := .default

end Script

/-! ## Either kind of source -/

/-- The built-in controller, or a script in its place. -/
inductive AnySource
  | peg (state : PegBand.State)
  | scripted (script : Script)

namespace AnySource

/-- Runs the action for the kind of source that there is. -/
def act {ε α : Type} (onPeg : Act PegBand.State ε α) (onScript : Act Script ε α) :
    Act AnySource ε α :=
  ExceptT.mk fun
    | .peg s => let (result, s) := onPeg.apply s; (result, .peg s)
    | .scripted s => let (result, s) := onScript.apply s; (result, .scripted s)

/-- Asks whichever source there is. -/
def view {α : Type} (peg : PegBand.State → α) (script : Script → α) : AnySource → α
  | .peg s => peg s
  | .scripted s => script s

open DecisionSource in
instance : DecisionSource AnySource where
  start := act start start
  stop := view (.peg ∘ stop) (.scripted ∘ stop)
  lastUpdate :=
    view
      (fun s => let (answer, s) := lastUpdate s; (answer, .peg s))
      (fun s => let (answer, s) := lastUpdate s; (answer, .scripted s))
  latency := view latency latency
  query moment := act (query moment) (query moment)
  decide moment supply price volatility :=
    act (decide moment supply price volatility) (decide moment supply price volatility)
  feasible moment d treasury minimum :=
    view
      (fun s => let (answer, s) := feasible moment d treasury minimum s; (answer, .peg s))
      (fun s => let (answer, s) := feasible moment d treasury minimum s; (answer, .scripted s))
  targetValue := view targetValue targetValue
  currentValue := view currentValue currentValue
  setCurrentValue moment value :=
    view (.peg ∘ setCurrentValue moment value) (.scripted ∘ setCurrentValue moment value)
  damping := view damping damping
  token := view token token

end AnySource

end StableSupply.Simulation
