import StableSupply.Ledger.Access
import StableSupply.Time
import StableSupply.Adjustment

/-! # Decision sources

Whatever decides whether and how far to adjust the supply. A source has a state of its own, and what
it answers may depend on that state and on the moment at which it is asked. -/

namespace StableSupply

/-- Why a source does not answer. -/
inductive SourceError
  | unavailable (reason : String)
  | invalidInput (reason : String)
  /-- An intermediate amount does not fit 512 bits. -/
  | overflow
  deriving DecidableEq, Repr

def SourceError.message : SourceError → String
  | unavailable reason => "decision source unavailable: " ++ reason
  | invalidInput reason => "invalid input: " ++ reason
  | overflow => "arithmetic operation overflow"

/-- A source's verdict on a decision. -/
inductive Feasibility
  | feasible
  | infeasible (reason : String)
  deriving DecidableEq, Repr

/-- What the scheduler of updates is doing. -/
inductive Phase
  | idle
  | checking
  | stopped
  deriving DecidableEq, Repr

def Phase.text : Phase → String
  | idle => "Idle"
  | checking => "Checking"
  | stopped => "Stopped"

/-- When a source is asked, and what the scheduler is doing then. -/
structure Moment where
  now : Instant
  phase : Phase

/-- A share of one, as a ratio. -/
structure Share where
  num : Nat
  den : Nat
  deriving DecidableEq, Repr

/-- What a manager asks of whatever decides for it. -/
class DecisionSource (τ : Type) where
  start : Act τ SourceError Unit
  stop : τ → τ
  /-- The time of the newest data that the source says it holds. Asked twice it may give two
  answers. -/
  lastUpdate : τ → Option Instant × τ
  /-- For how many milliseconds a query begun now keeps its caller waiting. -/
  latency : τ → Nat
  /-- The answer of a query whose wait is over. -/
  query : Moment → Act τ SourceError Unit
  decide : Moment → (supply price : Word) → (volatility : UInt8) → Act τ SourceError Decision
  feasible : Moment → Decision → (treasury minimum : Word) → τ → Feasibility × τ
  targetValue : τ → Word
  currentValue : τ → Word
  setCurrentValue : Moment → Word → τ → τ
  /-- The share of volatility that the last decision is estimated to absorb. -/
  damping : τ → Share
  token : τ → StableToken

end StableSupply
