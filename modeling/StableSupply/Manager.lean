import StableSupply.Engine

/-! # The update manager

Owns what a cycle of updates needs: the decision source, the engine's desk, and the time of the data
that the last cycle used up. A cycle asks the source for a decision on the ledger's supply, price
and volatility, records the source's values, publishes them, and applies the decision.

Data is used up as soon as a decision was obtained from it, whatever becomes of the decision. A
stopped manager stays stopped. -/

namespace StableSupply

/-- Why a cycle or another operation fails. -/
inductive UpdateError
  | ledger (cause : LedgerError)
  | source (cause : SourceError)
  | sourceTimeout (limit : Duration)
  | adjustment (cause : AdjustmentError)
  | journal (cause : JournalError)
  | missingTreasury
  | corruptState (reason : String)
  | stopped
  deriving DecidableEq

def UpdateError.message : UpdateError → String
  | ledger cause => "ledger error: " ++ cause.message
  | source cause => "decision source error: " ++ cause.message
  | sourceTimeout limit => "decision source did not answer within " ++ limit.text
  | adjustment cause => "adjustment failed: " ++ cause.message
  | journal cause => "history journal error: " ++ cause.message
  | missingTreasury => "no treasury account configured"
  | corruptState reason => "corrupt UltraStable state: " ++ reason
  | stopped => "UltraStable manager has been stopped"

/-- What a cycle did. -/
structure UpdateReport where
  decision : Decision
  outcome : Outcome
  /-- Of the cycle, in Unix seconds. -/
  timestamp : UInt64
  deriving DecidableEq

/-- What a manager is configured with. -/
structure ManagerSettings where
  /-- Between two scheduled checks. -/
  interval : Duration
  /-- For the query that opens a scheduled check. -/
  oracleTimeout : Duration
  /-- The counterparty of adjustments, in place of the one that genesis recorded. -/
  treasury : Option Address
  eventCapacity : Nat
  deriving DecidableEq

def ManagerSettings.default : ManagerSettings :=
  ⟨.ofSecs 60, .ofSecs 30, none, Notifier.defaultCapacity⟩

/-- A manager between two operations. -/
structure Manager (σ τ : Type) where
  settings : ManagerSettings
  desk : Desk σ τ
  phase : Phase
  /-- The time of the source's data that the last cycle used up. -/
  lastApplied : Option Instant
  /-- Whether the scheduler was started. -/
  started : Bool

namespace Manager

variable {σ τ ε α : Type}

/-- An operation of a manager, or a part of one. -/
abbrev Program (σ τ α : Type) := Act (Manager σ τ) UpdateError α

/-- A manager that has done nothing yet. -/
def initial (settings : ManagerSettings) (access : Access σ) (source : τ) : Manager σ τ where
  settings
  desk := { access, source, notifier := .ofCapacity settings.eventCapacity, metrics := .empty }
  phase := .idle
  lastApplied := none
  started := false

/-! ## Parts of the manager -/

/-- Runs an action on the manager's desk. -/
def onDesk (act : Act (Desk σ τ) ε α) : Act (Manager σ τ) ε α :=
  act.on Manager.desk fun desk m => { m with desk }

/-- Runs a request to the ledger. -/
def onLedger (act : Act (Access σ) LedgerError α) : Program σ τ α :=
  onDesk (Engine.onLedger (act.failingWith .ledger))

/-- Runs an action of the decision source. -/
def onSource (act : Act τ SourceError α) : Program σ τ α :=
  onDesk ((act.failingWith .source).on Desk.source fun source desk => { desk with source })

/-- Adds to what has occurred. -/
def note (occurrence : Occurrence) : Act (Manager σ τ) ε Unit :=
  modify fun m => { m with desk := m.desk.note occurrence }

/-- The moment at which a source is asked now. -/
def moment (m : Manager σ τ) (now : Instant) : Moment := ⟨now, m.phase⟩

/-! ## Cycles -/

variable [Digest] [Gate σ] [DecisionSource τ]

/-- The supply, the price and the volatility that a decision is made from. No price means one. -/
def readMarket : Program σ τ (Word × Word × UInt8) := do
  let supply ← onLedger Slot.currentSupply.read
  let price ← onLedger Slot.valueTokenPrice.read
  let word ← onLedger Slot.marketVolatility.read
  match word.toUInt64 with
  | .ok volatility =>
    return (supply, if price.IsZero then units 1 else price, (min volatility 100).toUInt8)
  | .error e => throw (.corruptState ("market volatility: " ++ e.message))

/-- Asks the source for the time of its data. -/
def askLastUpdate : Act (Manager σ τ) ε (Option Instant) :=
  ExceptT.mk fun m =>
    let (answer, source) := DecisionSource.lastUpdate m.desk.source
    (.ok answer, { m with desk := { m.desk with source } })

/-- Asks the source for a decision, and uses up the data it held when the cycle began. -/
def obtainDecision (now : Instant) (observed : Option Instant) : Program σ τ Decision := do
  let (supply, price, volatility) ← readMarket
  let decision ← onSource (DecisionSource.decide ((← get).moment now) supply price volatility)
  note (.decision observed)
  if observed.isSome then modify fun m => { m with lastApplied := observed }
  return decision

/-- Writes the source's values and the time of the cycle to their slots. The update that tells of
them is then due. -/
def recordValues (decision : Decision) (timestamp : UInt64) : Program σ τ ValueUpdate := do
  let source := (← get).desk.source
  let targetValue := DecisionSource.targetValue source
  let currentValue := DecisionSource.currentValue source
  onLedger (Slot.targetValue.write targetValue)
  onLedger (Slot.currentValue.write currentValue)
  onLedger (Slot.lastUpdateTime.write (.ofUInt64 timestamp))
  return { decision, targetValue, currentValue, timestamp }

/-- The counterparty of adjustments: the configured account, else the recorded one. -/
def resolveTreasury : Program σ τ Address := do
  match (← get).settings.treasury with
  | some treasury => return treasury
  | none =>
    let word ← onLedger Slot.treasuryAddress.read
    match word.toAddress with
    | .ok treasury => if treasury.IsZero then throw .missingTreasury else return treasury
    | .error e => throw (.corruptState ("treasury address: " ++ e.message))

/-- Hands a decision to the engine. -/
def applyDecision (now : Instant) (decision : Decision) (treasury : Address) :
    Program σ τ Outcome := do
  let moment := (← get).moment now
  (onDesk (Engine.apply moment decision treasury)).failingWith .adjustment

/-- A cycle up to the update that it publishes. -/
def prepare (now : Instant) : Program σ τ ValueUpdate := do
  let observed ← askLastUpdate
  onLedger Access.attach
  let decision ← obtainDecision now observed
  recordValues decision now.unixSeconds

/-- The rest of the cycle, which applies the decision. -/
def conclude (now : Instant) (decision : Decision) : Program σ τ UpdateReport := do
  let treasury ← if decision.IsHold then pure .zero else resolveTreasury
  let outcome ← applyDecision now decision treasury
  return ⟨decision, outcome, now.unixSeconds⟩

/-- One cycle, uncounted. -/
def decideAndApply (now : Instant) : Program σ τ UpdateReport := do
  let update ← prepare now
  modify fun m => { m with desk := m.desk.publishUpdate update }
  conclude now update.decision

/-- Under which status a cycle is counted. -/
def cycleStatus : Except UpdateError UpdateReport → Status
  | .ok report => report.outcome.status
  | .error _ => .failed

/-- One cycle, counted under the status of its outcome. -/
def cycle (now : Instant) : Program σ τ UpdateReport := do
  note .cycle
  let result ← (decideAndApply now).attempt
  modify fun m => { m with desk.metrics := m.desk.metrics.countCycle (cycleStatus result) }
  result

def beginChecking (m : Manager σ τ) : Manager σ τ :=
  if m.phase = .idle then { m with phase := .checking } else m

def endChecking (m : Manager σ τ) : Manager σ τ :=
  if m.phase = .checking then { m with phase := .idle } else m

/-- Shows a cycle in the phase while an action runs, unless the manager is stopped. -/
def whileChecking (act : Act (Manager σ τ) ε α) : Act (Manager σ τ) ε α := do
  modify beginChecking
  let result ← act.attempt
  modify endChecking
  result

/-- Runs a cycle whatever data the source holds. -/
def process (now : Instant) : Program σ τ UpdateReport := whileChecking (cycle now)

/-- Data of this time is later than the data used up last. -/
def isNews (m : Manager σ τ) (latest : Option Instant) : Bool :=
  match latest, m.lastApplied with
  | none, _ => false
  | some _, none => true
  | some latest, some applied => applied < latest

/-- Runs a cycle if there is news. A failure is not reported. -/
def catchUp (now : Instant) : Act (Manager σ τ) ε (Option UpdateReport) := do
  let latest ← askLastUpdate
  if (← get).isNews latest then
    match ← (cycle now).attempt with
    | .ok report => return some report
    | .error _ => return none
  else return none

/-- Looks for news and runs a cycle on it, unless the manager is stopped. -/
def check (now : Instant) : Act (Manager σ τ) ε (Option UpdateReport) := do
  if (← get).phase = .stopped then return none
  whileChecking (catchUp now)

/-! ## Queries -/

/-- How long a query keeps the manager waiting, and whether it is answered by then. -/
structure Wait where
  millis : Nat
  answered : Bool
  deriving DecidableEq

/-- The wait for a query begun now. A source that answers at the limit is still heard. -/
def queryWait (m : Manager σ τ) (limit : Duration) : Wait :=
  let latency := DecisionSource.latency m.desk.source
  if latency ≤ limit.ceilMillis then ⟨latency, true⟩ else ⟨limit.ceilMillis, false⟩

/-- What comes of a query once the wait for it is over. -/
def settleQuery (now : Instant) (limit : Duration) (answered : Bool) : Program σ τ Unit := do
  if answered then onSource (DecisionSource.query ((← get).moment now))
  else throw (.sourceTimeout limit)

/-- Asks the source for fresh data. -/
def refresh (now : Instant) : Program σ τ Unit := do
  let m ← get
  settleQuery now m.settings.oracleTimeout (m.queryWait m.settings.oracleTimeout).answered

/-- Asks the source for fresh data and runs a cycle, both without regard to what is new. -/
def force (now : Instant) (limit : Duration) : Program σ τ UpdateReport := do
  let m ← get
  if m.phase = .stopped then throw .stopped
  settleQuery now limit (m.queryWait limit).answered
  process now

/-! ## Other operations -/

/-- Starts the source and the scheduler. A second start does nothing. -/
def start : Program σ τ Unit := do
  let m ← get
  if m.phase = .stopped then throw .stopped
  if !m.started then
    onSource DecisionSource.start
    modify fun m => { m with started := true }

/-- No cycle begins by itself from here on. -/
def halt (m : Manager σ τ) : Manager σ τ := { m with phase := .stopped, started := false }

/-- Ends every subscription and stops the source. -/
def shutDown (m : Manager σ τ) : Manager σ τ :=
  { m with desk := { m.desk with
      notifier := m.desk.notifier.close
      source := DecisionSource.stop m.desk.source } }

/-- Stops the manager for good. -/
def stop (m : Manager σ τ) : Manager σ τ := m.halt.shutDown

/-- Applies a decision that comes from outside. -/
def applyAdjustment (now : Instant) (decision : Decision) (treasury : Address) :
    Program σ τ Outcome := do
  onLedger Access.attach
  applyDecision now decision treasury

/-- The last `max` adjustments, oldest first. -/
def history (max : UInt64) : Program σ τ (List HistoryRecord) := do
  onLedger Access.attach
  onDesk (Engine.onLedger ((Journal.query Engine.journalAccount max).failingWith .journal))

/-- Passes a market observation to the source and then to the ledger. -/
def observe (now : Instant) (value : Word) : Program σ τ Unit := do
  modify fun m =>
    { m with desk.source := DecisionSource.setCurrentValue (m.moment now) value m.desk.source }
  onLedger Access.attach
  onLedger (Slot.currentValue.write value)

/-! ## Operations as data -/

/-- What a manager can be asked to do. -/
inductive Operation
  | start
  | stop
  | check
  | process
  | refresh
  | force (limit : Duration)
  | apply (decision : Decision) (treasury : Address)
  | observe (value : Word)
  | history (max : UInt64)

/-- What comes of an operation that does not fail. -/
inductive Answer
  | done
  | noReport
  | report (report : UpdateReport)
  | outcome (outcome : Outcome)
  | records (records : List HistoryRecord)

/-- Runs one operation to completion at an instant. -/
def perform (now : Instant) : Operation → Program σ τ Answer
  | .start => do start; return .done
  | .stop => do modify stop; return .done
  | .check => do return (← check now).elim .noReport .report
  | .process => do return .report (← process now)
  | .refresh => do refresh now; return .done
  | .force limit => do return .report (← force now limit)
  | .apply decision treasury => do return .outcome (← applyAdjustment now decision treasury)
  | .observe value => do observe now value; return .done
  | .history max => do return .records (← history max)

end Manager

end StableSupply
