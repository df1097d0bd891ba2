import StableSupply.Events.Notifier
import StableSupply.Journal
import StableSupply.Metrics
import StableSupply.Source.Basic

/-! # Applying adjustments

An adjustment is checked in full before the first write. The writes and the history record are made
above a checkpoint of the ledger, which is reverted to if one of them fails, so that a failure
leaves nothing behind unless the ledger refuses the reversal too. The history records the supply
read back from the ledger beside the supply that the decision claimed. -/

namespace StableSupply

/-- What is noted of a run. Channels forget events, and take none once they are closed; counters
tell nothing of the order. -/
inductive Occurrence
  /-- A cycle begins. -/
  | cycle
  /-- A cycle has obtained a decision. It had begun by asking the source for the time of its data,
  with this answer. -/
  | decision (observed : Option Instant)
  /-- An update is handed to its subscribers. -/
  | update (update : ValueUpdate)
  /-- The engine is called on a decision. -/
  | attempt (decision : Decision)
  /-- An adjustment is handed to its subscribers. -/
  | adjustment (adjustment : AppliedAdjustment)
  deriving DecidableEq

/-- What an engine works on. -/
structure Desk (σ τ : Type) where
  access : Access σ
  source : τ
  notifier : Notifier
  metrics : Metrics
  /-- What has occurred, latest first. Nothing else depends on it. -/
  trace : List Occurrence := []

namespace Desk

variable {σ τ : Type}

/-- Adds to what has occurred. -/
def note (occurrence : Occurrence) (desk : Desk σ τ) : Desk σ τ :=
  { desk with trace := occurrence :: desk.trace }

/-- Hands an update to its subscribers. -/
def publishUpdate (update : ValueUpdate) (desk : Desk σ τ) : Desk σ τ :=
  { desk.note (.update update) with notifier := (desk.notifier.publishUpdate update).2 }

/-- Hands an adjustment to its subscribers. -/
def publishAdjustment (adjustment : AppliedAdjustment) (desk : Desk σ τ) : Desk σ τ :=
  { desk.note (.adjustment adjustment) with
    notifier := (desk.notifier.publishAdjustment adjustment).2 }

end Desk

namespace Engine

variable {σ τ ε α : Type} [Digest] [Gate σ] [DecisionSource τ]

/-- The account that keeps the history of adjustments. -/
def journalAccount : Address := SystemAccount.stableToken

/-! ## Parts of the desk -/

/-- Runs an action on the part of the desk that leads to the ledger. -/
def onLedger (act : Act (Access σ) ε α) : Act (Desk σ τ) ε α :=
  act.on Desk.access fun access desk => { desk with access }

/-- Asks the source whether a decision can be carried out. -/
def askFeasible (moment : Moment) (d : Decision) (treasury minimum : Word) :
    Act (Desk σ τ) ε Feasibility :=
  ExceptT.mk fun desk =>
    let (answer, source) := DecisionSource.feasible moment d treasury minimum desk.source
    (.ok answer, { desk with source })

/-! ## Checking -/

/-- The change that an adjustment makes. -/
structure Plan where
  kind : Kind
  supplyDelta : Word
  counterpart : Word
  previousSupply : Word
  newSupply : Word
  claimedSupply : Word
  treasuryBefore : Word
  deriving DecidableEq

/-- An amount as a word of the ledger, or the report that the quantity does not fit into one. -/
def fit (quantity : Quantity) (amount : Wide) : Except AdjustmentError Word :=
  match amount.toWord? with
  | some w => .ok w
  | none => .error (.overflow quantity)

/-- The supply that an adjustment leads to. An expansion must be paid for by the treasury and stay a
ledger word; a contraction must leave the treasury a ledger word and the supply at least the
minimum. -/
def newSupply (kind : Kind) (treasury : Address) (balance minimum supply delta counterpart : Word) :
    Except AdjustmentError Word :=
  match kind with
  | .none => .ok supply
  | .expansion =>
    if balance < counterpart then .error (.insufficientBalance treasury balance counterpart)
    else
      match supply.add? delta with
      | some total => .ok total
      | none => .error (.overflow .stableSupply)
  | .contraction =>
    if (balance.add? counterpart).isNone then .error (.overflow .treasuryBalance)
    else
      match supply.sub? delta with
      | some rest =>
        if minimum ≤ rest then .ok rest else .error (.supplyUnderflow supply delta minimum)
      | none => .error (.supplyUnderflow supply delta minimum)

/-- Reads the supply and works out what an adjustment would change. -/
def plan (d : Decision) (treasury : Address) (balance minimum : Word) :
    Act (Access σ) AdjustmentError Plan := do
  let supplyDelta ← fit .supplyDelta d.supplyDelta
  let counterpart ← fit .counterpart d.counterpart
  let claimedSupply ← fit .resultingSupply d.resultingSupply
  let supply ← Slot.currentSupply.read.failingWith .ledger
  let newSupply ← newSupply d.kind treasury balance minimum supply supplyDelta counterpart
  return { kind := d.kind, supplyDelta, counterpart, previousSupply := supply, newSupply,
           claimedSupply, treasuryBefore := balance }

/-! ## Writing -/

/-- The treasury pays for an expansion and is paid for a contraction. -/
def settle (p : Plan) (treasury : Address) : Act (Access σ) LedgerError Unit :=
  match p.kind with
  | .none => pure ()
  | .expansion => Access.debit treasury p.counterpart .adjustment
  | .contraction => Access.credit treasury p.counterpart .adjustment

def carryOut (p : Plan) (d : Decision) (treasury : Address) :
    Act (Access σ) AdjustmentError AppliedAdjustment := do
  (settle p treasury).failingWith .ledger
  (Slot.currentSupply.write p.newSupply).failingWith .ledger
  let resultingSupply ← Slot.currentSupply.read.failingWith .ledger
  let record ← (Journal.append journalAccount
    { index := 0
      kind := p.kind
      supplyDelta := p.supplyDelta
      counterpart := p.counterpart
      deviationBps := d.deviationBps
      resultingSupply
      claimedSupply := p.claimedSupply
      timestamp := d.timestamp }).failingWith .journal
  let treasuryAfter ← (Access.balance treasury).failingWith .ledger
  return { record, treasury, previousSupply := p.previousSupply
           treasuryBefore := p.treasuryBefore, treasuryAfter }

/-- Runs an action above a checkpoint: reverts to it on failure and discards it on success. A
refused reversal goes unreported; the failure itself is what the caller learns. -/
def atomically (act : Act (Access σ) ε α) : Act (Access σ) ε α := do
  let id ← Access.checkpoint
  match ← act.attempt with
  | .ok a =>
    Access.discard id
    return a
  | .error e =>
    let _ ← (Access.revert id).attempt
    throw e

/-! ## Applying -/

/-- Publishes an applied adjustment and moves the supply gauge. -/
def announce (adjustment : AppliedAdjustment) (desk : Desk σ τ) : Desk σ τ :=
  { desk.publishAdjustment adjustment with
    metrics := desk.metrics.setSupply adjustment.record.resultingSupply }

/-- Judges a decision and carries it out. The counters are left alone. -/
def applyUncounted (moment : Moment) (d : Decision) (treasury : Address) :
    Act (Desk σ τ) AdjustmentError Outcome := do
  if d.IsHold then return .noChange
  let minimum ← onLedger (Slot.minimumSupply.read.failingWith .ledger)
  let balance ← onLedger ((Access.balance treasury).failingWith .ledger)
  match ← askFeasible moment d balance minimum with
  | .infeasible reason => return .skipped reason
  | .feasible =>
    let p ← onLedger (plan d treasury balance minimum)
    let adjustment ← onLedger (atomically (carryOut p d treasury))
    modify (announce adjustment)
    return .applied adjustment

/-- Under which status an attempt is counted. -/
def countedStatus : Except AdjustmentError Outcome → Status
  | .ok outcome => outcome.status
  | .error _ => .failed

/-- Applies a decision with `treasury` as the counterparty. An infeasible decision is no failure: it
is skipped and changes nothing. Every attempt is counted. -/
def apply (moment : Moment) (d : Decision) (treasury : Address) :
    Act (Desk σ τ) AdjustmentError Outcome := do
  modify (Desk.note (.attempt d))
  let result ← (applyUncounted moment d treasury).attempt
  modify fun desk =>
    { desk with metrics := desk.metrics.countAdjustment d.kind (countedStatus result) }
  result

end Engine

end StableSupply
