import StableSupply.Ledger.Basic
import StableSupply.Token

/-! # Supply adjustments

What a decision source proposes, what the history records of it, and what comes of applying it. -/

namespace StableSupply

/-- Which way the supply is moved. -/
inductive Kind
  | none
  /-- Mints stable supply and burns value tokens of the treasury. -/
  | expansion
  /-- Burns stable supply and mints value tokens to the treasury. -/
  | contraction
  deriving DecidableEq, Repr

namespace Kind

def all : List Kind := [none, expansion, contraction]

/-- The name of the kind in messages and counters. -/
def text : Kind → String
  | none => "none"
  | expansion => "expansion"
  | contraction => "contraction"

/-- The number that stands for the kind in a history record. -/
def code : Kind → UInt64
  | none => 0
  | expansion => 1
  | contraction => 2

/-- The kind that a code stands for in a slot. -/
def ofCode? : UInt64 → Option Kind
  | 0 => some none
  | 1 => some expansion
  | 2 => some contraction
  | _ => Option.none

end Kind

/-- A proposal. Its amounts may be too large for a ledger word. -/
structure Decision where
  kind : Kind
  /-- Stable tokens to mint or burn. -/
  supplyDelta : Wide
  /-- Value tokens to burn or mint. -/
  counterpart : Wide
  /-- How far the current value is from the target, in basis points. -/
  deviationBps : Int64
  /-- The supply that the source expects afterwards. -/
  resultingSupply : Wide
  /-- Unix seconds. -/
  timestamp : UInt64
  deriving DecidableEq

/-- The proposal to leave the supply alone. -/
def Decision.hold (supply : Word) (deviationBps : Int64) (timestamp : UInt64) : Decision :=
  ⟨.none, .zero, .zero, deviationBps, .ofWord supply, timestamp⟩

/-- The decision leaves the supply as it is. -/
def Decision.IsHold (d : Decision) : Prop := d.kind = .none

instance (d : Decision) : Decidable d.IsHold := inferInstanceAs (Decidable (_ = _))

/-- An entry of the adjustment history. -/
structure HistoryRecord where
  index : UInt64
  kind : Kind
  supplyDelta : Word
  counterpart : Word
  deviationBps : Int64
  /-- As read back from the ledger after the change. -/
  resultingSupply : Word
  /-- As the decision expected it. -/
  claimedSupply : Word
  /-- Of the decision, in Unix seconds. -/
  timestamp : UInt64
  deriving DecidableEq

/-- What an adjustment did to the ledger. -/
structure AppliedAdjustment where
  record : HistoryRecord
  treasury : Address
  previousSupply : Word
  treasuryBefore : Word
  treasuryAfter : Word
  deriving DecidableEq

/-- What became of a decision for which nothing failed. -/
inductive Outcome
  | noChange
  /-- Declined as infeasible. -/
  | skipped (reason : String)
  | applied (adjustment : AppliedAdjustment)
  deriving DecidableEq

def Outcome.applied? : Outcome → Option AppliedAdjustment
  | applied adjustment => some adjustment
  | _ => none

/-! ## Failures -/

/-- Why a record is not read or not written. -/
inductive JournalError
  | corrupted (index : UInt64) (reason : String)
  | unrecordable (kind : Kind)
  | ledger (cause : LedgerError)
  deriving DecidableEq

def JournalError.message : JournalError → String
  | corrupted index reason =>
    "history record " ++ toString index.toNat ++ " is unreadable: " ++ reason
  | unrecordable kind => "refusing to record a " ++ kind.text ++ " adjustment"
  | ledger cause => "ledger error: " ++ cause.message

/-- The amounts that have to fit a ledger word. -/
inductive Quantity
  | supplyDelta
  | counterpart
  | resultingSupply
  | stableSupply
  | treasuryBalance
  deriving DecidableEq, Repr

/-- The name of the quantity in messages. -/
def Quantity.text : Quantity → String
  | supplyDelta => "supply delta"
  | counterpart => "counterpart amount"
  | resultingSupply => "resulting supply"
  | stableSupply => "stable supply"
  | treasuryBalance => "treasury balance"

/-- Why an adjustment is not made. -/
inductive AdjustmentError
  | insufficientBalance (treasury : Address) (balance required : Word)
  | supplyUnderflow (current delta minimum : Word)
  | overflow (quantity : Quantity)
  | ledger (cause : LedgerError)
  | journal (cause : JournalError)
  deriving DecidableEq

def AdjustmentError.message : AdjustmentError → String
  | insufficientBalance treasury balance required =>
    "treasury " ++ treasury.text ++ " holds " ++ toString balance.toNat ++
      ", adjustment needs " ++ toString required.toNat
  | supplyUnderflow current delta minimum =>
    "contracting " ++ toString delta.toNat ++ " from supply " ++ toString current.toNat ++
      " breaches minimum supply " ++ toString minimum.toNat
  | overflow quantity => quantity.text ++ " overflows a ledger word"
  | ledger cause => "ledger error: " ++ cause.message
  | journal cause => "history journal error: " ++ cause.message

end StableSupply
