import StableSupply.Adjustment
import StableSupply.Slot

/-! # The adjustment history

A counter slot holds the number of records, and record `i` fills seven slots named after `i`. A
record is written once and never changed; reading one checks that its slots decode. -/

namespace StableSupply.Journal

variable {σ : Type} [Digest] [Gate σ]

/-- A request of the journal. -/
abbrev Program (σ α : Type) := Act (Access σ) JournalError α

/-- A ledger request of the account that keeps the journal. -/
def request {α : Type} (act : Act (Access σ) LedgerError α) : Program σ α :=
  act.failingWith .ledger

def readSlot (account : Address) (key : Hash) : Program σ Word :=
  request (Access.read account key)

def writeSlot (account : Address) (key : Hash) (word : Word) : Program σ Unit :=
  request (Access.write account key word)

/-- A decoded word, or the report that field `what` of record `index` does not decode. -/
def decoded {α : Type} (index : UInt64) (what : String) (value : Except WordError α) :
    Except JournalError α :=
  value.mapError fun e => .corrupted index (what ++ ": " ++ e.message)

/-- The number of records. -/
def count (account : Address) : Program σ UInt64 := do
  let word ← readSlot account Slot.historyCount.key
  decoded 0 "history counter" word.toUInt64

/-- The word that a field of a record is written as. -/
def fieldWord (record : HistoryRecord) : HistoryField → Word
  | .kind => .ofUInt64 record.kind.code
  | .supplyDelta => record.supplyDelta
  | .counterpart => record.counterpart
  | .deviation => .ofInt64 record.deviationBps
  | .resultingSupply => record.resultingSupply
  | .claimedSupply => record.claimedSupply
  | .timestamp => .ofUInt64 record.timestamp

/-- Writes the listed fields of a record in order. -/
def writeFields (account : Address) (record : HistoryRecord) : List HistoryField → Program σ Unit
  | [] => pure ()
  | field :: rest => do
    writeSlot account (field.key record.index) (fieldWord record field)
    writeFields account record rest

/-- Writes a record at the next index, whatever index it came with, and then the counter. -/
def append (account : Address) (record : HistoryRecord) : Program σ HistoryRecord := do
  if record.kind = .none then throw (.unrecordable record.kind)
  let index ← count account
  if index.toNat + 1 < 2 ^ 64 then
    let record := { record with index }
    writeFields account record HistoryField.all
    writeSlot account Slot.historyCount.key (.ofUInt64 (index + 1))
    return record
  else throw (.corrupted index "history counter exhausted")

/-- The kind that a record's code stands for. -/
def recordedKind (index code : UInt64) : Except JournalError Kind :=
  match Kind.ofCode? code with
  | some .expansion => .ok .expansion
  | some .contraction => .ok .contraction
  | _ => .error (.corrupted index ("unknown adjustment type " ++ toString code.toNat))

/-- Reads record `index`, field by field in the order in which they are written. -/
def read (account : Address) (index : UInt64) : Program σ HistoryRecord := do
  let field (f : HistoryField) : Program σ Word := readSlot account (f.key index)
  let code ← decoded index "type" (← field .kind).toUInt64
  let kind ← recordedKind index code
  let supplyDelta ← field .supplyDelta
  let counterpart ← field .counterpart
  let deviationBps ← decoded index "deviation" (← field .deviation).toInt64
  let resultingSupply ← field .resultingSupply
  let claimedSupply ← field .claimedSupply
  let timestamp ← decoded index "timestamp" (← field .timestamp).toUInt64
  return { index, kind, supplyDelta, counterpart, deviationBps, resultingSupply, claimedSupply,
           timestamp }

/-- Reads `n` records from `start` on. -/
def readFrom (account : Address) (start : UInt64) : (n : Nat) → Program σ (List HistoryRecord)
  | 0 => return []
  | n + 1 => do
    let record ← read account start
    return record :: (← readFrom account (start + 1) n)

/-- The last `max` records, oldest first. -/
def query (account : Address) (max : UInt64) : Program σ (List HistoryRecord) := do
  let total := (← count account).toNat
  let start := total - max.toNat
  readFrom account (.ofNat start) (total - start)

end StableSupply.Journal
