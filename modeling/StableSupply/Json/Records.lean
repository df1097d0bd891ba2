import StableSupply.Events.Notifier
import StableSupply.Genesis
import StableSupply.Json.Reader
import StableSupply.Source.PegBand

/-! # Records in JSON

How the values that a node exchanges are written as JSON and read back. Records are objects with the
fields in a fixed order; a reader takes them in any order, passes unknown fields by, and refuses a
field that is missing or there twice. Kinds are names, amounts are hexadecimal texts, and addresses,
digests and words are lists of bytes. -/

namespace StableSupply.Json

/-! ## Reading -/

/-- The value of the one field of this name. -/
def field? (j : Json) (name : String) : Option Json :=
  match j with
  | .object fields =>
    if fields.any fun f => f.1.isNone then none
    else
      match fields.filter fun f => f.1 == some name with
      | [(_, value)] => some value
      | _ => none
  | _ => none

/-- The text, if the document is one. -/
def text? : Json → Option String
  | .text s => some s
  | _ => none

/-- An integer from `low` to `high`. -/
def integer? (low high : Int) : Json → Option Int
  | .integer n => if low ≤ n ∧ n ≤ high then some n else none
  | _ => none

/-- A natural number below `2 ^ bits`. -/
def natural? (bits : Nat) (j : Json) : Option Nat :=
  (j.integer? 0 (2 ^ bits - 1)).map Int.toNat

def uint64? (j : Json) : Option UInt64 := (j.natural? 64).map .ofNat

def uint32? (j : Json) : Option UInt32 := (j.natural? 32).map .ofNat

def uint8? (j : Json) : Option UInt8 := (j.natural? 8).map .ofNat

def int64? (j : Json) : Option Int64 := (j.integer? (-2 ^ 63) (2 ^ 63 - 1)).map .ofInt

/-- A list of numbers below 256. -/
def bytes? : Json → Option Bytes
  | .list items => items.mapM uint8?
  | _ => none

/-- The number of at least one and at most `max` hexadecimal digits, with or without `0x`. -/
def hexNumber? (max : Nat) (j : Json) : Option Nat := do
  let s ← j.text?
  let digits := match s.toList with
    | '0' :: 'x' :: rest => rest
    | cs => cs
  if 0 < digits.length ∧ digits.length ≤ max then Text.hexNumber? digits else none

def amount? (j : Json) : Option Word := (j.hexNumber? 64).bind Word.ofNat?

def wide? (j : Json) : Option Wide := (j.hexNumber? 128).bind Wide.ofNat?

/-- The name of a case, alone or as the one key of an object whose value is null. -/
def caseName? : Json → Option String
  | .text s => some s
  | .object [(some s, .null)] => some s
  | _ => none

/-- A map from texts; of two entries of one key the later counts. -/
def map? {α : Type} (value? : Json → Option α) : Json → Option (Table String α)
  | .object fields => do
    let entries ← fields.mapM fun (key, v) => do return (← key, ← value? v)
    return .ofList entries
  | _ => none

/-! ## Writing -/

def ofNat (n : Nat) : Json := .integer n

def ofBytes (bytes : Bytes) : Json := .list (bytes.map fun b => ofNat b.toNat)

/-- Lower-case digits without zeros in front. -/
def ofAmount (n : Nat) : Json := .text ("0x" ++ String.ofList (Nat.toDigits 16 n))

/-- A table as an object, in the order of its keys. -/
def ofMap {α : Type} (value : α → Json) (t : Table String α) : Json :=
  ofFields (t.entries.map fun (key, v) => (key, value v))

end StableSupply.Json

namespace StableSupply

open Json

def Address.toJson (a : Address) : Json := ofBytes a.toBytes

def Address.ofJson? (j : Json) : Option Address := j.bytes?.bind Address.ofBytes?

def Hash.toJson (h : Hash) : Json := ofBytes h.toBytes

def Hash.ofJson? (j : Json) : Option Hash := j.bytes?.bind Hash.ofBytes?

def Word.toJson (w : Word) : Json := ofBytes w.toBytes

def Word.ofJson? (j : Json) : Option Word := j.bytes?.bind Word.ofBytes?

namespace BalanceChange

def caseName : BalanceChange → String
  | genesis => "GenesisInit"
  | adjustment => "StablecoinAdjustment"

def toJson (c : BalanceChange) : Json := .text c.caseName

def ofJson? (j : Json) : Option BalanceChange := do
  let name ← j.caseName?
  [genesis, adjustment].find? fun c => c.caseName == name

end BalanceChange

namespace Kind

def caseName : Kind → String
  | none => "None"
  | expansion => "Expansion"
  | contraction => "Contraction"

def toJson (k : Kind) : Json := .text k.caseName

def ofJson? (j : Json) : Option Kind := do
  let name ← j.caseName?
  Kind.all.find? fun k => k.caseName == name

end Kind

/-- The state of an account, which is its balance. -/
structure AccountState where
  balance : Word

namespace AccountState

def toJson (a : AccountState) : Json := ofFields [("balance", ofAmount a.balance.toNat)]

def ofJson? (j : Json) : Option AccountState := do
  return { balance := ← amount? (← j.field? "balance") }

end AccountState

namespace Decision

def toJson (d : Decision) : Json :=
  ofFields
    [("kind", d.kind.toJson),
     ("supply_delta", ofAmount d.supplyDelta.toNat),
     ("counterpart_amount", ofAmount d.counterpart.toNat),
     ("deviation_bps", .integer d.deviationBps.toInt),
     ("resulting_supply", ofAmount d.resultingSupply.toNat),
     ("timestamp", ofNat d.timestamp.toNat)]

def ofJson? (j : Json) : Option Decision := do
  return { kind := ← Kind.ofJson? (← j.field? "kind")
           supplyDelta := ← wide? (← j.field? "supply_delta")
           counterpart := ← wide? (← j.field? "counterpart_amount")
           deviationBps := ← int64? (← j.field? "deviation_bps")
           resultingSupply := ← wide? (← j.field? "resulting_supply")
           timestamp := ← uint64? (← j.field? "timestamp") }

end Decision

namespace HistoryRecord

def toJson (r : HistoryRecord) : Json :=
  ofFields
    [("index", ofNat r.index.toNat),
     ("kind", r.kind.toJson),
     ("supply_delta", ofAmount r.supplyDelta.toNat),
     ("counterpart_amount", ofAmount r.counterpart.toNat),
     ("deviation_bps", .integer r.deviationBps.toInt),
     ("resulting_supply", ofAmount r.resultingSupply.toNat),
     ("claimed_supply", ofAmount r.claimedSupply.toNat),
     ("timestamp", ofNat r.timestamp.toNat)]

def ofJson? (j : Json) : Option HistoryRecord := do
  return { index := ← uint64? (← j.field? "index")
           kind := ← Kind.ofJson? (← j.field? "kind")
           supplyDelta := ← amount? (← j.field? "supply_delta")
           counterpart := ← amount? (← j.field? "counterpart_amount")
           deviationBps := ← int64? (← j.field? "deviation_bps")
           resultingSupply := ← amount? (← j.field? "resulting_supply")
           claimedSupply := ← amount? (← j.field? "claimed_supply")
           timestamp := ← uint64? (← j.field? "timestamp") }

end HistoryRecord

namespace AppliedAdjustment

def toJson (a : AppliedAdjustment) : Json :=
  ofFields
    [("record", a.record.toJson),
     ("treasury", a.treasury.toJson),
     ("previous_supply", ofAmount a.previousSupply.toNat),
     ("treasury_balance_before", ofAmount a.treasuryBefore.toNat),
     ("treasury_balance_after", ofAmount a.treasuryAfter.toNat)]

def ofJson? (j : Json) : Option AppliedAdjustment := do
  return { record := ← HistoryRecord.ofJson? (← j.field? "record")
           treasury := ← Address.ofJson? (← j.field? "treasury")
           previousSupply := ← amount? (← j.field? "previous_supply")
           treasuryBefore := ← amount? (← j.field? "treasury_balance_before")
           treasuryAfter := ← amount? (← j.field? "treasury_balance_after") }

end AppliedAdjustment

namespace ValueUpdate

def toJson (u : ValueUpdate) : Json :=
  ofFields
    [("decision", u.decision.toJson),
     ("target_value", ofAmount u.targetValue.toNat),
     ("current_value", ofAmount u.currentValue.toNat),
     ("timestamp", ofNat u.timestamp.toNat)]

def ofJson? (j : Json) : Option ValueUpdate := do
  return { decision := ← Decision.ofJson? (← j.field? "decision")
           targetValue := ← amount? (← j.field? "target_value")
           currentValue := ← amount? (← j.field? "current_value")
           timestamp := ← uint64? (← j.field? "timestamp") }

end ValueUpdate

namespace ValueToken

def toJson (t : ValueToken) : Json :=
  ofFields
    [("name", .text t.name),
     ("symbol", .text t.symbol),
     ("decimals", ofNat t.decimals.toNat),
     ("max_supply", ofAmount t.maxSupply.toNat),
     ("founder_allocation", ofAmount t.founderAllocation.toNat),
     ("reserve_allocation", ofAmount t.reserveAllocation.toNat)]

def ofJson? (j : Json) : Option ValueToken := do
  return { name := ← text? (← j.field? "name")
           symbol := ← text? (← j.field? "symbol")
           decimals := ← uint32? (← j.field? "decimals")
           maxSupply := ← amount? (← j.field? "max_supply")
           founderAllocation := ← amount? (← j.field? "founder_allocation")
           reserveAllocation := ← amount? (← j.field? "reserve_allocation") }

end ValueToken

namespace StableToken

def toJson (t : StableToken) : Json :=
  ofFields
    [("name", .text t.name),
     ("symbol", .text t.symbol),
     ("decimals", ofNat t.decimals.toNat),
     ("initial_supply", ofAmount t.initialSupply.toNat),
     ("minimum_supply", ofAmount t.minimumSupply.toNat),
     ("update_frequency_secs", ofNat t.updateFrequencySecs.toNat),
     ("initial_value", ofAmount t.initialValue.toNat),
     ("initial_volatility", ofNat t.initialVolatility.toNat),
     ("continental_weights", ofMap (fun w => ofNat w.toNat) t.continentalWeights),
     ("timeframe_weights", ofMap (fun w => ofNat w.toNat) t.timeframeWeights),
     ("smoothing_windows", ofMap (fun w => ofNat w.toNat) t.smoothingWindows)]

def ofJson? (j : Json) : Option StableToken := do
  return { name := ← text? (← j.field? "name")
           symbol := ← text? (← j.field? "symbol")
           decimals := ← uint32? (← j.field? "decimals")
           initialSupply := ← amount? (← j.field? "initial_supply")
           minimumSupply := ← amount? (← j.field? "minimum_supply")
           updateFrequencySecs := ← uint64? (← j.field? "update_frequency_secs")
           initialValue := ← amount? (← j.field? "initial_value")
           initialVolatility := ← uint8? (← j.field? "initial_volatility")
           continentalWeights := ← map? uint8? (← j.field? "continental_weights")
           timeframeWeights := ← map? uint8? (← j.field? "timeframe_weights")
           smoothingWindows := ← map? uint32? (← j.field? "smoothing_windows") }

end StableToken

namespace Staking

def toJson (s : Staking) : Json :=
  ofFields
    [("reward_bps", ofNat s.rewardBps.toNat),
     ("minimum_staking_period", ofNat s.minimumPeriod.toNat),
     ("unlock_period", ofNat s.unlockPeriod.toNat)]

def ofJson? (j : Json) : Option Staking := do
  return { rewardBps := ← uint64? (← j.field? "reward_bps")
           minimumPeriod := ← uint64? (← j.field? "minimum_staking_period")
           unlockPeriod := ← uint64? (← j.field? "unlock_period") }

end Staking

namespace PegBand

def toJson (b : PegBand) : Json :=
  ofFields
    [("deadband_bps", ofNat b.deadbandBps.toNat),
     ("max_step_bps", ofNat b.maxStepBps.toNat),
     ("stable", b.token.toJson)]

def ofJson? (j : Json) : Option PegBand := do
  return { deadbandBps := ← uint64? (← j.field? "deadband_bps")
           maxStepBps := ← uint64? (← j.field? "max_step_bps")
           token := ← StableToken.ofJson? (← j.field? "stable") }

end PegBand

def Genesis.Report.toJson (r : Genesis.Report) : Json :=
  ofFields
    [("founder", r.founder.toJson),
     ("founder_balance", ofAmount r.founderBalance.toNat),
     ("reserve", r.reserve.toJson),
     ("reserve_balance", ofAmount r.reserveBalance.toNat),
     ("treasury", r.treasury.toJson),
     ("stable_supply", ofAmount r.stableSupply.toNat),
     ("minimum_stable_supply", ofAmount r.minimumStableSupply.toNat),
     ("genesis_time", ofNat r.genesisTime.toNat)]

end StableSupply
