import StableSupply.Ledger.Access

/-! # Named slots

Every parameter lives in a slot of a system account, and the slot's key is the digest of its name.
Two different slots have different names, whatever the regions and timeframes are called. -/

namespace StableSupply

/-! ## System accounts -/

namespace SystemAccount

/-- Parameters of the value token. -/
def valueToken : Address := .system 0x1001

/-- Parameters of the stable token, its supply and the adjustment history. -/
def stableToken : Address := .system 0x1002

def staking : Address := .system 0x1003

def oracle : Address := .system 0x1004

def seigniorage : Address := .system 0x1005

def governance : Address := .system 0x1006

/-- Every account that the system owns. -/
def all : List Address := [valueToken, stableToken, staking, oracle, seigniorage, governance]

end SystemAccount

/-! ## Parameters -/

/-- A parameter of the system, which is kept in a slot. -/
inductive Slot
  | tokenName
  | tokenSymbol
  | tokenDecimals
  | initialSupply
  | currentSupply
  | minimumSupply
  | updateFrequency
  | initialValue
  | currentValue
  | targetValue
  | lastUpdateTime
  | marketVolatility
  | historyCount
  | treasuryAddress
  | continentalWeight (region : String)
  | timeframeWeight (frame : String)
  | smoothingWindow (frame : String)
  | valueTokenPrice
  | valueTokenName
  | valueTokenSymbol
  | valueTokenDecimals
  | valueMaxSupply
  | stakingReward
  | minimumStakingPeriod
  | stakingUnlockPeriod
  | totalStaked
  | lastRewardBlock
  deriving DecidableEq

namespace Slot

/-- The name whose digest is the slot's key. -/
def name : Slot → String
  | tokenName => "ultrastable_token_name"
  | tokenSymbol => "ultrastable_token_symbol"
  | tokenDecimals => "ultrastable_token_decimals"
  | initialSupply => "ultrastable_initial_supply"
  | currentSupply => "ultrastable_current_supply"
  | minimumSupply => "ultrastable_minimum_supply"
  | updateFrequency => "ultrastable_update_frequency"
  | initialValue => "ultrastable_initial_value"
  | currentValue => "ultrastable_current_value"
  | targetValue => "ultrastable_target_value"
  | lastUpdateTime => "ultrastable_last_update_time"
  | marketVolatility => "market_volatility"
  | historyCount => "adjustment_history_count"
  | treasuryAddress => "treasury_address"
  | continentalWeight region => "continental_weight_" ++ region
  | timeframeWeight frame => "timeframe_weight_" ++ frame
  | smoothingWindow frame => "smoothing_window_" ++ frame
  | valueTokenPrice => "value_token_price"
  | valueTokenName => "o2ul_token_name"
  | valueTokenSymbol => "o2ul_token_symbol"
  | valueTokenDecimals => "o2ul_token_decimals"
  | valueMaxSupply => "o2ul_max_supply"
  | stakingReward => "staking_reward_percentage"
  | minimumStakingPeriod => "minimum_staking_period"
  | stakingUnlockPeriod => "staking_unlock_period"
  | totalStaked => "total_staked_amount"
  | lastRewardBlock => "last_reward_block"

/-- The system account that owns the slot. -/
def owner : Slot → Address
  | valueTokenPrice | valueTokenName | valueTokenSymbol | valueTokenDecimals | valueMaxSupply =>
    SystemAccount.valueToken
  | stakingReward | minimumStakingPeriod | stakingUnlockPeriod | totalStaked | lastRewardBlock =>
    SystemAccount.staking
  | _ => SystemAccount.stableToken

/-- The key of the slot, which is the digest of its name. -/
def key [Digest] (slot : Slot) : Hash := .ofName slot.name

variable {σ : Type} [Digest] [Gate σ]

/-- Reads the slot of a parameter. -/
def read (slot : Slot) : Act (Access σ) LedgerError Word := Access.read slot.owner slot.key

/-- Writes the slot of a parameter. -/
def write (slot : Slot) (word : Word) : Act (Access σ) LedgerError Unit :=
  Access.write slot.owner slot.key word

end Slot

/-! ## Fields of a history record -/

/-- A part of a record, which fills a slot of its own. -/
inductive HistoryField
  | kind
  | supplyDelta
  | counterpart
  | deviation
  | resultingSupply
  | claimedSupply
  | timestamp
  deriving DecidableEq

namespace HistoryField

/-- In the order in which a record is written. -/
def all : List HistoryField :=
  [kind, supplyDelta, counterpart, deviation, resultingSupply, claimedSupply, timestamp]

/-- The part of the slot's name that stands for the field. -/
def label : HistoryField → String
  | kind => "type"
  | supplyDelta => "amount"
  | counterpart => "value_tokens"
  | deviation => "deviation"
  | resultingSupply => "new_supply"
  | claimedSupply => "claimed_supply"
  | timestamp => "timestamp"

/-- The name of the field's slot in record `index`. -/
def slotName (field : HistoryField) (index : UInt64) : String :=
  "adjustment_" ++ toString index.toNat ++ "_" ++ field.label

/-- The key of the slot that the field of a record fills. -/
def key [Digest] (field : HistoryField) (index : UInt64) : Hash := .ofName (field.slotName index)

end HistoryField

end StableSupply
