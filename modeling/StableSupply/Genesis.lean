import StableSupply.Slot
import StableSupply.Token

/-! # Genesis

Seeds a ledger with the two native tokens and the staking parameters. The seeders run one after the
other, each checking its own parameters before it writes; a short text that does not fit a word is
noticed when it is about to be written, or, for the stable token, before the first write. -/

namespace StableSupply

/-- The texts that genesis has to fit into words. -/
inductive GenesisText
  | valueName
  | valueSymbol
  | stableName
  | stableSymbol
  deriving DecidableEq, Repr

/-- The name of the text in messages. -/
def GenesisText.label : GenesisText → String
  | valueName => "o2ul token name"
  | valueSymbol => "o2ul token symbol"
  | stableName => "ultrastable token name"
  | stableSymbol => "ultrastable token symbol"

/-- Why a seeder stops. -/
inductive GenesisError
  | token (cause : TokenError)
  | encoding (field : GenesisText) (cause : WordError)
  | ledger (cause : LedgerError)
  deriving DecidableEq

def GenesisError.message : GenesisError → String
  | token cause => "invalid token configuration: " ++ cause.message
  | encoding field cause => "cannot encode " ++ field.label ++ ": " ++ cause.message
  | ledger cause => "ledger error: " ++ cause.message

namespace Genesis

/-- The accounts that genesis funds or refers to. -/
structure Accounts where
  founder : Address
  reserve : Address
  treasury : Address
  deriving DecidableEq

/-- What genesis has set up, as the ledger reads afterwards. -/
structure Report where
  founder : Address
  founderBalance : Word
  reserve : Address
  reserveBalance : Word
  treasury : Address
  stableSupply : Word
  minimumStableSupply : Word
  /-- Unix seconds. -/
  genesisTime : UInt64
  deriving DecidableEq

variable {σ : Type} [Digest] [Gate σ]

/-- A seeder, or a part of one. -/
abbrev Program (σ α : Type) := Act (Access σ) GenesisError α

/-- Writes one slot. -/
def write (slot : Slot) (word : Word) : Program σ Unit := (slot.write word).failingWith .ledger

/-- Writes slots in order, up to the first write that is refused. -/
def writeAll : List (Slot × Word) → Program σ Unit
  | [] => pure ()
  | (slot, word) :: rest => do
    write slot word
    writeAll rest

/-- A text as a word, or the report which of the texts does not fit. -/
def shortText (field : GenesisText) (text : String) : Except GenesisError Word :=
  (Word.ofShortText text).mapError (.encoding field)

/-! ## Seeders -/

/-- Credits the founder's and the reserve's allocation and records the value token. Gives the two
balances. -/
def seedValueToken (token : ValueToken) (founder reserve : Address) : Program σ (Word × Word) := do
  token.validate.mapError GenesisError.token
  (Access.credit founder token.founderAllocation .genesis).failingWith .ledger
  (Access.credit reserve token.reserveAllocation .genesis).failingWith .ledger
  write .valueMaxSupply token.maxSupply
  write .valueTokenName (← shortText .valueName token.name)
  write .valueTokenSymbol (← shortText .valueSymbol token.symbol)
  write .valueTokenDecimals (.ofUInt64 token.decimals.toUInt64)
  write .valueTokenPrice (units 1)
  let founderBalance ← (Access.balance founder).failingWith .ledger
  let reserveBalance ← (Access.balance reserve).failingWith .ledger
  return (founderBalance, reserveBalance)

/-- The parameters of the stable token, in the order in which they are written. -/
def stableParameters (token : StableToken) (name symbol : Word) (treasury : Address)
    (now : UInt64) : List (Slot × Word) :=
  [(.tokenName, name),
   (.tokenSymbol, symbol),
   (.tokenDecimals, .ofUInt64 token.decimals.toUInt64),
   (.initialSupply, token.initialSupply),
   (.currentSupply, token.initialSupply),
   (.minimumSupply, token.minimumSupply),
   (.updateFrequency, .ofUInt64 token.updateFrequencySecs),
   (.initialValue, token.initialValue),
   (.currentValue, token.initialValue),
   (.targetValue, token.initialValue),
   (.lastUpdateTime, .ofUInt64 now),
   (.marketVolatility, .ofUInt64 token.initialVolatility.toUInt64),
   (.historyCount, .zero),
   (.treasuryAddress, .ofAddress treasury)] ++
  token.continentalWeights.entries.map (fun (region, weight) =>
    (.continentalWeight region, .ofUInt64 weight.toUInt64)) ++
  token.timeframeWeights.entries.map (fun (frame, weight) =>
    (.timeframeWeight frame, .ofUInt64 weight.toUInt64)) ++
  token.smoothingWindows.entries.map (fun (frame, days) =>
    (.smoothingWindow frame, .ofUInt64 days.toUInt64))

/-- Records the stable token. Its supply is a slot; nobody's balance is credited. -/
def seedStableToken (token : StableToken) (treasury : Address) (now : UInt64) : Program σ Unit := do
  token.validate.mapError GenesisError.token
  let name ← shortText .stableName token.name
  let symbol ← shortText .stableSymbol token.symbol
  writeAll (stableParameters token name symbol treasury now)

/-- Records the staking parameters, with nothing staked yet. -/
def seedStaking (staking : Staking) : Program σ Unit :=
  writeAll
    [(.stakingReward, .ofUInt64 staking.rewardBps),
     (.minimumStakingPeriod, .ofUInt64 staking.minimumPeriod),
     (.stakingUnlockPeriod, .ofUInt64 staking.unlockPeriod),
     (.totalStaked, .zero),
     (.lastRewardBlock, .zero)]

/-- Runs every seeder and reports what the ledger then reads. -/
def run (accounts : Accounts) (value : ValueToken) (stable : StableToken)
    (staking : Staking) (now : UInt64) : Program σ Report := do
  let (founderBalance, reserveBalance) ← seedValueToken value accounts.founder accounts.reserve
  seedStableToken stable accounts.treasury now
  seedStaking staking
  let stableSupply ← Slot.currentSupply.read.failingWith .ledger
  let minimumStableSupply ← Slot.minimumSupply.read.failingWith .ledger
  return { founder := accounts.founder, founderBalance
           reserve := accounts.reserve, reserveBalance
           treasury := accounts.treasury
           stableSupply, minimumStableSupply, genesisTime := now }

end Genesis

end StableSupply
