import StableSupply.Word

/-! # Token parameters

What genesis needs to know of the value token, the stable token and staking, and which parameters
are acceptable. Amounts are in base units, `10 ^ 18` to a whole token. -/

namespace StableSupply

/-- `whole` tokens in base units. -/
def units (whole : UInt64) : Word :=
  ⟨whole.toNat * 10 ^ 18, by have := whole.toNat_lt; omega⟩

/-- Why the parameters of a token are refused. -/
inductive TokenError
  | exceedsSupply
  | invalidAmount
  deriving DecidableEq, Repr

def TokenError.message : TokenError → String
  | exceedsSupply => "Allocations would exceed total supply"
  | invalidAmount => "Invalid amount"

/-- The parameters of the token that adjustments are paid in. -/
structure ValueToken where
  name : String
  symbol : String
  decimals : UInt32
  maxSupply : Word
  founderAllocation : Word
  reserveAllocation : Word
  deriving DecidableEq

namespace ValueToken

def default : ValueToken where
  name := "Orbis Omnira Unitas Lex"
  symbol := "O2UL"
  decimals := 18
  maxSupply := units 21000000
  founderAllocation := units 12600000
  reserveAllocation := units 8400000

/-- The two allocations together are an amount, and no more than the greatest supply. -/
def validate (t : ValueToken) : Except TokenError Unit :=
  match t.founderAllocation.add? t.reserveAllocation with
  | some allocated => if allocated ≤ t.maxSupply then .ok () else .error .exceedsSupply
  | none => .error .exceedsSupply

end ValueToken

/-- The parameters of the token whose supply is adjusted. -/
structure StableToken where
  name : String
  symbol : String
  decimals : UInt32
  initialSupply : Word
  /-- No contraction takes the supply below this. -/
  minimumSupply : Word
  updateFrequencySecs : UInt64
  initialValue : Word
  /-- From 0 to 100. -/
  initialVolatility : UInt8
  continentalWeights : Table String UInt8
  timeframeWeights : Table String UInt8
  /-- In days. -/
  smoothingWindows : Table String UInt32
  deriving DecidableEq

namespace StableToken

def default : StableToken where
  name := "UltraStable"
  symbol := "USUL"
  decimals := 18
  initialSupply := units 1000000
  minimumSupply := units 1
  updateFrequencySecs := 21600
  initialValue := units 1
  initialVolatility := 25
  continentalWeights := .ofList
    [("NorthAmerica", 32), ("Europe", 16), ("Asia", 8), ("Africa", 4), ("SouthAmerica", 2),
      ("Oceania", 1)]
  timeframeWeights := .ofList
    [("Current", 1), ("3Day", 2), ("1Week", 4), ("1Month", 8), ("3Month", 16), ("6Month", 32),
      ("1Year", 64)]
  smoothingWindows := .ofList
    [("Current", 1), ("3Day", 3), ("1Week", 7), ("1Month", 30), ("3Month", 90), ("6Month", 180),
      ("1Year", 365)]

/-- The parameters do not contradict one another. -/
def validate (t : StableToken) : Except TokenError Unit :=
  if t.minimumSupply ≤ t.initialSupply ∧ t.initialVolatility ≤ 100 then .ok ()
  else .error .invalidAmount

end StableToken

/-- The parameters of staking. -/
structure Staking where
  /-- The stakers' share of fees, in basis points. -/
  rewardBps : UInt64
  /-- In blocks. -/
  minimumPeriod : UInt64
  /-- In blocks. -/
  unlockPeriod : UInt64
  deriving DecidableEq

def Staking.default : Staking := ⟨25, 40320, 5760⟩

end StableSupply
