import StableSupply.Manager
import StableSupply.Source.PegBand
import StableSupply.Text.Scan
import StableSupply.Toml.Reader
import StableSupply.Toml.Writer

/-! # Configuration

What a node is told about its chain, the accounts of genesis and the updates of the stable supply,
as values, as a TOML document, and as the settings that other parts are made from. -/

namespace StableSupply

/-- Accounts, as texts. -/
structure GenesisSection where
  founder : String
  reserve : String
  treasury : String
  /-- The Unix time of genesis, if it is not the current one. -/
  timestamp : Option UInt64
  deriving DecidableEq

/-- What is configured of the updates. -/
structure UpdateSection where
  intervalSecs : UInt64
  oracleTimeoutSecs : UInt64
  /-- The counterparty of adjustments, as a text, if it is not the one of genesis. -/
  treasury : Option String
  eventCapacity : UInt64
  deadbandBps : UInt64
  maxStepBps : UInt64
  deriving DecidableEq

/-- A configuration, with addresses as the texts that were given. -/
structure Config where
  chainId : UInt64
  genesis : GenesisSection
  updates : UpdateSection
  deriving DecidableEq

/-- Why a configuration is refused. -/
inductive ConfigError
  | invalidAddress (field : String) (cause : Address.ParseError)
  | forbiddenTreasury (account : Address)
  | zeroInterval
  | zeroOracleTimeout
  | basisPoints
  deriving DecidableEq

def ConfigError.message : ConfigError → String
  | invalidAddress field cause =>
    "Invalid address in " ++ field ++ ": " ++ cause.toWordError.message
  | forbiddenTreasury account => "ultrastable.treasury cannot be " ++ account.text
  | zeroInterval => "ultrastable.update_interval_secs must be positive"
  | zeroOracleTimeout => "ultrastable.oracle_timeout_secs must be positive"
  | basisPoints => "ultrastable basis points must stay below 10000"

namespace Config

/-! ## Defaults -/

def defaultChainId : UInt64 := 20215

/-- The accounts of the default configuration. -/
def defaultGenesis : GenesisSection where
  founder := (Address.system 0x2001).text
  reserve := (Address.system 0x2002).text
  treasury := (Address.system 0x2002).text
  timestamp := none

/-- The updates of the default configuration. -/
def defaultUpdates : UpdateSection where
  intervalSecs := 60
  oracleTimeoutSecs := 30
  treasury := none
  eventCapacity := 256
  deadbandBps := 50
  maxStepBps := 500

/-- The defaults; a variable of the environment may name another chain. -/
def default (chainVariable : Option String) : Config where
  chainId := (chainVariable.bind Text.uint64?).getD defaultChainId
  genesis := defaultGenesis
  updates := defaultUpdates

/-- The defaults with frequent updates. -/
def devnet (chainVariable : Option String) : Config :=
  { default chainVariable with updates := { defaultUpdates with intervalSecs := 10 } }

/-! ## Accounts and settings -/

/-- The address in a field, or the report which field holds none. -/
def address (field text : String) : Except ConfigError Address :=
  (Address.parse text).mapError (.invalidAddress field)

/-- The account that the founder's allocation goes to. -/
def founder (c : Config) : Except ConfigError Address :=
  address "genesis.founder" c.genesis.founder

/-- The account that the reserve's allocation goes to. -/
def reserve (c : Config) : Except ConfigError Address :=
  address "genesis.reserve" c.genesis.reserve

/-- The account that genesis records as treasury. -/
def treasury (c : Config) : Except ConfigError Address :=
  address "genesis.treasury" c.genesis.treasury

/-- The configured counterparty of adjustments. -/
def adjustmentTreasury (c : Config) : Except ConfigError (Option Address) :=
  match c.updates.treasury with
  | some text => do return some (← address "ultrastable.treasury" text)
  | none => .ok none

/-- The settings of the manager that a node runs. -/
def managerSettings (c : Config) : Except ConfigError ManagerSettings := do
  return { interval := .ofSecs c.updates.intervalSecs.toNat
           oracleTimeout := .ofSecs c.updates.oracleTimeoutSecs.toNat
           treasury := ← c.adjustmentTreasury
           eventCapacity := c.updates.eventCapacity.toNat }

/-- The controller that a node runs. -/
def pegBand (c : Config) (token : StableToken) : PegBand :=
  ⟨c.updates.deadbandBps, c.updates.maxStepBps, token⟩

/-- Accepts what a node can run with: accounts that are addresses, a counterparty that can pay, time
between updates and for queries, and a band narrower than the whole. -/
def validate (c : Config) : Except ConfigError Unit := do
  let _ ← c.founder
  let _ ← c.reserve
  let _ ← c.treasury
  match ← c.adjustmentTreasury with
  | some account =>
    if account = SystemAccount.seigniorage ∨ account.IsZero then throw (.forbiddenTreasury account)
  | none => pure ()
  if c.updates.intervalSecs = 0 then throw .zeroInterval
  if c.updates.oracleTimeoutSecs = 0 then throw .zeroOracleTimeout
  if 10000 ≤ c.updates.deadbandBps ∨ 10000 < c.updates.maxStepBps then throw .basisPoints

/-! ## Writing -/

/-- A number, if TOML has an integer as large. -/
def integer? (n : UInt64) : Option Toml.Scalar :=
  if n.toNat < 2 ^ 63 then some (.integer n.toNat) else none

/-- An entry for what is there, and none for what is not. -/
def optional? {α : Type} (key : String) (scalar? : α → Option Toml.Scalar) :
    Option α → Option (List (String × Toml.Scalar))
  | some a => (scalar? a).map fun s => [(key, s)]
  | none => some []

/-- The sections of the document, if all numbers fit into it. -/
def toSections? (c : Config) : Option (List Toml.Section) := do
  return [
    ⟨"chain", [("chain_id", ← integer? c.chainId)]⟩,
    ⟨"genesis",
      [("founder", .text c.genesis.founder),
       ("reserve", .text c.genesis.reserve),
       ("treasury", .text c.genesis.treasury)] ++
      (← optional? "timestamp" integer? c.genesis.timestamp)⟩,
    ⟨"ultrastable",
      [("update_interval_secs", ← integer? c.updates.intervalSecs),
       ("oracle_timeout_secs", ← integer? c.updates.oracleTimeoutSecs)] ++
      (← optional? "treasury" (fun s => some (.text s)) c.updates.treasury) ++
      [("event_capacity", ← integer? c.updates.eventCapacity),
       ("deadband_bps", ← integer? c.updates.deadbandBps),
       ("max_step_bps", ← integer? c.updates.maxStepBps)]⟩]

/-- The document that writes a configuration, unless one of its numbers is too large. -/
def render? (c : Config) : Option String := c.toSections?.map Toml.render

/-! ## Reading -/

/-- How the fields of a record are found in a value: by their names in a table, by their order in a
list. A date has none of them. -/
def record? (names : List String) : Toml.Value → Option (String → Option Toml.Value)
  | .table _ fields => some fun name => fields.lookup name
  | .list items => some fun name => (names.zip items).lookup name
  | .tables entries =>
    some fun name => (names.zip (entries.map fun t => .table .headed t)).lookup name
  | .scalar (.date _) => some fun _ => none
  | .scalar _ => none

/-- A number of 64 bits, if the value is one. -/
def number? : Toml.Value → Option UInt64
  | .scalar (.integer n) => if 0 ≤ n ∧ n < 2 ^ 64 then some (.ofNat n.toNat) else none
  | _ => none

/-- The text, if the value is one. -/
def text? : Toml.Value → Option String
  | .scalar (.text s) => some s
  | _ => none

/-- What a field holds, or a default if there is no such field. -/
def orDefault {α : Type} (read? : Toml.Value → Option α) (default : α) :
    Option Toml.Value → Option α
  | some v => read? v
  | none => some default

/-- What a field holds, if there is such a field. -/
def orNone {α : Type} (read? : Toml.Value → Option α) : Option Toml.Value → Option (Option α)
  | some v => (read? v).map some
  | none => some none

/-- The section about the chain. -/
def chainId? (v : Toml.Value) : Option UInt64 := do
  let field? ← record? ["chain_id"] v
  number? (← field? "chain_id")

/-- The section about genesis, in which only the time may be missing. -/
def genesis? (v : Toml.Value) : Option GenesisSection := do
  let field? ← record? ["founder", "reserve", "treasury", "timestamp"] v
  return { founder := ← text? (← field? "founder")
           reserve := ← text? (← field? "reserve")
           treasury := ← text? (← field? "treasury")
           timestamp := ← orNone number? (field? "timestamp") }

/-- The section about updates, in which every field may be missing. -/
def updates? (v : Toml.Value) : Option UpdateSection := do
  let field? ← record?
    ["update_interval_secs", "oracle_timeout_secs", "treasury", "event_capacity", "deadband_bps",
      "max_step_bps"] v
  let d := defaultUpdates
  return {
    intervalSecs := ← orDefault number? d.intervalSecs (field? "update_interval_secs")
    oracleTimeoutSecs := ← orDefault number? d.oracleTimeoutSecs (field? "oracle_timeout_secs")
    treasury := ← orNone text? (field? "treasury")
    eventCapacity := ← orDefault number? d.eventCapacity (field? "event_capacity")
    deadbandBps := ← orDefault number? d.deadbandBps (field? "deadband_bps")
    maxStepBps := ← orDefault number? d.maxStepBps (field? "max_step_bps") }

/-- The configuration in a table. Only the chain must be there; unknown fields do not matter. -/
def ofFields? (fields : Toml.Fields) : Option Config := do
  return { chainId := ← chainId? (← fields.lookup "chain")
           genesis := ← orDefault genesis? defaultGenesis (fields.lookup "genesis")
           updates := ← orDefault updates? defaultUpdates (fields.lookup "ultrastable") }

/-- Reads the document of a configuration. -/
def parse? (document : String) : Option Config := (Toml.parse? document).bind ofFields?

end Config

end StableSupply
