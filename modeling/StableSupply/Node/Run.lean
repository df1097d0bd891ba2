import StableSupply.Json.Records
import StableSupply.Node.Arguments
import StableSupply.Node.Banner
import StableSupply.Node.Host
import StableSupply.Node.Logging
import StableSupply.Node.Release

/-! # Running commands

What each command does on a host, and with which code the program exits: 0 after success, 1 after a
failure, 2 if the arguments make no sense. -/

namespace StableSupply

/-- Why a command fails. -/
inductive RunError
  | file (cause : FileError)
  /-- The configuration file is no TOML document, or not one of a configuration. -/
  | document
  | config (cause : ConfigError)
  | bootstrap (cause : BootstrapError)
  | update (cause : UpdateError)
  /-- A number is too large to be written to a configuration file. -/
  | unwritable
  | alreadyThere (path : String)

def RunError.message : RunError → String
  | file cause => cause.message
  | document => "TOML parse error"
  | config cause => cause.message
  | bootstrap cause => cause.message
  | update cause => cause.message
  | unwritable => "out-of-range value for u64 type"
  | alreadyThere path => path ++ " already exists, pass --force to overwrite"

namespace Run

/-! ## Help -/

/-- What the help says of the commands. -/
def commandList : List String :=
  ["Commands:",
   "  init          Write a default configuration file",
   "  genesis-info  Show genesis state information",
   "  version       Print the version string",
   "  help          Print this message or the help of the given subcommand(s)"]

/-- The lines that explain the program or one of its commands. -/
def helpLines : Option String → List String
  | some "init" =>
    ["Write a default configuration file", "", "Usage: o2ul init [OPTIONS]", "", "Options:",
     "  -o, --output <OUTPUT>  Where to write the file [default: o2ul.toml]",
     "      --force            Overwrite an existing file",
     "  -h, --help             Print help"]
  | some "genesis-info" =>
    ["Show genesis state information", "", "Usage: o2ul genesis-info [OPTIONS]", "", "Options:",
     "      --json  Print the genesis report as JSON",
     "  -h, --help  Print help"]
  | some "version" =>
    ["Print the version string", "", "Usage: o2ul version", "", "Options:",
     "  -h, --help  Print help"]
  | some "help" =>
    ["Print this message or the help of the given subcommand(s)", "",
     "Usage: o2ul help [COMMAND]", ""] ++ commandList
  | _ =>
    ["O2UL dual-token node", "", "Usage: o2ul [OPTIONS] [COMMAND]", ""] ++ commandList ++
    ["", "Options:",
     "  -c, --config <FILE>           Configuration file path",
     "      --chain-id <CHAIN_ID>     Chain ID (ignored when a config file is given)",
     "      --devnet                  Use devnet defaults",
     "      --update-interval <SECS>  UltraStable scheduler tick in seconds",
     "      --treasury <ADDR>         Treasury account for supply adjustments (hex)",
     "  -h, --help                    Print help"]

/-! ## Commands -/

variable {m : Type → Type} [Monad m] [Host m] {α : Type}

/-- A command, or a part of one. -/
abbrev Program (m : Type → Type) (α : Type) := ExceptT RunError m α

/-- An action of the host that cannot fail. -/
def ask (action : m α) : Program m α := ExceptT.lift action

/-- The configuration that arguments override. -/
def baseConfig (o : Options) : Program m Config := do
  match o.config with
  | some path =>
    match ← ask (Host.read path) with
    | .error e => throw (.file e)
    | .ok document =>
      match Config.parse? document with
      | some c => return c
      | none => throw .document
  | none =>
    let chain ← ask (Host.environment "O2UL_CHAIN_ID")
    return if o.devnet then .devnet chain else .default chain

/-- What the options say over a configuration. The chain of a configuration file stands. -/
def override (o : Options) (c : Config) : Config where
  chainId := if o.config.isSome then c.chainId else o.chainId.getD c.chainId
  genesis := c.genesis
  updates :=
    { c.updates with
      intervalSecs := o.updateInterval.getD c.updates.intervalSecs
      treasury := o.treasury.or c.updates.treasury }

/-- The configuration that the options lead to, if it is valid. -/
def loadConfig (o : Options) : Program m Config := do
  let c := override o (← baseConfig o)
  match c.validate with
  | .ok () => return c
  | .error e => throw (.config e)

/-- Writes a configuration to a file. -/
def save (c : Config) (path : String) : Program m Unit := do
  match c.render? with
  | none => throw .unwritable
  | some document =>
    match ← ask (Host.write path document) with
    | .ok () => return
    | .error e => throw (.file e)

/-- Writes the default configuration, over an existing file only by force. -/
def init (output : String) (force : Bool) : Program m Unit := do
  if (← ask (Host.holds output)) && !force then throw (.alreadyThere output)
  save (.default (← ask (Host.environment "O2UL_CHAIN_ID"))) output
  ask (Host.log ("Wrote default configuration to " ++ output))

/-- The time for a genesis without a time of its own; none is before 1970. -/
def genesisTime (unixSeconds : Int) : UInt64 := .ofNat unixSeconds.toNat

variable [Digest]

/-- Sets up the ledger of a node. -/
def bootstrap (c : Config) : Program m Bootstrap := do
  match Bootstrap.run c (genesisTime (← ask Host.unixSeconds)) with
  | .ok b => return b
  | .error e => throw (.bootstrap e)

/-- What genesis allocates, in colour. -/
def allocations (b : Bootstrap) : List String :=
  let paint (style : String) (amount : Word) : String :=
    style ++ toString amount.toNat ++ Banner.reset
  let r := b.report
  [Banner.bold ++ "Genesis Allocations" ++ Banner.reset,
   "  Founder:  " ++ r.founder.text ++ " (" ++ paint Banner.green r.founderBalance ++ ")",
   "  Reserve:  " ++ r.reserve.text ++ " (" ++ paint Banner.green r.reserveBalance ++ ")",
   "  Treasury: " ++ r.treasury.text,
   "  Stable supply: " ++ paint Banner.yellow r.stableSupply ++
     " (minimum " ++ toString r.minimumStableSupply.toNat ++ ")",
   "  State root: " ++ b.ledger.state.root.toHex]

/-- The text of this release at the present time. -/
def currentVersion : Program m String := do return Release.current (← ask Host.unixSeconds)

/-- Prints what genesis sets up. -/
def genesisInfo (o : Options) (json : Bool) : Program m Unit := do
  let c ← loadConfig o
  let b ← bootstrap c
  if json then ask (Host.print b.report.toJson.indented)
  else
    ask (Host.print (Banner.summaryText c.chainId (← currentVersion) .default .default))
    ask (Host.print "")
    for line in allocations b do ask (Host.print line)

/-- Starts a node on a new ledger and runs it until it is interrupted. -/
def serve (o : Options) : Program m Unit := do
  let c ← loadConfig o
  for line in Banner.lines do ask (Host.log line)
  for line in Banner.summaryLog c.chainId (← currentVersion) .default .default do
    ask (Host.log line)
  let b ← bootstrap c
  let origin := Instant.ofUnix (← ask Host.unixSeconds) 0
  match c.managerSettings with
  | .error e => throw (.config e)
  | .ok settings =>
    match Schedule.start.apply (b.schedule c settings origin) with
    | (.error e, _) => throw (.update e)
    | (.ok (), schedule) => ask (Host.serve schedule)

/-- Runs the command of an invocation. -/
def execute (i : Invocation) : Program m Unit :=
  match i.command with
  | .serve => serve i.options
  | .init output force => init output force
  | .genesisInfo json => genesisInfo i.options json
  | .version => do ask (Host.print (← currentVersion))
  | .help topic => do for line in helpLines topic do ask (Host.print line)

/-- Has the log written where the environment says. -/
def openLog : m Unit := do
  match Logging.fileOf? (← Host.environment "LOG_FILE") with
  | some path => Host.openLog path
  | none => return

/-- Runs the program and gives its exit code. -/
def program (arguments : List String) : m UInt32 := do
  openLog
  match Invocation.parse arguments with
  | .error e =>
    Host.complain ("error: " ++ e.message)
    return 2
  | .ok invocation =>
    match ← (execute invocation).run with
    | .ok () => return 0
    | .error e =>
      Host.complain ("Error: " ++ e.message)
      return 1

end Run

end StableSupply
