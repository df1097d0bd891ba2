import StableSupply.Text.Scan

/-! # Command-line arguments

Options come before the name of a command, the command's own options after it. A long option takes
its value from behind an equals sign or from the next argument, a short one also from behind its
letter. No option may be given twice. -/

namespace StableSupply

/-- Why a command line is not understood. -/
inductive ArgumentError
  | unexpected (argument : String)
  | unknownCommand (name : String)
  | missingValue (option : String)
  | superfluousValue (option : String)
  | badValue (option value : String)
  | repeated (option : String)
  deriving DecidableEq

def ArgumentError.message : ArgumentError → String
  | unexpected argument => "unexpected argument '" ++ argument ++ "' found"
  | unknownCommand name => "unrecognized subcommand '" ++ name ++ "'"
  | missingValue option => "a value is required for '--" ++ option ++ "' but none was supplied"
  | superfluousValue option => "unexpected value for '--" ++ option ++ "' found"
  | badValue option value => "invalid value '" ++ value ++ "' for '--" ++ option ++ "'"
  | repeated option => "the argument '--" ++ option ++ "' cannot be used multiple times"

/-- Options that go for every command. -/
structure Options where
  config : Option String
  chainId : Option UInt64
  devnet : Bool
  updateInterval : Option UInt64
  treasury : Option String
  deriving DecidableEq

/-- What the program is asked to do. -/
inductive Command
  | serve
  | init (output : String) (force : Bool)
  | genesisInfo (json : Bool)
  | version
  /-- What the program or one of its commands is for. -/
  | help (topic : Option String)
  deriving DecidableEq

/-- A command line that was understood. -/
structure Invocation where
  options : Options
  command : Command
  deriving DecidableEq

namespace Invocation

/-! ## Options -/

/-- What an option takes. -/
inductive Kind
  | switch
  | text
  /-- A text that is not empty. -/
  | path
  | number
  deriving DecidableEq

/-- An option that can be given, by its long name and perhaps by a letter. -/
structure Form where
  name : String
  short : Option Char
  kind : Kind

/-- The values of options by name. A switch has the empty value. -/
abbrev Given := List (String × String)

/-- Why arguments are not read to their end. -/
inductive Stop
  | help
  | refused (cause : ArgumentError)

/-- The value is one of the kind. -/
def Kind.accepts : Kind → String → Bool
  | .switch, _ | .text, _ => true
  | .path, value => value ≠ ""
  | .number, value => (Text.uint64? value).isSome

/-- Notes an option that was given with a value. -/
def note (form : Form) (value : String) (given : Given) : Except Stop Given :=
  if (given.lookup form.name).isSome then .error (.refused (.repeated form.name))
  else if !form.kind.accepts value then .error (.refused (.badValue form.name value))
  else .ok ((form.name, value) :: given)

/-- What an argument is. -/
inductive Argument
  /-- Two dashes; only free arguments come after them. -/
  | separator
  | help
  | option (form : Form) (value : Option String)
  | unknown
  | free

/-- The text behind an equals sign, if there is one. -/
def assigned? : List Char → Option String
  | '=' :: value => some (.ofList value)
  | _ => none

/-- What an argument is by its looks. -/
def classify (forms : List Form) (argument : String) : Argument :=
  match argument.toList with
  | ['-', '-'] => .separator
  | '-' :: '-' :: long =>
    let name := String.ofList (long.takeWhile (· ≠ '='))
    let value := assigned? (long.dropWhile (· ≠ '='))
    if name = "help" ∧ value = none then .help
    else
      match forms.find? fun f => f.name == name with
      | some form => .option form value
      | none => .unknown
  | '-' :: 'h' :: _ => .help
  | '-' :: c :: attached =>
    match forms.find? fun f => f.short == some c with
    | some form =>
      let value := (assigned? attached).or (if attached = [] then none else some (.ofList attached))
      .option form value
    | none => .unknown
  | _ => .free

/-- Whether an argument can be the value of an option before it. -/
def canBeValue (argument : String) : Bool :=
  argument = "-" || !argument.startsWith "-"

/-- The options in front of the first free argument, and the arguments from there on. -/
def scan (forms : List Form) : Given → List String → Except Stop (Given × List String)
  | given, [] => .ok (given, [])
  | given, argument :: rest =>
    match classify forms argument with
    | .separator =>
      match rest with
      | [] => .ok (given, [])
      | next :: _ => .error (.refused (.unexpected next))
    | .help => .error .help
    | .unknown => .error (.refused (.unexpected argument))
    | .free => .ok (given, argument :: rest)
    | .option form value =>
      match form.kind, value, rest with
      | .switch, none, rest => do scan forms (← note form "" given) rest
      | .switch, some _, _ => .error (.refused (.superfluousValue form.name))
      | _, some value, rest => do scan forms (← note form value given) rest
      | _, none, [] => .error (.refused (.missingValue form.name))
      | _, none, value :: rest =>
        if canBeValue value then do scan forms (← note form value given) rest
        else .error (.refused (.missingValue form.name))

/-! ## Commands -/

/-- The options that may stand before a command. -/
def globalForms : List Form :=
  [⟨"config", some 'c', .path⟩, ⟨"chain-id", none, .number⟩, ⟨"devnet", none, .switch⟩,
   ⟨"update-interval", none, .number⟩, ⟨"treasury", none, .text⟩]

/-- The options of a command, if there is such a command. -/
def commandForms? : String → Option (List Form)
  | "init" => some [⟨"output", some 'o', .path⟩, ⟨"force", none, .switch⟩]
  | "genesis-info" => some [⟨"json", none, .switch⟩]
  | "version" => some []
  | _ => none

/-- The options of the program, by what was given. -/
def givenOptions (given : Given) : Options where
  config := given.lookup "config"
  chainId := (given.lookup "chain-id").bind Text.uint64?
  devnet := (given.lookup "devnet").isSome
  updateInterval := (given.lookup "update-interval").bind Text.uint64?
  treasury := given.lookup "treasury"

def givenCommand (name : String) (given : Given) : Command :=
  match name with
  | "init" => .init ((given.lookup "output").getD "o2ul.toml") (given.lookup "force").isSome
  | "genesis-info" => .genesisInfo (given.lookup "json").isSome
  | _ => .version

/-- The topic that is asked for after the word `help`. -/
def helpTopic : List String → Except Stop Command
  | [] => .ok (.help none)
  | [name] =>
    if (commandForms? name).isSome ∨ name = "help" then .ok (.help (some name))
    else .error (.refused (.unknownCommand name))
  | _ :: next :: _ => .error (.refused (.unknownCommand next))

/-- What follows the name of a command. -/
def readCommand (name : String) (arguments : List String) : Except Stop Command :=
  if name = "help" then helpTopic arguments
  else
    match commandForms? name with
    | none => .error (.refused (.unknownCommand name))
    | some forms =>
      match scan forms [] arguments with
      | .error .help => .ok (.help (some name))
      | .error stop => .error stop
      | .ok (given, []) => .ok (givenCommand name given)
      | .ok (_, next :: _) => .error (.refused (.unexpected next))

/-- Reads a command line, or tells why there is nothing to run. -/
def read (arguments : List String) : Except Stop Invocation := do
  match ← scan globalForms [] arguments with
  | (given, []) => return ⟨givenOptions given, .serve⟩
  | (given, name :: rest) => return ⟨givenOptions given, ← readCommand name rest⟩

/-- The invocation that arguments ask for. -/
def parse (arguments : List String) : Except ArgumentError Invocation :=
  match read arguments with
  | .ok invocation => .ok invocation
  | .error .help => .ok ⟨givenOptions [], .help none⟩
  | .error (.refused cause) => .error cause

end Invocation

end StableSupply
