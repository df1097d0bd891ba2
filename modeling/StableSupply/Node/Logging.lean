import StableSupply.Text.Blank

/-! # Logging settings

How much is logged, in which form and where, as the environment says. -/

namespace StableSupply.Logging

/-- How much a line of the log matters, from the least on. -/
inductive Level
  | trace
  | debug
  | info
  | warn
  | error
  deriving DecidableEq, Repr

namespace Level

def text : Level → String
  | trace => "trace"
  | debug => "debug"
  | info => "info"
  | warn => "warn"
  | error => "error"

/-- Blanks around the word and its case do not matter; any other word means `info`. No letter of
these words is the lower case of a character beyond the Latin alphabet. -/
def parse (text : String) : Level :=
  match Text.lower (Text.strip text) with
  | "trace" => trace
  | "debug" => debug
  | "warn" => warn
  | "error" => error
  | _ => info

end Level

/-- The way in which lines of the log are written. -/
inductive Format
  | pretty
  | json
  | compact
  deriving DecidableEq, Repr

namespace Format

def name : Format → String
  | pretty => "Pretty"
  | json => "Json"
  | compact => "Compact"

/-- The format that a text names. Any other text stands for the pretty one. -/
def parse (text : String) : Format :=
  match Text.lower (Text.strip text) with
  | "json" => json
  | "compact" => compact
  | _ => pretty

end Format

/-- What is logged, where and how. -/
structure Settings where
  level : Level
  format : Format
  colours : Bool
  file : Option String
  /-- Levels of single parts of the program. -/
  modules : List (String × Level)
  spanEvents : Bool
  location : Bool
  deriving DecidableEq

/-- The file that a variable names; the empty name is none. -/
def fileOf? (value? : Option String) : Option String := value?.filter fun path => !path.isEmpty

namespace Settings

def default : Settings where
  level := .info
  format := .pretty
  colours := true
  file := none
  modules := [("o2ul_economics", .info), ("o2ul_execution", .warn)]
  spanEvents := false
  location := false

/-- The level of the first directive that is for no single part. -/
def directiveLevel? (directives : String) : Option Level :=
  ((Text.splitAt ',' directives.toList).find? fun d => !d.contains '=').map fun d =>
    .parse (.ofList d)

/-- The settings that the variables of an environment ask for. -/
def ofEnvironment (lookup : String → Option String) : Settings :=
  { default with
    level := ((lookup "RUST_LOG").bind directiveLevel?).getD default.level
    format := ((lookup "LOG_FORMAT").map Format.parse).getD default.format
    file := fileOf? (lookup "LOG_FILE")
    colours := ((lookup "LOG_ANSI").map fun s => Text.lower s == "true").getD default.colours }

end Settings

end StableSupply.Logging
