import StableSupply.Node.Bootstrap
import StableSupply.Node.Files

/-! # Hosts

What commands need of the machine that they run on, and a machine that is a value: its clock stands
still, and a node on it is interrupted as soon as it waits. -/

namespace StableSupply

/-- What a program needs from the system that it runs on. -/
class Host (m : Type → Type) where
  /-- Whole seconds since the start of 1970. -/
  unixSeconds : m Int
  /-- A variable of the environment. -/
  environment : String → m (Option String)
  read : String → m (Except FileError String)
  /-- Whether there is a file or directory at a path. -/
  holds : String → m Bool
  /-- Writes a file and makes the directories on the way to it. -/
  write : String → String → m (Except FileError Unit)
  /-- A line of output. -/
  print : String → m Unit
  /-- A line about an error. -/
  complain : String → m Unit
  /-- Has the log written to a file from here on. -/
  openLog : String → m Unit
  /-- A line of the log. -/
  log : String → m Unit
  /-- Runs a started manager until the node is interrupted. -/
  serve : Schedule OpenGate PegBand.State → m Unit

/-- A system as far as programs see it, with files and output held in memory. -/
structure Machine where
  unixSeconds : Int
  environment : List (String × String)
  files : Files
  /-- Lines of output, the last one first. -/
  output : List String
  /-- Lines about errors, the last one first. -/
  complaints : List String
  /-- Lines of the log, the last one first. -/
  log : List String

namespace Machine

/-- Writes a file. Where that fails nothing has changed. -/
def write (path text : String) (machine : Machine) : Except FileError Unit × Machine :=
  match machine.files.write (.ofText path) text with
  | .ok files => (.ok (), { machine with files })
  | .error e => (.error e, machine)

/-- Makes a file without content where there is none. -/
def touch (path : String) (machine : Machine) : Machine :=
  if machine.files.holds (.ofText path) then machine else (machine.write path "").2

instance : Host (StateM Machine) where
  unixSeconds := return (← get).unixSeconds
  environment name := return (← get).environment.lookup name
  read path := return (← get).files.read (.ofText path)
  holds path := return (← get).files.holds (.ofText path)
  write path text := modifyGet (write path text)
  print line := modify fun s => { s with output := line :: s.output }
  complain line := modify fun s => { s with complaints := line :: s.complaints }
  openLog path := modify (touch path)
  log line := modify fun s => { s with log := line :: s.log }
  serve _ := return

/-- All output, each line with its end. -/
def outputText (machine : Machine) : String :=
  String.join (machine.output.reverse.map (· ++ "\n"))

end Machine

end StableSupply
