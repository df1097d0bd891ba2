import StableSupply.Keccak
import StableSupply.Node.Run
import Std.Async.Signal
import Std.Time.DateTime.Timestamp

/-! # The program

Commands on the machine at hand: its files, clock, environment and standard streams. -/

namespace StableSupply

/-- Actions on this machine, with the file that the log goes to. -/
abbrev Terminal := StateT (Option String) IO

namespace Terminal

/-- What has gone wrong with a file, as far as messages tell failures apart. -/
def fileError : IO.Error → FileError
  | .noFileOrDirectory .. => .notFound
  | .noSuchThing .. => .notFound
  | .alreadyExists .. => .isThere
  | .inappropriateType _ _ details =>
    if details.contains "Is a" then .isDirectory else .notDirectory
  | .userError _ => .notText
  | e => .other (toString e)

/-- What an action gives, or why it failed. -/
def attempt {α : Type} (action : IO α) : Terminal (Except FileError α) := do
  match ← action.toBaseIO with
  | .ok a => return .ok a
  | .error e => return .error (fileError e)

/-- The text up to the last slash. -/
def parentText (path : String) : String :=
  .ofList ((path.toList.reverse.dropWhile (· ≠ '/')).drop 1).reverse

/-- Makes the directories on the way to a file. -/
def makeParents (path : String) : IO Unit :=
  let parent := parentText path
  if parent.isEmpty then return else IO.FS.createDirAll parent

/-- How often an interrupt is looked for, in milliseconds. -/
def pulse : Nat := 100

variable [Digest]

/-- Lets time pass until there is an interrupt. -/
partial def keepTime (interrupted : IO Bool) (s : Schedule OpenGate PegBand.State) : IO Unit := do
  if ← interrupted then return
  IO.sleep (.ofNat pulse)
  keepTime interrupted (s.advance pulse)

instance : Host Terminal where
  unixSeconds := do return (← Std.Time.Timestamp.now).toSecondsSinceUnixEpoch.val
  environment name := IO.getEnv name
  read path := attempt (IO.FS.readFile path)
  holds path := do
    match ← attempt (IO.FS.realPath path) with
    | .ok _ => return true
    | .error _ => return false
  write path text := attempt do
    makeParents path
    IO.FS.writeFile path text
  print line := do (← IO.getStdout).putStrLn line
  complain line := do (← IO.getStderr).putStrLn line
  openLog path := do
    match ← attempt (do makeParents path; discard (IO.FS.Handle.mk path .append)) with
    | .ok _ => set (some path)
    | .error e => (← IO.getStderr).putStrLn ("Warning: no log file: " ++ e.message)
  log line := do
    match ← get with
    | some path => (← IO.FS.Handle.mk path .append).putStrLn line
    | none => (← IO.getStderr).putStrLn line
  serve schedule := do
    let waiter ← Std.Async.Signal.Waiter.mk .sigint false
    let interrupt ← waiter.wait
    keepTime (IO.hasFinished interrupt) schedule

end Terminal

end StableSupply

open StableSupply in
/-- Runs the program with Keccak-256 as digest. -/
def main (arguments : List String) : IO UInt32 := do
  let _ : Digest := Keccak.digest
  let (code, _) ← (Run.program arguments : Terminal UInt32).run none
  return code
