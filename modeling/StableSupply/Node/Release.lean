import StableSupply.Bytes
import StableSupply.Calendar

/-! # Version texts

A version is the minute at which it is asked for, the phase of development, and the start of a
commit if there is enough of it. -/

namespace StableSupply.Release

/-- The phase of development. -/
def phase : String := "alpha"

/-- The first characters that make exactly `bytes` bytes of UTF-8, if there are such. -/
def leading? : (bytes : Nat) → List Char → Option (List Char)
  | 0, _ => some []
  | _, [] => none
  | bytes, c :: rest =>
    if c.utf8Size ≤ bytes then (leading? (bytes - c.utf8Size) rest).map (c :: ·) else none

/-- The first eight bytes of a commit in brackets. -/
def commitText (commit : Option String) : String :=
  match commit.bind fun c => leading? 8 c.toList with
  | some start => " [" ++ .ofList start ++ "]"
  | none => ""

/-- The text of a release made at a time. -/
def text (unixSeconds : Int) (phase : String) (commit : Option String) : String :=
  let t := CivilTime.ofUnix unixSeconds
  "v" ++ CivilTime.yearText t.year ++ "." ++ padded 2 t.month ++ "." ++ padded 2 t.day ++ "." ++
    padded 2 t.hour ++ padded 2 t.minute ++ "-" ++ phase ++ commitText commit

/-- The text of this release, which knows of no commit. -/
def current (unixSeconds : Int) : String := text unixSeconds phase none

end StableSupply.Release
