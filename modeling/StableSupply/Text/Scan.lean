import StableSupply.Bytes

/-! # Scanning

A scan reads something from the front of a text and gives it with the rest, or finds nothing there.
-/

namespace StableSupply.Text

/-- Reads the beginning of a text, if it is of the right form, and gives the rest. -/
abbrev Scan (α : Type) := List Char → Option (α × List Char)

/-- The rest after a given word. -/
def word : List Char → List Char → Option (List Char)
  | [], rest => some rest
  | c :: cs, d :: rest => if c = d then word cs rest else none
  | _ :: _, [] => none

/-- At least one decimal digit, and all that follow. -/
def digits : Scan (List Char) := fun cs =>
  let ds := cs.takeWhile Char.isDigit
  if ds.isEmpty then none else some (ds, cs.dropWhile Char.isDigit)

/-- The value of a hexadecimal digit of either case. -/
def hexDigit? (c : Char) : Option Nat := Bytes.hexValue? c.toNat

/-- The number that hexadecimal digits of either case write. -/
def hexNumber? (ds : List Char) : Option Nat :=
  ds.foldlM (fun n c => do return n * 16 + (← hexDigit? c)) 0

/-- The number that a text of decimal digits writes, with or without a plus sign. -/
def uint64? (text : String) : Option UInt64 := do
  let cs := match text.toList with
    | '+' :: rest => rest
    | cs => cs
  let (ds, rest) ← digits cs
  let n := Nat.ofDigitChars 10 ds 0
  if rest.isEmpty ∧ n < 2 ^ 64 then some (.ofNat n) else none

end StableSupply.Text
