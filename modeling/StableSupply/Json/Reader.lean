import StableSupply.Json.Basic
import StableSupply.Text.Scan

/-! # Reading JSON

A reader of the JSON grammar that accepts exactly one value with blanks around it. -/

namespace StableSupply.Json

open Text (Scan word digits hexNumber?)

/-- A character that may stand between two parts of a document. -/
def isBlank (c : Char) : Bool := c = ' ' || c = '\n' || c = '\t' || c = '\r'

def skipBlank (cs : List Char) : List Char := cs.dropWhile isBlank

/-! ## Numbers -/

/-- A whole number without superfluous zeros in front. -/
def natural : Scan Nat
  | '0' :: rest => if (rest.head?.any Char.isDigit) then none else some (0, rest)
  | cs => (digits cs).map fun (ds, rest) => (Nat.ofDigitChars 10 ds 0, rest)

/-- The rest after a fraction, if there is one, and whether there is. -/
def skipFraction : Scan Bool
  | '.' :: cs => (digits cs).map fun (_, rest) => (true, rest)
  | cs => some (false, cs)

/-- Passes over an exponent, and tells whether there was one. -/
def skipExponent : Scan Bool
  | c :: cs =>
    if c = 'e' ∨ c = 'E' then
      let cs := match cs with
        | '+' :: rest | '-' :: rest => rest
        | cs => cs
      (digits cs).map fun (_, rest) => (true, rest)
    else some (false, c :: cs)
  | [] => some (false, [])

/-- A number after its sign. -/
def unsigned (negative : Bool) : Scan Json := fun cs => do
  let (n, cs) ← natural cs
  let (hasFraction, cs) ← skipFraction cs
  let (hasExponent, cs) ← skipExponent cs
  let value :=
    if hasFraction || hasExponent || (negative && n = 0) then Json.fraction
    else .integer (if negative then -n else n)
  return (value, cs)

/-- A number, with or without a sign. -/
def number : Scan Json
  | '-' :: cs => unsigned true cs
  | cs => unsigned false cs

/-! ## Strings -/

/-- What a single letter stands for after a backslash. -/
def escapeCode? : Char → Option Nat
  | '"' => some 0x22
  | '\\' => some 0x5c
  | '/' => some 0x2f
  | 'b' => some 0x08
  | 'f' => some 0x0c
  | 'n' => some 0x0a
  | 'r' => some 0x0d
  | 't' => some 0x09
  | _ => none

/-- The codes of a string after its opening quote. Escapes give 16-bit units, of which two may make
a character. -/
def codes : Scan (List Nat)
  | '"' :: rest => some ([], rest)
  | '\\' :: 'u' :: a :: b :: c :: d :: rest => do
    let code ← hexNumber? [a, b, c, d]
    let (more, rest) ← codes rest
    return (code :: more, rest)
  | '\\' :: c :: rest => do
    let code ← escapeCode? c
    let (more, rest) ← codes rest
    return (code :: more, rest)
  | c :: rest => do
    if c.toNat < 32 then none
    let (more, rest) ← codes rest
    return (c.toNat :: more, rest)
  | [] => none

def isHigh (n : Nat) : Bool := 0xd800 ≤ n && n < 0xdc00

def isLow (n : Nat) : Bool := 0xdc00 ≤ n && n < 0xe000

/-- The characters of a list of codes, unless half of a surrogate pair stands alone in it. -/
def characters? : List Nat → Option (List Char)
  | [] => some []
  | high :: low :: rest =>
    if isHigh high && isLow low then
      (characters? rest).map
        (Char.ofNat (0x10000 + (high - 0xd800) * 0x400 + (low - 0xdc00)) :: ·)
    else if isHigh high || isLow high then none
    else (characters? (low :: rest)).map (Char.ofNat high :: ·)
  | [n] => if isHigh n || isLow n then none else some [Char.ofNat n]

/-- A string after its opening quote; none if it is no text. -/
def string : Scan (Option String) := fun cs =>
  (codes cs).map fun (ns, rest) => ((characters? ns).map String.ofList, rest)

/-! ## Values -/

mutual

/-- A value with blanks before it. -/
def value : (fuel : Nat) → Scan Json
  | 0, _ => none
  | fuel + 1, cs =>
    match skipBlank cs with
    | 'n' :: rest => (word "ull".toList rest).map (.null, ·)
    | 't' :: rest => (word "rue".toList rest).map (.bool true, ·)
    | 'f' :: rest => (word "alse".toList rest).map (.bool false, ·)
    | '"' :: rest => (string rest).map fun (s, rest) => (s.elim .brokenText .text, rest)
    | '[' :: rest =>
      match skipBlank rest with
      | ']' :: rest => some (.list [], rest)
      | rest => (items fuel rest).map fun (vs, rest) => (.list vs, rest)
    | '\x7b' :: rest =>
      match skipBlank rest with
      | '\x7d' :: rest => some (.object [], rest)
      | rest => (fields fuel rest).map fun (fs, rest) => (.object fs, rest)
    | rest => number rest

/-- At least one item, and the closing bracket. -/
def items : (fuel : Nat) → Scan (List Json)
  | 0, _ => none
  | fuel + 1, cs => do
    let (v, rest) ← value fuel cs
    match skipBlank rest with
    | ',' :: rest => (items fuel rest).map fun (vs, rest) => (v :: vs, rest)
    | ']' :: rest => return ([v], rest)
    | _ => none

/-- At least one field, and the closing brace. -/
def fields : (fuel : Nat) → Scan (List (Option String × Json))
  | 0, _ => none
  | fuel + 1, cs => do
    let rest ← word ['"'] (skipBlank cs)
    let (key, rest) ← string rest
    let rest ← word [':'] (skipBlank rest)
    let (v, rest) ← value fuel rest
    match skipBlank rest with
    | ',' :: rest => (fields fuel rest).map fun (fs, rest) => ((key, v) :: fs, rest)
    | '\x7d' :: rest => return ([(key, v)], rest)
    | _ => none

end

/-- The value that a text writes. -/
def parse? (text : String) : Option Json := do
  let cs := text.toList
  let (v, rest) ← value (2 * cs.length + 2) cs
  if (skipBlank rest).isEmpty then some v else none

end StableSupply.Json
