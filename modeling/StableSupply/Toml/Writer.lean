import StableSupply.Toml.Basic

/-! # Writing TOML

Documents of sections that hold scalars. -/

namespace StableSupply.Toml

/-! ## Strings

A string is written in the first of several forms that shows it without escapes: between double
quotes, single quotes, three double quotes, three single quotes. If none does, control characters
and backslashes are escaped. -/

/-- The length of the longest run of a character. -/
def longestRun (c : Char) : List Char → Nat
  | [] => 0
  | d :: rest => max ((d :: rest).takeWhile (· = c)).length (longestRun c rest)

/-- A control character other than a tab or a line feed. -/
def isControl (c : Char) : Bool :=
  (c.toNat < 0x20 || c.toNat = 0x7f) && c ≠ '\t' && c ≠ '\n'

/-- What a character is written as after a backslash, if it may not stand for itself. -/
def escape? (c : Char) : Option (List Char) :=
  if c = '\x08' then some ['b']
  else if c = '\t' then some ['t']
  else if c = '\x0c' then some ['f']
  else if c = '\r' then some ['r']
  else if c = '\\' then some ['\\']
  else if isControl c then
    some ['u', '0', '0', Nat.digitChar (c.toNat / 16), (Nat.digitChar (c.toNat % 16)).toUpper]
  else none

/-- The inside of a string in double quotes. On several lines, line feeds stand for themselves, and
so do double quotes, at most two in a row. -/
def escaped (manyLines : Bool) : (quotes : Nat) → List Char → List Char
  | _, [] => []
  | quotes, c :: rest =>
    if c = '"' then
      if manyLines && quotes < 2 then c :: escaped manyLines (quotes + 1) rest
      else '\\' :: c :: escaped manyLines 0 rest
    else if c = '\n' then
      if manyLines then c :: escaped manyLines 0 rest
      else '\\' :: 'n' :: escaped manyLines 0 rest
    else
      match escape? c with
      | some e => '\\' :: e ++ escaped manyLines 0 rest
      | none => c :: escaped manyLines 0 rest

/-- A text in the form that needs the least escaping. -/
def quoteText (s : String) : String :=
  let cs := s.toList
  let lines := cs.contains '\n'
  let control := cs.any isControl
  let start : List Char := if lines then ['\n'] else []
  let basic := '"' :: escaped false 0 cs ++ ['"']
  let basicLines := ['"', '"', '"'] ++ start ++ escaped true 0 cs ++ ['"', '"', '"']
  .ofList <|
    if !control && !cs.contains '\\' && !cs.contains '"' && !lines then basic
    else if !control && !cs.contains '\'' && !lines then '\'' :: cs ++ ['\'']
    else if !control && !cs.contains '\\' && longestRun '"' cs ≤ 2 then basicLines
    else if !control && longestRun '\'' cs ≤ 2 then
      ['\'', '\'', '\''] ++ start ++ cs ++ ['\'', '\'', '\'']
    else if lines then basicLines
    else basic

/-! ## Documents -/

/-- The text of a value without parts. -/
def Scalar.render : Scalar → String
  | integer n => toString n
  | text s => quoteText s
  | boolean b => if b then "true" else "false"
  | float literal => literal
  | date literal => literal

/-- A named table of scalars. -/
structure Section where
  name : String
  entries : List (String × Scalar)

/-- The lines of a section: its header, and one for each entry. -/
def Section.render (s : Section) : String :=
  "[" ++ s.name ++ "]\n" ++
    String.join (s.entries.map fun (key, value) => key ++ " = " ++ value.render ++ "\n")

/-- One section after the other with empty lines between. -/
def render (sections : List Section) : String :=
  String.intercalate "\n" (sections.map Section.render)

/-- What a document of these sections holds. -/
def Section.toFields (sections : List Section) : Fields :=
  sections.map fun s => (s.name, .table .headed (s.entries.map fun (key, v) => (key, .scalar v)))

end StableSupply.Toml
