/-! # Blank characters

The characters with the White_Space property of Unicode, and texts stripped of them at both ends. -/

namespace StableSupply.Text

/-- The characters that Unicode counts as white space. -/
def isBlank (c : Char) : Bool :=
  let n := c.toNat
  (9 ≤ n && n ≤ 13) || n = 0x20 || n = 0x85 || n = 0xa0 || n = 0x1680 ||
    (0x2000 ≤ n && n ≤ 0x200a) || n = 0x2028 || n = 0x2029 || n = 0x202f || n = 0x205f || n = 0x3000

def stripStart (chars : List Char) : List Char := chars.dropWhile isBlank

/-- The text without the blanks on either side. -/
def strip (text : String) : String :=
  .ofList (stripStart (stripStart text.toList).reverse).reverse

/-- Letters of the Latin alphabet in lower case, everything else as it is. -/
def lower (text : String) : String := .ofList (text.toList.map Char.toLower)

/-- The pieces between the separators, of which there is always one more. -/
def splitAt (separator : Char) : List Char → List (List Char)
  | [] => [[]]
  | c :: rest =>
    match splitAt separator rest with
    | [] => [[c]]
    | piece :: pieces => if c = separator then [] :: piece :: pieces else (c :: piece) :: pieces

end StableSupply.Text
