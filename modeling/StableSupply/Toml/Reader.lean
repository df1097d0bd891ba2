import StableSupply.Text.Scan
import StableSupply.Toml.Basic

/-! # Reading TOML

A reader of TOML documents. Integers have 64 bits, and neither keys nor values nest deeper than 79
levels. -/

namespace StableSupply.Toml

open Text (Scan word hexDigit? hexNumber?)

/-! ## Blanks, line ends and comments -/

def isBlank (c : Char) : Bool := c = ' ' || c = '\t'

def skipBlank (cs : List Char) : List Char := cs.dropWhile isBlank

/-- A tab, or anything that is no control character of ASCII. -/
def isPlain (c : Char) : Bool := c = '\t' || (0x20 ≤ c.toNat && c.toNat ≠ 0x7f)

/-- The rest after a line feed or a carriage return and a line feed. -/
def lineBreak? : List Char → Option (List Char)
  | '\n' :: rest => some rest
  | '\r' :: '\n' :: rest => some rest
  | _ => none

/-- The rest after a line on which nothing or only a comment is left. -/
def endLine (cs : List Char) : Option (List Char) :=
  let cs := match skipBlank cs with
    | '#' :: rest => rest.dropWhile isPlain
    | cs => cs
  if cs.isEmpty then some [] else lineBreak? cs

/-- The rest after blanks, line breaks and comments; a comment ends at a line break. -/
def skipLines : (inComment : Bool) → List Char → Option (List Char)
  | _, '\n' :: rest => skipLines false rest
  | _, '\r' :: '\n' :: rest => skipLines false rest
  | true, c :: rest => if isPlain c then skipLines true rest else none
  | false, c :: rest =>
    if c = '#' then skipLines true rest
    else if isBlank c then skipLines false rest
    else some (c :: rest)
  | true, [] => none
  | false, [] => some []

/-- The rest after blanks and line breaks. -/
def skipBreaks : List Char → List Char
  | '\n' :: rest => skipBreaks rest
  | '\r' :: '\n' :: rest => skipBreaks rest
  | c :: rest => if isBlank c then skipBreaks rest else c :: rest
  | [] => []

/-! ## Strings -/

/-- One more character in front of what is scanned. -/
def cons (c : Char) (scanned : Option (List Char × List Char)) : Option (List Char × List Char) :=
  scanned.map fun (cs, rest) => (c :: cs, rest)

/-- The character whose code hexadecimal digits write. -/
def codeChar? (ds : List Char) : Option Char := do
  let n ← hexNumber? ds
  if n.isValidChar then some (Char.ofNat n) else none

/-- What a single letter stands for after a backslash. -/
def escapeChar? : Char → Option Char
  | '"' => some '"'
  | '\\' => some '\\'
  | 'b' => some '\x08'
  | 'f' => some '\x0c'
  | 'n' => some '\n'
  | 'r' => some '\r'
  | 't' => some '\t'
  | _ => none

/-- What follows a backslash. -/
def escapeSequence : Scan Char
  | 'u' :: a :: b :: c :: d :: rest => (codeChar? [a, b, c, d]).map (·, rest)
  | 'U' :: a :: b :: c :: d :: e :: f :: g :: h :: rest =>
    (codeChar? [a, b, c, d, e, f, g, h]).map (·, rest)
  | c :: rest => (escapeChar? c).map (·, rest)
  | [] => none

/-- A string in double quotes, from after the first. -/
def basicText : (fuel : Nat) → Scan (List Char)
  | 0, _ => none
  | _ + 1, [] => none
  | fuel + 1, c :: rest =>
    if c = '"' then some ([], rest)
    else if c = '\\' then do
      let (c, rest) ← escapeSequence rest
      cons c (basicText fuel rest)
    else if isPlain c then cons c (basicText fuel rest)
    else none

/-- A string in single quotes, from after the first. -/
def literalText : Scan (List Char)
  | [] => none
  | c :: rest =>
    if c = '\'' then some ([], rest)
    else if isPlain c then cons c (literalText rest)
    else none

/-- The end of a string on several lines: three quotes, with up to two before them that belong to
the string. -/
def closing? (quote : Char) : Scan (List Char) := fun cs =>
  let run := (cs.takeWhile (· = quote)).length
  if run < 3 then none
  else some (List.replicate (min (run - 3) 2) quote, cs.drop (min run 5))

/-- A string on several lines. A backslash at the end of a line takes out the break and the blanks
after it. -/
def linesText (quote : Char) : (fuel : Nat) → Scan (List Char)
  | 0, _ => none
  | fuel + 1, cs =>
    match closing? quote cs, lineBreak? cs, cs with
    | some found, _, _ => some found
    | none, some rest, _ => cons '\n' (linesText quote fuel rest)
    | none, none, [] => none
    | none, none, c :: rest =>
      if c = '\\' ∧ quote = '"' then
        match lineBreak? (skipBlank rest) with
        | some rest => linesText quote fuel (skipBreaks rest)
        | none => do
          let (c, rest) ← escapeSequence rest
          cons c (linesText quote fuel rest)
      else if isPlain c then cons c (linesText quote fuel rest)
      else none

/-- A string on several lines, from after its opening quotes. A break right after them is left
out. -/
def openedLines (quote : Char) : Scan (List Char) := fun cs =>
  linesText quote (cs.length + 1) ((lineBreak? cs).getD cs)

/-- A text in any of the four forms. -/
def text : Scan String := fun cs => do
  let (chars, rest) ←
    match cs with
    | '"' :: '"' :: '"' :: rest => openedLines '"' rest
    | '"' :: rest => basicText (rest.length + 1) rest
    | '\'' :: '\'' :: '\'' :: rest => openedLines '\'' rest
    | '\'' :: rest => literalText rest
    | _ => none
  return (.ofList chars, rest)

/-! ## Keys -/

/-- A character that a bare key may have. -/
def isKeyChar (c : Char) : Bool :=
  c.isAlphanum || c = '-' || c = '_'

/-- A key in quotes or a bare one. -/
def simpleKey : Scan String := fun cs =>
  match cs with
  | '"' :: rest => (basicText (rest.length + 1) rest).map fun (k, rest) => (.ofList k, rest)
  | '\'' :: rest => (literalText rest).map fun (k, rest) => (.ofList k, rest)
  | cs =>
    let k := cs.takeWhile isKeyChar
    if k.isEmpty then none else some (.ofList k, cs.dropWhile isKeyChar)

/-- The parts of a key between its dots, all but the last, and the last. -/
def dottedKey : (limit : Nat) → Scan (List String × String)
  | 0, _ => none
  | limit + 1, cs => do
    let (key, cs) ← simpleKey (skipBlank cs)
    match skipBlank cs with
    | '.' :: rest =>
      let ((path, last), rest) ← dottedKey limit rest
      return ((key :: path, last), rest)
    | rest => return (([], key), rest)

/-- How many parts a key may have, and how deep a value may nest. -/
def depthLimit : Nat := 79

/-! ## Numbers -/

/-- Further digits; single underscores may stand between digits. -/
def moreDigits (isDigit : Char → Bool) : Scan (List Char)
  | [] => some ([], [])
  | '_' :: c :: rest => if isDigit c then cons c (moreDigits isDigit rest) else none
  | c :: rest => if isDigit c then cons c (moreDigits isDigit rest) else some ([], c :: rest)

/-- Digits, of which single ones may be set apart by underscores. -/
def groupedDigits (isDigit : Char → Bool) : Scan (List Char)
  | [] => none
  | c :: rest => if isDigit c then cons c (moreDigits isDigit rest) else none

/-- Decimal digits without superfluous zeros in front. -/
def wholeDigits : Scan (List Char)
  | '0' :: rest => some (['0'], rest)
  | cs => groupedDigits Char.isDigit cs

/-- Whether there is a minus sign, and the rest after a sign of either kind. -/
def skipSign : List Char → Bool × List Char
  | '-' :: rest => (true, rest)
  | '+' :: rest => (false, rest)
  | cs => (false, cs)

/-- An integer of 64 bits. -/
def integer64 (negative : Bool) (magnitude : Nat) : Option Value :=
  let n : Int := if negative then -magnitude else magnitude
  if -2 ^ 63 ≤ n ∧ n < 2 ^ 63 then some (.scalar (.integer n)) else none

def isBaseDigit (base : Nat) (c : Char) : Bool := (hexDigit? c).any (· < base)

/-- The number that digits of a base write. -/
def ofDigits (base : Nat) (ds : List Char) : Nat :=
  ds.foldl (fun n c => n * base + (hexDigit? c).getD 0) 0

/-- Digits of a base after its mark. -/
def basedInteger (base : Nat) : Scan Value := fun cs => do
  let (ds, rest) ← groupedDigits (isBaseDigit base) cs
  return (← integer64 false (ofDigits base ds), rest)

/-- An integer of 64 bits, in any base. -/
def integer : Scan Value
  | '0' :: 'x' :: rest => basedInteger 16 rest
  | '0' :: 'o' :: rest => basedInteger 8 rest
  | '0' :: 'b' :: rest => basedInteger 2 rest
  | cs => do
    let (negative, cs) := skipSign cs
    let (ds, rest) ← wholeDigits cs
    return (← integer64 negative (ofDigits 10 ds), rest)

/-- The digits after a decimal point, none if there is no point. -/
def fraction : Scan (Option (List Char))
  | '.' :: rest => (groupedDigits Char.isDigit rest).map fun (ds, rest) => (some ds, rest)
  | cs => some (none, cs)

/-- An exponent, if one follows. -/
def exponent : Scan (Option Int)
  | c :: cs =>
    if c = 'e' ∨ c = 'E' then do
      let (negative, cs) := skipSign cs
      let (ds, rest) ← groupedDigits Char.isDigit cs
      let n : Int := ofDigits 10 ds
      return (some (if negative then -n else n), rest)
    else some (none, c :: cs)
  | [] => some (none, [])

/-- Whether a float of 64 bits that is nearest to `m * 10 ^ e` is infinite. -/
def isTooLarge (m : Nat) (e : Int) : Bool :=
  let size := (Nat.toDigits 10 m).length + e
  if m = 0 ∨ size < 309 then false
  else if 309 < size then true
  else (2 ^ 1024 - 2 ^ 970) * 10 ^ (-e).toNat ≤ m * 10 ^ e.toNat

/-- What a scan passed over, as it was written. -/
def passed (cs rest : List Char) : String := .ofList (cs.take (cs.length - rest.length))

/-- A number with a fraction, an exponent or both, or one of the words for what is no number. A
number above all finite ones is refused. -/
def float : Scan Value := fun cs => do
  let (negative, unsigned) := skipSign cs
  let rest ← ((word "inf".toList unsigned).or (word "nan".toList unsigned)).or do
    let (whole, rest) ← wholeDigits unsigned
    let (fractional, rest) ← fraction rest
    let (power, rest) ← exponent rest
    if fractional.isNone ∧ power.isNone then none
    let decimals := fractional.getD []
    let m := ofDigits 10 (whole ++ decimals)
    if !negative ∧ isTooLarge m (power.getD 0 - decimals.length) then none
    return rest
  return (.scalar (.float (passed cs rest)), rest)

/-! ## Dates and times -/

/-- A number of `count` digits from `low` to `high`. -/
def fixedDigits (count low high : Nat) : Scan Nat := fun cs =>
  let ds := cs.take count
  let n := ofDigits 10 ds
  if ds.length = count ∧ ds.all Char.isDigit ∧ low ≤ n ∧ n ≤ high then some (n, cs.drop count)
  else none

/-- The number of days in a month. -/
def daysIn (year month : Nat) : Nat :=
  if month = 2 then
    if year % 4 = 0 ∧ (year % 100 ≠ 0 ∨ year % 400 = 0) then 29 else 28
  else if month = 4 ∨ month = 6 ∨ month = 9 ∨ month = 11 then 30
  else 31

/-- The rest after a day. -/
def skipDay (cs : List Char) : Option (List Char) := do
  let (year, cs) ← fixedDigits 4 0 9999 cs
  let (month, cs) ← fixedDigits 2 1 12 (← word ['-'] cs)
  let (_, cs) ← fixedDigits 2 1 (daysIn year month) (← word ['-'] cs)
  return cs

/-- The rest after a time of the day. -/
def skipTime (cs : List Char) : Option (List Char) := do
  let (_, cs) ← fixedDigits 2 0 23 cs
  let (_, cs) ← fixedDigits 2 0 59 (← word [':'] cs)
  let (_, cs) ← fixedDigits 2 0 60 (← word [':'] cs)
  match cs with
  | '.' :: rest =>
    if rest.head?.any Char.isDigit then return rest.dropWhile Char.isDigit else return cs
  | cs => return cs

/-- The rest after a distance from universal time. -/
def skipOffset : List Char → Option (List Char)
  | c :: rest =>
    if c = 'Z' ∨ c = 'z' then some rest
    else if c = '+' ∨ c = '-' then do
      let (_, rest) ← fixedDigits 2 0 23 rest
      let (_, rest) ← fixedDigits 2 0 59 (← word [':'] rest)
      return rest
    else none
  | [] => none

/-- The rest after the time that follows a day. -/
def skipTimeOfDay : List Char → Option (List Char)
  | c :: rest => do
    if c ≠ 'T' ∧ c ≠ 't' ∧ c ≠ ' ' then none
    let rest ← skipTime rest
    return (skipOffset rest).getD rest
  | [] => none

/-- A date, a time of day, or both. -/
def date : Scan Value := fun cs => do
  let rest ← ((skipDay cs).map fun rest => (skipTimeOfDay rest).getD rest).or (skipTime cs)
  return (.scalar (.date (passed cs rest)), rest)

/-! ## Values -/

def boolean : Scan Value := fun cs =>
  ((word "true".toList cs).map (.scalar (.boolean true), ·)).or
    ((word "false".toList cs).map (.scalar (.boolean false), ·))

/-- A value without parts, of the first kind that it reads as. -/
def scalar : Scan Value := fun cs =>
  ((text cs).map fun (s, rest) => (.scalar (.text s), rest)).or <|
    (boolean cs).or <| (date cs).or <| (float cs).or (integer cs)

/-- The items of a list, from after its opening bracket. -/
def items (item : Scan Value) : (fuel : Nat) → Scan (List Value)
  | 0, _ => none
  | fuel + 1, cs => do
    match ← skipLines false cs with
    | ']' :: rest => return ([], rest)
    | cs =>
      let (v, cs) ← item cs
      match ← skipLines false cs with
      | ',' :: rest =>
        let (vs, rest) ← items item fuel rest
        return (v :: vs, rest)
      | ']' :: rest => return ([v], rest)
      | _ => none

/-- A key and its value. -/
structure Entry where
  path : List String
  key : String
  value : Value

/-- A key, perhaps a dotted one, and the value that it is given. -/
def entry (value : Scan Value) : Scan Entry := fun cs => do
  let ((path, key), cs) ← dottedKey depthLimit cs
  let cs ← word ['='] cs
  let (v, cs) ← value (skipBlank cs)
  return (⟨path, key, v⟩, cs)

/-- At least one entry of a table on one line, and its closing brace. -/
def inlineEntries (value : Scan Value) : (fuel : Nat) → Scan (List Entry)
  | 0, _ => none
  | fuel + 1, cs => do
    let (e, cs) ← entry value cs
    match skipBlank cs with
    | ',' :: rest =>
      let (es, rest) ← inlineEntries value fuel rest
      return (e :: es, rest)
    | '\x7d' :: rest => return ([e], rest)
    | _ => none

/-- A table on one line, from after its opening brace. -/
def inlineTable (value : Scan Value) : Scan Value := fun cs => do
  let (entries, rest) ←
    match skipBlank cs with
    | '\x7d' :: rest => pure ([], rest)
    | cs => inlineEntries value (cs.length + 1) cs
  let fields ← entries.foldlM (fun fields e => Fields.addDotted? e.path e.key e.value fields) []
  return (.table .inline fields, rest)

/-- A value with at most `depth` lists and tables around what is in it. -/
def value : (depth : Nat) → Scan Value
  | 0, cs => scalar cs
  | depth + 1, cs =>
    match cs with
    | '[' :: rest =>
      (items (value depth) (rest.length + 1) rest).map fun (vs, rest) => (.list vs, rest)
    | '\x7b' :: rest => inlineTable (value depth) rest
    | cs => scalar cs

/-! ## Documents -/

/-- A line of a document. -/
inductive Line
  | blank
  | entry (entry : Entry)
  | header (path : List String) (key : String)
  /-- A header that may come again. -/
  | repeatable (path : List String) (key : String)

/-- One line, or more if a value reaches over several. -/
def line : Scan Line := fun cs => do
  let (found, rest) ←
    match skipBlank cs with
    | '[' :: '[' :: rest => do
      let ((path, key), rest) ← dottedKey depthLimit rest
      pure (.repeatable path key, ← word "]]".toList rest)
    | '[' :: rest => do
      let ((path, key), rest) ← dottedKey depthLimit rest
      pure (.header path key, ← word [']'] rest)
    | cs =>
      if (endLine cs).isSome then pure (.blank, cs)
      else do
        let (e, rest) ← entry (value depthLimit) cs
        pure (.entry e, rest)
  return (found, ← endLine rest)

/-- The lines of a document. -/
def lines : (fuel : Nat) → List Char → Option (List Line)
  | 0, _ => none
  | fuel + 1, cs => do
    if cs.isEmpty then return []
    let (first, rest) ← line cs
    return first :: (← lines fuel rest)

/-- A document being put together, and the table that entries go to. -/
structure Draft where
  fields : Fields
  current : List String

/-- Adds a line, unless it contradicts the lines before it. -/
def Draft.add? (d : Draft) : Line → Option Draft
  | .blank => some d
  | .entry e => do
    let fields ← d.fields.change? .implied
      (fun _ fields => fields.addDotted? e.path e.key e.value) d.current .headed
    return { d with fields }
  | .header path key => do return ⟨← d.fields.addTable? path key, path ++ [key]⟩
  | .repeatable path key => do return ⟨← d.fields.addEntry? path key, path ++ [key]⟩

/-- The table that a document writes. A mark of the byte order may stand before it. -/
def parse? (document : String) : Option Fields := do
  let cs := match document.toList with
    | '\ufeff' :: rest => rest
    | cs => cs
  let found ← lines (cs.length + 1) cs
  let draft ← found.foldlM Draft.add? ⟨[], []⟩
  return draft.fields

end StableSupply.Toml
