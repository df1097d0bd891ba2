/-! # JSON values

Values in the order in which they are written, and their compact and indented texts. Only integers
are kept as numbers; nothing here reads or writes another number, so one that is read keeps no
value. A string with half of a surrogate pair can be skipped over but has no text. -/

namespace StableSupply

/-- A JSON document, with numbers as far as they are integers. -/
inductive Json
  | null
  | bool (b : Bool)
  | integer (n : Int)
  /-- A number with a fraction or an exponent, or minus zero. -/
  | fraction
  | text (s : String)
  /-- A string that is no text. -/
  | brokenText
  | list (items : List Json)
  /-- A key that is no text is none. -/
  | object (fields : List (Option String × Json))

namespace Json

/-- An object of which every key is a text. -/
def ofFields (fields : List (String × Json)) : Json :=
  .object (fields.map fun (key, value) => (some key, value))

/-! ## Writing -/

/-- The digits of a four-digit hexadecimal number. -/
def hex4 (n : Nat) : List Char :=
  [n / 4096 % 16, n / 256 % 16, n / 16 % 16, n % 16].map Nat.digitChar

/-- A character as it stands in a string. -/
def escape (c : Char) : List Char :=
  if c = '"' then ['\\', '"']
  else if c = '\\' then ['\\', '\\']
  else if c = '\x08' then ['\\', 'b']
  else if c = '\x0c' then ['\\', 'f']
  else if c = '\n' then ['\\', 'n']
  else if c = '\r' then ['\\', 'r']
  else if c = '\t' then ['\\', 't']
  else if c.toNat < 32 then '\\' :: 'u' :: hex4 c.toNat
  else [c]

/-- A text in quotes, escaped. -/
def quote (s : String) : String := .ofList ('"' :: s.toList.flatMap escape ++ ['"'])

/-- What stands between the parts of lists and objects. -/
structure Layout where
  /-- Before each entry of a list or object that is nested this deep. -/
  entry : (depth : Nat) → String
  /-- Before the bracket that closes what is nested this deep. -/
  close : (depth : Nat) → String
  colon : String

/-- All on one line, with no blanks. -/
def Layout.compact : Layout := ⟨fun _ => "", fun _ => "", ":"⟩

/-- One entry a line, two blanks for each level. -/
def Layout.indented : Layout :=
  let line (depth : Nat) : String := "\n" ++ .ofList (List.replicate (2 * depth) ' ')
  ⟨fun depth => line (depth + 1), line, ": "⟩

/-- Brackets around entries; there is nothing between the brackets of no entries. -/
def Layout.enclose (layout : Layout) (depth : Nat) (opening closing : String)
    (entries : List String) : String :=
  if entries.isEmpty then opening ++ closing
  else
    opening ++ String.intercalate "," (entries.map (layout.entry depth ++ ·)) ++
      layout.close depth ++ closing

mutual

/-- The text of a document that stands at a depth. -/
def render (layout : Layout) (depth : Nat) : Json → String
  | .null | .fraction | .brokenText => "null"
  | .bool b => if b then "true" else "false"
  | .integer n => toString n
  | .text s => quote s
  | .list items => layout.enclose depth "[" "]" (renderItems layout (depth + 1) items)
  | .object fields => layout.enclose depth "\x7b" "\x7d" (renderFields layout (depth + 1) fields)

/-- The texts of the items of a list. -/
def renderItems (layout : Layout) (depth : Nat) : List Json → List String
  | [] => []
  | item :: rest => render layout depth item :: renderItems layout depth rest

/-- The texts of the fields of an object, each with its name. -/
def renderFields (layout : Layout) (depth : Nat) : List (Option String × Json) → List String
  | [] => []
  | (key, value) :: rest =>
    (quote (key.getD "") ++ layout.colon ++ render layout depth value) ::
      renderFields layout depth rest

end

def compact (j : Json) : String := j.render .compact 0

def indented (j : Json) : String := j.render .indented 0

end Json

end StableSupply
