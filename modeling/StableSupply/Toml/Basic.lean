/-! # TOML values

Scalars, and tables of named values. A table keeps how it came to be, because that decides what a
document may still add to it. -/

namespace StableSupply.Toml

/-- A value without parts. -/
inductive Scalar
  | integer (n : Int)
  | text (s : String)
  | boolean (b : Bool)
  /-- A number with a fraction or an exponent, as it was written. -/
  | float (literal : String)
  /-- A date, a time, or both, as it was written. -/
  | date (literal : String)
  deriving DecidableEq

/-- How a table came to be. -/
inductive Origin
  /-- As a value; it is complete. -/
  | inline
  /-- By a header of its own. -/
  | headed
  /-- By the header of a table below it. -/
  | implied
  /-- By a dotted key. -/
  | dotted
  deriving DecidableEq

/-- A value of a document. -/
inductive Value
  | scalar (s : Scalar)
  | list (items : List Value)
  | table (origin : Origin) (fields : List (String × Value))
  /-- A table for each of several headers of one name. -/
  | tables (entries : List (List (String × Value)))

/-- The content of a table, in the order in which it was added. -/
abbrev Fields := List (String × Value)

namespace Fields

/-- Another value for a key that is there. -/
def replace (key : String) (value : Value) (fields : Fields) : Fields :=
  fields.map fun (k, v) => if k = key then (k, value) else (k, v)

/-- A value for a new key. -/
def add? (key : String) (value : Value) (fields : Fields) : Option Fields :=
  if (fields.lookup key).isSome then none else some (fields ++ [(key, value)])

/-- Whether a path that makes tables of one origin may pass through a table of another. Dotted keys
stay out of tables that are written elsewhere. -/
def passes (path through : Origin) : Bool :=
  match through with
  | .inline => false
  | .headed => path ≠ .dotted
  | .implied | .dotted => true

/-- Changes the fields at the end of a path. Tables missing on the way come to be; of several tables
of one name the path takes the last. -/
def change? (path : Origin) (change : Origin → Fields → Option Fields) :
    (keys : List String) → Origin → Fields → Option Fields
  | [], origin, fields => change origin fields
  | key :: keys, _, fields =>
    match fields.lookup key with
    | none => do
      let below ← change? path change keys path []
      return fields ++ [(key, .table path below)]
    | some (.table origin below) => do
      if !passes path origin then none
      let below ← change? path change keys origin below
      return replace key (.table origin below) fields
    | some (.tables entries) => do
      let below ← change? path change keys .headed (← entries.getLast?)
      return replace key (.tables (entries.dropLast ++ [below])) fields
    | some _ => none

/-- Adds a value under a key, of which all but the last part name tables. Such tables are the dotted
keys' own. -/
def addDotted? (path : List String) (key : String) (value : Value) (fields : Fields) :
    Option Fields :=
  change? .dotted
    (fun origin fields =>
      if path = [] ∨ origin = .dotted then fields.add? key value else none)
    path .headed fields

/-- Makes the table of a header. A table that other headers implied is made only once. -/
def addTable? (path : List String) (key : String) (fields : Fields) : Option Fields :=
  change? .implied
    (fun _ fields =>
      match fields.lookup key with
      | none => fields.add? key (.table .headed [])
      | some (.table .implied below) => some (fields.replace key (.table .headed below))
      | some _ => none)
    path .headed fields

/-- Makes one more table of a name. -/
def addEntry? (path : List String) (key : String) (fields : Fields) : Option Fields :=
  change? .implied
    (fun _ fields =>
      match fields.lookup key with
      | none => fields.add? key (.tables [[]])
      | some (.tables entries) => some (fields.replace key (.tables (entries ++ [[]])))
      | some _ => none)
    path .headed fields

end Fields

end StableSupply.Toml
