import StableSupply.Text.Blank

/-! # Files

Texts under paths relative to a working directory. A directory is there as long as something is in
it. -/

namespace StableSupply

/-- Why a file is not read or written. -/
inductive FileError
  | notFound
  | isThere
  | notDirectory
  | isDirectory
  /-- The file does not hold UTF-8. -/
  | notText
  | other (description : String)
  deriving DecidableEq

def FileError.message : FileError → String
  | notFound => "No such file or directory (os error 2)"
  | isThere => "File exists (os error 17)"
  | notDirectory => "Not a directory (os error 20)"
  | isDirectory => "Is a directory (os error 21)"
  | notText => "stream did not contain valid UTF-8"
  | other description => description

/-- The way to a file or directory. -/
structure Path where
  /-- Of the directories on the way, and at the end of the file or directory itself. -/
  names : List String
  /-- A slash at the end, or a dot, says that a directory is meant. -/
  meansDirectory : Bool
  deriving DecidableEq

/-- Empty names and single dots do not count. -/
def Path.ofText (text : String) : Path :=
  let pieces := (Text.splitAt '/' text.toList).map String.ofList
  let counts (name : String) : Bool := name ≠ "" && name ≠ "."
  { names := pieces.filter counts
    meansDirectory := !(pieces.getLast?.any counts) }

/-- The texts under the names of their paths. -/
structure Files where
  texts : List (List String × String)

namespace Files

/-- The text of the file at the end of the names. -/
def text? (f : Files) (names : List String) : Option String := f.texts.lookup names

/-- There is a directory at the end of the names. -/
def IsDirectory (f : Files) (names : List String) : Prop :=
  names = [] ∨ ∃ t ∈ f.texts, names <+: t.1 ∧ names ≠ t.1

instance (f : Files) (names : List String) : Decidable (f.IsDirectory names) :=
  inferInstanceAs (Decidable (_ ∨ _))

/-- Whether a file stands where a directory is needed to get to these names. -/
def IsBlocked (f : Files) (names : List String) : Prop :=
  ∃ t ∈ f.texts, t.1 <+: names ∧ t.1 ≠ names

instance (f : Files) (names : List String) : Decidable (f.IsBlocked names) :=
  inferInstanceAs (Decidable (∃ _ ∈ _, _))

/-- Reads a file, or tells what is there instead. -/
def read (f : Files) (p : Path) : Except FileError String :=
  match f.text? p.names with
  | some text => if p.meansDirectory then .error .notDirectory else .ok text
  | none =>
    if f.IsBlocked p.names then .error .notDirectory
    else if f.IsDirectory p.names then .error .isDirectory
    else .error .notFound

/-- Whether there is a file or directory at a path. -/
def holds (f : Files) (p : Path) : Bool :=
  f.IsDirectory p.names || ((f.text? p.names).isSome && !p.meansDirectory)

/-- Writes a text in place of any that was there, and makes the directories on the way. -/
def write (f : Files) (p : Path) (text : String) : Except FileError Files :=
  let parent := p.names.dropLast
  if (f.text? parent).isSome then .error .isThere
  else if f.IsBlocked parent then .error .notDirectory
  else if p.meansDirectory ∨ f.IsDirectory p.names then .error .isDirectory
  else .ok ⟨(p.names, text) :: f.texts.filter fun t => t.1 ≠ p.names⟩

end Files

end StableSupply
