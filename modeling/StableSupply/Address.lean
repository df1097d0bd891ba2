import StableSupply.Bytes
import StableSupply.Table

/-! # Account addresses

A 20-byte address and its text: `0x` and forty digits when written, and when read any number of
`0x`, then any number of `0X`, then forty digits of either case. -/

namespace StableSupply

/-! ## Reading hexadecimal text -/

/-- Why a text is not the hexadecimal form of a byte string. -/
inductive HexError
  | oddLength
  /-- The first byte of the text that is no digit, and where it stands. -/
  | badDigit (byte : UInt8) (position : Nat)
  deriving DecidableEq, Repr

namespace HexError

/-- A character of the first 256 as it stands between single quotes: the quote, the backslash,
control codes, the no-break space and the soft hyphen are escaped. -/
def quoted (c : Char) : String :=
  let hexText (n : Nat) : String := String.ofList (Nat.toDigits 16 n)
  if c = '\x00' then "\\0"
  else if c = '\t' then "\\t"
  else if c = '\n' then "\\n"
  else if c = '\r' then "\\r"
  else if c = '\'' then "\\'"
  else if c = '\\' then "\\\\"
  else if c.toNat < 32 ∨ (127 ≤ c.toNat ∧ c.toNat ≤ 160) ∨ c.toNat = 173 then
    "\\u\x7b" ++ hexText c.toNat ++ "\x7d"
  else c.toString

/-- What is said of a text that is no hexadecimal text. -/
def message : HexError → String
  | oddLength => "Odd number of digits"
  | badDigit byte position =>
    "Invalid character '" ++ quoted (Char.ofNat byte.toNat) ++ "' at position " ++ toString position

end HexError

/-- Reads pairs of digits from position `position` on; the earlier bad digit is reported. -/
def Bytes.ofHexPairs (position : Nat) : Bytes → Except HexError Bytes
  | high :: low :: rest =>
    match hexValue? high.toNat, hexValue? low.toNat with
    | none, _ => .error (.badDigit high position)
    | _, none => .error (.badDigit low (position + 1))
    | some h, some l => do
      let bytes ← ofHexPairs (position + 2) rest
      return UInt8.ofNat (h * 16 + l) :: bytes
  | _ => .ok []

/-- The byte string written by hexadecimal digits, themselves given as bytes. The length is judged
before the digits. -/
def Bytes.ofHex (digits : Bytes) : Except HexError Bytes :=
  if digits.length % 2 = 1 then .error .oddLength else ofHexPairs 0 digits

/-! ## Addresses -/

/-- An address, as the number that its 20 bytes write. -/
structure Address where
  toNat : Nat
  isLt : toNat < 2 ^ 160
  deriving DecidableEq

namespace Address

instance : KeyOrder Address := .ofRank toNat fun ⟨_, _⟩ ⟨_, _⟩ h => by cases h; rfl

/-- The address of all zeros, which stands for no account. -/
def zero : Address := ⟨0, by decide⟩

def IsZero (a : Address) : Prop := a.toNat = 0

instance (a : Address) : Decidable a.IsZero := inferInstanceAs (Decidable (_ = _))

/-- The reserved account numbered `id`. -/
def system (id : UInt16) : Address :=
  ⟨id.toNat, Nat.lt_trans id.toNat_lt (by decide)⟩

/-- The 20 bytes, the highest first. -/
def toBytes (a : Address) : Bytes := Bytes.ofNat 20 a.toNat

/-- Of byte strings, exactly those of 20 bytes are addresses. -/
def ofBytes? (bytes : Bytes) : Option Address :=
  if h : bytes.length = 20 then some ⟨bytes.toNat, Bytes.toNat_lt_of_length h⟩ else none

/-- `0x` and forty lower-case digits. -/
def text (a : Address) : String := "0x" ++ a.toBytes.toHex

/-- Why a text is no address. -/
inductive ParseError
  | invalidHex (reason : HexError)
  | invalidLength (expected actual : Nat)
  deriving DecidableEq, Repr

/-- Removes every leading copy of the two bytes `a`, `b`. -/
def dropPairs (a b : UInt8) : Bytes → Bytes
  | x :: y :: rest => if x = a ∧ y = b then dropPairs a b rest else x :: y :: rest
  | rest => rest

/-- Copies of `0x` may stand before copies of `0X`, and only in that order. -/
def parse (text : String) : Except ParseError Address := do
  let digits := dropPairs 48 88 (dropPairs 48 120 (Bytes.ofText text))
  let bytes ← (Bytes.ofHex digits).mapError .invalidHex
  match ofBytes? bytes with
  | some a => return a
  | none => throw (.invalidLength 20 bytes.length)

end Address

end StableSupply
