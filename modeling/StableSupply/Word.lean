import StableSupply.Address

/-! # Ledger words

A storage slot holds a 32-byte word and a balance is one. A word is a number below `2 ^ 256`;
narrower values are right-aligned in it, signed ones by sign extension, short texts by their UTF-8
bytes.

Each encoder `Word.of…` has a decoder `Word.to…` that accepts exactly the words the encoder gives.
-/

namespace StableSupply

/-- A word of the ledger, as the number that its 32 bytes write. -/
structure Word where
  toNat : Nat
  isLt : toNat < 2 ^ 256
  deriving DecidableEq

/-- The types that a word may be too large for. -/
inductive Narrow
  | unsigned
  | signed
  | address
  deriving DecidableEq, Repr

def Narrow.text : Narrow → String
  | unsigned => "u64"
  | signed => "i64"
  | address => "address"

/-- Why a word or a text does not convert. -/
inductive WordError
  | outOfRange (target : Narrow)
  | invalidUtf8
  | tooLong (bytes : Nat)
  | invalidHex (reason : HexError)
  | invalidLength (expected actual : Nat)
  deriving DecidableEq, Repr

def WordError.message : WordError → String
  | outOfRange target => "word does not fit in " ++ target.text
  | invalidUtf8 => "invalid utf-8 in word"
  | tooLong bytes => "string of " ++ toString bytes ++ " bytes does not fit in a word"
  | invalidHex reason => "invalid hex: " ++ reason.message
  | invalidLength expected actual =>
    "expected " ++ toString expected ++ " bytes, got " ++ toString actual

/-- Why a text is no address, among the other failures to convert. -/
def Address.ParseError.toWordError : Address.ParseError → WordError
  | .invalidHex reason => .invalidHex reason
  | .invalidLength expected actual => .invalidLength expected actual

namespace Word

instance : LE Word := ⟨fun a b => a.toNat ≤ b.toNat⟩

instance : DecidableLE Word := fun a b => inferInstanceAs (Decidable (a.toNat ≤ b.toNat))

instance : LT Word := ⟨fun a b => a.toNat < b.toNat⟩

instance : DecidableLT Word := fun a b => inferInstanceAs (Decidable (a.toNat < b.toNat))

def zero : Word := ⟨0, by decide⟩

def IsZero (w : Word) : Prop := w.toNat = 0

instance (w : Word) : Decidable w.IsZero := inferInstanceAs (Decidable (_ = _))

/-- The word of a number that has one. -/
def ofNat? (n : Nat) : Option Word :=
  if h : n < 2 ^ 256 then some ⟨n, h⟩ else none

/-- The sum, if it is a word. -/
def add? (a b : Word) : Option Word := ofNat? (a.toNat + b.toNat)

/-- The difference, if it is not negative. -/
def sub? (a b : Word) : Option Word :=
  if b ≤ a then some ⟨a.toNat - b.toNat, Nat.lt_of_le_of_lt (Nat.sub_le ..) a.isLt⟩ else none

/-! ## Bytes -/

/-- The 32 bytes, the highest first. -/
def toBytes (w : Word) : Bytes := Bytes.ofNat 32 w.toNat

theorem toNat_bytes_lt {bytes : Bytes} (h : bytes.length = 32) : bytes.toNat < 2 ^ 256 :=
  Bytes.toNat_lt_of_length h

/-- Of byte strings, exactly those of 32 bytes are words. -/
def ofBytes? (bytes : Bytes) : Option Word :=
  if h : bytes.length = 32 then some ⟨bytes.toNat, toNat_bytes_lt h⟩ else none

def toHex (w : Word) : String := w.toBytes.toHex

/-! ## Numbers -/

/-- The word of an unsigned number. -/
def ofUInt64 (n : UInt64) : Word := ⟨n.toNat, Nat.lt_trans n.toNat_lt (by decide)⟩

/-- The unsigned number that the word stands for. -/
def toUInt64 (w : Word) : Except WordError UInt64 :=
  if w.toNat < 2 ^ 64 then .ok (UInt64.ofNat w.toNat) else .error (.outOfRange .unsigned)

/-- The number of the full word in two's complement. -/
def toInt (w : Word) : Int :=
  if w.toNat < 2 ^ 255 then w.toNat else w.toNat - 2 ^ 256

/-- The word of a signed number, in two's complement. -/
def ofInt64 (n : Int64) : Word :=
  ⟨(n.toInt % 2 ^ 256).toNat, by omega⟩

/-- The signed number that the word stands for in two's complement. -/
def toInt64 (w : Word) : Except WordError Int64 :=
  if -2 ^ 63 ≤ w.toInt ∧ w.toInt < 2 ^ 63 then .ok (Int64.ofInt w.toInt)
  else .error (.outOfRange .signed)

/-! ## Addresses -/

/-- The word of an address, whose bytes are the last ones. -/
def ofAddress (a : Address) : Word := ⟨a.toNat, Nat.lt_trans a.isLt (by decide)⟩

/-- The address that the word stands for. -/
def toAddress (w : Word) : Except WordError Address :=
  if h : w.toNat < 2 ^ 160 then .ok ⟨w.toNat, h⟩ else .error (.outOfRange .address)

/-! ## Short texts -/

/-- At most 32 bytes of UTF-8, right-aligned. -/
def ofShortText (text : String) : Except WordError Word :=
  let bytes := Bytes.ofText text
  if h : bytes.length ≤ 32 then
    .ok ⟨bytes.toNat, Nat.lt_of_lt_of_le bytes.toNat_lt
      (Nat.le_trans (Nat.pow_le_pow_right (by decide) h) (by decide))⟩
  else .error (.tooLong bytes.length)

/-- The text after the leading zero bytes. -/
def toShortText (w : Word) : Except WordError String :=
  match Bytes.toText? (w.toBytes.dropWhile (· = 0)) with
  | some text => .ok text
  | none => .error .invalidUtf8

end Word

/-! ## Wide amounts -/

/-- An amount of 512 bits, wide enough for the product of two words. -/
structure Wide where
  toNat : Nat
  isLt : toNat < 2 ^ 256 * 2 ^ 256
  deriving DecidableEq

namespace Wide

def zero : Wide := ⟨0, by decide⟩

def ofWord (w : Word) : Wide := ⟨w.toNat, Nat.lt_trans w.isLt (by decide)⟩

/-- The amount as a word, if it is one. -/
def toWord? (w : Wide) : Option Word := Word.ofNat? w.toNat

def ofNat? (n : Nat) : Option Wide :=
  if h : n < 2 ^ 256 * 2 ^ 256 then some ⟨n, h⟩ else none

end Wide

end StableSupply
