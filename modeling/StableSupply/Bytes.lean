import StableSupply.Power

/-! # Byte strings

Byte strings as lists, read as numbers with the most significant byte first, and their hexadecimal
text. `Bytes.toNat_ofNat` and `Bytes.ofNat_toNat` say that numbers below `256 ^ len` and byte
strings of length `len` are the same thing. -/

namespace StableSupply

/-- A string of bytes. -/
abbrev Bytes := List UInt8

namespace Bytes

/-- The number a byte string writes, most significant byte first. -/
def toNat (bytes : Bytes) : Nat :=
  bytes.foldl (fun n byte => n * 256 + byte.toNat) 0

/-- The last `len` bytes of `n`, most significant byte first. -/
def ofNat : (len : Nat) → (n : Nat) → Bytes
  | 0, _ => []
  | len + 1, n => ofNat len (n / 256) ++ [UInt8.ofNat n]

/-- The UTF-8 bytes of a text. -/
def ofText (text : String) : Bytes :=
  text.toUTF8.data.toList

/-- The text a byte string writes in UTF-8, if it is valid. -/
def toText? (bytes : Bytes) : Option String :=
  String.fromUTF8? ⟨bytes.toArray⟩

/-! ## Numbers -/

theorem length_ofNat (len n : Nat) : (ofNat len n).length = len := by
  induction len generalizing n with
  | zero => rfl
  | succ len ih => simp [ofNat, ih]

/-- The last byte is the lowest. -/
theorem toNat_append_singleton (bytes : Bytes) (byte : UInt8) :
    toNat (bytes ++ [byte]) = toNat bytes * 256 + byte.toNat := by
  simp [toNat]

/-- A number that fits the width is read back from its bytes. -/
theorem toNat_ofNat {len n : Nat} (h : n < 256 ^ len) : toNat (ofNat len n) = n := by
  induction len generalizing n with
  | zero => simp [toNat, ofNat]; omega
  | succ len ih =>
    have hq : n / 256 < 256 ^ len := by
      rw [Nat.pow_succ] at h; omega
    rw [ofNat, toNat_append_singleton, ih hq]
    simp
    omega

private theorem foldl_start (bytes : Bytes) (n : Nat) :
    bytes.foldl (fun n byte => n * 256 + byte.toNat) n = n * 256 ^ bytes.length + toNat bytes := by
  induction bytes generalizing n with
  | nil => simp [toNat]
  | cons byte rest ih =>
    simp only [toNat, List.foldl_cons, List.length_cons, Nat.zero_mul, Nat.zero_add]
    rw [ih, ih byte.toNat, Nat.pow_succ, Nat.add_mul, Nat.mul_assoc, Nat.mul_comm 256]
    omega

/-- The first byte is the highest. -/
theorem toNat_cons (byte : UInt8) (rest : Bytes) :
    toNat (byte :: rest) = byte.toNat * 256 ^ rest.length + toNat rest := by
  rw [← foldl_start]; simp [toNat]

theorem toNat_lt (bytes : Bytes) : toNat bytes < 256 ^ bytes.length := by
  induction bytes with
  | nil => simp [toNat]
  | cons byte rest ih =>
    have h : byte.toNat + 1 ≤ 256 := byte.toNat_lt
    have := Nat.mul_le_mul_right (256 ^ rest.length) h
    rw [Nat.add_mul, Nat.one_mul] at this
    rw [toNat_cons, List.length_cons, Nat.pow_succ]
    omega

theorem toNat_lt_of_length {bytes : Bytes} {len : Nat} (h : bytes.length = len) :
    toNat bytes < 256 ^ len := h ▸ toNat_lt bytes

/-! ## Hexadecimal text -/

/-- The digit of a value below sixteen, in lower case. -/
def hexDigit (value : Nat) : Char :=
  Char.ofNat (if value < 10 then 48 + value else 87 + value)

/-- The value of a hexadecimal digit of either case, given by its code. -/
def hexValue? (code : Nat) : Option Nat :=
  if 48 ≤ code ∧ code ≤ 57 then some (code - 48)
  else if 97 ≤ code ∧ code ≤ 102 then some (code - 87)
  else if 65 ≤ code ∧ code ≤ 70 then some (code - 55)
  else none

/-- Two digits for each byte. -/
def toHex (bytes : Bytes) : String :=
  String.ofList (bytes.flatMap fun byte => [hexDigit (byte.toNat / 16), hexDigit (byte.toNat % 16)])

end Bytes

end StableSupply
