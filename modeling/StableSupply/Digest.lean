import StableSupply.Bytes
import StableSupply.Table

/-! # Digests

A 32-byte digest names a storage slot or a state. What computes it is a parameter of everything
above (`Digest`), so that statements about the ledger can say which property of the function they
need. -/

namespace StableSupply

/-- A digest, as the number that its 32 bytes write. -/
structure Hash where
  toNat : Nat
  isLt : toNat < 256 ^ 32
  deriving DecidableEq

namespace Hash

instance : KeyOrder Hash := .ofRank toNat fun ⟨_, _⟩ ⟨_, _⟩ h => by cases h; rfl

/-- The 32 bytes, the highest first. -/
def toBytes (h : Hash) : Bytes := Bytes.ofNat 32 h.toNat

/-- Of byte strings, exactly those of 32 bytes are digests. -/
def ofBytes? (bytes : Bytes) : Option Hash :=
  if h : bytes.length = 32 then some ⟨bytes.toNat, Bytes.toNat_lt_of_length h⟩ else none

def toHex (h : Hash) : String := h.toBytes.toHex

/-- The first eight digits, enough to tell digests apart in a message. -/
def brief (h : Hash) : String := (Bytes.ofNat 4 (h.toNat / 2 ^ 224)).toHex

end Hash

/-- A function from byte strings to digests. -/
class Digest where
  digest : Bytes → Hash

/-- The digest of a slot's name. -/
def Hash.ofName [Digest] (name : String) : Hash := Digest.digest (Bytes.ofText name)

end StableSupply
