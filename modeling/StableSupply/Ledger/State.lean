import StableSupply.Digest
import StableSupply.Word

/-! # Ledger states

What a ledger holds: native balances, and storage slots grouped by the account that owns them. Both
read as zero where nothing is recorded. An account whose balance was ever set stays recorded, and so
does an owner whose slots have all been cleared. -/

namespace StableSupply

/-- What a ledger holds: the balances of accounts, and the slots of their owners. -/
structure State where
  balances : Table Address Word
  storage : Table Address (Table Hash Word)
  deriving DecidableEq

namespace State

/-- The state in which nothing is recorded. -/
def empty : State := ⟨.empty, .empty⟩

/-- An account without a record has nothing. -/
def balance (s : State) (account : Address) : Word :=
  (s.balances.find? account).getD .zero

/-- The recorded slots of an owner. -/
def slots (s : State) (owner : Address) : Table Hash Word :=
  (s.storage.find? owner).getD .empty

/-- A slot that is not recorded reads zero. -/
def slot (s : State) (owner : Address) (key : Hash) : Word :=
  ((s.slots owner).find? key).getD .zero

/-- How many slots of an account hold a word other than zero. -/
def slotCount (s : State) (owner : Address) : Nat := (s.slots owner).size

/-- Records a balance, also one of zero. -/
def setBalance (s : State) (account : Address) (amount : Word) : State :=
  { s with balances := s.balances.insert account amount }

/-- Writing zero clears the slot; it does not record an owner that was not recorded before. -/
def setSlot (s : State) (owner : Address) (key : Hash) (word : Word) : State :=
  if word.IsZero then
    match s.storage.find? owner with
    | some slots => { s with storage := s.storage.insert owner (slots.erase key) }
    | none => s
  else { s with storage := s.storage.insert owner ((s.slots owner).insert key word) }

/-! ## The root of a state -/

/-- The accounts in order, each with its balance behind it. -/
def encodeBalances (balances : Table Address Word) : Bytes :=
  balances.entries.flatMap fun (account, amount) => account.toBytes ++ amount.toBytes

/-- The slots in order, each with its word behind it. -/
def encodeSlots (slots : Table Hash Word) : Bytes :=
  slots.entries.flatMap fun (key, word) => key.toBytes ++ word.toBytes

/-- The byte string whose digest is the root: accounts with their balances, then owners with their
slots, each in increasing order. -/
def encode (s : State) : Bytes :=
  encodeBalances s.balances ++
    s.storage.entries.flatMap fun (owner, slots) => owner.toBytes ++ encodeSlots slots

/-- The digest of the state's encoding, by which states are compared. -/
def root [Digest] (s : State) : Hash := Digest.digest s.encode

end State

end StableSupply
