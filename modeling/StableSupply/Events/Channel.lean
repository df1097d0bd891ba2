import StableSupply.Table

/-! # Broadcast channels

A channel keeps the last events published on it, up to its capacity, for all its receivers together.
A receiver holds the position of the next event that it has not seen; one that falls behind goes on
with the oldest event still kept. After the channel is closed what is kept can still be received. -/

namespace StableSupply

instance : KeyOrder Nat := .ofRank id fun _ _ h => h

/-- A queue that every receiver reads at its own pace, and that forgets what is too old. -/
structure Channel (α : Type) where
  capacity : Nat
  isOpen : Bool
  /-- How many events were published. -/
  sent : Nat
  /-- The last of them, oldest first. -/
  kept : List α
  /-- The position of the next event for each receiver. -/
  receivers : Table Nat Nat
  nextReceiver : Nat

/-- What a receiver finds. -/
inductive Reading (α : Type)
  | event (e : α)
  | pending
  | ended

namespace Channel

variable {α : Type}

/-- An open channel of the next power of two of the requested capacity, at least one. -/
def ofCapacity (requested : Nat) : Channel α :=
  ⟨(max requested 1).nextPowerOfTwo, true, 0, [], .empty, 0⟩

/-- The position of the oldest event kept. -/
def oldest (c : Channel α) : Nat := c.sent - c.kept.length

/-- Publishes an event and says how many receivers there are. -/
def publish (c : Channel α) (e : α) : Nat × Channel α :=
  if c.isOpen then
    let kept := c.kept ++ [e]
    (c.receivers.size,
      { c with sent := c.sent + 1, kept := kept.drop (kept.length - c.capacity) })
  else (0, c)

/-- A receiver of the events to come, if the channel is open. -/
def subscribe (c : Channel α) : Option Nat × Channel α :=
  if c.isOpen then
    (some c.nextReceiver,
      { c with
        receivers := c.receivers.insert c.nextReceiver c.sent
        nextReceiver := c.nextReceiver + 1 })
  else (none, c)

/-- The receiver leaves, with whatever it has not read. -/
def unsubscribe (c : Channel α) (receiver : Nat) : Channel α :=
  { c with receivers := c.receivers.erase receiver }

/-- No event is taken from here on. Those that are kept can still be read. -/
def close (c : Channel α) : Channel α := { c with isOpen := false }

/-- The next event for a receiver. A receiver that has seen everything on a closed channel is gone
afterwards. -/
def receive (c : Channel α) (receiver : Nat) : Reading α × Channel α :=
  match c.receivers.find? receiver with
  | none => (.ended, c)
  | some position =>
    let next := max position c.oldest
    match c.kept[next - c.oldest]? with
    | some e => (.event e, { c with receivers := c.receivers.insert receiver (next + 1) })
    | none => if c.isOpen then (.pending, c) else (.ended, c.unsubscribe receiver)

end Channel

end StableSupply
