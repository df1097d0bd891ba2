import StableSupply.Adjustment
import StableSupply.Events.Channel

/-! # Notifications

Two channels, one for every processed update and one for every applied adjustment. They are closed
together. -/

namespace StableSupply

/-- Published once for each processed update. -/
structure ValueUpdate where
  decision : Decision
  targetValue : Word
  currentValue : Word
  /-- Of the cycle, in Unix seconds. -/
  timestamp : UInt64
  deriving DecidableEq

/-- The channels on which a manager tells of its updates and of its adjustments. -/
structure Notifier where
  updates : Channel ValueUpdate
  adjustments : Channel AppliedAdjustment

namespace Notifier

def defaultCapacity : Nat := 256

def ofCapacity (capacity : Nat) : Notifier := ⟨.ofCapacity capacity, .ofCapacity capacity⟩

/-- Publishes an update, with the number of receivers that it reaches. -/
def publishUpdate (n : Notifier) (update : ValueUpdate) : Nat × Notifier :=
  let (reached, updates) := n.updates.publish update
  (reached, { n with updates })

/-- Publishes an adjustment, with the number of receivers that it reaches. -/
def publishAdjustment (n : Notifier) (adjustment : AppliedAdjustment) : Nat × Notifier :=
  let (reached, adjustments) := n.adjustments.publish adjustment
  (reached, { n with adjustments })

/-- Closes both channels. -/
def close (n : Notifier) : Notifier := ⟨n.updates.close, n.adjustments.close⟩

def IsClosed (n : Notifier) : Prop := n.updates.isOpen = false

instance (n : Notifier) : Decidable n.IsClosed := inferInstanceAs (Decidable (_ = _))

end Notifier

end StableSupply
