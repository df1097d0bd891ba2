import StableSupply.Ledger.Basic

/-! # Writes to slots

What a state reads after a slot or a balance was set, and after a list of writes. A place that no
write of the list touches keeps its word (`State.slot_setSlots_of_notMem`); a place all of whose
writes agree on a word reads that word (`State.slot_setSlots_of_mem`). -/

namespace StableSupply

namespace Word

theorem isZero_iff {w : Word} : w.IsZero ↔ w = zero := by
  obtain ⟨n, h⟩ := w
  simp [IsZero, zero]

end Word

namespace State

/-! ## One write -/

theorem slots_setSlot_self (s : State) (owner : Address) (key : Hash) (word : Word) :
    (s.setSlot owner key word).slots owner =
      if word.IsZero then (s.slots owner).erase key else (s.slots owner).insert key word := by
  unfold setSlot
  split
  · cases h : s.storage.find? owner with
    | none =>
      simp only [slots, h, Option.getD_none]
      rfl
    | some table => simp [slots, h, Table.find?_insert_self]
  · simp [slots, Table.find?_insert_self]

/-- The slots of other owners stay. -/
theorem slots_setSlot_of_ne (s : State) {owner other : Address} (key : Hash) (word : Word)
    (h : other ≠ owner) : (s.setSlot owner key word).slots other = s.slots other := by
  unfold setSlot
  split
  · split
    · simp [slots, Table.find?_insert_of_ne _ _ h]
    · rfl
  · simp [slots, Table.find?_insert_of_ne _ _ h]

@[simp] theorem slot_setSlot_self (s : State) (owner : Address) (key : Hash) (word : Word) :
    (s.setSlot owner key word).slot owner key = word := by
  rw [slot, slots_setSlot_self]
  split
  · next h => rw [Table.find?_erase_self, Word.isZero_iff.1 h, Option.getD_none]
  · rw [Table.find?_insert_self, Option.getD_some]

/-- Slots at other places stay. -/
theorem slot_setSlot_of_ne (s : State) {owner other : Address} {key key' : Hash} (word : Word)
    (h : (other, key') ≠ (owner, key)) :
    (s.setSlot owner key word).slot other key' = s.slot other key' := by
  by_cases ho : other = owner
  · subst ho
    have hk : key' ≠ key := fun hk => h (by rw [hk])
    rw [slot, slots_setSlot_self]
    split
    · rw [Table.find?_erase_of_ne _ hk, slot]
    · rw [Table.find?_insert_of_ne _ _ hk, slot]
  · rw [slot, slots_setSlot_of_ne _ _ _ ho, slot]

@[simp] theorem balances_setSlot (s : State) (owner : Address) (key : Hash) (word : Word) :
    (s.setSlot owner key word).balances = s.balances := by
  unfold setSlot
  split
  · split <;> rfl
  · rfl

@[simp] theorem balance_setSlot (s : State) (owner : Address) (key : Hash) (word : Word)
    (account : Address) : (s.setSlot owner key word).balance account = s.balance account := by
  rw [balance, balances_setSlot, balance]

/-! ## One balance -/

@[simp] theorem balance_setBalance_self (s : State) (account : Address) (amount : Word) :
    (s.setBalance account amount).balance account = amount := by
  simp [balance, setBalance, Table.find?_insert_self]

theorem balance_setBalance_of_ne (s : State) {account other : Address} (amount : Word)
    (h : other ≠ account) : (s.setBalance account amount).balance other = s.balance other := by
  simp [balance, setBalance, Table.find?_insert_of_ne _ _ h]

@[simp] theorem slot_setBalance (s : State) (account : Address) (amount : Word)
    (owner : Address) (key : Hash) :
    (s.setBalance account amount).slot owner key = s.slot owner key := rfl

end State

/-! ## Lists of writes -/

/-- A word for a slot. -/
structure SlotWrite where
  owner : Address
  key : Hash
  word : Word

/-- Where a write goes. -/
def SlotWrite.place (w : SlotWrite) : Address × Hash := (w.owner, w.key)

namespace State

/-- Makes the writes in order. -/
def setSlots (s : State) (ws : List SlotWrite) : State :=
  ws.foldl (fun s w => s.setSlot w.owner w.key w.word) s

@[simp] theorem setSlots_nil (s : State) : s.setSlots [] = s := rfl

@[simp] theorem setSlots_cons (s : State) (w : SlotWrite) (ws : List SlotWrite) :
    s.setSlots (w :: ws) = (s.setSlot w.owner w.key w.word).setSlots ws := rfl

theorem setSlots_append (s : State) (ws vs : List SlotWrite) :
    s.setSlots (ws ++ vs) = (s.setSlots ws).setSlots vs := List.foldl_append ..

@[simp] theorem balance_setSlots (s : State) (ws : List SlotWrite) (account : Address) :
    (s.setSlots ws).balance account = s.balance account := by
  induction ws generalizing s with
  | nil => rfl
  | cons w ws ih => rw [setSlots_cons, ih, balance_setSlot]

/-- A place that nothing is written to stays. -/
theorem slot_setSlots_of_notMem {s : State} {ws : List SlotWrite} {owner : Address} {key : Hash}
    (h : ∀ w ∈ ws, w.place ≠ (owner, key)) :
    (s.setSlots ws).slot owner key = s.slot owner key := by
  induction ws generalizing s with
  | nil => rfl
  | cons w ws ih =>
    rw [setSlots_cons, ih fun v hv => h v (List.mem_cons_of_mem _ hv)]
    exact slot_setSlot_of_ne s w.word (h w List.mem_cons_self).symm

/-- A place reads what is written to it, if all writes to it agree. -/
theorem slot_setSlots_of_mem {s : State} {ws : List SlotWrite} {owner : Address} {key : Hash}
    {word : Word} (hw : ∃ w ∈ ws, w.place = (owner, key))
    (h : ∀ w ∈ ws, w.place = (owner, key) → w.word = word) :
    (s.setSlots ws).slot owner key = word := by
  induction ws generalizing s with
  | nil => simp at hw
  | cons v ws ih =>
    rw [setSlots_cons]
    -- the last write to the place decides
    by_cases hlater : ∃ w ∈ ws, w.place = (owner, key)
    · exact ih hlater fun w hw => h w (List.mem_cons_of_mem _ hw)
    · have hv : v.place = (owner, key) := by
        obtain ⟨w, hw, hp⟩ := hw
        rcases List.mem_cons.1 hw with rfl | hw
        · exact hp
        · exact absurd ⟨w, hw, hp⟩ hlater
      rw [slot_setSlots_of_notMem fun w hw hp => hlater ⟨w, hw, hp⟩,
        ← h v List.mem_cons_self hv]
      cases hv
      exact slot_setSlot_self ..

end State

namespace Ledger

/-- Writes slots of the ledger, for which no account is marked. -/
def setSlots (l : Ledger) (ws : List SlotWrite) : Ledger :=
  { l with state := l.state.setSlots ws }

@[simp] theorem setSlots_nil (l : Ledger) : l.setSlots [] = l := rfl

theorem setSlots_cons (l : Ledger) (w : SlotWrite) (ws : List SlotWrite) :
    l.setSlots (w :: ws) = (l.setSlot w.owner w.key w.word).setSlots ws := rfl

theorem setSlots_append (l : Ledger) (ws vs : List SlotWrite) :
    l.setSlots (ws ++ vs) = (l.setSlots ws).setSlots vs := by
  simp [setSlots, State.setSlots_append]

@[simp] theorem state_setSlots (l : Ledger) (ws : List SlotWrite) :
    (l.setSlots ws).state = l.state.setSlots ws := rfl

/-- The first so many of the writes were made. -/
def PartlySet (l : Ledger) (ws : List SlotWrite) (l' : Ledger) : Prop :=
  ∃ done, done <+: ws ∧ l' = l.setSlots done

namespace PartlySet

variable {l l' : Ledger} {ws vs : List SlotWrite} {w : SlotWrite}

theorem none : l.PartlySet ws l := ⟨[], List.nil_prefix, rfl⟩

theorem all : l.PartlySet ws (l.setSlots ws) := ⟨ws, List.prefix_rfl, rfl⟩

theorem cons (h : (l.setSlot w.owner w.key w.word).PartlySet ws l') : l.PartlySet (w :: ws) l' := by
  obtain ⟨done, hdone, rfl⟩ := h
  exact ⟨w :: done, List.cons_prefix_cons.2 ⟨rfl, hdone⟩, rfl⟩

theorem append (h : l.PartlySet ws l') : l.PartlySet (ws ++ vs) l' := by
  obtain ⟨done, hdone, rfl⟩ := h
  exact ⟨done, hdone.trans (List.prefix_append ..), rfl⟩

end PartlySet

end Ledger

end StableSupply
