import StableSupply.Proofs.Engine.Carry

/-! # What can be read after an adjustment

On a digest that keeps names apart the writes of an adjustment meet only in the slots they are meant
for. The supply then reads what the record says, the history is longer by that record and otherwise
as before, and of the balances only the treasury's has moved. After an adjustment that stopped on
the way the supply reads either the old or the new amount. -/

namespace StableSupply

variable [Digest] {token : StableToken} (hsep : Digest.Separates token)

/-- The counter decides how long the history is. -/
theorem Journal.countIn_congr {s s' : State}
    (h : Slot.historyCount.word s = Slot.historyCount.word s') :
    countIn Engine.journalAccount s = countIn Engine.journalAccount s' :=
  congrArg (fun word : Word => decoded 0 "history counter" word.toUInt64) h

/-! ## Places -/

section Places

include hsep

/-- The writes of a record go to no slot of a parameter but the counter. -/
theorem Journal.place_recordWrites {account : Address} {record : HistoryRecord} {slot : Slot}
    (huse : slot.InUse token) (hslot : slot ≠ .historyCount) :
    ∀ w ∈ recordWrites account record, w.place ≠ (slot.owner, slot.key) := by
  intro w hw hplace
  rcases mem_recordWrites.1 hw with ⟨field, rfl⟩ | rfl
  · exact hsep.fieldKey_ne_key huse field _ (Prod.mk.inj hplace).2
  · exact hslot (hsep.key_injective Slot.inUse_historyCount huse (Prod.mk.inj hplace).2).symm

theorem Slot.place_set {slot other : Slot} {word : Word} (huse : slot.InUse token)
    (huse' : other.InUse token) (h : other ≠ slot) :
    (slot.set word).place ≠ (other.owner, other.key) := fun hplace =>
  h (hsep.key_injective huse huse' (Prod.mk.inj hplace).2).symm

/-- A write of one slot does not show in another. -/
theorem Slot.word_set_of_ne {slot other : Slot} {word : Word} {s : State}
    (huse : slot.InUse token) (huse' : other.InUse token) (h : other ≠ slot) :
    other.word (s.setSlots [slot.set word]) = other.word s := by
  apply State.slot_setSlots_of_notMem
  intro w hw
  obtain rfl := List.mem_singleton.1 hw
  exact Slot.place_set hsep huse huse' h

/-- A write of a slot does not show in the records. -/
theorem HistoryField.slot_set {slot : Slot} {word : Word} {s : State} (huse : slot.InUse token)
    (account : Address) (field : HistoryField) (index : UInt64) :
    (s.setSlots [slot.set word]).slot account (field.key index) =
      s.slot account (field.key index) := by
  apply State.slot_setSlots_of_notMem
  intro w hw hplace
  obtain rfl := List.mem_singleton.1 hw
  exact hsep.fieldKey_ne_key huse field index (Prod.mk.inj hplace).2.symm

end Places

namespace Engine

/-! ## An entry in the history -/

/-- An adjustment's record was entered at the end of the history, with the supply before it. -/
def Enters (s : State) (record : HistoryRecord) (s' : State) : Prop :=
  ∃ treasury after, Journal.nextIndex journalAccount record.kind
      ((s.setBalance treasury after).setSlots [Slot.currentSupply.set record.resultingSupply]) =
        .ok record.index ∧
    s' = (s.setBalance treasury after).setSlots (adjustmentWrites record)

namespace Enters

variable {s s' : State} {record : HistoryRecord}

theorem kind_ne_none (h : Enters s record s') : record.kind ≠ .none := by
  obtain ⟨_, _, hindex, -⟩ := h
  exact (Journal.nextIndex_eq_ok.1 hindex).1

theorem index_lt (h : Enters s record s') : record.index.toNat + 1 < 2 ^ 64 := by
  obtain ⟨_, _, hindex, -⟩ := h
  exact (Journal.nextIndex_eq_ok.1 hindex).2.2

include hsep

/-- The record went to the end of the history. -/
theorem countIn_before (h : Enters s record s') :
    Journal.countIn journalAccount s = .ok record.index := by
  obtain ⟨treasury, after, hindex, -⟩ := h
  have hword : Slot.historyCount.word ((s.setBalance treasury after).setSlots
      [Slot.currentSupply.set record.resultingSupply]) = Slot.historyCount.word s :=
    Slot.word_set_of_ne hsep Slot.inUse_currentSupply Slot.inUse_historyCount (by decide)
  exact (Journal.countIn_congr hword.symm).trans (Journal.nextIndex_eq_ok.1 hindex).2.1

theorem countIn_after (h : Enters s record s') :
    Journal.countIn journalAccount s' = .ok (record.index + 1) := by
  obtain ⟨_, _, -, rfl⟩ := h
  rw [adjustmentWrites, State.setSlots_cons]
  exact Journal.countIn_recordWrites hsep

/-- The record that was entered is read back. -/
theorem recordAt_index (h : Enters s record s') :
    Journal.recordAt journalAccount record.index s' = .ok record := by
  have hkind := h.kind_ne_none
  obtain ⟨_, _, -, rfl⟩ := h
  rw [adjustmentWrites, State.setSlots_cons]
  exact Journal.recordAt_recordWrites hsep hkind

/-- The records at other indices stay. -/
theorem recordAt_of_ne (h : Enters s record s') {index : UInt64} (hne : index ≠ record.index) :
    Journal.recordAt journalAccount index s' = Journal.recordAt journalAccount index s := by
  obtain ⟨_, _, -, rfl⟩ := h
  apply Journal.recordAt_congr
  intro field
  apply State.slot_setSlots_of_notMem
  intro w hw hplace
  rcases List.mem_cons.1 hw with rfl | hw
  · exact hsep.fieldKey_ne_key Slot.inUse_currentSupply field index
      (Prod.mk.inj hplace).2.symm
  · exact Journal.slot_recordWrites_other hsep hne field w hw hplace

end Enters

/-! ## A whole adjustment -/

section Whole

variable {s s' : State} {a : AppliedAdjustment}

theorem Adjusts.enters (h : Adjusts s a s') : Enters s a.record s' :=
  ⟨_, _, h.index, h.state⟩

theorem Adjusts.balance_treasury (h : Adjusts s a s') :
    s'.balance a.treasury = a.treasuryAfter := by
  rw [h.state, State.balance_setSlots, State.balance_setBalance_self]

/-- Only the treasury's balance changes. -/
theorem Adjusts.balance_of_ne (h : Adjusts s a s') {account : Address}
    (hne : account ≠ a.treasury) :
    s'.balance account = s.balance account := by
  rw [h.state, State.balance_setSlots, State.balance_setBalance_of_ne _ _ hne]

include hsep

theorem Adjusts.word_currentSupply (h : Adjusts s a s') :
    Slot.currentSupply.word s' = a.record.resultingSupply := by
  rw [h.state, adjustmentWrites, State.setSlots_cons]
  refine (State.slot_setSlots_of_notMem ?_).trans (State.slot_setSlot_self ..)
  exact Journal.place_recordWrites hsep Slot.inUse_currentSupply (by decide)

/-- Only the supply and the counter of the history change. -/
theorem Adjusts.word_of_ne (h : Adjusts s a s') {slot : Slot} (huse : slot.InUse token)
    (hsupply : slot ≠ .currentSupply) (hcount : slot ≠ .historyCount) :
    slot.word s' = slot.word s := by
  rw [h.state]
  apply State.slot_setSlots_of_notMem
  intro w hw
  rcases List.mem_cons.1 hw with rfl | hw
  · exact Slot.place_set hsep Slot.inUse_currentSupply huse hsupply
  · exact Journal.place_recordWrites hsep huse hcount w hw

end Whole

/-! ## A part of an adjustment -/

section Part

variable {s s' : State} {supply : Word}
include hsep

/-- An adjustment that stopped on the way has touched no other slots either. -/
theorem PartlyAdjusts.word_of_ne (h : PartlyAdjusts supply s s') {slot : Slot}
    (huse : slot.InUse token) (hsupply : slot ≠ .currentSupply) (hcount : slot ≠ .historyCount) :
    slot.word s' = slot.word s := by
  cases h with
  | kept => rfl
  | supplied hdone =>
    apply State.slot_setSlots_of_notMem
    intro w hw
    obtain rfl := List.mem_singleton.1 (hdone.subset hw)
    exact Slot.place_set hsep Slot.inUse_currentSupply huse hsupply
  | recorded _ _ hdone =>
    apply State.slot_setSlots_of_notMem
    intro w hw
    rcases List.mem_cons.1 (hdone.subset hw) with rfl | hw
    · exact Slot.place_set hsep Slot.inUse_currentSupply huse hsupply
    · exact Journal.place_recordWrites hsep huse hcount w hw

/-- The supply is the first to be written. -/
theorem PartlyAdjusts.word_currentSupply (h : PartlyAdjusts supply s s') :
    Slot.currentSupply.word s' = Slot.currentSupply.word s ∨
      Slot.currentSupply.word s' = supply := by
  have hprefix {treasury : Address} {after : Word} {done rest : List SlotWrite}
      (hrest : ∀ w ∈ rest, w.place ≠ (Slot.currentSupply.owner, Slot.currentSupply.key))
      (hdone : done <+: Slot.currentSupply.set supply :: rest) :
      Slot.currentSupply.word ((s.setBalance treasury after).setSlots done) =
        Slot.currentSupply.word s ∨
      Slot.currentSupply.word ((s.setBalance treasury after).setSlots done) = supply := by
    cases done with
    | nil => exact .inl rfl
    | cons w done =>
      obtain ⟨rfl, htail⟩ := List.cons_prefix_cons.1 hdone
      right
      rw [State.setSlots_cons]
      exact (State.slot_setSlots_of_notMem fun v hv => hrest v (htail.subset hv)).trans
        (State.slot_setSlot_self ..)
  cases h with
  | kept => exact .inl rfl
  | supplied hdone => exact hprefix (fun w hw => absurd hw List.not_mem_nil) hdone
  | recorded hsupply _ hdone =>
    subst hsupply
    exact hprefix (Journal.place_recordWrites hsep Slot.inUse_currentSupply (by decide)) hdone

/-- Writes of the supply and of a record that the counter does not count leave the history as it
is. -/
theorem history_of_stray {n : UInt64} {done : List SlotWrite}
    (hdone : ∀ w ∈ done, w = Slot.currentSupply.set supply ∨
      ∃ field : HistoryField, w.place = (journalAccount, field.key n)) :
    Journal.countIn journalAccount (s.setSlots done) = Journal.countIn journalAccount s ∧
    ∀ index, index ≠ n → Journal.recordAt journalAccount index (s.setSlots done) =
      Journal.recordAt journalAccount index s := by
  constructor
  · apply Journal.countIn_congr
    apply State.slot_setSlots_of_notMem
    intro w hw hplace
    rcases hdone w hw with rfl | ⟨field, hfield⟩
    · exact Slot.place_set hsep Slot.inUse_currentSupply Slot.inUse_historyCount (by decide) hplace
    · exact hsep.fieldKey_ne_key Slot.inUse_historyCount field n
        (Prod.mk.inj (hfield.symm.trans hplace)).2
  · intro index hne
    apply Journal.recordAt_congr
    intro field
    apply State.slot_setSlots_of_notMem
    intro w hw hplace
    rcases hdone w hw with rfl | ⟨other, hother⟩
    · exact hsep.fieldKey_ne_key Slot.inUse_currentSupply field index (Prod.mk.inj hplace).2.symm
    · exact hne (hsep.fieldKey_injective (Prod.mk.inj (hother.symm.trans hplace)).2).2.symm

/-- The counter is the last to be written, so either the record was entered in full or the history
is as it was, up to slots of the record that would come next. -/
theorem PartlyAdjusts.enters_or (h : PartlyAdjusts supply s s') :
    (∃ record, Enters s record s') ∨
      Journal.countIn journalAccount s' = Journal.countIn journalAccount s ∧
      ∀ n, Journal.countIn journalAccount s = .ok n → ∀ index, index ≠ n →
        Journal.recordAt journalAccount index s' = Journal.recordAt journalAccount index s := by
  cases h with
  | kept => exact .inr ⟨rfl, fun _ _ _ _ => rfl⟩
  | @supplied treasury after done hdone =>
    have hstray (n : UInt64) := history_of_stray hsep (s := s.setBalance treasury after) (n := n)
      fun w hw => .inl (List.mem_singleton.1 (hdone.subset hw))
    exact .inr ⟨(hstray 0).1, fun n _ => (hstray n).2⟩
  | @recorded treasury after record done hsupply hindex hdone =>
    have hwrites : adjustmentWrites record =
        (Slot.currentSupply.set record.resultingSupply ::
          HistoryField.all.map (Journal.fieldWrite journalAccount record)) ++
        [Journal.counterWrite journalAccount (record.index + 1)] := rfl
    subst hsupply
    have henters : Enters s record ((s.setBalance treasury after).setSlots
        (adjustmentWrites record)) := ⟨treasury, after, hindex, rfl⟩
    rw [hwrites, List.prefix_concat_iff] at hdone
    rcases hdone with hwhole | hpart
    · rw [← hwrites] at hwhole
      exact .inl ⟨record, hwhole ▸ henters⟩
    · have hdone : ∀ w ∈ done, w = Slot.currentSupply.set record.resultingSupply ∨
          ∃ field : HistoryField, w.place = (journalAccount, field.key record.index) := by
        intro w hw
        rcases List.mem_cons.1 (hpart.subset hw) with rfl | hfield
        · exact .inl rfl
        · obtain ⟨field, -, rfl⟩ := List.mem_map.1 hfield
          exact .inr ⟨field, rfl⟩
      have hstray := history_of_stray hsep (s := s.setBalance treasury after) hdone
      refine .inr ⟨hstray.1, fun n hn => ?_⟩
      obtain rfl := Except.ok.inj (hn.symm.trans (henters.countIn_before hsep))
      exact hstray.2

end Part

end Engine

end StableSupply
