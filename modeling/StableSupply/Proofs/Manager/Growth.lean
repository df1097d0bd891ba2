import StableSupply.Proofs.Manager.Course

/-! # The history grows by the records of what was applied

On a digest that keeps names apart, and where reversals are served, a course appends the records of
its adjustments to the history, in their order, and changes nothing else of it
(`Journal.Grows.course`). Nothing is asked of the history that it starts from: one whose counter
does not decode takes no record. -/

namespace StableSupply

open Engine Gate

variable [Digest]

namespace Journal

/-- The length of the history, read with every request served. -/
def counted (s : State) : Except JournalError UInt64 :=
  ((count journalAccount).apply (⟨⟨s, [], .empty⟩, {}⟩ : Access OpenGate)).1

/-- A record of the history, read with every request served. -/
def recorded (index : UInt64) (s : State) : Except JournalError HistoryRecord :=
  ((read journalAccount index).apply (⟨⟨s, [], .empty⟩, {}⟩ : Access OpenGate)).1

theorem counted_eq (s : State) : counted s = countIn journalAccount s :=
  (count_answers journalAccount).apply_open {}

theorem recorded_eq (index : UInt64) (s : State) :
    recorded index s = recordAt journalAccount index s :=
  (read_answers journalAccount index).apply_open {}

omit [Digest] in
/-- What is so of each entry and of a new one at the end is so of each entry with the new one. -/
theorem forall_concat {records : List HistoryRecord} {record : HistoryRecord}
    {P : Nat → HistoryRecord → Prop} (h : ∀ i (hi : i < records.length), P i records[i])
    (hlast : P records.length record) :
    ∀ i (hi : i < (records ++ [record]).length), P i (records ++ [record])[i] := by
  intro i hi
  rw [List.length_append, List.length_singleton] at hi
  by_cases hend : i = records.length
  · subst hend
    rw [List.getElem_concat_length rfl]
    exact hlast
  · have hlt : i < records.length := by omega
    rw [List.getElem_append_left hlt]
    exact h i hlt

/-- Exactly these records were appended to the history, in this order. -/
structure Grows (s : State) (records : List HistoryRecord) (s' : State) : Prop where
  corrupt : ∀ e, counted s = .error e → records = [] ∧ counted s' = .error e
  count : ∀ n, counted s = .ok n →
    ∃ n', counted s' = .ok n' ∧ n'.toNat = n.toNat + records.length
  appended : ∀ n, counted s = .ok n → ∀ i (h : i < records.length),
    records[i].index.toNat = n.toNat + i ∧ recorded records[i].index s' = .ok records[i]
  kept : ∀ index, (∀ record ∈ records, record.index ≠ index) →
    recorded index s' = recorded index s

namespace Grows

variable {token : StableToken} {start s s' : State} {records : List HistoryRecord}

theorem rest (s : State) : Grows s [] s where
  corrupt _ h := ⟨rfl, h⟩
  count n h := ⟨n, h, rfl⟩
  appended _ _ _ h := absurd h (Nat.not_lt_zero _)
  kept _ _ := rfl

/-- What leaves the slots of the history alone leaves the history as it is. -/
theorem congr (h : Grows start records s) (hcount : counted s' = counted s)
    (hrecord : ∀ index, recorded index s' = recorded index s) : Grows start records s' where
  corrupt e he := by
    rw [hcount]
    exact h.corrupt e he
  count n hn := by
    rw [hcount]
    exact h.count n hn
  appended n hn i hi := by
    rw [hrecord]
    exact h.appended n hn i hi
  kept index hindex := by
    rw [hrecord]
    exact h.kept index hindex

theorem observed (hsep : Digest.Separates token) {slot : Slot} {word : Word}
    (hslot : slot ∈ Slot.observed) (h : Grows start records s) :
    Grows start records (s.setSlots [slot.set word]) := by
  have huse : slot.InUse token := Slot.inUse_of_mem_observed hslot
  refine h.congr ?_ ?_
  · rw [counted_eq, counted_eq]
    exact countIn_congr (Slot.word_observed hsep hslot Slot.inUse_historyCount (by decide))
  · intro index
    rw [recorded_eq, recorded_eq]
    apply recordAt_congr
    intro field
    exact HistoryField.slot_set hsep huse _ field _

theorem adjusts (hsep : Digest.Separates token) {a : AppliedAdjustment}
    (h : Grows start records s) (ha : Adjusts s a s') :
    Grows start (records ++ [a.record]) s' := by
  have hbefore : counted s = .ok a.record.index := (counted_eq s).trans (ha.enters.countIn_before hsep)
  have hafter : counted s' = .ok (a.record.index + 1) := (counted_eq s').trans (ha.enters.countIn_after hsep)
  have hroom : a.record.index.toNat + 1 < 2 ^ 64 := ha.enters.index_lt
  have hindex (n : UInt64) (hn : counted start = .ok n) :
      a.record.index.toNat = n.toNat + records.length := by
    obtain ⟨n', hn', hlength⟩ := h.count n hn
    obtain rfl : n' = a.record.index := Except.ok.inj (hn'.symm.trans hbefore)
    exact hlength
  have hkept {index : UInt64} (hne : index ≠ a.record.index) :
      recorded index s' = recorded index s := by
    rw [recorded_eq, recorded_eq]
    exact ha.enters.recordAt_of_ne hsep hne
  refine ⟨?_, ?_, ?_, ?_⟩
  · intro e he
    have hcorrupt := (h.corrupt e he).2
    rw [hbefore] at hcorrupt
    cases hcorrupt
  · intro n hn
    refine ⟨_, hafter, ?_⟩
    have hone : (1 : UInt64).toNat = 1 := rfl
    rw [UInt64.toNat_add, hone, Nat.mod_eq_of_lt hroom, hindex n hn, List.length_append,
      List.length_singleton, Nat.add_assoc]
  · intro n hn
    refine forall_concat (P := fun i record =>
      record.index.toNat = n.toNat + i ∧ recorded record.index s' = .ok record) ?_ ?_
    · intro i hi
      obtain ⟨hi, hrecord⟩ := h.appended n hn i hi
      refine ⟨hi, ?_⟩
      rw [hkept, hrecord]
      intro heq
      have hlength := hindex n hn
      rw [← heq, hi] at hlength
      omega
    · exact ⟨hindex n hn, (recorded_eq _ s').trans (ha.enters.recordAt_index hsep)⟩
  · intro index hother
    rw [hkept (hother a.record (by simp)).symm]
    exact h.kept index fun record hrecord => hother record (List.mem_append_left _ hrecord)

variable {σ : Type} [Gate σ] {as : List AppliedAdjustment}

/-- Where reversals are served, a step adds the records of its adjustments and no others. -/
theorem step (hserves : ServesReverts σ) (hsep : Digest.Separates token)
    (h : Grows start records s) (hstep : Step σ s as s') :
    Grows start (records ++ as.map (·.record)) s' := by
  cases hstep with
  | observed hslot =>
    rw [List.map_nil, List.append_nil]
    exact h.observed hsep hslot
  | applied ha => exact h.adjusts hsep ha
  | left hrefuses _ => exact absurd hrefuses hserves.not_refusesReverts

theorem course (hserves : ServesReverts σ) (hsep : Digest.Separates token)
    (h : Grows start records s) (hcourse : Course σ s as s') :
    Grows start (records ++ as.map (·.record)) s' := by
  induction hcourse generalizing records with
  | rest => rwa [List.map_nil, List.append_nil]
  | step hstep _ ih =>
    rw [List.map_append, ← List.append_assoc]
    exact ih (h.step hserves hsep hstep)

end Grows

end Journal

end StableSupply
