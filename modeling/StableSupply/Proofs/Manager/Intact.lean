import StableSupply.Proofs.Genesis
import StableSupply.Proofs.Manager.Growth

/-! # What is recorded stays

No step that a ledger's state takes damages what it holds (`Intact`): the slots that a cycle decodes
go on to decode, and the history only grows, by whole records (`Intact.step`). An adjustment whose
reversal is refused may leave its record in full, which is then part of the history, or some of its
slots, which the next record overwrites. -/

namespace StableSupply

open Engine Gate

/-! ## Histories -/

theorem Journal.index_ne {i j : Nat} (hi : i < 2 ^ 64) (hj : j < 2 ^ 64) (h : i ≠ j) :
    UInt64.ofNat i ≠ .ofNat j := by
  intro heq
  have htoNat := congrArg UInt64.toNat heq
  rw [UInt64.toNat_ofNat_of_lt' hi, UInt64.toNat_ofNat_of_lt' hj] at htoNat
  exact h htoNat

variable [Digest]

namespace Journal

/-- The history consists of these records. -/
structure Holds (records : List HistoryRecord) (s : State) : Prop where
  length_lt : records.length < 2 ^ 64
  counted : counted s = .ok (.ofNat records.length)
  recorded : ∀ i (h : i < records.length), recorded (.ofNat i) s = .ok records[i]
  formed : ∀ i (h : i < records.length), records[i].index = .ofNat i ∧ records[i].kind ≠ .none

namespace Holds

variable {token : StableToken} {records : List HistoryRecord} {record : HistoryRecord}
  {s s' : State}

theorem countIn (h : Holds records s) :
    countIn journalAccount s = .ok (.ofNat records.length) := by
  rw [← counted_eq, h.counted]

/-- A history is held by its counter and its records alone. -/
theorem congr (h : Holds records s)
    (hcount : Journal.countIn journalAccount s' = Journal.countIn journalAccount s)
    (hrecord : ∀ index : UInt64, index ≠ .ofNat records.length →
      recordAt journalAccount index s' = recordAt journalAccount index s) : Holds records s' where
  length_lt := h.length_lt
  counted := by rw [counted_eq, hcount, h.countIn]
  recorded i hi := by
    rw [recorded_eq, hrecord, ← recorded_eq, h.recorded i hi]
    exact index_ne (Nat.lt_trans hi h.length_lt) h.length_lt (Nat.ne_of_lt hi)
  formed := h.formed

/-- A record is entered behind those that are held. -/
theorem enters (hsep : Digest.Separates token) (h : Holds records s)
    (henters : Enters s record s') : Holds (records ++ [record]) s' := by
  have hindex : record.index = .ofNat records.length :=
    Except.ok.inj ((henters.countIn_before hsep).symm.trans h.countIn)
  have hroom : records.length + 1 < 2 ^ 64 := by
    have hlt := henters.index_lt
    rwa [hindex, UInt64.toNat_ofNat_of_lt' h.length_lt] at hlt
  refine ⟨?_, ?_, ?_, ?_⟩
  · rwa [List.length_append]
  · rw [counted_eq, henters.countIn_after hsep, hindex, List.length_append]
    exact congrArg Except.ok (UInt64.ofNat_add ..).symm
  · refine forall_concat (P := fun i r => Journal.recorded (.ofNat i) s' = .ok r) ?_ ?_
    · intro i hi
      have hne : UInt64.ofNat i ≠ record.index := hindex ▸
        index_ne (Nat.lt_trans hi h.length_lt) h.length_lt (Nat.ne_of_lt hi)
      rw [recorded_eq, henters.recordAt_of_ne hsep hne, ← recorded_eq, h.recorded i hi]
    · rw [← hindex, recorded_eq, henters.recordAt_index hsep]
  · exact forall_concat (P := fun i r => r.index = .ofNat i ∧ r.kind ≠ .none) h.formed
      ⟨hindex, henters.kind_ne_none⟩

/-- The records are read from any of them on. -/
theorem recordsFrom (h : Holds records s) {start n : Nat} (hend : start + n = records.length) :
    recordsFrom journalAccount (.ofNat start) n s = .ok (records.drop start) := by
  induction n generalizing start with
  | zero =>
    have hall : records.length ≤ start := Nat.le_of_eq hend.symm
    rw [List.drop_of_length_le hall]
    rfl
  | succ n ih =>
    have hlt : start < records.length := by omega
    have hrecord := h.recorded start hlt
    have hnext : UInt64.ofNat start + 1 = .ofNat (start + 1) := (UInt64.ofNat_add ..).symm
    have hrest := @ih (start + 1) (by omega)
    rw [recorded_eq] at hrecord
    rw [Journal.recordsFrom, hrecord, hnext]
    simp only [bind, Except.bind]
    rw [hrest, List.drop_eq_getElem_cons hlt]
    rfl

/-- Reading the last records gives the end of the history, or all of it. -/
theorem lastRecords (h : Holds records s) (max : UInt64) :
    lastRecords journalAccount max s = .ok (records.drop (records.length - max.toNat)) := by
  simp only [Journal.lastRecords, h.countIn, bind, Except.bind,
    UInt64.toNat_ofNat_of_lt' h.length_lt]
  exact h.recordsFrom (by omega)

end Holds

end Journal

/-! ## Undamaged states -/

/-- Everything that a manager decodes can be decoded, and the history has these records. -/
structure Intact (records : List HistoryRecord) (s : State) : Prop where
  history : Journal.Holds records s
  volatility : ∃ n, (Slot.marketVolatility.word s).toUInt64 = .ok n
  treasury : ∃ account, (Slot.treasuryAddress.word s).toAddress = .ok account

namespace Intact

variable {token : StableToken} {records : List HistoryRecord} {s s' : State}

variable {σ : Type} [Gate σ] {as : List AppliedAdjustment}

/-- No step writes what is decoded besides the history. -/
theorem of_step (hsep : Digest.Separates token) (h : Intact records s) (hstep : Step σ s as s')
    {records' : List HistoryRecord} (hhistory : Journal.Holds records' s') :
    Intact records' s' := by
  have hvolatility : Slot.marketVolatility.word s' = Slot.marketVolatility.word s :=
    hstep.word_of_ne hsep trivial (by decide) (by decide) (by decide)
  have htreasury : Slot.treasuryAddress.word s' = Slot.treasuryAddress.word s :=
    hstep.word_of_ne hsep trivial (by decide) (by decide) (by decide)
  exact ⟨hhistory, hvolatility ▸ h.volatility, htreasury ▸ h.treasury⟩

omit [Gate σ] in
theorem observed (hsep : Digest.Separates token) {slot : Slot} {word : Word}
    (hslot : slot ∈ Slot.observed) (h : Intact records s) :
    Intact records (s.setSlots [slot.set word]) := by
  have hstep : Step OpenGate s [] (s.setSlots [slot.set word]) := .observed hslot
  refine h.of_step hsep hstep (h.history.congr ?_ fun index _ => ?_)
  · exact Journal.countIn_congr
      (Slot.word_observed hsep hslot Slot.inUse_historyCount (by decide))
  · apply Journal.recordAt_congr
    intro field
    exact HistoryField.slot_set hsep (Slot.inUse_of_mem_observed hslot) _ field _

/-- What stays of an adjustment that stopped on the way is a whole record or none. -/
theorem leavesPart (hsep : Digest.Separates token) (h : Intact records s)
    (hrefuses : RefusesReverts σ) (hpart : LeavesPart s s') :
    ∃ entered, Intact (records ++ entered) s' := by
  have hstep : Step σ s [] s' := .left hrefuses hpart
  obtain ⟨supply, -, hpart⟩ := hpart
  rcases hpart.enters_or hsep with ⟨record, henters⟩ | ⟨hcount, hrecord⟩
  · exact ⟨[record], h.of_step hsep hstep (h.history.enters hsep henters)⟩
  · refine ⟨[], h.of_step hsep hstep ?_⟩
    rw [List.append_nil]
    exact h.history.congr hcount (hrecord _ h.history.countIn)

/-- A step may add to the history, and damages nothing. -/
theorem step (hsep : Digest.Separates token) (h : Intact records s) (hstep : Step σ s as s') :
    ∃ entered, Intact (records ++ entered) s' := by
  cases hstep with
  | observed hslot =>
    refine ⟨[], ?_⟩
    rw [List.append_nil]
    exact h.observed hsep hslot
  | applied ha =>
    have hstep : Step σ s [_] s' := .applied ha
    exact ⟨_, h.of_step hsep hstep (h.history.enters hsep ha.enters)⟩
  | left hrefuses hpart => exact h.leavesPart hsep hrefuses hpart

theorem course (hsep : Digest.Separates token) (h : Intact records s)
    (hcourse : Course σ s as s') : ∃ entered, Intact (records ++ entered) s' := by
  induction hcourse generalizing records with
  | rest =>
    refine ⟨[], ?_⟩
    rwa [List.append_nil]
  | step hstep _ ih =>
    obtain ⟨first, hfirst⟩ := h.step hsep hstep
    obtain ⟨rest, hrest⟩ := ih hfirst
    refine ⟨first ++ rest, ?_⟩
    rwa [← List.append_assoc]

end Intact

/-- Genesis leaves an undamaged state without history. -/
theorem Genesis.intact_of_run {σ : Type} [Gate σ] {stable : StableToken}
    (hsep : Digest.Separates stable) {accounts : Accounts} {value : ValueToken}
    {staking : Staking} {now : UInt64} {before after : Access σ} {report : Report}
    (h : (run accounts value stable staking now).apply before = (.ok report, after)) :
    Intact [] after.ledger.state := by
  have hcount := (seeded_of_run hsep h).historyCount
  obtain ⟨-, ⟨funded, parameters, -, hencodes, hstate⟩, -⟩ :=
    (run_ensures accounts value stable staking now).of_ok h
  have hempty : Journal.countIn journalAccount after.ledger.state = .ok 0 := by
    have hword : after.ledger.state.slot journalAccount Slot.historyCount.key = .zero := hcount
    rw [Journal.countIn, hword]
    rfl
  have hholds : Journal.Holds [] after.ledger.state :=
    ⟨by decide, (Journal.counted_eq _).trans hempty, fun i hi => absurd hi (Nat.not_lt_zero i),
      fun i hi => absurd hi (Nat.not_lt_zero i)⟩
  refine ⟨hholds, ?_, ?_⟩
  · rw [hstate]
    exact ⟨_, hencodes.readFrom hsep funded _
      (.number stable.initialVolatility.toUInt64)
      (by simp [settings, stableSettings, tokenSettings])⟩
  · rw [hstate]
    exact ⟨_, hencodes.readFrom hsep funded _ (.account accounts.treasury)
      (by simp [settings, stableSettings, tokenSettings])⟩

end StableSupply
