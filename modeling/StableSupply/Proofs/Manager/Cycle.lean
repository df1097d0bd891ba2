import StableSupply.Proofs.Manager.Passage

/-! # What occurs in a cycle

A cycle obtains a decision, hands on an update, calls the engine and hands on an adjustment, in this
order and as far as it gets (`Manager.Unfolds`, `Manager.cycle_unfolds`). The update goes out exactly
if it was prepared, and what it tells was written just before (`Manager.prepare_writes`). -/

namespace StableSupply

open Engine Gate

/-- The writes that record what the update tells. -/
def ValueUpdate.writes [Digest] (u : ValueUpdate) : List SlotWrite :=
  [Slot.targetValue.set u.targetValue, Slot.currentValue.set u.currentValue,
   Slot.lastUpdateTime.set (.ofUInt64 u.timestamp)]

/-- The slots hold what the update tells. -/
structure ValueUpdate.HeldIn [Digest] (u : ValueUpdate) (s : State) : Prop where
  targetValue : Slot.targetValue.word s = u.targetValue
  currentValue : Slot.currentValue.word s = u.currentValue
  lastUpdateTime : Slot.lastUpdateTime.word s = .ofUInt64 u.timestamp

/-- What is written of an update is held afterwards, if no write covers another. -/
theorem ValueUpdate.heldIn_setSlots [Digest] (hkeys : (Slot.observed.map Slot.key).Nodup)
    (u : ValueUpdate) (s : State) : u.HeldIn (s.setSlots u.writes) := by
  simp only [Slot.observed, List.map_cons, List.map_nil, List.nodup_cons, List.mem_cons,
    List.not_mem_nil, or_false, not_or] at hkeys
  obtain ⟨⟨htc, htl⟩, hcl, -⟩ := hkeys
  have hplace {slot other : Slot} {word : Word} (h : other.key ≠ slot.key) :
      (slot.owner, slot.key) ≠ (other.set word).place := fun hplace => h (Prod.mk.inj hplace).2.symm
  refine ⟨?_, ?_, ?_⟩
  · simp only [writes, State.setSlots_cons, State.setSlots_nil, Slot.word]
    rw [State.slot_setSlot_of_ne _ _ (hplace (Ne.symm htl)),
      State.slot_setSlot_of_ne _ _ (hplace (Ne.symm htc))]
    exact State.slot_setSlot_self ..
  · simp only [writes, State.setSlots_cons, State.setSlots_nil, Slot.word]
    rw [State.slot_setSlot_of_ne _ _ (hplace (Ne.symm hcl))]
    exact State.slot_setSlot_self ..
  · exact State.slot_setSlot_self ..

/-- Slots that show nothing of a source keep their words. -/
theorem ValueUpdate.word_setSlots [Digest] (u : ValueUpdate) (s : State) {slot : Slot}
    (h : slot.key ∉ Slot.observed.map Slot.key) : slot.word (s.setSlots u.writes) = slot.word s := by
  apply State.slot_setSlots_of_notMem
  intro w hw hplace
  have hkey : w.key = slot.key := (Prod.mk.inj hplace).2
  apply h
  rw [← hkey]
  simp only [writes, List.mem_cons, List.not_mem_nil, or_false] at hw
  rcases hw with rfl | rfl | rfl
  · exact List.mem_map_of_mem (by decide)
  · exact List.mem_map_of_mem (by decide)
  · exact List.mem_map_of_mem (by decide)

namespace Manager

open Act

variable {σ τ ε α : Type} [Digest] [Gate σ]

/-! ## Until the update is due -/

/-- The manager with another ledger, or another state of its gate. -/
def withAccess (m : Manager σ τ) (access : Access σ) : Manager σ τ :=
  { m with desk := { m.desk with access } }

theorem quiet_readMarket : (readMarket : Program σ τ _).Quiet := by
  refine (quiet_read _).bind rfl ?_
  intro supply
  refine (quiet_read _).bind rfl ?_
  intro price
  refine (quiet_read _).bind rfl ?_
  intro word
  split
  · exact notes_pure rfl
  · exact notes_throw rfl

section Cycles

variable [DecisionSource τ]

/-- The decision is noted and the data used up at once. -/
theorem obtainDecision_notes (now : Instant) (observed : Option Instant) :
    (obtainDecision now observed : Program σ τ Decision).Notes
      (fun _ noted => noted = [.decision observed]) fun noted => noted = [] := by
  refine quiet_readMarket.bind rfl ?_
  rintro ⟨supply, price, volatility⟩
  refine quiet_get.bind rfl ?_
  intro m
  refine quiet_onSource.bind rfl ?_
  intro decision m₁
  have hused : Passage m₁ [.decision observed]
      { m₁ with
        desk := m₁.desk.note (.decision observed)
        lastApplied := observed.or m₁.lastApplied } :=
    ⟨rfl, .rest, by cases observed <;> rfl, fun _ => rfl, rfl, [], rfl, rfl⟩
  simp only [note, ensures_bind, ensures_modify]
  cases observed with
  | none => exact ⟨_, hused, rfl⟩
  | some t => exact ⟨_, hused, rfl⟩

theorem quiet_recordValues (decision : Decision) (timestamp : UInt64) :
    (recordValues decision timestamp : Program σ τ ValueUpdate).Quiet := by
  refine quiet_get.bind rfl ?_
  intro m
  refine (quiet_observed (by decide) _).bind rfl ?_
  intro _
  refine (quiet_observed (by decide) _).bind rfl ?_
  intro _
  refine (quiet_observed (by decide) _).bind rfl ?_
  intro _
  exact notes_pure rfl

/-- Up to its update a cycle notes one decision at most. -/
theorem prepare_notes (now : Instant) :
    (prepare now : Program σ τ ValueUpdate).Notes
      (fun _ noted => ∃ observed, noted = [.decision observed])
      fun noted => noted = [] ∨ ∃ observed, noted = [.decision observed] := by
  refine quiet_askLastUpdate.bind (.inl rfl) ?_
  intro observed
  refine quiet_attach.bind (.inl rfl) ?_
  intro _
  refine (obtainDecision_notes now observed).bind (fun _ => .inl) ?_
  rintro decision _ rfl
  refine (quiet_recordValues decision _).mono ?_ ?_
  · rintro u _ rfl
    exact ⟨observed, rfl⟩
  · rintro _ rfl
    exact .inr ⟨observed, rfl⟩

/-- The writes that record what a source holds. -/
def sourceWrites (source : τ) (timestamp : UInt64) : List SlotWrite :=
  [Slot.targetValue.set (DecisionSource.targetValue source),
   Slot.currentValue.set (DecisionSource.currentValue source),
   Slot.lastUpdateTime.set (.ofUInt64 timestamp)]

/-- The writes touch the ledger alone. They are made in order, and the first that is refused is not
made. -/
theorem recordValues_ensures (decision : Decision) (timestamp : UInt64) (m : Manager σ τ) :
    (recordValues decision timestamp : Program σ τ ValueUpdate).Ensures m
      (fun u m' => u.decision = decision ∧ u.timestamp = timestamp ∧
        u.writes = sourceWrites m.desk.source timestamp ∧ ∃ access, m' = m.withAccess access ∧
          access.ledger.state = m.state.setSlots u.writes)
      fun e m' => ∃ c access n, e = .ledger c ∧ Refusal σ c ∧ n < 3 ∧ m' = m.withAccess access ∧
        access.ledger.state =
          m.state.setSlots ((sourceWrites m.desk.source timestamp).take n) := by
  simp only [recordValues, onLedger, onDesk, Engine.onLedger, ensures_bind, ensures_get, ensures_on,
    ensures_failingWith]
  refine (Slot.write_ensures .targetValue _).mono ?_ ?_
  · intro _ s₁ h₁
    refine (Slot.write_ensures .currentValue _).mono ?_ ?_
    · intro _ s₂ h₂
      refine (Slot.write_ensures .lastUpdateTime _).mono ?_ ?_
      · intro _ s₃ h₃
        refine ⟨rfl, rfl, rfl, s₃, rfl, ?_⟩
        rw [h₃, h₂, h₁]
        rfl
      · intro c s₃ h₃
        refine ⟨c, s₃, 2, rfl, h₃.2, by decide, rfl, ?_⟩
        rw [h₃.1, h₂, h₁]
        rfl
    · intro c s₂ h₂
      exact ⟨c, s₂, 1, rfl, h₂.2, by decide, rfl, congrArg Ledger.state (h₂.1.trans h₁)⟩
  · intro c s₁ h₁
    exact ⟨c, s₁, 0, rfl, h₁.2, by decide, rfl, congrArg Ledger.state h₁.1⟩

/-- When the update is due, what it tells was just written. -/
theorem prepare_writes (now : Instant) (m : Manager σ τ) :
    (prepare now : Program σ τ ValueUpdate).Ensures m
      (fun u m' => u.timestamp = now.unixSeconds ∧ ∃ s : State, m'.state = s.setSlots u.writes)
      fun _ _ => True := by
  simp only [prepare, ensures_bind]
  refine (ensures_apply _ m).mono ?_ fun _ _ _ => trivial
  intro observed m₁ _
  refine (ensures_apply _ m₁).mono ?_ fun _ _ _ => trivial
  intro _ m₂ _
  refine (ensures_apply _ m₂).mono ?_ fun _ _ _ => trivial
  intro decision m₃ _
  refine (recordValues_ensures decision now.unixSeconds m₃).mono ?_ fun _ _ _ => trivial
  rintro u _ ⟨_, htime, _, access, rfl, hwritten⟩
  exact ⟨htime, m₃.state, hwritten⟩

end Cycles

/-! ## The rest of a cycle -/

theorem quiet_resolveTreasury : (resolveTreasury : Program σ τ Address).Quiet := by
  refine quiet_get.bind rfl ?_
  intro m
  split
  · exact notes_pure rfl
  · refine (quiet_read _).bind rfl ?_
    intro word
    split
    · split
      · exact notes_throw rfl
      · exact notes_pure rfl
    · exact notes_throw rfl

section Attempts

variable {m m' : Manager σ τ} {d : Decision}

/-- An attempt that comes to nothing is counted and leaves no adjustment. -/
theorem passage_unapplied {status : Status} (h : Counted d m.desk [] status m'.desk)
    (hstatus : status ≠ .applied) (hcourse : Course σ m.state [] m'.state)
    (hlast : m'.lastApplied = m.lastApplied) : Passage m [.attempt d] m' where
  trace := h.trace
  course := hcourse
  lastApplied := hlast
  applied kind := by
    show _ = Metrics.adjustmentCount _ kind .applied + 0
    simp [Metrics.adjustmentCount, h.adjustments, hstatus]
  attempts := by rw [h.adjustments]; rfl
  cycles := ⟨[], rfl, h.cycles⟩

/-- An attempt that succeeds is counted and hands on its adjustment. -/
theorem passage_applied {a : AppliedAdjustment} (h : Counted d m.desk [a] .applied m'.desk)
    (hkind : a.record.kind = d.kind) (hcourse : Course σ m.state [a] m'.state)
    (hlast : m'.lastApplied = m.lastApplied) : Passage m [.attempt d, .adjustment a] m' where
  trace := h.trace
  course := hcourse
  lastApplied := hlast
  applied kind := by
    show _ = Metrics.adjustmentCount _ kind .applied + [a].countP (·.record.kind = kind)
    simp [Metrics.adjustmentCount, h.adjustments, List.count_cons, List.countP_singleton, hkind]
  attempts := by rw [h.adjustments]; rfl
  cycles := ⟨[], rfl, h.cycles⟩

end Attempts

/-- The adjustment of an outcome, if it has one. -/
def made (outcome : Outcome) : List AppliedAdjustment := outcome.applied?.toList

/-- What is noted of a call of the engine that gave the outcome. -/
def attempted (decision : Decision) (outcome : Outcome) : List Occurrence :=
  .attempt decision :: (made outcome).map .adjustment

section Conclusions

variable [DecisionSource τ]

/-- Only here are adjustments applied. -/
theorem applyDecision_notes (now : Instant) (decision : Decision) (treasury : Address) :
    (applyDecision now decision treasury : Program σ τ Outcome).Notes
      (fun outcome noted => noted = attempted decision outcome)
      fun noted => noted = [] ∨ noted = [.attempt decision] := by
  refine quiet_get.bind (.inl rfl) ?_
  intro clock
  refine Notes.failingWith ?_ _
  intro m
  simp only [onDesk, ensures_on]
  refine ((apply_ensures _ decision treasury).and (apply_counted _ decision treasury)).mono ?_ ?_
  · rintro outcome desk ⟨h, hcounted⟩
    refine ⟨_, ?_, rfl⟩
    cases outcome with
    | noChange => exact passage_unapplied hcounted nofun (.of_eq h.ledger.state) rfl
    | skipped reason => exact passage_unapplied hcounted nofun (.of_eq h.ledger.state) rfl
    | applied a =>
      exact passage_applied hcounted h.records.kind (.of_step (.applied h.adjusts)) rfl
  · rintro e desk ⟨h, hcounted⟩
    refine ⟨_, passage_unapplied hcounted nofun ?_ rfl, .inr rfl⟩
    rcases h with hkept | ⟨hrefuses, -, hpart⟩
    · exact .of_eq hkept.ledger.state
    · exact .of_step (.left hrefuses hpart)

/-- The rest of a cycle calls the engine at most once. -/
theorem conclude_notes (now : Instant) (decision : Decision) :
    (conclude now decision : Program σ τ UpdateReport).Notes
      (fun report noted =>
        report.decision = decision ∧ noted = attempted decision report.outcome)
      fun noted => noted = [] ∨ noted = [.attempt decision] := by
  -- the two ways to a treasury lead to the same rest of the program
  have happly (treasury : Address) : ((fun outcome => ⟨decision, outcome, now.unixSeconds⟩) <$>
      applyDecision now decision treasury : Program σ τ UpdateReport).Notes
        (fun report noted => report.decision = decision ∧ noted = attempted decision report.outcome)
        fun noted => noted = [] ∨ noted = [.attempt decision] :=
    ((applyDecision_notes now decision treasury).mono (fun _ _ h => ⟨rfl, h⟩) fun _ h => h).map
  simp only [map_eq_pure_bind] at happly
  unfold conclude
  split
  · exact happly .zero
  · exact quiet_resolveTreasury.bind (.inl rfl) happly

end Conclusions

/-! ## Whole cycles -/

/-- What occurs in a cycle after its beginning, by what came of preparing its update and by its
result. -/
inductive Unfolds :
    Except UpdateError ValueUpdate → Except UpdateError UpdateReport → List Occurrence → Prop
  | undecided {e : UpdateError} : Unfolds (.error e) (.error e) []
  | unrecorded {e : UpdateError} {observed : Option Instant} :
    Unfolds (.error e) (.error e) [.decision observed]
  | untried {u : ValueUpdate} {e : UpdateError} {observed : Option Instant} :
    Unfolds (.ok u) (.error e) [.decision observed, .update u]
  | failed {u : ValueUpdate} {e : UpdateError} {observed : Option Instant} :
    Unfolds (.ok u) (.error e) [.decision observed, .update u, .attempt u.decision]
  | reported {u : ValueUpdate} {report : UpdateReport} {observed : Option Instant}
    (hdecision : report.decision = u.decision) :
    Unfolds (.ok u) (.ok report)
      (.decision observed :: .update u :: attempted u.decision report.outcome)

theorem passage_publish (m : Manager σ τ) (u : ValueUpdate) :
    Passage m [.update u] { m with desk := m.desk.publishUpdate u } :=
  ⟨rfl, .rest, rfl, fun _ => rfl, rfl, [], rfl, rfl⟩

/-- The manager as a cycle begins. -/
def begun (m : Manager σ τ) : Manager σ τ := { m with desk := m.desk.note .cycle }

/-- The manager as a cycle has ended with a status. -/
def ended (m : Manager σ τ) (status : Status) : Manager σ τ :=
  { m with desk.metrics := m.desk.metrics.countCycle status }

/-- A cycle is counted once, under its status. -/
theorem passage_cycle {m m' : Manager σ τ} {noted : List Occurrence}
    (h : Passage m.begun noted m') (status : Status) :
    Passage m (.cycle :: noted) (m'.ended status) where
  trace := by
    rw [List.reverse_cons, List.append_assoc]
    exact h.trace
  course := h.course
  lastApplied := by
    rw [List.reverse_cons, List.findSome?_append]
    exact h.lastApplied.trans (by simp [begun, Occurrence.used?])
  applied := h.applied
  attempts := h.attempts
  cycles := by
    obtain ⟨counted, hlength, hcycles⟩ := h.cycles
    refine ⟨status :: counted, ?_, congrArg (status :: ·) hcycles⟩
    rw [List.count_cons_self, List.length_cons, hlength]

section Cycles

variable [DecisionSource τ]

theorem decideAndApply_unfolds (now : Instant) (m : Manager σ τ) :
    ∃ noted, Passage m noted ((decideAndApply now).apply m).2 ∧
      Unfolds ((prepare now).apply m).1 ((decideAndApply now).apply m).1 noted := by
  obtain ⟨_, hbefore, hprepared⟩ := notes_iff.1 (prepare_notes now) m
  rw [decideAndApply, apply_bind]
  rcases hprepare : (prepare now).apply m with ⟨e | u, m₁⟩
  · rw [hprepare] at hbefore hprepared
    rcases hprepared with rfl | ⟨observed, rfl⟩
    · exact ⟨_, hbefore, .undecided⟩
    · exact ⟨_, hbefore, .unrecorded⟩
  · rw [hprepare] at hbefore hprepared
    obtain ⟨observed, rfl⟩ := hprepared
    have hpublished := hbefore.trans (passage_publish m₁ u)
    obtain ⟨_, hafter, hconcluded⟩ := notes_iff.1 (conclude_notes now u.decision)
      { m₁ with desk := m₁.desk.publishUpdate u }
    simp only [apply_bind, apply_modify]
    rcases hconclude : (conclude now u.decision).apply
      { m₁ with desk := m₁.desk.publishUpdate u } with ⟨e | report, m₂⟩
    · rw [hconclude] at hafter hconcluded
      rcases hconcluded with rfl | rfl
      · exact ⟨_, hpublished.trans hafter, .untried⟩
      · exact ⟨_, hpublished.trans hafter, .failed⟩
    · rw [hconclude] at hafter hconcluded
      obtain ⟨hdecision, rfl⟩ := hconcluded
      exact ⟨_, hpublished.trans hafter, .reported hdecision⟩

theorem apply_cycle (now : Instant) (m : Manager σ τ) :
    (cycle now : Program σ τ UpdateReport).apply m =
      (((decideAndApply now).apply m.begun).1, ((decideAndApply now).apply m.begun).2.ended
        (cycleStatus ((decideAndApply now).apply m.begun).1)) := by
  simp only [cycle, note, apply_bind, apply_modify, apply_attempt, apply_liftExcept]
  rfl

/-- What occurs in a cycle is told by what it prepared and by its result. -/
theorem cycle_unfolds (now : Instant) (m : Manager σ τ) :
    ∃ noted, Passage m (.cycle :: noted) ((cycle now).apply m).2 ∧
      Unfolds ((prepare now).apply m.begun).1 ((cycle now).apply m).1 noted := by
  obtain ⟨noted, hpassage, hunfolds⟩ := decideAndApply_unfolds now m.begun
  rw [apply_cycle]
  exact ⟨noted, passage_cycle hpassage _, hunfolds⟩

end Cycles

namespace Unfolds

variable {prepared : Except UpdateError ValueUpdate} {result : Except UpdateError UpdateReport}
  {noted : List Occurrence}

omit [Digest] in
/-- The result tells the adjustment that was applied, if one was. -/
theorem adjustments (h : Unfolds prepared result noted) :
    noted.filterMap Occurrence.adjustment? = told (fun report => made report.outcome) result := by
  cases h with
  | @reported u report observed _ => exact Occurrence.filterMap_adjustment (made report.outcome)
  | _ => rfl

omit [Digest] in
/-- The update that was due has been handed on. -/
theorem updates (h : Unfolds prepared result noted) :
    noted.filterMap Occurrence.update? = prepared.toOption.toList := by
  cases h with
  | @reported u report observed _ => cases houtcome : report.outcome <;> rfl
  | _ => rfl

omit [Digest] in
/-- An adjustment comes after the update. -/
theorem update_before (h : Unfolds prepared result noted) {a : AppliedAdjustment}
    {before after : List Occurrence} (hnoted : noted = before ++ .adjustment a :: after) :
    ∃ u, .update u ∈ before := by
  have hmem : Occurrence.adjustment a ∈ noted := by simp [hnoted]
  cases h with
  | @reported u report observed _ =>
    match before, hnoted with
    | _ :: _ :: before, hnoted =>
      obtain ⟨-, hnoted⟩ := List.cons.inj hnoted
      obtain ⟨rfl, -⟩ := List.cons.inj hnoted
      exact ⟨u, by simp⟩
  | _ => simp at hmem

omit [Digest] in
/-- No cycle begins within another. -/
theorem count_cycle (h : Unfolds prepared result noted) : noted.count .cycle = 0 := by
  rw [List.count_eq_zero]
  cases h <;> simp [attempted]

omit [Digest] in
/-- Data is used up at most once. -/
theorem findSome?_used (h : Unfolds prepared result noted) {t : Instant}
    (ht : .decision (some t) ∈ noted) :
    noted.reverse.findSome? Occurrence.used? = some t := by
  cases h with
  | undecided => simp at ht
  | @unrecorded e observed =>
    obtain rfl : some t = observed := by simpa using ht
    rfl
  | @untried u e observed =>
    obtain rfl : some t = observed := by simpa using ht
    rfl
  | @failed u e observed =>
    obtain rfl : some t = observed := by simpa using ht
    rfl
  | @reported u report observed _ =>
    obtain rfl : some t = observed := by simpa [attempted] using ht
    cases houtcome : report.outcome <;> rfl

end Unfolds

/-- A cycle is counted once, under the status of its result. -/
theorem cycle_counted [DecisionSource τ] (now : Instant) (m : Manager σ τ) :
    ((cycle now).apply m).2.desk.metrics.cycles =
      cycleStatus ((cycle now).apply m).1 :: m.desk.metrics.cycles := by
  obtain ⟨noted, hpassage, hunfolds⟩ := decideAndApply_unfolds now m.begun
  obtain ⟨counted, hlength, hcycles⟩ := hpassage.cycles
  rw [hunfolds.count_cycle, List.length_eq_zero_iff] at hlength
  rw [hlength, List.nil_append] at hcycles
  rw [apply_cycle]
  exact congrArg (_ :: ·) hcycles

end Manager

end StableSupply
