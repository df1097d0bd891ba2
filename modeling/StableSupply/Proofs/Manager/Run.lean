import StableSupply.Proofs.Manager.Cycle

/-! # Runs of a manager

`Manager.perform_runs` says of every operation that it is a passage whose adjustments are those that
its answer reports. `Manager.run_passage` says the same of any sequence of operations, whatever
happens to the source, the subscribers and the gate in between, and `Manager.run_course` what the
ledger's state has then gone through. -/

namespace StableSupply

open Engine Gate

variable {σ τ ε δ α β : Type} [Digest] [Gate σ]

namespace Act

/-- The value that the program gives tells the adjustments that were applied, and a failure tells
that none was. -/
abbrev Runs (act : Act (Manager σ τ) ε α) (made : α → List AppliedAdjustment) : Prop :=
  act.Notes (fun a noted => noted.filterMap Occurrence.adjustment? = made a)
    fun noted => noted.filterMap Occurrence.adjustment? = []

/-- What follows a program may turn its value into another as long as the adjustments told of stay
the same. -/
theorem Runs.map {act : Act (Manager σ τ) ε α} {f : α → β} {made : α → List AppliedAdjustment}
    {made' : β → List AppliedAdjustment} (h : act.Runs made) (hf : ∀ a, made' (f a) = made a) :
    (f <$> act).Runs made' :=
  Notes.map (h.mono (fun a _ hnoted => (hf a).symm ▸ hnoted) fun _ h => h)

end Act

namespace Manager

open Act

variable [DecisionSource τ]

/-! ## Cycles -/

/-- A cycle hands on the adjustment of its outcome, if there is one, and a cycle that fails hands on
none. -/
theorem cycle_runs (now : Instant) :
    (cycle now : Program σ τ UpdateReport).Runs fun report => made report.outcome := by
  refine notes_iff.2 fun m => ?_
  obtain ⟨noted, hpassage, hunfolds⟩ := cycle_unfolds now m
  refine ⟨.cycle :: noted, hpassage, ?_⟩
  have hadjustments := hunfolds.adjustments
  cases hresult : ((cycle now).apply m).1 with
  | ok report => rwa [hresult] at hadjustments
  | error e => rwa [hresult] at hadjustments

omit [DecisionSource τ] in
theorem passage_beginChecking (m : Manager σ τ) : Passage m [] m.beginChecking := by
  unfold beginChecking
  split
  · exact .quiet .rest rfl rfl rfl
  · exact .rest

omit [DecisionSource τ] in
theorem passage_endChecking (m : Manager σ τ) : Passage m [] m.endChecking := by
  unfold endChecking
  split
  · exact .quiet .rest rfl rfl rfl
  · exact .rest

omit [Digest] [Gate σ] [DecisionSource τ] in
/-- The phase is all that changes around the action. -/
theorem apply_whileChecking (act : Act (Manager σ τ) ε α) (m : Manager σ τ) :
    (whileChecking act).apply m =
      ((act.apply m.beginChecking).1, (act.apply m.beginChecking).2.endChecking) := by
  simp only [whileChecking, apply_bind, apply_modify, apply_attempt, apply_liftExcept]

omit [DecisionSource τ] in
/-- Showing a cycle in the phase does not occur in a passage. -/
theorem passage_whileChecking {act : Act (Manager σ τ) ε α} {m : Manager σ τ}
    {noted : List Occurrence} (h : Passage m.beginChecking noted (act.apply m.beginChecking).2) :
    Passage m noted ((whileChecking act).apply m).2 := by
  have hpassage := ((passage_beginChecking m).trans h).trans (passage_endChecking _)
  rw [List.nil_append, List.append_nil] at hpassage
  rw [apply_whileChecking]
  exact hpassage

omit [DecisionSource τ] in
theorem whileChecking_notes {act : Act (Manager σ τ) ε α} {Q : α → List Occurrence → Prop}
    {E : List Occurrence → Prop} (h : act.Notes Q E) : (whileChecking act).Notes Q E := by
  refine notes_iff.2 fun m => ?_
  obtain ⟨noted, hpassage, hnoted⟩ := notes_iff.1 h m.beginChecking
  refine ⟨noted, passage_whileChecking hpassage, ?_⟩
  rw [apply_whileChecking]
  exact hnoted

theorem process_runs (now : Instant) :
    (process now : Program σ τ UpdateReport).Runs fun report => made report.outcome :=
  whileChecking_notes (cycle_runs now)

/-- A cycle that fails is not reported, and has handed on nothing. -/
theorem catchUp_runs (now : Instant) :
    (catchUp now : Act (Manager σ τ) ε (Option UpdateReport)).Runs fun report =>
      report.toList.flatMap fun report => made report.outcome := by
  refine quiet_askLastUpdate.bind rfl ?_
  intro latest
  refine quiet_get.bind rfl ?_
  intro m
  split
  · intro m
    rw [ensures_bind, ensures_attempt]
    refine (cycle_runs now m).mono ?_ ?_
    · rintro report m₁ ⟨noted, hpassage, hnoted⟩
      exact ⟨noted, hpassage, hnoted.trans (by simp)⟩
    · intro _ m₁ hfailed
      exact hfailed
  · exact notes_pure rfl

/-- A check hands on what its report tells of. -/
theorem check_runs (now : Instant) :
    (check now : Act (Manager σ τ) ε (Option UpdateReport)).Runs fun report =>
      report.toList.flatMap fun report => made report.outcome := by
  refine quiet_get.bind rfl ?_
  intro m
  split
  · exact notes_pure rfl
  · exact whileChecking_notes (catchUp_runs now)

/-! ## Queries and the other operations -/

/-- Asking the source for fresh data touches neither ledger nor subscribers. -/
theorem quiet_settleQuery (now : Instant) (limit : Duration) (answered : Bool) :
    (settleQuery now limit answered : Program σ τ Unit).Quiet := by
  unfold settleQuery
  split
  · exact quiet_get.bind rfl fun _ => quiet_onSource
  · exact notes_throw rfl

theorem quiet_refresh (now : Instant) : (refresh now : Program σ τ Unit).Quiet :=
  quiet_get.bind rfl fun _ => quiet_settleQuery now _ _

/-- A forced cycle hands on what a cycle does. -/
theorem force_runs (now : Instant) (limit : Duration) :
    (force now limit : Program σ τ UpdateReport).Runs fun report => made report.outcome := by
  refine quiet_get.bind rfl ?_
  intro m
  split
  · exact notes_throw rfl
  · exact (quiet_settleQuery now limit _).bind rfl fun _ => process_runs now

theorem quiet_start : (start : Program σ τ Unit).Quiet := by
  refine quiet_get.bind rfl ?_
  intro m
  by_cases hstopped : m.phase = .stopped
  · rw [if_pos hstopped]
    exact notes_throw rfl
  · rw [if_neg hstopped]
    split
    · refine quiet_onSource.bind rfl ?_
      intro _
      exact quiet_modify (fun _ => rfl) (fun _ => rfl) (fun _ => rfl) fun _ => rfl
    · exact notes_pure rfl

theorem quiet_stop : (modify stop : Program σ τ PUnit).Quiet :=
  quiet_modify (fun _ => rfl) (fun _ => rfl) (fun _ => rfl) fun _ => rfl

/-- A decision from outside is handed on like one of a cycle. -/
theorem applyAdjustment_runs (now : Instant) (decision : Decision) (treasury : Address) :
    (applyAdjustment now decision treasury : Program σ τ Outcome).Runs made := by
  refine quiet_attach.bind rfl ?_
  intro _
  refine (applyDecision_notes now decision treasury).mono ?_ ?_
  · rintro outcome _ rfl
    exact Occurrence.filterMap_adjustment (made outcome)
  · rintro _ (rfl | rfl) <;> rfl

/-- An observation is written to one of the slots for the source's values. -/
theorem quiet_observe (now : Instant) (value : Word) :
    (observe now value : Program σ τ Unit).Quiet := by
  refine Quiet.bind ?_ rfl fun _ => quiet_attach.bind rfl fun _ => quiet_observed (by decide) _
  exact quiet_modify (fun _ => rfl) (fun _ => rfl) (fun _ => rfl) fun _ => rfl

omit [DecisionSource τ] in
theorem quiet_history (max : UInt64) :
    (history max : Program σ τ (List HistoryRecord)).Quiet := by
  refine quiet_attach.bind rfl fun _ => quiet_onDesk fun s => ?_
  rw [ensures_failingWith]
  exact (Journal.query_answers journalAccount max s rfl).mono
    (fun _ _ h₁ => .of_eq (congrArg Ledger.state h₁.1)) fun _ _ h₁ =>
      .of_eq (congrArg Ledger.state h₁.1)

/-- The adjustments that an answer reports. -/
def Answer.adjustments : Answer → List AppliedAdjustment
  | .report r => made r.outcome
  | .outcome o => made o
  | _ => []

/-- Every operation hands on the adjustments that its answer reports, and one that fails hands on
none. -/
theorem perform_runs (now : Instant) (operation : Operation) :
    (perform now operation : Program σ τ Answer).Runs Answer.adjustments := by
  cases operation with
  | start => exact quiet_start.bind rfl fun _ => notes_pure rfl
  | stop => exact quiet_stop.bind rfl fun _ => notes_pure rfl
  | check =>
    simp only [perform, ← map_eq_pure_bind]
    refine (check_runs now).map ?_
    intro report
    cases report with
    | none => rfl
    | some report => simp [Answer.adjustments]
  | process =>
    simp only [perform, ← map_eq_pure_bind]
    exact (process_runs now).map fun _ => rfl
  | refresh => exact (quiet_refresh now).bind rfl fun _ => notes_pure rfl
  | force limit =>
    simp only [perform, ← map_eq_pure_bind]
    exact (force_runs now limit).map fun _ => rfl
  | apply decision treasury =>
    simp only [perform, ← map_eq_pure_bind]
    exact (applyAdjustment_runs now decision treasury).map fun _ => rfl
  | observe value => exact (quiet_observe now value).bind rfl fun _ => notes_pure rfl
  | history max => exact (quiet_history max).bind rfl fun _ => notes_pure rfl

/-! ## Runs -/

/-- What can happen to a manager. -/
inductive Event (σ τ : Type)
  | operation (now : Instant) (operation : Operation)
  /-- Between operations the source moves on, also by answering a query that takes its time,
  subscribers come, read and leave, and the gate may come to refuse other requests. -/
  | elsewhere (source : τ → τ) (notifier : Notifier → Notifier) (gate : σ → σ)

/-- The adjustments that the answer to an event reports, and the manager after it. -/
def respond (m : Manager σ τ) : Event σ τ → List AppliedAdjustment × Manager σ τ
  | .operation now operation =>
    let (answer, m) := (perform now operation).apply m
    (told Answer.adjustments answer, m)
  | .elsewhere source notifier gate =>
    ([], { m with desk := { m.desk with
      access := { m.desk.access with gate := gate m.desk.access.gate }
      source := source m.desk.source
      notifier := notifier m.desk.notifier } })

/-- What happens to a manager in order, and the adjustments that the answers report. -/
def run (m : Manager σ τ) : List (Event σ τ) → List AppliedAdjustment × Manager σ τ
  | [] => ([], m)
  | event :: events =>
    let (first, m) := m.respond event
    let (rest, m) := m.run events
    (first ++ rest, m)

theorem run_cons (m : Manager σ τ) (event : Event σ τ) (events : List (Event σ τ)) :
    (m.run (event :: events)).2 = ((m.respond event).2.run events).2 := rfl

/-- The manager has come out of a run from the start. -/
def Reached (m : Manager σ τ) : Prop :=
  ∃ settings access source events, m = ((initial settings access source).run events).2

/-- Whatever happens to a manager is a passage on which the reported adjustments are handed on. -/
theorem respond_passage (m : Manager σ τ) (event : Event σ τ) :
    ∃ noted, Passage m noted (m.respond event).2 ∧
      noted.filterMap Occurrence.adjustment? = (m.respond event).1 := by
  cases event with
  | operation now operation =>
    have h := perform_runs now operation m
    unfold Act.Ensures at h
    simp only [respond]
    split at h
    · next h' => rw [h']; exact h
    · next h' => rw [h']; exact h
  | elsewhere source notifier gate => exact ⟨[], .quiet .rest rfl rfl rfl, rfl⟩

/-- A run is a passage on which the reported adjustments are handed on in order. -/
theorem run_passage (m : Manager σ τ) (events : List (Event σ τ)) :
    ∃ noted, Passage m noted (m.run events).2 ∧
      noted.filterMap Occurrence.adjustment? = (m.run events).1 := by
  induction events generalizing m with
  | nil => exact ⟨[], .rest, rfl⟩
  | cons event events ih =>
    obtain ⟨before, hbefore, hfirst⟩ := m.respond_passage event
    obtain ⟨after, hafter, hrest⟩ := ih (m.respond event).2
    refine ⟨before ++ after, hbefore.trans hafter, ?_⟩
    rw [List.filterMap_append, hfirst, hrest]
    rfl

/-- The state of the ledger runs a course of the reported adjustments. -/
theorem run_course (m : Manager σ τ) (events : List (Event σ τ)) :
    Course σ m.state (m.run events).1 (m.run events).2.state := by
  obtain ⟨noted, hpassage, hmade⟩ := m.run_passage events
  exact hmade ▸ hpassage.course

end Manager

end StableSupply
