import StableSupply.Manager
import StableSupply.Proofs.Manager.Course

/-! # Passages of a manager

`Passage m noted m'` says what occurred between two managers and how it shows: the trace is longer
by it, the ledger's state has run the course of the adjustments handed on, the time of the data used
up is that of the latest decision that used any, and the counters have moved by what they count.

A program is described by the occurrences that its value or its failure leaves possible
(`Act.Notes`). Most of what a manager does is quiet, that is, nothing occurs in it. -/

namespace StableSupply

open Engine Gate

namespace Occurrence

/-- The adjustment that is handed to its subscribers. -/
def adjustment? : Occurrence → Option AppliedAdjustment
  | adjustment a => some a
  | _ => none

/-- The update that is handed to its subscribers. -/
def update? : Occurrence → Option ValueUpdate
  | update u => some u
  | _ => none

/-- The decision that the engine is called on. -/
def attempt? : Occurrence → Option Decision
  | attempt d => some d
  | _ => none

/-- The time of the data that was used up. -/
def used? : Occurrence → Option Instant
  | decision observed => observed
  | _ => none

theorem filterMap_adjustment (as : List AppliedAdjustment) :
    (as.map adjustment).filterMap adjustment? = as := by
  rw [List.filterMap_map]
  exact List.filterMap_some

end Occurrence

/-! ## Passages -/

section Passages

variable {σ τ : Type}

/-- The state of the manager's ledger. -/
def Manager.state (m : Manager σ τ) : State := m.desk.access.ledger.state

variable [Digest] [Gate σ]

/-- What occurred, earliest first, on the way from one manager to another. -/
structure Passage (m : Manager σ τ) (noted : List Occurrence) (m' : Manager σ τ) : Prop where
  trace : m'.desk.trace = noted.reverse ++ m.desk.trace
  course : Course σ m.state (noted.filterMap Occurrence.adjustment?) m'.state
  lastApplied :
    m'.lastApplied = (noted.reverse.findSome? Occurrence.used?).or m.lastApplied
  applied : ∀ kind, m'.desk.metrics.adjustmentCount kind .applied =
    m.desk.metrics.adjustmentCount kind .applied +
      (noted.filterMap Occurrence.adjustment?).countP (·.record.kind = kind)
  attempts : m'.desk.metrics.adjustments.length =
    m.desk.metrics.adjustments.length + (noted.filterMap Occurrence.attempt?).length
  cycles : ∃ counted, counted.length = noted.count .cycle ∧
    m'.desk.metrics.cycles = counted ++ m.desk.metrics.cycles

namespace Passage

variable {m m₁ m' : Manager σ τ} {noted before after : List Occurrence}

/-- Whatever else has changed, nothing occurred. -/
theorem quiet (hcourse : Course σ m.state [] m'.state) (htrace : m'.desk.trace = m.desk.trace)
    (hmetrics : m'.desk.metrics = m.desk.metrics) (hlast : m'.lastApplied = m.lastApplied) :
    Passage m [] m' where
  trace := htrace
  course := hcourse
  lastApplied := hlast
  applied _ := by simp [hmetrics]
  attempts := by simp [hmetrics]
  cycles := ⟨[], rfl, congrArg (·.cycles) hmetrics⟩

theorem rest : Passage m [] m := quiet .rest rfl rfl rfl

theorem trans (h₁ : Passage m before m₁) (h₂ : Passage m₁ after m') :
    Passage m (before ++ after) m' where
  trace := by rw [h₂.trace, h₁.trace, List.reverse_append, List.append_assoc]
  course := by
    rw [List.filterMap_append]
    exact h₁.course.trans h₂.course
  lastApplied := by
    rw [h₂.lastApplied, h₁.lastApplied, List.reverse_append, List.findSome?_append, Option.or_assoc]
  applied kind := by
    rw [h₂.applied, h₁.applied, List.filterMap_append, List.countP_append, Nat.add_assoc]
  attempts := by
    rw [h₂.attempts, h₁.attempts, List.filterMap_append, List.length_append, Nat.add_assoc]
  cycles := by
    obtain ⟨first, hfirst, hcycles₁⟩ := h₁.cycles
    obtain ⟨second, hsecond, hcycles₂⟩ := h₂.cycles
    refine ⟨second ++ first, ?_, ?_⟩
    · rw [List.length_append, List.count_append, hfirst, hsecond, Nat.add_comm]
    · rw [hcycles₂, hcycles₁, List.append_assoc]

end Passage

/-- What was noted since a manager was as it is told, earliest first. -/
def Manager.notedSince (m' m : Manager σ τ) : List Occurrence :=
  (m'.desk.trace.take (m'.desk.trace.length - m.desk.trace.length)).reverse

/-- The trace tells what occurred on a passage. -/
theorem Passage.notedSince {m m' : Manager σ τ} {noted : List Occurrence}
    (h : Passage m noted m') : m'.notedSince m = noted := by
  rw [Manager.notedSince, h.trace, List.length_append, Nat.add_sub_cancel, List.take_left,
    List.reverse_reverse]

end Passages

/-! ## Programs that note what occurs -/

namespace Act

variable {σ τ ε δ α β : Type}

/-- The adjustments that a result tells of. -/
def told (made : α → List AppliedAdjustment) : Except δ α → List AppliedAdjustment
  | .ok a => made a
  | .error _ => []

variable [Digest] [Gate σ]

/-- What occurs is told by the value that the program gives, or by its failure. -/
def Notes (act : Act (Manager σ τ) ε α) (Q : α → List Occurrence → Prop)
    (E : List Occurrence → Prop) : Prop :=
  ∀ m, act.Ensures m (fun a m' => ∃ noted, Passage m noted m' ∧ Q a noted)
    fun _ m' => ∃ noted, Passage m noted m' ∧ E noted

/-- Nothing occurs. -/
abbrev Quiet (act : Act (Manager σ τ) ε α) : Prop :=
  act.Notes (fun _ noted => noted = []) fun noted => noted = []

variable {act : Act (Manager σ τ) ε α} {Q : α → List Occurrence → Prop}
  {E : List Occurrence → Prop}

theorem notes_iff : act.Notes Q E ↔ ∀ m, ∃ noted, Passage m noted (act.apply m).2 ∧
    match (act.apply m).1 with
    | .ok a => Q a noted
    | .error _ => E noted := by
  refine forall_congr' fun m => ?_
  unfold Ensures
  rcases act.apply m with ⟨_ | _, _⟩ <;> rfl

theorem Notes.mono {Q' : α → List Occurrence → Prop} {E' : List Occurrence → Prop}
    (h : act.Notes Q E) (hQ : ∀ a noted, Q a noted → Q' a noted)
    (hE : ∀ noted, E noted → E' noted) : act.Notes Q' E' := by
  intro m
  refine (h m).mono ?_ ?_
  · rintro a m' ⟨noted, hpassage, hnoted⟩
    exact ⟨noted, hpassage, hQ a noted hnoted⟩
  · rintro _ m' ⟨noted, hpassage, hnoted⟩
    exact ⟨noted, hpassage, hE noted hnoted⟩

/-! ### Steps -/

theorem notes_pure {a : α} (h : Q a []) : (pure a : Act (Manager σ τ) ε α).Notes Q E :=
  fun _ => ⟨[], .rest, h⟩

theorem notes_throw {e : ε} (h : E []) : (throw e : Act (Manager σ τ) ε α).Notes Q E :=
  fun _ => ⟨[], .rest, h⟩

theorem notes_modify {f : Manager σ τ → Manager σ τ} {noted : List Occurrence}
    (h : ∀ m, Passage m noted (f m)) :
    (modify f : Act (Manager σ τ) ε PUnit).Notes (fun _ => (· = noted)) E :=
  fun m => ⟨noted, h m, rfl⟩

theorem quiet_get : (get : Act (Manager σ τ) ε (Manager σ τ)).Quiet := fun _ => ⟨[], .rest, rfl⟩

/-- A change that leaves alone what passages tell of. -/
theorem quiet_modify {f : Manager σ τ → Manager σ τ} (hstate : ∀ m, (f m).state = m.state)
    (htrace : ∀ m, (f m).desk.trace = m.desk.trace)
    (hmetrics : ∀ m, (f m).desk.metrics = m.desk.metrics)
    (hlast : ∀ m, (f m).lastApplied = m.lastApplied) :
    (modify f : Act (Manager σ τ) ε PUnit).Quiet :=
  notes_modify fun m => .quiet (.of_eq (hstate m)) (htrace m) (hmetrics m) (hlast m)

/-- Of two programs in a row, what occurs in the first is noted before what occurs in the second. -/
theorem Notes.bind {P : α → List Occurrence → Prop} {F : List Occurrence → Prop}
    {f : α → Act (Manager σ τ) ε β} {Q : β → List Occurrence → Prop} (h : act.Notes P F)
    (hF : ∀ noted, F noted → E noted)
    (hf : ∀ a before, P a before →
      (f a).Notes (fun b after => Q b (before ++ after)) fun after => E (before ++ after)) :
    (act >>= f).Notes Q E := by
  intro m
  rw [ensures_bind]
  refine (h m).mono ?_ ?_
  · rintro a m₁ ⟨before, hbefore, hP⟩
    refine (hf a before hP m₁).mono ?_ ?_
    · rintro b m₂ ⟨after, hafter, hQ⟩
      exact ⟨before ++ after, hbefore.trans hafter, hQ⟩
    · rintro e m₂ ⟨after, hafter, hE⟩
      exact ⟨before ++ after, hbefore.trans hafter, hE⟩
  · rintro e m₁ ⟨before, hbefore, hnoted⟩
    exact ⟨before, hbefore, hF before hnoted⟩

/-- A quiet program may stand in front of another. -/
theorem Quiet.bind {f : α → Act (Manager σ τ) ε β} {Q : β → List Occurrence → Prop}
    (h : act.Quiet) (hE : E []) (hf : ∀ a, (f a).Notes Q E) : (act >>= f).Notes Q E := by
  apply Notes.bind h
  · rintro _ rfl
    exact hE
  · rintro a _ rfl
    exact hf a

/-! ### Programs made from others -/

theorem Notes.map {f : α → β} {Q : β → List Occurrence → Prop}
    (h : act.Notes (fun a noted => Q (f a) noted) E) : (f <$> act).Notes Q E := fun m => by
  rw [ensures_map]
  exact h m

theorem Notes.failingWith {act : Act (Manager σ τ) δ α} (h : act.Notes Q E) (convert : δ → ε) :
    (act.failingWith convert).Notes Q E := fun m => ensures_failingWith.2 (h m)

end Act

/-! ## Quiet parts of a manager -/

namespace Manager

open Act

variable {σ τ ε α : Type} [Digest] [Gate σ]

theorem quiet_onSource {act : Act τ SourceError α} : (onSource act : Program σ τ α).Quiet := by
  intro m
  simp only [onSource, onDesk, ensures_on, ensures_failingWith]
  exact (ensures_apply act _).mono (fun _ _ _ => ⟨[], .quiet .rest rfl rfl rfl, rfl⟩)
    fun _ _ _ => ⟨[], .quiet .rest rfl rfl rfl, rfl⟩

/-- What the source answers when it is asked for the time of its data. -/
def latest [DecisionSource τ] (m : Manager σ τ) : Option Instant :=
  (DecisionSource.lastUpdate m.desk.source).1

/-- The manager after it has asked for it. -/
def asked [DecisionSource τ] (m : Manager σ τ) : Manager σ τ :=
  { m with desk := { m.desk with source := (DecisionSource.lastUpdate m.desk.source).2 } }

theorem quiet_askLastUpdate [DecisionSource τ] :
    (askLastUpdate : Act (Manager σ τ) ε (Option Instant)).Quiet :=
  fun _ => ⟨[], .quiet .rest rfl rfl rfl, rfl⟩

/-- Work on the ledger that applies no adjustment. -/
theorem quiet_onDesk {act : Act (Access σ) UpdateError α}
    (h : ∀ s : Access σ, act.Ensures s (fun _ s' => Course σ s.ledger.state [] s'.ledger.state)
      fun _ s' => Course σ s.ledger.state [] s'.ledger.state) :
    (onDesk (Engine.onLedger act) : Program σ τ α).Quiet := by
  intro m
  simp only [onDesk, Engine.onLedger, ensures_on]
  refine (h _).mono ?_ ?_
  · intro _ s₁ hcourse
    exact ⟨[], .quiet hcourse rfl rfl rfl, rfl⟩
  · intro _ s₁ hcourse
    exact ⟨[], .quiet hcourse rfl rfl rfl, rfl⟩

/-- A request that leaves the ledger alone. -/
theorem quiet_onLedger {act : Act (Access σ) LedgerError α} {Q : α → Access σ → Prop}
    {E : LedgerError → Access σ → Prop}
    (h : ∀ s : Access σ, act.Ensures s (fun a s' => s'.ledger = s.ledger ∧ Q a s)
      fun e s' => s'.ledger = s.ledger ∧ E e s') : (onLedger act : Program σ τ α).Quiet := by
  refine quiet_onDesk fun s => ?_
  rw [ensures_failingWith]
  exact (h s).mono (fun _ _ h₁ => .of_eq (congrArg Ledger.state h₁.1)) fun _ _ h₁ =>
    .of_eq (congrArg Ledger.state h₁.1)

theorem quiet_read (slot : Slot) : (onLedger slot.read : Program σ τ Word).Quiet :=
  quiet_onLedger fun _ => Slot.read_ensures slot

theorem quiet_attach : (onLedger Access.attach : Program σ τ Unit).Quiet :=
  quiet_onLedger fun _ => Access.attach_ensures.mono (fun _ _ h => ⟨h, trivial⟩) fun _ _ h => h

/-- The source's values are written without anything occurring. -/
theorem quiet_observed {slot : Slot} (hslot : slot ∈ Slot.observed) (word : Word) :
    (onLedger (slot.write word) : Program σ τ Unit).Quiet := by
  refine quiet_onDesk fun s => ?_
  rw [ensures_failingWith]
  refine (Slot.write_ensures slot word).mono ?_ ?_
  · intro _ s₁ h₁
    rw [h₁]
    exact .of_step (.observed hslot)
  · intro _ s₁ h₁
    exact .of_eq (congrArg Ledger.state h₁.1)

end Manager

end StableSupply
