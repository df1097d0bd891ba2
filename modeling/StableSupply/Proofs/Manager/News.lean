import StableSupply.Proofs.Genesis
import StableSupply.Proofs.Manager.Run
import StableSupply.Simulation.Faults
import StableSupply.Simulation.Script

/-! # Data that is used up

A check begins a cycle exactly if the source has data that is later than what was used up last, by
the trace of what occurred; otherwise it does nothing but ask. So the data of a cycle that obtained
no decision is tried again. The data of one that did is not, whatever became of the decision, until
another cycle uses up earlier data (`Manager.check_iff_news`): only one time is kept, and it may go
back (`Manager.check_repeats_setback`). -/

namespace StableSupply

open Engine Gate

/-- The source has data, and it is later than what was used up last. -/
def HasNews (latest used : Option Instant) : Prop :=
  ∃ u, latest = some u ∧ ∀ t, used = some t → t < u

theorem hasNews_some_iff {t v : Instant} : HasNews (some v) (some t) ↔ t < v := by
  constructor
  · rintro ⟨w, hw, hlater⟩
    obtain rfl := Option.some.inj hw
    exact hlater t rfl
  · intro hlt
    refine ⟨v, rfl, ?_⟩
    intro w hw
    exact Option.some.inj hw ▸ hlt

variable {σ τ ε α : Type}

/-- The time of the data that was used up last, by the trace. -/
def Manager.lastUsed (m : Manager σ τ) : Option Instant := m.desk.trace.findSome? Occurrence.used?

/-! ## What was used up on the way -/

section Used

variable [Digest] [Gate σ] {m m' : Manager σ τ} {noted : List Occurrence} {u : Instant}

theorem Passage.lastUsed (h : Passage m noted m') :
    m'.lastUsed = (noted.reverse.findSome? Occurrence.used?).or m.lastUsed := by
  rw [Manager.lastUsed, h.trace, List.findSome?_append]
  rfl

/-- The manager keeps the time that the trace tells. -/
theorem Passage.lastApplied_eq (h : Passage m noted m') (hm : m.lastApplied = m.lastUsed) :
    m'.lastApplied = m'.lastUsed := by
  rw [h.lastApplied, h.lastUsed, hm]

/-- What was used up last either was so on the way or had been before. -/
theorem Passage.lastUsed_cases (h : Passage m noted m') :
    m'.lastUsed = m.lastUsed ∨ ∃ t, m'.lastUsed = some t ∧ .decision (some t) ∈ noted := by
  rw [h.lastUsed]
  cases hused : noted.reverse.findSome? Occurrence.used? with
  | none => exact .inl rfl
  | some t =>
    obtain ⟨o, ho, hot⟩ := List.exists_of_findSome?_eq_some hused
    cases o with
    | decision observed =>
      obtain rfl : observed = some t := hot
      exact .inr ⟨t, rfl, List.mem_reverse.1 ho⟩
    | cycle => cases hot
    | update _ => cases hot
    | attempt _ => cases hot
    | adjustment _ => cases hot

/-- A passage without a decision that uses up data leaves the time as it is. -/
theorem Passage.lastUsed_eq (h : Passage m noted m') (hnone : ∀ t, .decision (some t) ∉ noted) :
    m'.lastUsed = m.lastUsed := by
  rcases h.lastUsed_cases with hsame | ⟨t, -, ht⟩
  · exact hsame
  · exact absurd ht (hnone t)

/-- Data that is no later than what was used up before is news after the passage exactly if what was
used up last on the way is earlier. -/
theorem Passage.hasNews_iff {v : Instant} (h : Passage m noted m') (hused : m.lastUsed = some u)
    (hold : ¬ u < v) : HasNews (some v) m'.lastUsed ↔
      ∃ t, .decision (some t) ∈ noted ∧ m'.lastUsed = some t ∧ t < v := by
  constructor
  · intro hnews
    rcases h.lastUsed_cases with hsame | ⟨t, ht, hmem⟩
    · rw [hsame, hused, hasNews_some_iff] at hnews
      exact absurd hnews hold
    · rw [ht, hasNews_some_iff] at hnews
      exact ⟨t, hmem, ht, hnews⟩
  · rintro ⟨t, -, ht, hlt⟩
    rw [ht]
    exact hasNews_some_iff.2 hlt

end Used

namespace Manager

open Act

theorem isNews_iff {m : Manager σ τ} {latest : Option Instant} :
    m.isNews latest = true ↔ HasNews latest m.lastApplied := by
  unfold isNews HasNews
  cases latest <;> cases m.lastApplied <;> simp

/-! ## Checks -/

section Checks

variable [Digest] [Gate σ] [DecisionSource τ]

/-- A check asks for the time of the data, and runs a cycle if it is news. -/
theorem apply_catchUp (now : Instant) (m : Manager σ τ) :
    (catchUp now : Act (Manager σ τ) ε _).apply m =
      if m.isNews m.latest then
        (.ok ((cycle now).apply m.asked).1.toOption, ((cycle now).apply m.asked).2)
      else (.ok none, m.asked) := by
  have hask : (askLastUpdate : Act (Manager σ τ) ε _).apply m = (.ok m.latest, m.asked) := rfl
  have hsame : m.asked.isNews m.latest = m.isNews m.latest := rfl
  simp only [catchUp, apply_bind, hask, apply_get, hsame]
  split
  · rw [apply_bind, apply_attempt]
    rcases (cycle now).apply m.asked with ⟨_ | _, _⟩ <;> rfl
  · rfl

/-- With news a check does what `process` does, once it has asked. -/
theorem apply_check_of_news {m : Manager σ τ} (hphase : m.phase ≠ .stopped)
    (hnews : HasNews m.latest m.lastApplied) (now : Instant) :
    (check now : Act (Manager σ τ) ε _).apply m =
      (.ok ((process now).apply m.asked).1.toOption, ((process now).apply m.asked).2) := by
  have hasked : m.beginChecking.asked = m.asked.beginChecking := by
    unfold beginChecking
    by_cases hidle : m.phase = .idle
    · have hidle' : m.asked.phase = .idle := hidle
      rw [if_pos hidle, if_pos hidle']
      rfl
    · have hidle' : m.asked.phase ≠ .idle := hidle
      rw [if_neg hidle, if_neg hidle']
  have hnews' : m.beginChecking.isNews m.beginChecking.latest = true := by
    rw [isNews_iff]
    unfold beginChecking
    split <;> exact hnews
  simp only [check, apply_bind, apply_get, if_neg hphase, process, apply_whileChecking,
    apply_catchUp, if_pos hnews', hasked]

/-- Without news a check only asks. -/
theorem apply_check_of_not_news {m : Manager σ τ} (hphase : m.phase ≠ .stopped)
    (hnews : ¬ HasNews m.latest m.lastApplied) (now : Instant) :
    ∃ phase, (check now : Act (Manager σ τ) ε _).apply m = (.ok none, { m.asked with phase }) := by
  have hnews' : ¬ m.beginChecking.isNews m.beginChecking.latest = true := by
    rw [isNews_iff]
    unfold beginChecking
    split <;> exact hnews
  simp only [check, apply_bind, apply_get, if_neg hphase, apply_whileChecking, apply_catchUp,
    if_neg hnews']
  unfold beginChecking endChecking
  split <;> split <;> exact ⟨_, rfl⟩

theorem apply_perform_check_of_news {m : Manager σ τ} (hphase : m.phase ≠ .stopped)
    (hnews : HasNews m.latest m.lastApplied) (now : Instant) :
    (perform now .check).apply m =
      (.ok (((process now).apply m.asked).1.toOption.elim .noReport .report),
        ((process now).apply m.asked).2) := by
  simp only [perform, apply_bind, apply_check_of_news hphase hnews]
  rfl

theorem apply_perform_check_of_not_news {m : Manager σ τ} (hphase : m.phase ≠ .stopped)
    (hnews : ¬ HasNews m.latest m.lastApplied) (now : Instant) :
    ∃ phase, (perform now .check).apply m = (.ok .noReport, { m.asked with phase }) := by
  obtain ⟨phase, hcheck⟩ : ∃ phase, (check now : Program σ τ _).apply m =
      (.ok none, { m.asked with phase }) := apply_check_of_not_news hphase hnews now
  refine ⟨phase, ?_⟩
  simp only [perform, apply_bind, hcheck]
  rfl

/-- A cycle that is processed begins, and uses up data at most once. -/
theorem process_passage (now : Instant) (m : Manager σ τ) :
    ∃ noted, Passage m noted ((process now).apply m).2 ∧ .cycle ∈ noted ∧
      ∀ t, .decision (some t) ∈ noted →
        noted.reverse.findSome? Occurrence.used? = some t := by
  obtain ⟨noted, hcycle, hunfolds⟩ := cycle_unfolds now m.beginChecking
  refine ⟨.cycle :: noted, passage_whileChecking hcycle, List.mem_cons_self, fun t ht => ?_⟩
  have hmem : .decision (some t) ∈ noted := by simpa using ht
  rw [List.reverse_cons, List.findSome?_append, hunfolds.findSome?_used hmem]
  rfl

/-- A check is a passage in which a cycle begins exactly if there is news. -/
theorem check_passage {m : Manager σ τ} (hphase : m.phase ≠ .stopped) (now : Instant) :
    ∃ noted, Passage m noted ((perform now .check).apply m).2 ∧
      (.cycle ∈ noted ↔ HasNews m.latest m.lastApplied) ∧
      ∀ u, .decision (some u) ∈ noted →
        noted.reverse.findSome? Occurrence.used? = some u := by
  have hasked : Passage m [] m.asked := .quiet .rest rfl rfl rfl
  by_cases hnews : HasNews m.latest m.lastApplied
  · obtain ⟨noted, hpassage, hcycle, hused⟩ := process_passage now m.asked
    rw [apply_perform_check_of_news hphase hnews]
    exact ⟨noted, hasked.trans hpassage, iff_of_true hcycle hnews, hused⟩
  · obtain ⟨phase, hcheck⟩ := apply_perform_check_of_not_news hphase hnews now
    rw [hcheck]
    exact ⟨[], .quiet .rest rfl rfl rfl, iff_of_false List.not_mem_nil hnews, nofun⟩

/-- In any run the manager keeps the time that the trace tells. -/
theorem Reached.lastApplied_eq {m : Manager σ τ} (hm : m.Reached) : m.lastApplied = m.lastUsed := by
  obtain ⟨settings, access, source, events, rfl⟩ := hm
  obtain ⟨_, hrun, -⟩ := (initial settings access source).run_passage events
  exact hrun.lastApplied_eq rfl

/-- In any run, a check begins a cycle exactly if the source has data that is later than what was
used up last. Where it does, it does what `process` does; where it does not, nothing is done but to
ask the source.

So the same data is tried again if no decision that used up data was obtained since. Data that was
used up, whatever came of the decision, and data that is no later do not begin a cycle again, except
where what has been used up last since then is earlier still. -/
theorem check_iff_news {m : Manager σ τ} (hm : m.Reached) (hphase : m.phase ≠ .stopped)
    (now : Instant) :
    let m' := ((perform now .check).apply m).2
    (.cycle ∈ m'.notedSince m ↔ HasNews m.latest m.lastUsed) ∧
    (HasNews m.latest m.lastUsed → (perform now .check).apply m =
      (.ok (((process now).apply m.asked).1.toOption.elim .noReport .report),
        ((process now).apply m.asked).2)) ∧
    (¬ HasNews m.latest m.lastUsed →
      ((perform now .check).apply m).1 = .ok .noReport ∧ m'.desk = m.asked.desk ∧
        m'.lastApplied = m.lastApplied) ∧
    (∀ u, .decision (some u) ∈ m'.notedSince m → m'.lastUsed = some u) ∧
    ∀ (later : List (Event σ τ)) (now₁ : Instant),
      let m₁ := (m'.run later).2
      let m₁' := ((perform now₁ .check).apply m₁).2
      m₁.phase ≠ .stopped →
      (.cycle ∈ m'.notedSince m → (∀ t, .decision (some t) ∉ m₁.notedSince m) →
        m₁.latest = m.latest → .cycle ∈ m₁'.notedSince m₁) ∧
      ∀ u v, m'.lastUsed = some u → m₁.latest = some v → ¬ u < v →
        (.cycle ∈ m₁'.notedSince m₁ ↔
          ∃ t, .decision (some t) ∈ m₁.notedSince m' ∧ m₁.lastUsed = some t ∧ t < v) := by
  intro m'
  have hkept := hm.lastApplied_eq
  obtain ⟨noted, hcheck, hcycle, hused⟩ := check_passage hphase now
  have hkept' : m'.lastApplied = m'.lastUsed := hcheck.lastApplied_eq hkept
  rw [hkept] at hcycle
  refine ⟨?_, ?_, ?_, ?_, ?_⟩
  · rw [hcheck.notedSince]
    exact hcycle
  · intro hnews
    exact apply_perform_check_of_news hphase (hkept ▸ hnews) now
  · intro hnews
    obtain ⟨phase, hnothing⟩ := apply_perform_check_of_not_news hphase (hkept ▸ hnews) now
    exact ⟨congrArg (·.1) hnothing, congrArg (·.2.desk) hnothing,
      congrArg (·.2.lastApplied) hnothing⟩
  · intro u hu
    rw [hcheck.notedSince] at hu
    rw [hcheck.lastUsed, hused u hu]
    rfl
  intro later now₁ m₁ m₁' hphase₁
  obtain ⟨between, hlater, -⟩ := m'.run_passage later
  have hkept₁ : m₁.lastApplied = m₁.lastUsed := hlater.lastApplied_eq hkept'
  obtain ⟨noted₁, hcheck₁, hcycle₁, -⟩ := check_passage hphase₁ now₁
  rw [hkept₁] at hcycle₁
  rw [hcheck.notedSince, hcheck₁.notedSince, (hcheck.trans hlater).notedSince, hlater.notedSince,
    hcycle, hcycle₁]
  refine ⟨?_, ?_⟩
  · intro hnews hnone hlatest
    rw [hlatest, (hcheck.trans hlater).lastUsed_eq hnone]
    exact hnews
  · intro u v hu hlatest hold
    rw [hlatest]
    exact hlater.hasNews_iff hu hold

end Checks

/-! ## Checks on the same data -/

section Repeats

open Simulation

/-- A source that holds data of one moment. -/
def datedScript : Script := { Script.initial with lastUpdate := some ⟨5⟩ }

/-- The manager after a check. -/
def checkedAt (now : Instant) (m : Manager FaultGate Script) : Manager FaultGate Script :=
  ((@perform _ _ Radix.digest _ _ now .check).apply m).2

/-! ### A check that is tried again -/

/-- A ledger that is not handed out. -/
def cutOffAccess : Access FaultGate :=
  ⟨Genesis.sampleAccess.ledger, { FaultGate.initial with down := true }⟩

/-- It has data, but no ledger to decide on. -/
def cutOff : Manager FaultGate Script := .initial .default cutOffAccess datedScript

/-- The ledger is handed out. -/
def reconnection : Event FaultGate Script := .elsewhere id id fun gate => { gate with down := false }

/-- The manager with its ledger back. -/
def reconnect (m : Manager FaultGate Script) : Manager FaultGate Script :=
  (@run _ _ Radix.digest _ _ m [reconnection]).2

/-- After a check that fails before its decision. -/
def failed : Manager FaultGate Script := (cutOff.checkedAt ⟨7⟩).reconnect

/-- After another check on the same data. -/
def retried : Manager FaultGate Script := (failed.checkedAt ⟨8⟩).reconnect

theorem reached_cutOff : @Reached _ _ Radix.digest _ _ cutOff :=
  ⟨.default, cutOffAccess, datedScript, [], rfl⟩

theorem reached_failed : @Reached _ _ Radix.digest _ _ failed :=
  ⟨.default, cutOffAccess, datedScript, [.operation ⟨7⟩ .check, reconnection],
    (@run_cons _ _ Radix.digest _ _ cutOff (.operation ⟨7⟩ .check) [reconnection]).symm⟩

/-- The first check fails before its decision and the second obtains one, so the third does
nothing. -/
theorem check_iff_news_cutOff :
    (cutOff.checkedAt ⟨7⟩).notedSince cutOff = [.cycle] ∧
    .cycle ∈ (failed.checkedAt ⟨8⟩).notedSince failed ∧
    .decision (some ⟨5⟩) ∈ (failed.checkedAt ⟨8⟩).notedSince failed ∧
    .cycle ∉ (retried.checkedAt ⟨9⟩).notedSince retried := by
  have hfirst : (cutOff.checkedAt ⟨7⟩).notedSince cutOff = [.cycle] := by decide +kernel
  have hused : .decision (some ⟨5⟩) ∈ (failed.checkedAt ⟨8⟩).notedSince failed := by
    decide +kernel
  refine ⟨hfirst, ?_, hused, ?_⟩
  · obtain ⟨-, -, -, -, hlater⟩ := @check_iff_news _ _ Radix.digest _ _ cutOff reached_cutOff
      (by decide +kernel) ⟨7⟩
    have hcycle : .cycle ∈ (cutOff.checkedAt ⟨7⟩).notedSince cutOff := by
      rw [hfirst]
      exact List.mem_singleton_self _
    have hnoted : failed.notedSince cutOff = [.cycle] := by decide +kernel
    have hnone (t : Instant) : .decision (some t) ∉ failed.notedSince cutOff := by
      rw [hnoted]
      nofun
    have hsame : failed.latest = cutOff.latest := by decide +kernel
    exact (hlater [reconnection] ⟨8⟩ (by decide +kernel)).1 hcycle hnone hsame
  · obtain ⟨-, -, -, hlast, hlater⟩ := @check_iff_news _ _ Radix.digest _ _ failed reached_failed
      (by decide +kernel) ⟨8⟩
    have hnoted : retried.notedSince (failed.checkedAt ⟨8⟩) = [] := by decide +kernel
    have hlatest : retried.latest = some ⟨5⟩ := by decide +kernel
    obtain ⟨-, hrepeat⟩ := hlater [reconnection] ⟨9⟩ (by decide +kernel)
    intro hcycle
    obtain ⟨t, ht, -⟩ := (hrepeat ⟨5⟩ ⟨5⟩ (hlast ⟨5⟩ hused) hlatest (by decide)).1 hcycle
    have hmem : .decision (some t) ∈ retried.notedSince (failed.checkedAt ⟨8⟩) := ht
    rw [hnoted] at hmem
    cases hmem

/-! ### A check that repeats another -/

/-- A manager whose source always decides on the same contraction and then declines it. -/
def declining : Manager FaultGate Script :=
  .initial .default ⟨Genesis.sampleAccess.ledger, .initial⟩
    { datedScript with
      decision := ⟨.contraction, .ofWord (units 5), .ofWord (units 7), 0, .ofWord (units 999995), 0⟩
      infeasible := some "declined" }

/-- The source comes to hold data of another moment, which may be an earlier one. -/
def redated (time : Instant) : Event FaultGate Script :=
  .elsewhere (fun script => { script with lastUpdate := some time }) id id

/-- A cycle is run on earlier data before the source holds the data of the first check again. -/
def setback : List (Event FaultGate Script) :=
  [redated ⟨3⟩, .operation ⟨8⟩ .process, redated ⟨5⟩]

/-- After a check and the setback. -/
def setBack : Manager FaultGate Script :=
  (@run _ _ Radix.digest _ _ (declining.checkedAt ⟨7⟩) setback).2

/-- After the setback the source is as the first check left it, and its data, which that check used
up, begins another cycle: the time used up last has gone back to 3. -/
theorem check_repeats_setback :
    @Reached _ _ Radix.digest _ _ declining ∧
    .decision (some ⟨5⟩) ∈ (declining.checkedAt ⟨7⟩).notedSince declining ∧
    (declining.checkedAt ⟨7⟩).desk.metrics.cycles = [.skipped] ∧
    setBack.desk.source = (declining.checkedAt ⟨7⟩).desk.source ∧
    setBack.latest = some ⟨5⟩ ∧
    .cycle ∈ (setBack.checkedAt ⟨9⟩).notedSince setBack ∧
    .decision (some ⟨5⟩) ∈ (setBack.checkedAt ⟨9⟩).notedSince setBack := by
  refine ⟨⟨.default, _, _, [], rfl⟩, ?_, ?_, ?_, ?_, ?_, ?_⟩
  all_goals decide +kernel

end Repeats

end Manager

end StableSupply
