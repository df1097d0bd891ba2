import StableSupply.Proofs.Genesis.Settings
import StableSupply.Proofs.Manager.Failure
import StableSupply.Proofs.Manager.News

/-! # What is left of a cycle that applies nothing

A cycle touches the ledger in two places: it writes the source's values to their three slots, and it
applies its decision above a checkpoint. Where reversals are served the second leaves nothing unless
the decision is applied, so what remains are the first so many of the three writes
(`Manager.cycle_leaves`): none of them if no decision was obtained, and all of them once the engine
or the treasury was reached (`Manager.idle_residue`). -/

namespace StableSupply

open Engine Gate

/-! ## The first of several writes -/

/-- The first `n` of the writes were made, and nothing else. -/
structure FirstWritten (n : Nat) (ws : List SlotWrite) (s s' : State) : Prop where
  written : ∀ w ∈ ws.take n, s'.slot w.owner w.key = w.word
  unwritten : ∀ w ∈ ws.drop n, s'.slot w.owner w.key = s.slot w.owner w.key
  slots : ∀ owner key, (∀ w ∈ ws, w.place ≠ (owner, key)) → s'.slot owner key = s.slot owner key
  balances : ∀ account, s'.balance account = s.balance account

/-- The first writes, if each goes to a place of its own. -/
theorem firstWritten_setSlots {ws : List SlotWrite} (hplaces : (ws.map SlotWrite.place).Nodup)
    (n : Nat) (s : State) : FirstWritten n ws s (s.setSlots (ws.take n)) where
  written w hw := by
    refine State.slot_setSlots_of_nodup ?_ s hw
    exact hplaces.sublist ((List.take_sublist n ws).map _)
  unwritten w hw := by
    refine State.slot_setSlots_of_notMem fun v hv hplace => ?_
    rw [← List.take_append_drop n ws, List.map_append, List.nodup_append] at hplaces
    exact hplaces.2.2 _ (List.mem_map_of_mem hv) _ (List.mem_map_of_mem hw) hplace
  slots owner key h := State.slot_setSlots_of_notMem fun w hw => h w (List.mem_of_mem_take hw)
  balances := State.balance_setSlots s _

/-! ## The engine -/

/-- An attempt that applies nothing leaves the state alone. -/
theorem Engine.apply_idle {σ τ : Type} [Digest] [Gate σ] [DecisionSource τ]
    (hserves : ServesReverts σ) (moment : Moment) (d : Decision) (treasury : Address)
    {desk : Desk σ τ} :
    (apply moment d treasury).Ensures desk
      (fun outcome desk' => outcome.applied? = none →
        desk'.access.ledger.state = desk.access.ledger.state)
      fun _ desk' => desk'.access.ledger.state = desk.access.ledger.state := by
  refine (apply_ensures moment d treasury).mono ?_ ?_
  · intro outcome desk' h hidle
    cases outcome with
    | noChange => exact h.ledger.state
    | skipped reason => exact h.ledger.state
    | applied a => cases hidle
  · intro e desk' h
    rcases h with hkept | ⟨hrefuses, -⟩
    · exact hkept.ledger.state
    · exact absurd hrefuses hserves.not_refusesReverts

namespace Manager

open Act

section Cycles

variable {σ τ : Type} [Digest] [Gate σ] [DecisionSource τ]

/-! ## After the update -/

theorem applyDecision_idle (hserves : ServesReverts σ) (now : Instant) (d : Decision)
    (treasury : Address) (m : Manager σ τ) :
    (applyDecision now d treasury : Program σ τ Outcome).Ensures m
      (fun outcome m' => outcome.applied? = none → m'.state = m.state)
      fun e m' => e.Late ∧ m'.state = m.state := by
  simp only [applyDecision, onDesk, ensures_bind, ensures_get, ensures_on, ensures_failingWith]
  exact (apply_idle hserves _ d treasury).mono (fun _ _ h => h) fun c _ h => ⟨.adjustment c, h⟩

/-- The rest of a cycle leaves the state alone if nothing is applied. -/
theorem conclude_idle (hserves : ServesReverts σ) (now : Instant) (d : Decision)
    (m : Manager σ τ) :
    (conclude now d : Program σ τ UpdateReport).Ensures m
      (fun report m' => report.outcome.applied? = none → m'.state = m.state)
      fun e m' => (e.Late ∨ ∃ c, e = .ledger c) ∧ m'.state = m.state := by
  have happly (treasury : Address) (m₁ : Manager σ τ) (hstate : m₁.state = m.state) :
      (applyDecision now d treasury : Program σ τ Outcome).Ensures m₁
        (fun outcome m' => outcome.applied? = none → m'.state = m.state)
        fun e m' => (e.Late ∨ ∃ c, e = .ledger c) ∧ m'.state = m.state := by
    rw [← hstate]
    exact (applyDecision_idle hserves now d treasury m₁).mono (fun _ _ h => h)
      fun _ _ h => ⟨.inl h.1, h.2⟩
  unfold conclude
  split
  · simp only [ensures_bind, ensures_pure]
    exact happly .zero m rfl
  · simp only [ensures_bind, ensures_pure]
    refine (resolveTreasury_ensures m).mono ?_ ?_
    · rintro treasury _ ⟨gate, rfl, -⟩
      exact happly treasury (m.withGate gate) rfl
    · rintro e m' (hrebuffed | ⟨gate, rfl, htreasury⟩)
      · exact ⟨.inr hrebuffed.eq_ledger, hrebuffed.state⟩
      · exact ⟨.inl (late_of_treasuryIn htreasury), rfl⟩

/-! ## Ways to end -/

/-- The source gave a decision on the market that the state records, and is then `source`. -/
def Decided (moment : Moment) (s : State) (asked source : τ) : Prop :=
  ∃ market d, marketIn s = .ok market ∧ answerOn market moment asked = (.ok d, source)

/-- What a cycle makes of the state `s`, by its result and what is noted in it. -/
inductive Leaves (moment : Moment) (s : State) (asked : τ) (s' : State) :
    Except UpdateError UpdateReport → List Occurrence → Prop
  | undecided {e : UpdateError} (h : e.Early ∨ ∃ c, e = .ledger c) (hstate : s' = s) :
    Leaves moment s asked s' (.error e) []
  | unrecorded {c : LedgerError} {observed : Option Instant} {source : τ} {n : Nat}
    (hdecided : Decided moment s asked source) (hn : n < 3)
    (hstate : s' = s.setSlots ((sourceWrites source moment.now.unixSeconds).take n)) :
    Leaves moment s asked s' (.error (.ledger c)) [.decision observed]
  | failed {e : UpdateError} {observed : Option Instant} {after : List Occurrence} {source : τ}
    (h : e.Late ∨ ∃ c, e = .ledger c) (hdecided : Decided moment s asked source)
    (hstate : s' = s.setSlots (sourceWrites source moment.now.unixSeconds)) :
    Leaves moment s asked s' (.error e) (.decision observed :: after)
  | reported {report : UpdateReport} {observed : Option Instant} {after : List Occurrence}
    {source : τ} (hdecided : Decided moment s asked source)
    (hstate : report.outcome.applied? = none →
      s' = s.setSlots (sourceWrites source moment.now.unixSeconds)) :
    Leaves moment s asked s' (.ok report) (.decision observed :: after)

/-- What a cycle leaves that stops before its update, and what one leaves that does not. -/
theorem prepare_leaves (now : Instant) (m : Manager σ τ) :
    (prepare now : Program σ τ ValueUpdate).Ensures m
      (fun _ m' => ∃ observed, Passage m [.decision observed] m' ∧
        Decided (m.moment now) m.state m.asked.desk.source m'.desk.source ∧
        m'.state = m.state.setSlots (sourceWrites m'.desk.source now.unixSeconds))
      fun e m' => ∃ noted, Passage m noted m' ∧
        Leaves (m.moment now) m.state m.asked.desk.source m'.state (.error e) noted := by
  simp only [prepare, ensures_bind]
  show Act.Ensures _ m.asked _ _
  refine (attach_ensures _).mono ?_ ?_
  · rintro _ _ ⟨gate, rfl⟩
    have hasked : Passage m [] (m.asked.withGate gate) := .quiet .rest rfl rfl rfl
    refine ((obtainDecision_ensures now m.latest _).and (obtainDecision_notes now m.latest _)).mono
      ?_ ?_
    · rintro d m₁ ⟨⟨⟨market, hmarket, hanswer⟩, hstate, -⟩, _, hdecision, rfl⟩
      have hdecided : Decided (m.moment now) m.state m.asked.desk.source m₁.desk.source :=
        ⟨market, d, hmarket, hanswer⟩
      refine ((recordValues_ensures d now.unixSeconds m₁).and
        (quiet_recordValues d now.unixSeconds m₁)).mono ?_ ?_
      · rintro u _ ⟨⟨-, -, hwrites, access, rfl, hwritten⟩, _, hquiet, rfl⟩
        rw [hwrites, hstate] at hwritten
        exact ⟨m.latest, hasked.trans (hdecision.trans hquiet), hdecided, hwritten⟩
      · rintro _ _ ⟨⟨c, access, n, rfl, -, hn, rfl, hwritten⟩, _, hquiet, rfl⟩
        rw [hstate] at hwritten
        exact ⟨_, hasked.trans (hdecision.trans hquiet), .unrecorded hdecided hn hwritten⟩
    · rintro e m₁ ⟨⟨-, hearly, hstate⟩, _, hquiet, rfl⟩
      exact ⟨_, hasked.trans hquiet, .undecided hearly hstate⟩
  · intro e m₁ hrebuffed
    refine ⟨[], ?_, .undecided (.inr hrebuffed.eq_ledger) hrebuffed.state⟩
    obtain ⟨gate, -⟩ := hrebuffed
    exact .quiet .rest rfl rfl rfl

theorem decideAndApply_leaves (hserves : ServesReverts σ) (now : Instant) (m : Manager σ τ) :
    ∃ noted, Passage m noted ((decideAndApply now).apply m).2 ∧
      Leaves (m.moment now) m.state m.asked.desk.source ((decideAndApply now).apply m).2.state
        ((decideAndApply now).apply m).1 noted := by
  refine (ensures_iff (R := fun result m' => ∃ noted, Passage m noted m' ∧
    Leaves (m.moment now) m.state m.asked.desk.source m'.state result noted)).1 ?_
  simp only [decideAndApply, ensures_bind, ensures_modify]
  refine (prepare_leaves now m).mono ?_ fun _ _ h => h
  rintro u m₁ ⟨observed, hprepared, hdecided, hstate⟩
  have hpublished := hprepared.trans (passage_publish m₁ u)
  refine ((conclude_idle hserves now u.decision _).and (conclude_notes now u.decision _)).mono ?_ ?_
  · rintro report m₂ ⟨hidle, noted, hconcluded, -⟩
    refine ⟨_, hpublished.trans hconcluded, .reported hdecided fun h => ?_⟩
    exact (hidle h).trans hstate
  · rintro e m₂ ⟨⟨hlate, hsame⟩, noted, hconcluded, -⟩
    exact ⟨_, hpublished.trans hconcluded, .failed hlate hdecided (hsame.trans hstate)⟩

/-- What a cycle leaves, and what occurs in it. -/
theorem cycle_leaves (hserves : ServesReverts σ) (now : Instant) (m : Manager σ τ) :
    ∃ noted, Passage m (.cycle :: noted) ((cycle now).apply m).2 ∧
      Leaves (m.moment now) m.state m.asked.desk.source ((cycle now).apply m).2.state
        ((cycle now).apply m).1 noted := by
  obtain ⟨noted, hpassage, hleaves⟩ := decideAndApply_leaves hserves now m.begun
  rw [apply_cycle]
  exact ⟨noted, passage_cycle hpassage _, hleaves⟩

/-! ## What is left -/

/-- The result tells of no adjustment that was applied. -/
def Idle (result : Except UpdateError UpdateReport) : Prop :=
  ∀ report, result = .ok report → report.outcome.applied? = none

/-- A decision was obtained on the way. -/
def Obtained (m m' : Manager σ τ) : Prop := ∃ observed, .decision observed ∈ m'.notedSince m

/-- What a cycle that began in `m` and applied nothing has left of the ledger: the first `n` of the
source's values are written. -/
structure Residue (now : Instant) (m : Manager σ τ) (result : Except UpdateError UpdateReport)
    (m' : Manager σ τ) (source : τ) (n : Nat) : Prop where
  ledger : FirstWritten n (sourceWrites source now.unixSeconds) m.state m'.state
  atMost : n ≤ 3
  obtained : m.Obtained m' →
    Decided (m.beginChecking.moment now) m.state m.asked.desk.source source
  notObtained : ¬ m.Obtained m' → n = 0
  early : ∀ e, result = .error e → e.Early → n = 0
  late : ∀ e, result = .error e → e.Late → n = 3
  reported : ∀ report, result = .ok report → n = 3

section Residues

variable {now : Instant} {m m' : Manager σ τ} {result : Except UpdateError UpdateReport}
  {noted : List Occurrence}

omit [DecisionSource τ] in
/-- A decision was obtained exactly if one was noted. -/
theorem obtained_iff (h : Passage m (.cycle :: noted) m') :
    m.Obtained m' ↔ ∃ observed, .decision observed ∈ noted := by
  simp [Obtained, h.notedSince]

theorem nodup_places_sourceWrites (hkeys : (Slot.observed.map Slot.key).Nodup) (source : τ)
    (timestamp : UInt64) : ((sourceWrites source timestamp).map SlotWrite.place).Nodup :=
  .of_map Prod.snd hkeys

omit [Gate σ] in
/-- Only a refused request leaves it open how much a cycle with a decision has written. -/
theorem residue_of_obtained (hkeys : (Slot.observed.map Slot.key).Nodup)
    (hobtained : m.Obtained m') {source : τ} {n : Nat}
    (hdecided : Decided (m.beginChecking.moment now) m.state m.asked.desk.source source)
    (hn : n ≤ 3)
    (hstate : m'.state = m.state.setSlots ((sourceWrites source now.unixSeconds).take n))
    (hearly : ∀ e, result = .error e → ¬ e.Early)
    (hall : n = 3 ∨ ∃ c, result = .error (.ledger c)) : Residue now m result m' source n where
  ledger := by
    rw [hstate]
    exact firstWritten_setSlots (nodup_places_sourceWrites hkeys source _) n m.state
  atMost := hn
  obtained _ := hdecided
  notObtained hnot := absurd hobtained hnot
  early e he hpast := absurd hpast (hearly e he)
  late e he hlate := by
    rcases hall with hthree | ⟨c, hc⟩
    · exact hthree
    · obtain rfl : e = .ledger c := Except.error.inj (he.symm.trans hc)
      cases hlate
  reported report hok := by
    rcases hall with hthree | ⟨c, hc⟩
    · exact hthree
    · cases hok.symm.trans hc

/-- What a cycle leaves that applies nothing is its residue. -/
theorem Leaves.residue (hkeys : (Slot.observed.map Slot.key).Nodup)
    (h : Leaves (m.beginChecking.moment now) m.state m.asked.desk.source m'.state result noted)
    (hpassage : Passage m (.cycle :: noted) m') (hidle : Idle result) :
    ∃ source n, Residue now m result m' source n := by
  have hobtained := obtained_iff hpassage
  cases h with
  | @undecided e h hstate =>
    have hnot : ¬ m.Obtained m' := by simp [hobtained]
    refine ⟨m.asked.desk.source, 0, ?_, by decide, fun h => absurd h hnot, fun _ => rfl,
      fun _ _ _ => rfl, ?_, nofun⟩
    · rw [hstate]
      exact firstWritten_setSlots (nodup_places_sourceWrites hkeys _ _) 0 m.state
    · rintro _ ⟨⟩ hlate
      rcases h with hearly | ⟨c, rfl⟩
      · exact absurd hearly hlate.not_early
      · cases hlate
  | @unrecorded c observed source n hdecided hn hstate =>
    refine ⟨source, n, residue_of_obtained hkeys (hobtained.2 ⟨observed, List.mem_cons_self⟩)
      hdecided (Nat.le_of_lt hn) hstate ?_ (.inr ⟨c, rfl⟩)⟩
    rintro _ ⟨⟩ hearly
    cases hearly
  | @failed e observed after source h hdecided hstate =>
    refine ⟨source, 3, residue_of_obtained hkeys (hobtained.2 ⟨observed, List.mem_cons_self⟩)
      hdecided (Nat.le_refl 3) hstate ?_ (.inl rfl)⟩
    rintro _ ⟨⟩ hearly
    rcases h with hlate | ⟨c, rfl⟩
    · exact hlate.not_early hearly
    · cases hearly
  | @reported report observed after source hdecided hstate =>
    exact ⟨source, 3, residue_of_obtained hkeys (hobtained.2 ⟨observed, List.mem_cons_self⟩)
      hdecided (Nat.le_refl 3) (hstate (hidle report rfl)) nofun (.inl rfl)⟩

end Residues

/-- What a cycle that applies nothing leaves of the source's values. -/
theorem process_residue (hserves : ServesReverts σ) (hkeys : (Slot.observed.map Slot.key).Nodup)
    (now : Instant) (m : Manager σ τ) (hidle : Idle ((process now).apply m).1) :
    ∃ source n, Residue now m ((process now).apply m).1 ((process now).apply m).2 source n := by
  obtain ⟨noted, hcycle, hleaves⟩ := cycle_leaves hserves now m.beginChecking
  have hpassage : Passage m (.cycle :: noted) ((process now).apply m).2 :=
    passage_whileChecking hcycle
  have hasked : m.beginChecking.asked.desk.source = m.asked.desk.source := by
    rw [asked, desk_beginChecking, asked]
  rw [process, apply_whileChecking] at hidle hpassage ⊢
  refine Leaves.residue hkeys ?_ hpassage hidle
  rw [state_endChecking]
  rwa [state_beginChecking, hasked] at hleaves

/-! ## Calls -/

omit [Digest] [Gate σ] in
/-- A query changes nothing but the source. -/
theorem settleQuery_source (now : Instant) (limit : Duration) (answered : Bool)
    (m : Manager σ τ) :
    ∃ source, ((settleQuery now limit answered).apply m).2 = { m with desk.source := source } := by
  unfold settleQuery
  split
  · exact ⟨_, rfl⟩
  · exact ⟨_, rfl⟩

theorem apply_force (now : Instant) (limit : Duration) (m : Manager σ τ) :
    (force now limit).apply m =
      if m.phase = .stopped then (.error .stopped, m)
      else
        match (settleQuery now limit (m.queryWait limit).answered).apply m with
        | (.ok _, m₁) => (process now).apply m₁
        | (.error e, m₁) => (.error e, m₁) := by
  simp only [force, apply_bind, apply_get]
  split
  · rfl
  · rw [apply_bind]
    rcases (settleQuery now limit (m.queryWait limit).answered).apply m with ⟨_ | _, _⟩ <;> rfl

/-- Where reversals are served and the three slots of the source's values have keys of their own, a
cycle that applies nothing leaves the first so many of these values written, and nothing else: none
if no decision was obtained, and all if the update had been published.

This holds of a cycle that is processed; of that of a check, which begins if the manager is not
stopped and there is news, once the source was asked for it; and of that of a forced update, once
the query has succeeded. A check without a cycle leaves the ledger alone, and a query that fails
changes nothing but the source. -/
theorem idle_residue (hserves : ServesReverts σ) (hkeys : (Slot.observed.map Slot.key).Nodup)
    (now : Instant) (m : Manager σ τ) :
    (∀ result m', (process now).apply m = (result, m') → Idle result →
      ∃ source n, Residue now m result m' source n) ∧
    (m.phase = .stopped ∨ ¬ HasNews m.latest m.lastApplied →
      ∃ m', (check now : Program σ τ _).apply m = (.ok none, m') ∧
        m'.desk.access = m.desk.access) ∧
    (m.phase ≠ .stopped → HasNews m.latest m.lastApplied →
      ∃ result m', (check now : Program σ τ _).apply m = (.ok result.toOption, m') ∧
        (process now).apply m.asked = (result, m') ∧
        (Idle result → ∃ source n, Residue now m.asked result m' source n)) ∧
    ∀ limit,
      (m.phase = .stopped → (force now limit).apply m = (.error .stopped, m)) ∧
      (m.phase ≠ .stopped → ∀ e m₁,
        (settleQuery now limit (m.queryWait limit).answered).apply m = (.error e, m₁) →
        (force now limit).apply m = (.error e, m₁) ∧
          ∃ source, m₁ = { m with desk.source := source }) ∧
      (m.phase ≠ .stopped → ∀ answer m₁,
        (settleQuery now limit (m.queryWait limit).answered).apply m = (.ok answer, m₁) →
        (∃ source, m₁ = { m with desk.source := source }) ∧
          ∀ result m', (force now limit).apply m = (result, m') → Idle result →
            ∃ source n, Residue now m₁ result m' source n) := by
  have hprocess (m : Manager σ τ) (result : Except UpdateError UpdateReport) (m' : Manager σ τ)
      (happly : (process now).apply m = (result, m')) (hidle : Idle result) :
      ∃ source n, Residue now m result m' source n := by
    have hresidue := process_residue hserves hkeys now m
    rw [happly] at hresidue
    exact hresidue hidle
  refine ⟨hprocess m, ?_, ?_, ?_⟩
  · intro hnone
    by_cases hphase : m.phase = .stopped
    · refine ⟨m, ?_, rfl⟩
      simp only [check, apply_bind, apply_get, if_pos hphase]
      rfl
    · obtain ⟨phase, hcheck⟩ : ∃ phase, (check now : Program σ τ _).apply m =
          (.ok none, { m.asked with phase }) :=
        apply_check_of_not_news hphase (hnone.resolve_left hphase) now
      exact ⟨_, hcheck, rfl⟩
  · intro hphase hnews
    exact ⟨_, _, apply_check_of_news hphase hnews now, rfl, hprocess m.asked _ _ rfl⟩
  · intro limit
    rw [apply_force]
    refine ⟨fun hphase => if_pos hphase, fun hphase e m₁ hquery => ?_,
      fun hphase answer m₁ hquery => ?_⟩
    · rw [if_neg hphase, hquery]
      have hsource := settleQuery_source now limit (m.queryWait limit).answered m
      rw [hquery] at hsource
      exact ⟨rfl, hsource⟩
    · rw [if_neg hphase, hquery]
      have hsource := settleQuery_source now limit (m.queryWait limit).answered m
      rw [hquery] at hsource
      exact ⟨hsource, hprocess m₁⟩

end Cycles

/-! ## A cycle that stops on the way -/

section Halted

open Simulation

/-- A manager for which one write is served, with a source that takes long to answer a query. -/
def halting : Manager ScarceGate Script :=
  .initial .default ⟨Genesis.sampleAccess.ledger, ⟨1⟩⟩
    { Script.initial with target := units 3, current := units 2, delay := 5000 }

def halted : Except UpdateError UpdateReport × Manager ScarceGate Script :=
  (@process _ _ Radix.digest _ _ ⟨7⟩).apply halting

def forced : Except UpdateError UpdateReport × Manager ScarceGate Script :=
  (@force _ _ Radix.digest _ _ ⟨7⟩ (.ofSecs 2)).apply halting

/-- The target value is written and nothing else; a forced update ends with its query. -/
theorem idle_residue_halted :
    ServesReverts ScarceGate ∧ (Slot.observed.map (@Slot.key Radix.digest)).Nodup ∧
    halted.1 = .error (.ledger (.unavailable "set refused")) ∧
    (∃ source n, @Residue _ _ Radix.digest _ ⟨7⟩ halting halted.1 halted.2 source n) ∧
    @Slot.word Radix.digest .targetValue halted.2.state = units 3 ∧
    @Slot.word Radix.digest .currentValue halted.2.state =
      @Slot.word Radix.digest .currentValue halting.state ∧
    forced.1 = .error (.sourceTimeout (.ofSecs 2)) ∧
    ∃ source, forced.2 = { halting with desk.source := source } := by
  have hserves : ServesReverts ScarceGate := fun _ _ => rfl
  have hkeys : (Slot.observed.map (@Slot.key Radix.digest)).Nodup := by decide +kernel
  have hresult : halted.1 = .error (.ledger (.unavailable "set refused")) := by decide +kernel
  obtain ⟨hprocess, -, -, hforce⟩ := @idle_residue _ _ Radix.digest _ _ hserves hkeys ⟨7⟩ halting
  have hidle : Idle halted.1 := by
    rw [hresult]
    nofun
  have hphase : halting.phase ≠ .stopped := by decide +kernel
  have hlate : (halting.queryWait (.ofSecs 2)).answered = false := by decide +kernel
  obtain ⟨-, hunanswered, -⟩ := hforce (.ofSecs 2)
  rw [hlate] at hunanswered
  obtain ⟨hforced, hsource⟩ := hunanswered hphase (.sourceTimeout (.ofSecs 2)) halting rfl
  refine ⟨hserves, hkeys, hresult, hprocess halted.1 halted.2 (Prod.eta halted).symm hidle, ?_, ?_,
    ?_, ?_⟩
  · decide +kernel
  · decide +kernel
  · rw [forced, hforced]
  · rw [forced, hforced]
    exact hsource

end Halted

end Manager

end StableSupply
