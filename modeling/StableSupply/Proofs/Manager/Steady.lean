import StableSupply.Proofs.Manager.Run

/-! # What only starting and stopping change

Cycles, queries and the other operations leave the settings, the phase and the scheduler as they
were, and so they do a notifier that was closed (`Manager.perform_steady`). The phase is changed for
as long as a cycle runs, and is put back however the cycle ends (`Act.Steady.whileChecking`). -/

namespace StableSupply

open Engine

/-! ## Closed notifiers -/

namespace Notifier

/-- Both channels are closed. -/
structure Shut (n : Notifier) : Prop where
  updates : n.updates.isOpen = false
  adjustments : n.adjustments.isOpen = false

theorem shut_close (n : Notifier) : n.close.Shut := ⟨rfl, rfl⟩

theorem Shut.close {n : Notifier} (h : n.Shut) : n.close = n := by
  obtain ⟨⟨_, _, _, _, _, _⟩, ⟨_, _, _, _, _, _⟩⟩ := n
  obtain ⟨rfl, rfl⟩ := h
  rfl

/-- No update is handed on through a closed channel. -/
theorem Shut.publishUpdate {n : Notifier} (h : n.Shut) (u : ValueUpdate) :
    n.publishUpdate u = (0, n) := by
  simp [Notifier.publishUpdate, Channel.publish, h.updates]

/-- No adjustment is handed on through a closed channel. -/
theorem Shut.publishAdjustment {n : Notifier} (h : n.Shut) (a : AppliedAdjustment) :
    n.publishAdjustment a = (0, n) := by
  simp [Notifier.publishAdjustment, Channel.publish, h.adjustments]

end Notifier

namespace Manager

variable {σ τ ε δ α β : Type}

/-! ## Steady programs -/

/-- Nothing has changed that only starting and stopping change. -/
structure Steady (m m' : Manager σ τ) : Prop where
  settings : m'.settings = m.settings
  phase : m'.phase = m.phase
  started : m'.started = m.started
  /-- Nothing reaches the subscribers of a closed notifier. -/
  notifier : m.desk.notifier.Shut → m'.desk.notifier = m.desk.notifier

theorem Steady.rfl {m : Manager σ τ} : Steady m m := ⟨.refl _, .refl _, .refl _, fun _ => .refl _⟩

theorem Steady.trans {m m₁ m' : Manager σ τ} (h₁ : Steady m m₁) (h₂ : Steady m₁ m') :
    Steady m m' where
  settings := h₂.settings.trans h₁.settings
  phase := h₂.phase.trans h₁.phase
  started := h₂.started.trans h₁.started
  notifier hshut := by
    have hsame := h₁.notifier hshut
    exact (h₂.notifier (hsame ▸ hshut)).trans hsame

end Manager

namespace Act

variable {σ τ ε δ α β : Type} {m : Manager σ τ}

/-- Started from the manager, the program is steady however it ends. -/
abbrev SteadyAt (act : Act (Manager σ τ) ε α) (m : Manager σ τ) : Prop :=
  act.Ensures m (fun _ m' => m.Steady m') fun _ m' => m.Steady m'

/-- The program is steady wherever it starts. -/
abbrev Steady (act : Act (Manager σ τ) ε α) : Prop := ∀ m, act.SteadyAt m

variable {act : Act (Manager σ τ) ε α}

theorem steadyAt_iff : act.SteadyAt m ↔ m.Steady (act.apply m).2 :=
  ensures_iff (R := fun _ m' => m.Steady m')

theorem steady_pure (a : α) : (pure a : Act (Manager σ τ) ε α).Steady := fun _ => .rfl

theorem steady_throw (e : ε) : (throw e : Act (Manager σ τ) ε α).Steady := fun _ => .rfl

theorem steady_get : (get : Act (Manager σ τ) ε (Manager σ τ)).Steady := fun _ => .rfl

theorem steady_liftExcept (result : Except ε α) :
    (liftM result : Act (Manager σ τ) ε α).Steady := by
  intro m
  cases result with
  | ok a => exact .rfl
  | error e => exact .rfl

theorem SteadyAt.bind {f : α → Act (Manager σ τ) ε β} (h : act.SteadyAt m)
    (hf : ∀ a, (f a).Steady) : (act >>= f).SteadyAt m := by
  rw [SteadyAt, ensures_bind]
  refine h.mono ?_ fun _ _ h₁ => h₁
  intro a m₁ h₁
  exact (hf a m₁).mono (fun _ _ h₂ => h₁.trans h₂) fun _ _ h₂ => h₁.trans h₂

theorem Steady.bind {f : α → Act (Manager σ τ) ε β} (h : act.Steady) (hf : ∀ a, (f a).Steady) :
    (act >>= f).Steady := fun m => (h m).bind hf

theorem Steady.failingWith {act : Act (Manager σ τ) δ α} (h : act.Steady) (convert : δ → ε) :
    (act.failingWith convert).Steady := fun m => ensures_failingWith.2 (h m)

theorem Steady.attempt {act : Act (Manager σ τ) δ α} (h : act.Steady) :
    (act.attempt : Act (Manager σ τ) ε _).Steady := fun m => ensures_attempt.2 (h m)

theorem steady_modify {f : Manager σ τ → Manager σ τ} (h : ∀ m : Manager σ τ, m.Steady (f m)) :
    (modify f : Act (Manager σ τ) ε PUnit).Steady := h

end Act

namespace Manager

open Act

variable {σ τ ε α : Type}

/-! ## Parts of the manager -/

theorem steady_onDesk {act : Act (Desk σ τ) ε α}
    (h : ∀ desk, act.Ensures desk
      (fun _ desk' => desk.notifier.Shut → desk'.notifier = desk.notifier)
      fun _ desk' => desk.notifier.Shut → desk'.notifier = desk.notifier) :
    (onDesk act).Steady := by
  intro m
  rw [SteadyAt, onDesk, ensures_on]
  exact (h m.desk).mono (fun _ _ h₁ => ⟨rfl, rfl, rfl, h₁⟩) fun _ _ h₁ => ⟨rfl, rfl, rfl, h₁⟩

theorem steady_onDesk_ledger (act : Act (Access σ) ε α) :
    (onDesk (Engine.onLedger act) : Act (Manager σ τ) ε α).Steady := by
  refine steady_onDesk fun desk => ?_
  rw [Engine.onLedger, ensures_on]
  exact (ensures_apply act _).mono (fun _ _ _ _ => rfl) fun _ _ _ _ => rfl

theorem steady_onLedger (act : Act (Access σ) LedgerError α) :
    (onLedger act : Program σ τ α).Steady := steady_onDesk_ledger _

theorem steady_onSource (act : Act τ SourceError α) : (onSource act : Program σ τ α).Steady := by
  refine steady_onDesk fun desk => ?_
  rw [ensures_on]
  exact (ensures_apply _ _).mono (fun _ _ _ _ => rfl) fun _ _ _ _ => rfl

theorem steady_note (occurrence : Occurrence) :
    (note occurrence : Act (Manager σ τ) ε Unit).Steady :=
  steady_modify fun _ => ⟨rfl, rfl, rfl, fun _ => rfl⟩

theorem steady_askLastUpdate [DecisionSource τ] :
    (askLastUpdate : Act (Manager σ τ) ε (Option Instant)).Steady :=
  fun _ => ⟨rfl, rfl, rfl, fun _ => rfl⟩

/-! ## Cycles -/

section Cycles

variable [Digest] [Gate σ]

theorem steady_readMarket : (readMarket : Program σ τ _).Steady := by
  refine (steady_onLedger _).bind fun supply => (steady_onLedger _).bind fun price =>
    (steady_onLedger _).bind fun word => ?_
  split
  · exact steady_pure _
  · exact steady_throw _

theorem steady_resolveTreasury : (resolveTreasury : Program σ τ Address).Steady := by
  refine steady_get.bind fun m => ?_
  split
  · exact steady_pure _
  · refine (steady_onLedger _).bind fun word => ?_
    split
    · split
      · exact steady_throw _
      · exact steady_pure _
    · exact steady_throw _

variable [DecisionSource τ]

theorem steady_obtainDecision (now : Instant) (observed : Option Instant) :
    (obtainDecision now observed : Program σ τ Decision).Steady := by
  refine steady_readMarket.bind fun market => steady_get.bind fun m =>
    (steady_onSource _).bind fun decision => (steady_note _).bind fun _ => ?_
  split
  · refine Steady.bind ?_ fun _ => steady_pure _
    exact steady_modify fun _ => ⟨rfl, rfl, rfl, fun _ => rfl⟩
  · exact steady_pure _

theorem steady_recordValues (decision : Decision) (timestamp : UInt64) :
    (recordValues decision timestamp : Program σ τ ValueUpdate).Steady :=
  steady_get.bind fun _ => (steady_onLedger _).bind fun _ => (steady_onLedger _).bind fun _ =>
    (steady_onLedger _).bind fun _ => steady_pure _

theorem steady_prepare (now : Instant) : (prepare now : Program σ τ ValueUpdate).Steady :=
  steady_askLastUpdate.bind fun observed => (steady_onLedger _).bind fun _ =>
    (steady_obtainDecision now observed).bind fun decision => steady_recordValues decision _

/-- An adjustment is published, but not on a closed notifier. -/
theorem steady_applyDecision (now : Instant) (decision : Decision) (treasury : Address) :
    (applyDecision now decision treasury : Program σ τ Outcome).Steady := by
  refine steady_get.bind fun m => Steady.failingWith (steady_onDesk fun desk => ?_) _
  refine (apply_ensures _ decision treasury).mono ?_ ?_
  · intro outcome desk' hended hshut
    cases outcome with
    | noChange => exact hended.notifier
    | skipped reason => exact hended.notifier
    | applied a => exact hended.notifier.trans (by rw [hshut.publishAdjustment])
  · rintro e desk' (hkept | ⟨-, hnotifier, -⟩) _
    · exact hkept.notifier
    · exact hnotifier

theorem steady_conclude (now : Instant) (decision : Decision) :
    (conclude now decision : Program σ τ UpdateReport).Steady := by
  have happly (treasury : Address) : (applyDecision now decision treasury >>= fun outcome =>
      pure ⟨decision, outcome, now.unixSeconds⟩ : Program σ τ UpdateReport).Steady :=
    (steady_applyDecision now decision treasury).bind fun _ => steady_pure _
  unfold conclude
  split
  · exact happly .zero
  · exact steady_resolveTreasury.bind happly

theorem steady_decideAndApply (now : Instant) :
    (decideAndApply now : Program σ τ UpdateReport).Steady := by
  refine (steady_prepare now).bind fun u => ?_
  refine Steady.bind ?_ fun _ => steady_conclude now u.decision
  exact steady_modify fun m => ⟨rfl, rfl, rfl, fun hshut => congrArg (·.2) (hshut.publishUpdate u)⟩

/-- A cycle moves neither the phase nor the scheduler. -/
theorem steady_cycle (now : Instant) : (cycle now : Program σ τ UpdateReport).Steady := by
  refine (steady_note _).bind fun _ => (steady_decideAndApply now).attempt.bind fun result => ?_
  refine Steady.bind ?_ fun _ => steady_liftExcept result
  exact steady_modify fun _ => ⟨rfl, rfl, rfl, fun _ => rfl⟩

theorem steady_catchUp (now : Instant) :
    (catchUp now : Act (Manager σ τ) ε (Option UpdateReport)).Steady := by
  refine steady_askLastUpdate.bind fun latest => steady_get.bind fun m => ?_
  split
  · refine (steady_cycle now).attempt.bind fun result => ?_
    split
    · exact steady_pure _
    · exact steady_pure _
  · exact steady_pure _

end Cycles

/-- While a cycle runs an idle manager is checking; no other phase changes for it. -/
theorem steadyAt_whileChecking {act : Act (Manager σ τ) ε α} (h : act.Steady) {m : Manager σ τ}
    (hphase : m.phase ≠ .checking) : (whileChecking act).SteadyAt m := by
  rw [steadyAt_iff]
  rw [apply_whileChecking]
  have hact := steadyAt_iff.1 (h m.beginChecking)
  cases hm : m.phase with
  | checking => exact absurd hm hphase
  | idle =>
    have hbegin : m.beginChecking = { m with phase := .checking } := by simp [beginChecking, hm]
    rw [hbegin] at hact ⊢
    have hchecking : (act.apply { m with phase := .checking }).2.phase = .checking := hact.phase
    rw [endChecking, if_pos hchecking]
    exact ⟨hact.settings, hm.symm, hact.started, hact.notifier⟩
  | stopped =>
    have hbegin : m.beginChecking = m := by simp [beginChecking, hm]
    rw [hbegin] at hact ⊢
    have hstopped : (act.apply m).2.phase ≠ .checking := by
      rw [hact.phase, hm]
      decide
    rwa [endChecking, if_neg hstopped]

/-! ## Operations -/

section Operations

variable [Digest] [Gate σ] [DecisionSource τ]

omit [Digest] [Gate σ] in
theorem steady_settleQuery (now : Instant) (limit : Duration) (answered : Bool) :
    (settleQuery now limit answered : Program σ τ Unit).Steady := by
  unfold settleQuery
  split
  · exact steady_get.bind fun _ => steady_onSource _
  · exact steady_throw _

/-- The phase is shown and then taken back, unless it was there before. -/
theorem steadyAt_process (now : Instant) {m : Manager σ τ} (hphase : m.phase ≠ .checking) :
    (process now : Program σ τ UpdateReport).SteadyAt m :=
  steadyAt_whileChecking (steady_cycle now) hphase

theorem steadyAt_check (now : Instant) {m : Manager σ τ} (hphase : m.phase ≠ .checking) :
    (check now : Act (Manager σ τ) ε (Option UpdateReport)).SteadyAt m := by
  rw [check, SteadyAt, ensures_bind, ensures_get]
  split
  · exact .rfl
  · exact steadyAt_whileChecking (steady_catchUp now) hphase

theorem steadyAt_force (now : Instant) (limit : Duration) {m : Manager σ τ}
    (hphase : m.phase ≠ .checking) : (force now limit : Program σ τ UpdateReport).SteadyAt m := by
  rw [force, SteadyAt, ensures_bind, ensures_get]
  split
  · exact .rfl
  · rw [ensures_bind]
    refine (steady_settleQuery now limit _ m).mono ?_ fun _ _ h => h
    intro _ m₁ h₁
    exact (steadyAt_process now (h₁.phase ▸ hphase)).mono (fun _ _ h₂ => h₁.trans h₂)
      fun _ _ h₂ => h₁.trans h₂

/-- Every operation is steady but starting and stopping. -/
theorem perform_steady (now : Instant) {operation : Operation} (hstart : operation ≠ .start)
    (hstop : operation ≠ .stop) {m : Manager σ τ} (hphase : m.phase ≠ .checking) :
    m.Steady ((perform now operation).apply m).2 := by
  rw [← steadyAt_iff]
  cases operation with
  | start => exact absurd rfl hstart
  | stop => exact absurd rfl hstop
  | check => exact (steadyAt_check now hphase).bind fun _ => steady_pure _
  | process => exact (steadyAt_process now hphase).bind fun _ => steady_pure _
  | refresh =>
    exact (steady_get.bind fun _ => steady_settleQuery now _ _).bind (fun _ => steady_pure _) m
  | force limit => exact (steadyAt_force now limit hphase).bind fun _ => steady_pure _
  | apply decision treasury =>
    exact ((steady_onLedger _).bind fun _ => steady_applyDecision now decision treasury).bind
      (fun _ => steady_pure _) m
  | observe value =>
    have hset : (modify fun m : Manager σ τ => { m with
        desk.source := DecisionSource.setCurrentValue (m.moment now) value m.desk.source } :
          Program σ τ PUnit).Steady := steady_modify fun _ => ⟨rfl, rfl, rfl, fun _ => rfl⟩
    exact (hset.bind fun _ => (steady_onLedger _).bind fun _ => steady_onLedger _).bind
      (fun _ => steady_pure _) m
  | history max =>
    exact ((steady_onLedger _).bind fun _ => steady_onDesk_ledger _).bind (fun _ => steady_pure _) m

/-! ### Starts -/

variable {m : Manager σ τ}

/-- What was stopped is not started again. -/
theorem apply_start_of_stopped (h : m.phase = .stopped) (now : Instant) :
    (perform now .start).apply m = (.error .stopped, m) := by
  simp only [perform, start, apply_bind, apply_get, if_pos h]
  rfl

/-- A second start does nothing. -/
theorem apply_start_of_started (h : m.phase ≠ .stopped) (hstarted : m.started) (now : Instant) :
    (perform now .start).apply m = (.ok .done, m) := by
  simp only [perform, start, apply_bind, apply_get, if_neg h, hstarted]
  rfl

/-- A manager that has not been started asks its source to start. -/
theorem apply_start_of_not_started (h : m.phase ≠ .stopped) (hstarted : ¬ m.started)
    (now : Instant) :
    (perform now .start).apply m =
      match (DecisionSource.start : Act τ SourceError Unit).apply m.desk.source with
      | (.ok _, source) => (.ok .done, { m with desk.source := source, started := true })
      | (.error c, source) => (.error (.source c), { m with desk.source := source }) := by
  simp only [perform, start, apply_bind, apply_get, if_neg h, hstarted, Bool.not_false, if_true,
    onSource, onDesk, apply_on, apply_failingWith]
  rcases (DecisionSource.start : Act τ SourceError Unit).apply m.desk.source with ⟨_ | _, source⟩
  · rfl
  · rfl

/-- A start sets off the source, and changes nothing else but that the manager counts as started. -/
theorem start_keeps (m : Manager σ τ) (now : Instant) :
    ((perform now .start).apply m).2.settings = m.settings ∧
      ((perform now .start).apply m).2.phase = m.phase ∧
      ((perform now .start).apply m).2.desk.notifier = m.desk.notifier := by
  by_cases hphase : m.phase = .stopped
  · rw [apply_start_of_stopped hphase]
    exact ⟨rfl, rfl, rfl⟩
  · by_cases hstarted : m.started
    · rw [apply_start_of_started hphase hstarted]
      exact ⟨rfl, rfl, rfl⟩
    · rw [apply_start_of_not_started hphase hstarted]
      split
      · exact ⟨rfl, rfl, rfl⟩
      · exact ⟨rfl, rfl, rfl⟩

/-- Afterwards a manager that is not stopped has been started if and only if this or an earlier
start succeeded. -/
theorem started_apply_start (h : m.phase ≠ .stopped) (now : Instant) :
    ((perform now .start).apply m).2.started ↔
      m.started ∨ ((perform now .start).apply m).1 = .ok .done := by
  by_cases hstarted : m.started
  · rw [apply_start_of_started h hstarted]
    simp [hstarted]
  · rw [apply_start_of_not_started h hstarted]
    split
    · simp
    · simp [hstarted]

/-! ### Settings -/

/-- Operations never change the settings, and leave no cycle running. -/
theorem perform_settings (hphase : m.phase ≠ .checking) (now : Instant) (operation : Operation) :
    ((perform now operation).apply m).2.settings = m.settings ∧
      ((perform now operation).apply m).2.phase ≠ .checking := by
  by_cases hstop : operation = .stop
  · subst hstop
    exact ⟨rfl, nofun⟩
  by_cases hstart : operation = .start
  · subst hstart
    obtain ⟨hsettings, hsame, -⟩ := m.start_keeps now
    exact ⟨hsettings, hsame.trans_ne hphase⟩
  · have hsteady := perform_steady now hstart hstop hphase
    exact ⟨hsteady.settings, hsteady.phase.trans_ne hphase⟩

/-- No run changes the settings. -/
theorem run_settings (hphase : m.phase ≠ .checking) (events : List (Event σ τ)) :
    (m.run events).2.settings = m.settings := by
  induction events generalizing m with
  | nil => rfl
  | cons event events ih =>
    rw [run_cons]
    cases event with
    | operation now operation =>
      obtain ⟨hsettings, hphase'⟩ := perform_settings hphase now operation
      exact (ih hphase').trans hsettings
    | elsewhere source notifier gate => exact ih hphase

end Operations

end Manager

end StableSupply
