import StableSupply.Proofs.Events.Closed
import StableSupply.Proofs.Genesis
import StableSupply.Proofs.Manager.Steady

/-! # From the start to the stop

Between operations a manager is idle until it is stopped, and stopped from then on, whatever it is
asked to do and however that ends (`Manager.turns_lifecycle`). A successful start is made once; a
stopped manager takes part in nothing that begins by itself, and its subscribers get what was queued
for them and no more (`Manager.Retired`). -/

namespace StableSupply

open Engine Gate

/-- What a subscriber does with a channel. -/
inductive Visit
  | subscribe
  | receive (receiver : Nat)
  | unsubscribe (receiver : Nat)

/-- A visit is a call of the channel. -/
def Visit.call {α : Type} : Visit → Channel.Call α
  | subscribe => .subscribe
  | receive receiver => .receive receiver
  | unsubscribe receiver => .unsubscribe receiver

namespace Manager

open Act

/-- What can come next for a manager. -/
inductive Turn (σ τ : Type)
  | operation (now : Instant) (operation : Operation)
  | atUpdates (visit : Visit)
  | atAdjustments (visit : Visit)
  /-- Between operations the source moves on, and the gate may come to refuse other requests. -/
  | elsewhere (source : τ → τ) (gate : σ → σ)

/-- What comes of a turn for whoever takes it. -/
inductive Reply
  | operation (answer : Except UpdateError Answer)
  | atUpdates (visit : Visit) (answer : Channel.Answer ValueUpdate)
  | atAdjustments (visit : Visit) (answer : Channel.Answer AppliedAdjustment)
  | none

variable {σ τ : Type} [Digest] [Gate σ] [DecisionSource τ]

/-- What a turn leads to, for whoever takes it and for the manager. -/
def turn (m : Manager σ τ) : Turn σ τ → Reply × Manager σ τ
  | .operation now operation =>
    let (answer, m) := (perform now operation).apply m
    (.operation answer, m)
  | .atUpdates visit =>
    let (answer, updates) := m.desk.notifier.updates.answer visit.call
    (.atUpdates visit answer,
      { m with desk := { m.desk with notifier := { m.desk.notifier with updates } } })
  | .atAdjustments visit =>
    let (answer, adjustments) := m.desk.notifier.adjustments.answer visit.call
    (.atAdjustments visit answer,
      { m with desk := { m.desk with notifier := { m.desk.notifier with adjustments } } })
  | .elsewhere source gate =>
    (.none, { m with desk := { m.desk with
      access := { m.desk.access with gate := gate m.desk.access.gate }
      source := source m.desk.source } })

/-- The manager after all of these. -/
def after (m : Manager σ τ) (turns : List (Turn σ τ)) : Manager σ τ :=
  turns.foldl (fun m next => (m.turn next).2) m

/-- What comes of the turns, each after those before it. -/
def replies (m : Manager σ τ) : List (Turn σ τ) → List Reply
  | [] => []
  | next :: turns => (m.turn next).1 :: (m.turn next).2.replies turns

theorem after_concat (m : Manager σ τ) (turns : List (Turn σ τ)) (next : Turn σ τ) :
    m.after (turns ++ [next]) = ((m.after turns).turn next).2 := List.foldl_concat ..

/-! ## Starting and stopping -/

/-- The manager is stopped in one of the turns. -/
def Stops (turns : List (Turn σ τ)) : Prop := ∃ now, .operation now .stop ∈ turns

/-- The manager is started in one of the turns, and the start succeeds. -/
def Starts (m : Manager σ τ) (turns : List (Turn σ τ)) : Prop :=
  ∃ before now rest, turns = before ++ .operation now .start :: rest ∧
    ((perform now .start).apply (m.after before)).1 = .ok .done

omit [Digest] [Gate σ] [DecisionSource τ] in
theorem stops_concat {turns : List (Turn σ τ)} {next : Turn σ τ} :
    Stops (turns ++ [next]) ↔ Stops turns ∨ ∃ now, next = .operation now .stop := by
  simp only [Stops, List.mem_append, List.mem_singleton, exists_or]
  exact or_congr_right (exists_congr fun _ => eq_comm)

theorem starts_concat {m : Manager σ τ} {turns : List (Turn σ τ)} {next : Turn σ τ} :
    m.Starts (turns ++ [next]) ↔ m.Starts turns ∨ ∃ now, next = .operation now .start ∧
      ((perform now .start).apply (m.after turns)).1 = .ok .done := by
  constructor
  · rintro ⟨before, now, rest, hsplit, hdone⟩
    rcases List.eq_nil_or_concat rest with rfl | ⟨rest, last, rfl⟩
    · obtain ⟨rfl, hnext⟩ := List.append_inj' hsplit rfl
      exact .inr ⟨now, List.singleton_inj.1 hnext, hdone⟩
    · have hsplit' : turns ++ [next] = (before ++ .operation now .start :: rest) ++ [last] := by
        simpa using hsplit
      exact .inl ⟨before, now, rest, (List.append_inj' hsplit' rfl).1, hdone⟩
  · rintro (⟨before, now, rest, rfl, hdone⟩ | ⟨now, rfl, hdone⟩)
    · exact ⟨before, now, rest ++ [next], by simp, hdone⟩
    · exact ⟨turns, now, [], rfl, hdone⟩

/-! ## Single turns -/

section Turns

variable {m : Manager σ τ}

/-- Only starting and stopping move the phase and the scheduler. -/
theorem turn_steady (hphase : m.phase ≠ .checking) {next : Turn σ τ}
    (hstart : ∀ now, next ≠ .operation now .start) (hstop : ∀ now, next ≠ .operation now .stop) :
    (m.turn next).2.phase = m.phase ∧ (m.turn next).2.started = m.started := by
  cases next with
  | operation now operation =>
    have hstart' : operation ≠ .start := fun h => hstart now (by rw [h])
    have hstop' : operation ≠ .stop := fun h => hstop now (by rw [h])
    have hsteady := perform_steady now hstart' hstop' hphase
    exact ⟨hsteady.phase, hsteady.started⟩
  | atUpdates visit => exact ⟨rfl, rfl⟩
  | atAdjustments visit => exact ⟨rfl, rfl⟩
  | elsewhere source gate => exact ⟨rfl, rfl⟩

/-- A manager that was stopped, and whose subscriptions were ended with that. -/
structure Halted (m : Manager σ τ) : Prop where
  phase : m.phase = .stopped
  shut : m.desk.notifier.Shut

omit [Digest] [Gate σ] in
theorem halted_stop (m : Manager σ τ) : m.stop.Halted := ⟨rfl, Notifier.shut_close _⟩

/-- Operations neither bring a stopped manager back nor reach its subscribers. -/
theorem Halted.operation (h : m.Halted) (now : Instant) (operation : Operation) :
    ((perform now operation).apply m).2.phase = .stopped ∧
      ((perform now operation).apply m).2.desk.notifier = m.desk.notifier := by
  have hphase : m.phase ≠ .checking := by
    rw [h.phase]
    decide
  by_cases hstop : operation = .stop
  · subst hstop
    exact ⟨rfl, h.shut.close⟩
  by_cases hstart : operation = .start
  · subst hstart
    obtain ⟨-, hsame, hnotifier⟩ := m.start_keeps now
    exact ⟨hsame.trans h.phase, hnotifier⟩
  · have hsteady := perform_steady now hstart hstop hphase
    exact ⟨hsteady.phase.trans h.phase, hsteady.notifier h.shut⟩

/-- What is halted stays so. -/
theorem Halted.turn (h : m.Halted) (next : Turn σ τ) : (m.turn next).2.Halted := by
  cases next with
  | operation now operation =>
    obtain ⟨hphase, hnotifier⟩ := h.operation now operation
    exact ⟨hphase, hnotifier.symm ▸ h.shut⟩
  | atUpdates visit =>
    exact ⟨h.phase, Channel.isOpen_respond_of_closed h.shut.updates (.call visit.call),
      h.shut.adjustments⟩
  | atAdjustments visit =>
    exact ⟨h.phase, h.shut.updates,
      Channel.isOpen_respond_of_closed h.shut.adjustments (.call visit.call)⟩
  | elsewhere source gate => exact ⟨h.phase, h.shut⟩

end Turns

/-! ## Where a manager stands -/

/-- After the turns the first manager is idle, and started if a start succeeded, unless it was
stopped in between. -/
structure Stands (m₀ : Manager σ τ) (turns : List (Turn σ τ)) (m : Manager σ τ) : Prop where
  idle : ¬ Stops turns → m.phase = .idle
  started : ¬ Stops turns → (m.started ↔ m₀.Starts turns)
  halted : Stops turns → m.Halted

theorem Stands.phase_ne_checking {m₀ m : Manager σ τ} {turns : List (Turn σ τ)}
    (h : m₀.Stands turns m) : m.phase ≠ .checking := by
  by_cases hstops : Stops turns
  · rw [(h.halted hstops).phase]
    decide
  · rw [h.idle hstops]
    decide

/-- One turn leads from where a manager stands to where it stands with that turn. -/
theorem Stands.turn {m₀ : Manager σ τ} {turns : List (Turn σ τ)}
    (h : m₀.Stands turns (m₀.after turns)) (next : Turn σ τ) :
    m₀.Stands (turns ++ [next]) (m₀.after (turns ++ [next])) := by
  rw [after_concat]
  by_cases hstop : ∃ now, next = .operation now .stop
  · have hstops : Stops (turns ++ [next]) := stops_concat.2 (.inr hstop)
    obtain ⟨now, rfl⟩ := hstop
    exact ⟨fun hrunning => absurd hstops hrunning, fun hrunning => absurd hstops hrunning,
      fun _ => halted_stop _⟩
  have hstops : Stops (turns ++ [next]) ↔ Stops turns := by
    rw [stops_concat, or_iff_left hstop]
  by_cases hstart : ∃ now, next = .operation now .start
  · obtain ⟨now, rfl⟩ := hstart
    refine ⟨fun hrunning => ?_, fun hrunning => ?_, fun hstopped => ?_⟩
    · rw [hstops] at hrunning
      exact (start_keeps _ now).2.1.trans (h.idle hrunning)
    · rw [hstops] at hrunning
      have hphase : (m₀.after turns).phase ≠ .stopped := by
        rw [h.idle hrunning]
        decide
      have hnow : (∃ now', (.operation now .start : Turn σ τ) = .operation now' .start ∧
          ((perform now' .start).apply (m₀.after turns)).1 = .ok .done) ↔
          ((perform now .start).apply (m₀.after turns)).1 = .ok .done := by
        constructor
        · rintro ⟨_, ⟨⟩, hdone⟩
          exact hdone
        · exact fun hdone => ⟨now, rfl, hdone⟩
      rw [starts_concat, hnow, ← h.started hrunning]
      exact started_apply_start hphase now
    · exact (h.halted (hstops.1 hstopped)).turn _
  · obtain ⟨hphase, hstarted⟩ :=
      turn_steady h.phase_ne_checking (not_exists.1 hstart) (not_exists.1 hstop)
    have hstarts : m₀.Starts (turns ++ [next]) ↔ m₀.Starts turns := by
      rw [starts_concat, or_iff_left]
      rintro ⟨now, hnext, -⟩
      exact hstart ⟨now, hnext⟩
    refine ⟨fun hrunning => ?_, fun hrunning => ?_, fun hstopped => ?_⟩
    · rw [hstops] at hrunning
      exact hphase.trans (h.idle hrunning)
    · rw [hstops] at hrunning
      rw [hstarted, hstarts]
      exact h.started hrunning
    · exact (h.halted (hstops.1 hstopped)).turn _

/-- Whatever the turns, a manager stands where its starts and stops have put it. -/
theorem after_stands (settings : ManagerSettings) (access : Access σ) (source : τ)
    (turns : List (Turn σ τ)) :
    let m₀ := initial settings access source
    m₀.Stands turns (m₀.after turns) := by
  intro m₀
  induction turns using List.reverseRecOn with
  | nil =>
    refine ⟨fun _ => rfl, fun _ => ⟨nofun, ?_⟩, ?_⟩
    · rintro ⟨before, now, rest, hsplit, -⟩
      simp at hsplit
    · rintro ⟨now, hmem⟩
      cases hmem
  | append_singleton turns next ih => exact ih.turn next

/-! ## Subscribers of a stopped manager -/

/-- What the turn does with the channel of updates. -/
def Turn.onUpdates? : Turn σ τ → Option (Channel.Action ValueUpdate)
  | .atUpdates visit => some (.call visit.call)
  | _ => Option.none

def Turn.onAdjustments? : Turn σ τ → Option (Channel.Action AppliedAdjustment)
  | .atAdjustments visit => some (.call visit.call)
  | _ => Option.none

def Reply.onUpdates? : Reply → Option (Channel.Entry ValueUpdate)
  | .atUpdates visit answer => some (.call visit.call answer)
  | _ => Option.none

def Reply.onAdjustments? : Reply → Option (Channel.Entry AppliedAdjustment)
  | .atAdjustments visit answer => some (.call visit.call answer)
  | _ => Option.none

omit [Digest] [Gate σ] [DecisionSource τ] in
theorem Turn.eq_of_onUpdates? {receiver : Nat} {next : Turn σ τ}
    (h : next.onUpdates? = some (.call (.unsubscribe receiver))) :
    next = .atUpdates (.unsubscribe receiver) := by
  rcases next with _ | (_ | _ | _) | _ | _ <;> cases h
  rfl

omit [Digest] [Gate σ] [DecisionSource τ] in
theorem Turn.eq_of_onAdjustments? {receiver : Nat} {next : Turn σ τ}
    (h : next.onAdjustments? = some (.call (.unsubscribe receiver))) :
    next = .atAdjustments (.unsubscribe receiver) := by
  rcases next with _ | _ | (_ | _ | _) | _ <;> cases h
  rfl

/-- What a receiver of updates was told. -/
def updateReadings (receiver : Nat) (replies : List Reply) : List (Reading ValueUpdate) :=
  Channel.readings receiver (replies.filterMap Reply.onUpdates?)

/-- What the replies hand to a receiver of adjustments. -/
def adjustmentReadings (receiver : Nat) (replies : List Reply) :
    List (Reading AppliedAdjustment) :=
  Channel.readings receiver (replies.filterMap Reply.onAdjustments?)

section Subscribers

variable {m : Manager σ τ}

/-- Subscribers have a channel of a stopped manager to themselves. -/
theorem Halted.replies_trace {α : Type} {channel : Notifier → Channel α}
    {onTurn : Turn σ τ → Option (Channel.Action α)} {onReply : Reply → Option (Channel.Entry α)}
    (hquiet : ∀ (m : Manager σ τ) next, m.Halted → onTurn next = none →
      onReply (m.turn next).1 = none ∧
        channel (m.turn next).2.desk.notifier = channel m.desk.notifier)
    (hvisit : ∀ (m : Manager σ τ) next action, onTurn next = some action →
      onReply (m.turn next).1 = some ((channel m.desk.notifier).respond action).1 ∧
        channel (m.turn next).2.desk.notifier = ((channel m.desk.notifier).respond action).2)
    (h : m.Halted) (turns : List (Turn σ τ)) :
    (m.replies turns).filterMap onReply =
      (channel m.desk.notifier).trace (turns.filterMap onTurn) := by
  induction turns generalizing m with
  | nil => rfl
  | cons next turns ih =>
    rw [replies]
    cases hnext : onTurn next with
    | none =>
      obtain ⟨hreply, hchannel⟩ := hquiet m next h hnext
      rw [List.filterMap_cons_none hreply, List.filterMap_cons_none hnext, ih (h.turn next),
        hchannel]
    | some action =>
      obtain ⟨hreply, hchannel⟩ := hvisit m next action hnext
      rw [List.filterMap_cons_some hreply, List.filterMap_cons_some hnext, ih (h.turn next),
        hchannel]
      rfl

/-- Once halted, a manager hands its subscribers of updates what their channel still has for them.
-/
theorem Halted.replies_onUpdates (h : m.Halted) (turns : List (Turn σ τ)) :
    (m.replies turns).filterMap Reply.onUpdates? =
      m.desk.notifier.updates.trace (turns.filterMap Turn.onUpdates?) := by
  refine h.replies_trace ?_ ?_ turns
  · intro m next h hnext
    cases next with
    | operation now operation =>
      exact ⟨rfl, congrArg (·.updates) (h.operation now operation).2⟩
    | atUpdates visit => cases hnext
    | atAdjustments visit => exact ⟨rfl, rfl⟩
    | elsewhere source gate => exact ⟨rfl, rfl⟩
  · intro m next action hnext
    cases next with
    | atUpdates visit =>
      cases hnext
      exact ⟨rfl, rfl⟩
    | _ => cases hnext

/-- Once halted, a manager hands its subscribers of adjustments what their channel still has for
them. -/
theorem Halted.replies_onAdjustments (h : m.Halted) (turns : List (Turn σ τ)) :
    (m.replies turns).filterMap Reply.onAdjustments? =
      m.desk.notifier.adjustments.trace (turns.filterMap Turn.onAdjustments?) := by
  refine h.replies_trace ?_ ?_ turns
  · intro m next h hnext
    cases next with
    | operation now operation =>
      exact ⟨rfl, congrArg (·.adjustments) (h.operation now operation).2⟩
    | atUpdates visit => exact ⟨rfl, rfl⟩
    | atAdjustments visit => cases hnext
    | elsewhere source gate => exact ⟨rfl, rfl⟩
  · intro m next action hnext
    cases next with
    | atAdjustments visit =>
      cases hnext
      exact ⟨rfl, rfl⟩
    | _ => cases hnext

end Subscribers

/-! ## What a stopped manager still does -/

/-- The attempt that gave the answer to a call from outside was counted. -/
def CountedUnder (d : Decision) (m m' : Manager σ τ) : Except UpdateError Outcome → Prop
  | .ok outcome =>
    m'.desk.metrics.adjustments = (d.kind, outcome.status) :: m.desk.metrics.adjustments
  | .error _ => m'.desk.metrics.adjustments = (d.kind, .failed) :: m.desk.metrics.adjustments

theorem applyDecision_counted (now : Instant) (d : Decision) (treasury : Address)
    (m : Manager σ τ) : CountedUnder d m ((applyDecision now d treasury).apply m).2
      ((applyDecision now d treasury).apply m).1 := by
  rw [← ensures_iff (R := fun result m' => CountedUnder d m m' result)]
  simp only [applyDecision, onDesk, ensures_bind, ensures_get, ensures_failingWith, ensures_on]
  exact (apply_counted _ d treasury).mono (fun _ _ h => h.adjustments) fun _ _ h => h.adjustments

/-- A stopped manager refuses or ignores what would begin cycles. Cycles and adjustments that are
asked of it run, but its subscribers get what was queued for them and no more. -/
structure Retired (m : Manager σ τ) : Prop where
  phase : m.phase = .stopped
  start : ∀ now, (perform now .start).apply m = (.error .stopped, m)
  force : ∀ now limit, (perform now (.force limit)).apply m = (.error .stopped, m)
  check : ∀ now, (perform now .check).apply m = (.ok .noReport, m)
  subscribeUpdates : m.turn (.atUpdates .subscribe) = (.atUpdates .subscribe (.subscribed none), m)
  subscribeAdjustments :
    m.turn (.atAdjustments .subscribe) = (.atAdjustments .subscribe (.subscribed none), m)
  process : ∀ now, ∃ result m', (cycle now).apply m = (result, m') ∧
    (perform now .process).apply m = (result.map .report, m') ∧
    m'.desk.metrics.cycles = cycleStatus result :: m.desk.metrics.cycles ∧
    m'.phase = .stopped ∧ m'.desk.notifier = m.desk.notifier
  /-- A decision from outside is attempted whenever the ledger can be attached. -/
  apply : ∀ now d treasury m₁, (onLedger Access.attach).apply m = (.ok (), m₁) →
    ∃ result m', (applyDecision now d treasury).apply m₁ = (result, m') ∧
      (perform now (.apply d treasury)).apply m = (result.map .outcome, m') ∧
      CountedUnder d m m' result ∧ m'.phase = .stopped ∧ m'.desk.notifier = m.desk.notifier
  /-- A receiver that stays reads what was queued for it, one event each time, and then the end. -/
  updates : ∀ (turns : List (Turn σ τ)) (receiver i : Nat),
    .atUpdates (.unsubscribe receiver) ∉ turns →
    (hi : i < (updateReadings receiver (m.replies turns)).length) →
    (updateReadings receiver (m.replies turns))[i] =
      (m.desk.notifier.updates.queued receiver)[i]?.elim .ended .event
  adjustments : ∀ (turns : List (Turn σ τ)) (receiver i : Nat),
    .atAdjustments (.unsubscribe receiver) ∉ turns →
    (hi : i < (adjustmentReadings receiver (m.replies turns)).length) →
    (adjustmentReadings receiver (m.replies turns))[i] =
      (m.desk.notifier.adjustments.queued receiver)[i]?.elim .ended .event

section Retirement

variable {m : Manager σ τ}

/-- A halted manager still runs the cycles that it is told to run, and tells nobody. -/
theorem Halted.process (h : m.Halted) (now : Instant) :
    ∃ result m', (cycle now).apply m = (result, m') ∧
      (perform now .process).apply m = (result.map .report, m') ∧
      m'.desk.metrics.cycles = cycleStatus result :: m.desk.metrics.cycles ∧
      m'.phase = .stopped ∧ m'.desk.notifier = m.desk.notifier := by
  have hsteady := steadyAt_iff.1 (steady_cycle now m)
  have hphase : ((cycle now).apply m).2.phase = .stopped := hsteady.phase.trans h.phase
  have hbegin : m.beginChecking = m := if_neg (by rw [h.phase]; decide)
  have hend : ((cycle now).apply m).2.endChecking = ((cycle now).apply m).2 :=
    if_neg (by rw [hphase]; decide)
  refine ⟨((cycle now).apply m).1, ((cycle now).apply m).2, rfl, ?_, cycle_counted now m, hphase,
    hsteady.notifier h.shut⟩
  simp only [perform, Manager.process, apply_bind_pure, apply_whileChecking, hbegin, hend]

/-- A halted manager still applies decisions from outside, and tells nobody. -/
theorem Halted.apply (h : m.Halted) (now : Instant) (d : Decision) (treasury : Address)
    {m₁ : Manager σ τ} (hattach : (onLedger Access.attach).apply m = (.ok (), m₁)) :
    ∃ result m', (applyDecision now d treasury).apply m₁ = (result, m') ∧
      (perform now (.apply d treasury)).apply m = (result.map .outcome, m') ∧
      CountedUnder d m m' result ∧ m'.phase = .stopped ∧ m'.desk.notifier = m.desk.notifier := by
  have hattached : m.Steady m₁ := by
    have hsteady := steadyAt_iff.1 (steady_onLedger Access.attach m)
    rwa [hattach] at hsteady
  have hsteady := hattached.trans
    (steadyAt_iff.1 (steady_applyDecision now d treasury m₁))
  have hmetrics : m₁.desk.metrics = m.desk.metrics := by
    have hsame : ((onLedger Access.attach).apply m).2.desk.metrics = m.desk.metrics := rfl
    rwa [hattach] at hsame
  have hcounted := applyDecision_counted now d treasury m₁
  refine ⟨((applyDecision now d treasury).apply m₁).1, ((applyDecision now d treasury).apply m₁).2,
    rfl, ?_, ?_, hsteady.phase.trans h.phase, hsteady.notifier h.shut⟩
  · simp only [perform, applyAdjustment, apply_bind_pure]
    simp only [apply_bind, hattach]
  · unfold CountedUnder at hcounted ⊢
    rwa [hmetrics] at hcounted

theorem Halted.retired (h : m.Halted) : m.Retired where
  phase := h.phase
  start now := apply_start_of_stopped h.phase now
  force now limit := by
    simp only [perform, Manager.force, apply_bind, apply_get, if_pos h.phase]
    rfl
  check now := by
    simp only [perform, Manager.check, apply_bind, apply_get, if_pos h.phase]
    rfl
  subscribeUpdates := by
    simp only [Manager.turn, Visit.call, Channel.answer, Channel.subscribe_of_closed h.shut.updates]
  subscribeAdjustments := by
    simp only [Manager.turn, Visit.call, Channel.answer,
      Channel.subscribe_of_closed h.shut.adjustments]
  process := h.process
  apply now d treasury _ := h.apply now d treasury
  updates turns receiver i hstays hi := by
    have hstays' : .call (.unsubscribe receiver) ∉ turns.filterMap Turn.onUpdates? := by
      intro hmem
      obtain ⟨next, hnext, haction⟩ := List.mem_filterMap.1 hmem
      rw [Turn.eq_of_onUpdates? haction] at hnext
      exact hstays hnext
    simp only [updateReadings, h.replies_onUpdates turns] at hi ⊢
    exact Channel.readings_of_closed h.shut.updates hstays' i hi
  adjustments turns receiver i hstays hi := by
    have hstays' : .call (.unsubscribe receiver) ∉ turns.filterMap Turn.onAdjustments? := by
      intro hmem
      obtain ⟨next, hnext, haction⟩ := List.mem_filterMap.1 hmem
      rw [Turn.eq_of_onAdjustments? haction] at hnext
      exact hstays hnext
    simp only [adjustmentReadings, h.replies_onAdjustments turns] at hi ⊢
    exact Channel.readings_of_closed h.shut.adjustments hstays' i hi

end Retirement

/-- Between operations the manager is idle until it is stopped, however the operations end, and
stopped from then on. Until then, once a start has succeeded another does nothing, and as long as
none has, the source is asked to start. -/
theorem turns_lifecycle (settings : ManagerSettings) (access : Access σ) (source : τ)
    (turns : List (Turn σ τ)) :
    let m₀ := initial settings access source
    let m := m₀.after turns
    (¬ Stops turns → m.phase = .idle ∧
      (m₀.Starts turns → ∀ now, (perform now .start).apply m = (.ok .done, m)) ∧
      (¬ m₀.Starts turns → ∀ now, (perform now .start).apply m =
        match (DecisionSource.start : Act τ SourceError Unit).apply m.desk.source with
        | (.ok _, source) => (.ok .done, { m with desk.source := source, started := true })
        | (.error c, source) => (.error (.source c), { m with desk.source := source }))) ∧
    (Stops turns → m.Retired) := by
  intro m₀ m
  have hstands : m₀.Stands turns m := after_stands settings access source turns
  refine ⟨fun hrunning => ?_, fun hstopped => (hstands.halted hstopped).retired⟩
  have hidle := hstands.idle hrunning
  have hphase : m.phase ≠ .stopped := by
    rw [hidle]
    decide
  refine ⟨hidle, fun hstarts => ?_, fun hstarts => ?_⟩
  · exact apply_start_of_started hphase ((hstands.started hrunning).2 hstarts)
  · exact apply_start_of_not_started hphase (mt (hstands.started hrunning).1 hstarts)

/-- A manager on the ledger of `Genesis.sample`. -/
def sampleFresh : Manager OpenGate PegBand.State :=
  .initial .default Genesis.sampleAccess (.initial .default)

/-- Someone subscribes, and the manager is started and runs a cycle. -/
def sampleMorning : List (Turn OpenGate PegBand.State) :=
  [.atUpdates .subscribe, .operation ⟨0⟩ .start, .operation ⟨0⟩ .process]

def sampleDay : List (Turn OpenGate PegBand.State) := sampleMorning ++ [.operation ⟨1⟩ .stop]

def sampleNoon : Manager OpenGate PegBand.State :=
  @after _ _ Radix.digest _ _ sampleFresh sampleMorning

def sampleEvening : Manager OpenGate PegBand.State :=
  @after _ _ Radix.digest _ _ sampleFresh sampleDay

omit [Digest] in
/-- Another start changes nothing, and after the stop the update of the cycle is still there for the
subscriber. -/
theorem turns_lifecycle_day :
    ¬ Stops sampleMorning ∧ @Starts _ _ Radix.digest _ _ sampleFresh sampleMorning ∧
    (@perform _ _ Radix.digest _ _ ⟨1⟩ .start).apply sampleNoon = (.ok .done, sampleNoon) ∧
    Stops sampleDay ∧ (sampleEvening.desk.notifier.updates.queued 0).length = 1 ∧
    @Retired _ _ Radix.digest _ _ sampleEvening := by
  have hrunning : ¬ Stops sampleMorning := by
    rintro ⟨now, hmem⟩
    simp [sampleMorning] at hmem
  have hstarts : @Starts _ _ Radix.digest _ _ sampleFresh sampleMorning :=
    ⟨[.atUpdates .subscribe], ⟨0⟩, [.operation ⟨0⟩ .process], rfl, rfl⟩
  have hstopped : Stops sampleDay := ⟨⟨1⟩, by simp [sampleDay]⟩
  have hqueued : (sampleEvening.desk.notifier.updates.queued 0).length = 1 := by decide +kernel
  have hmorning := @turns_lifecycle _ _ Radix.digest _ _ .default Genesis.sampleAccess
    (.initial .default) sampleMorning
  have hday := @turns_lifecycle _ _ Radix.digest _ _ .default Genesis.sampleAccess
    (.initial .default) sampleDay
  exact ⟨hrunning, hstarts, (hmorning.1 hrunning).2.1 hstarts ⟨1⟩, hstopped, hqueued,
    hday.2 hstopped⟩

end Manager

end StableSupply
