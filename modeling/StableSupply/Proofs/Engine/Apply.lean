import StableSupply.Proofs.Engine.Carry
import StableSupply.Proofs.Ledger.Checkpoints
import StableSupply.Proofs.Slot.Radix
import StableSupply.Source.PegBand

/-! # Applying is all or nothing

An action that runs above a checkpoint and fails is undone (`atomically_ensures`), so an attempt
that does not apply its decision leaves the ledger's state, its checkpoints and the notifier as they
were (`apply_all_or_nothing`). Where a reversal is refused what is left is a part of an adjustment
(`apply_ensures`). -/

namespace StableSupply

/-- The gate refuses some reversal. -/
def Gate.RefusesReverts (σ : Type) [Gate σ] : Prop := ∃ id e, Gate.Refuses σ (.revert id) e

theorem Gate.ServesReverts.not_refusesReverts {σ : Type} [Gate σ] (h : ServesReverts σ) :
    ¬ RefusesReverts σ := by
  rintro ⟨id, e, hrefuses⟩
  exact h.not_refuses hrefuses

namespace Engine

open Gate

variable {σ τ ε α : Type} [Gate σ]

/-! ## Above a checkpoint -/

/-- An action above a checkpoint keeps what it did or, as far as reversals are served, leaves the
state as it was. -/
theorem atomically_ensures {act : Act (Access σ) ε α} {s : Access σ} {Q : α → State → Prop}
    {E : ε → State → Prop}
    (h : act.Ensures { s with ledger := s.ledger.checkpoint.2 }
      (fun a s' => s'.ledger.checkpoints = s.ledger.checkpoints ++ [s.ledger.state] ∧
        Q a s'.ledger.state)
      fun e s' => s'.ledger.checkpoints = s.ledger.checkpoints ++ [s.ledger.state] ∧
        E e s'.ledger.state) :
    (atomically act).Ensures s
      (fun a s' => s'.ledger.checkpoints = s.ledger.checkpoints ∧ Q a s'.ledger.state)
      fun e s' => (s.ledger.Agrees s'.ledger ∧ ∃ left, E e left) ∨
        RefusesReverts σ ∧ E e s'.ledger.state := by
  simp only [atomically, Act.ensures_bind, Access.ensures_checkpoint, Act.ensures_attempt]
  refine h.mono ?_ ?_
  · intro a s₁ h₁
    simp only [Access.ensures_discard, Act.ensures_pure]
    refine ⟨?_, h₁.2⟩
    rw [Ledger.discard, h₁.1, List.take_left]
  · intro e s₁ h₁
    simp only [Act.ensures_throw]
    have hid : s₁.ledger.checkpoints[s.ledger.checkpoints.length]? = some s.ledger.state := by
      rw [h₁.1, List.getElem?_concat_length]
    obtain ⟨r, hr, hstate, hcheckpoints⟩ := Ledger.revert_saved rfl hid
    refine (Access.revert_ensures _).mono ?_ ?_
    · intro _ s₂ h₂
      obtain rfl : r = s₂.ledger := Except.ok.inj (hr.symm.trans h₂)
      have hagrees : s.ledger.Agrees s₂.ledger := by
        refine ⟨hstate, ?_⟩
        rw [hcheckpoints, h₁.1, List.take_left]
      exact .inl ⟨hagrees, _, h₁.2⟩
    · intro c s₂ h₂
      rcases h₂.2 with hrefuses | herror
      · exact .inr ⟨⟨_, _, hrefuses⟩, h₂.1 ▸ h₁.2⟩
      · rw [hr] at herror
        cases herror

/-! ## Outcomes of an attempt -/

section Attempts

variable [Digest]

/-- The record is of the decision. -/
structure Records (d : Decision) (record : HistoryRecord) : Prop where
  kind : record.kind = d.kind
  supplyDelta : record.supplyDelta.toNat = d.supplyDelta.toNat
  counterpart : record.counterpart.toNat = d.counterpart.toNat
  claimedSupply : record.claimedSupply.toNat = d.resultingSupply.toNat
  deviationBps : record.deviationBps = d.deviationBps
  timestamp : record.timestamp = d.timestamp

/-- What an adjustment that stopped on the way leaves of it. The supply it was to lead to is no
lower than the minimum. -/
def LeavesPart (s s' : State) : Prop :=
  ∃ supply, (Slot.minimumSupply.word s ≤ Slot.currentSupply.word s →
    Slot.minimumSupply.word s ≤ supply) ∧ PartlyAdjusts supply s s'

/-- Nothing was applied, published or left behind. -/
structure Unapplied (desk desk' : Desk σ τ) : Prop where
  ledger : desk.access.ledger.Agrees desk'.access.ledger
  notifier : desk'.notifier = desk.notifier

omit [Gate σ] [Digest] in
theorem Unapplied.of_ledger {desk desk' : Desk σ τ}
    (hledger : desk'.access.ledger = desk.access.ledger)
    (hnotifier : desk'.notifier = desk.notifier) : Unapplied desk desk' :=
  ⟨⟨congrArg Ledger.state hledger, congrArg Ledger.checkpoints hledger⟩, hnotifier⟩

/-- The adjustment was applied and published. -/
structure Applied (d : Decision) (treasury : Address) (desk : Desk σ τ) (a : AppliedAdjustment)
    (desk' : Desk σ τ) : Prop where
  adjusts : Adjusts desk.access.ledger.state a desk'.access.ledger.state
  checkpoints : desk'.access.ledger.checkpoints = desk.access.ledger.checkpoints
  treasury : a.treasury = treasury
  records : Records d a.record
  notifier : desk'.notifier = (desk.notifier.publishAdjustment a).2

/-- What an attempt that ended with the outcome did. -/
def Ended (d : Decision) (treasury : Address) (desk desk' : Desk σ τ) : Outcome → Prop
  | .noChange => Unapplied desk desk'
  | .skipped _ => Unapplied desk desk'
  | .applied a => Applied d treasury desk a desk'

/-- What an attempt that failed did. -/
def EndedInError (desk desk' : Desk σ τ) : Prop :=
  Unapplied desk desk' ∨ RefusesReverts σ ∧ desk'.notifier = desk.notifier ∧
    LeavesPart desk.access.ledger.state desk'.access.ledger.state

variable [DecisionSource τ] {desk : Desk σ τ}

omit [Digest] [Gate σ] in
theorem ensures_askFeasible {moment : Moment} {d : Decision} {treasury minimum : Word}
    {Q : Feasibility → Desk σ τ → Prop} {E : ε → Desk σ τ → Prop} :
    (askFeasible moment d treasury minimum).Ensures desk Q E ↔
      Q (DecisionSource.feasible moment d treasury minimum desk.source).1
        { desk with
          source := (DecisionSource.feasible moment d treasury minimum desk.source).2 } := Iff.rfl

/-- An adjustment as a whole, from the ledger that its plan was made on. -/
theorem adjust_ensures {s : Access σ} {p : Plan} {d : Decision} {treasury : Address}
    (hkind : d.kind ≠ .none)
    (hp : p.Follows d treasury (s.ledger.state.balance treasury)
      (Slot.minimumSupply.word s.ledger.state) (Slot.currentSupply.word s.ledger.state)) :
    (atomically (carryOut p d treasury)).Ensures s
      (fun a s' => s'.ledger.checkpoints = s.ledger.checkpoints ∧
        Adjusts s.ledger.state a s'.ledger.state ∧ a.treasury = treasury ∧ Records d a.record)
      fun _ s' => s.ledger.Agrees s'.ledger ∨
        RefusesReverts σ ∧ LeavesPart s.ledger.state s'.ledger.state := by
  have hcarry : (carryOut p d treasury).Ensures { s with ledger := s.ledger.checkpoint.2 }
      (fun a s' => s'.ledger.checkpoints = s.ledger.checkpoints ++ [s.ledger.state] ∧
        Adjusts s.ledger.state a s'.ledger.state ∧ a.treasury = treasury ∧ Records d a.record)
      fun _ s' => s'.ledger.checkpoints = s.ledger.checkpoints ++ [s.ledger.state] ∧
        LeavesPart s.ledger.state s'.ledger.state := by
    refine (carryOut_ensures p d treasury (hp.kind ▸ hkind)).mono ?_ ?_
    · intro a s₁ h₁
      obtain ⟨after, n, hpays, hn, rfl, hl⟩ := h₁
      obtain ⟨hshifts, hadmissible⟩ := newSupply_eq_ok.1 hp.newSupply
      rw [← hp.kind] at hshifts
      refine ⟨by rw [hl]; rfl, ⟨hp.previousSupply, ?_, ?_, hp.treasuryBefore, ?_, hn, ?_⟩, rfl, ?_⟩
      · rw [hp.previousSupply]
        exact hshifts
      · intro hc
        have hcontraction : d.kind = .contraction := hp.kind ▸ hc
        rw [hcontraction] at hadmissible
        exact hadmissible.2
      · rw [hp.treasuryBefore]
        exact hpays
      · rw [hl]
        rfl
      · exact ⟨hp.kind, hp.supplyDelta, hp.counterpart, hp.claimedSupply, rfl, rfl⟩
    · intro e s₁ h₁
      exact ⟨h₁.1.1, p.newSupply, hp.floor, h₁.1.2⟩
  have hattempt := atomically_ensures
    (Q := fun a s' => Adjusts s.ledger.state a s' ∧ a.treasury = treasury ∧ Records d a.record)
    (E := fun _ s' => LeavesPart s.ledger.state s') hcarry
  refine hattempt.mono (fun a s₁ h₁ => h₁) ?_
  intro e s₁ h₁
  exact h₁.imp_left fun h => h.1

/-- How a call of the engine ends, before it is counted. -/
theorem applyUncounted_ensures (moment : Moment) (d : Decision) (treasury : Address) :
    (applyUncounted moment d treasury).Ensures desk
      (fun outcome desk' => Ended d treasury desk desk' outcome)
      fun _ desk' => EndedInError desk desk' := by
  unfold applyUncounted
  by_cases hhold : d.IsHold
  · rw [if_pos hhold]
    exact ⟨.rfl, rfl⟩
  rw [if_neg hhold]
  simp only [onLedger, Act.ensures_bind, Act.ensures_on, Act.ensures_failingWith,
    ensures_askFeasible]
  refine (Slot.read_ensures .minimumSupply).mono ?_ fun e s₁ h₁ => .inl (.of_ledger h₁.1 rfl)
  intro minimum s₁ h₁
  obtain ⟨hl₁, rfl⟩ := h₁
  refine (Access.balance_ensures treasury).mono ?_
    fun e s₂ h₂ => .inl (.of_ledger (h₂.1.trans hl₁) rfl)
  intro balance s₂ h₂
  obtain ⟨hl₂, rfl⟩ := h₂
  rw [hl₁] at hl₂
  split
  · exact .of_ledger hl₂ rfl
  · simp only [Act.ensures_bind, Act.ensures_on, Act.ensures_modify, Act.ensures_pure]
    refine (plan_ensures d treasury _ _).mono ?_
      fun e s₃ h₃ => .inl (.of_ledger (h₃.1.trans hl₂) rfl)
    intro p s₃ h₃
    obtain ⟨hl₃, hp⟩ := h₃
    rw [hl₂] at hl₃ hp
    rw [hl₁, ← hl₃] at hp
    refine (adjust_ensures hhold (planOf_eq_ok hp)).mono ?_ ?_
    · intro a s₄ h₄
      rw [hl₃] at h₄
      exact ⟨h₄.2.1, h₄.1, h₄.2.2.1, h₄.2.2.2, rfl⟩
    · intro e s₄ h₄
      rw [hl₃] at h₄
      rcases h₄ with hagrees | ⟨hrefuses, hpart⟩
      · exact .inl ⟨hagrees, rfl⟩
      · exact .inr ⟨hrefuses, rfl, hpart⟩

/-- Counting changes nothing of what an attempt did. -/
theorem apply_ensures (moment : Moment) (d : Decision) (treasury : Address) :
    (apply moment d treasury).Ensures desk
      (fun outcome desk' => Ended d treasury desk desk' outcome)
      fun _ desk' => EndedInError desk desk' := by
  simp only [apply, Act.ensures_bind, Act.ensures_attempt, Act.ensures_modify,
    Act.ensures_liftExcept]
  refine (applyUncounted_ensures moment d treasury).mono ?_ ?_
  · intro outcome desk₁ h₁
    cases outcome with
    | noChange => exact ⟨h₁.ledger, h₁.notifier⟩
    | skipped reason => exact ⟨h₁.ledger, h₁.notifier⟩
    | applied a => exact ⟨h₁.adjusts, h₁.checkpoints, h₁.treasury, h₁.records, h₁.notifier⟩
  · intro e desk₁ h₁
    exact h₁.imp_left fun h => ⟨h.ledger, h.notifier⟩

/-! ## Notes and counts -/

/-- An attempt that ended with the status was noted, with the adjustments it handed on, and
counted. -/
structure Counted (d : Decision) (desk : Desk σ τ) (handed : List AppliedAdjustment)
    (status : Status) (desk' : Desk σ τ) : Prop where
  trace : desk'.trace = handed.map .adjustment ++ .attempt d :: desk.trace
  adjustments : desk'.metrics.adjustments = (d.kind, status) :: desk.metrics.adjustments
  cycles : desk'.metrics.cycles = desk.metrics.cycles

/-- Nothing was noted or counted in between. -/
structure Silent (desk desk' : Desk σ τ) : Prop where
  trace : desk'.trace = desk.trace
  metrics : desk'.metrics = desk.metrics

omit [Digest] [Gate σ] [DecisionSource τ] in
/-- What works on the ledger alone is silent. -/
theorem ensures_onLedger_silent {desk₁ : Desk σ τ} (act : Act (Access σ) ε α)
    (h : Silent desk desk₁) :
    (onLedger act).Ensures desk₁ (fun _ desk₂ => Silent desk desk₂)
      fun _ desk₂ => Silent desk desk₂ := by
  rw [onLedger, Act.ensures_on]
  exact (Act.ensures_apply act _).mono (fun _ _ _ => ⟨h.trace, h.metrics⟩)
    fun _ _ _ => ⟨h.trace, h.metrics⟩

theorem applyUncounted_notes (moment : Moment) (d : Decision) (treasury : Address) :
    (applyUncounted moment d treasury).Ensures desk
      (fun outcome desk' =>
        desk'.trace = outcome.applied?.toList.map .adjustment ++ desk.trace ∧
        desk'.metrics.adjustments = desk.metrics.adjustments ∧
        desk'.metrics.cycles = desk.metrics.cycles)
      fun _ desk' => Silent desk desk' := by
  unfold applyUncounted
  by_cases hhold : d.IsHold
  · rw [if_pos hhold]
    exact ⟨rfl, rfl, rfl⟩
  rw [if_neg hhold]
  simp only [Act.ensures_bind, ensures_askFeasible]
  refine (ensures_onLedger_silent _ ⟨rfl, rfl⟩).mono ?_ fun _ _ h => h
  intro minimum desk₁ h₁
  refine (ensures_onLedger_silent _ h₁).mono ?_ fun _ _ h => h
  intro balance desk₂ h₂
  split
  · exact ⟨h₂.trace, congrArg (·.adjustments) h₂.metrics, congrArg (·.cycles) h₂.metrics⟩
  · simp only [Act.ensures_bind, Act.ensures_modify, Act.ensures_pure]
    have hasked (source : τ) : Silent desk { desk₂ with source } := ⟨h₂.trace, h₂.metrics⟩
    refine (ensures_onLedger_silent _ (hasked _)).mono ?_ fun _ _ h => h
    intro p desk₃ h₃
    refine (ensures_onLedger_silent _ h₃).mono ?_ fun _ _ h => h
    intro a desk₄ h₄
    exact ⟨congrArg (Occurrence.adjustment a :: ·) h₄.trace,
      congrArg (·.adjustments) h₄.metrics, congrArg (·.cycles) h₄.metrics⟩

/-- Every call of the engine is counted once, under the status of its outcome. -/
theorem apply_counted (moment : Moment) (d : Decision) (treasury : Address) :
    (apply moment d treasury).Ensures desk
      (fun outcome desk' => Counted d desk outcome.applied?.toList outcome.status desk')
      fun _ desk' => Counted d desk [] .failed desk' := by
  simp only [apply, Act.ensures_bind, Act.ensures_attempt, Act.ensures_modify,
    Act.ensures_liftExcept]
  refine (applyUncounted_notes moment d treasury).mono ?_ ?_
  · rintro outcome desk₁ ⟨htrace, hadjustments, hcycles⟩
    exact ⟨htrace, congrArg ((d.kind, outcome.status) :: ·) hadjustments, hcycles⟩
  · intro e desk₁ h₁
    have hadjustments : desk₁.metrics.adjustments = desk.metrics.adjustments :=
      congrArg (·.adjustments) h₁.metrics
    exact ⟨h₁.trace, congrArg ((d.kind, Status.failed) :: ·) hadjustments,
      congrArg (·.cycles) h₁.metrics⟩

/-! ## All or nothing -/

/-- Where reversals are served, an attempt leaves the stack of checkpoints as it was, and every
outstanding one still reverts to the state saved there. An attempt that did not apply the decision
changes nothing that can be read, nor the encoding that the root is the digest of, and publishes
nothing. -/
theorem apply_all_or_nothing (hserves : ServesReverts σ) (moment : Moment) (d : Decision)
    (treasury : Address) (desk desk' : Desk σ τ) (result : Except AdjustmentError Outcome)
    (h : (apply moment d treasury).apply desk = (result, desk')) :
    desk'.access.ledger.checkpoints = desk.access.ledger.checkpoints ∧
    (∀ id saved, desk.access.ledger.checkpoints[id]? = some saved →
      ∃ r, desk'.access.ledger.revert id = .ok r ∧ r.state = saved ∧
        r.checkpoints = desk.access.ledger.checkpoints.take id) ∧
    ((∀ a, result ≠ .ok (.applied a)) →
      (∀ account, desk'.access.ledger.state.balance account =
        desk.access.ledger.state.balance account) ∧
      (∀ owner key, desk'.access.ledger.state.slot owner key =
        desk.access.ledger.state.slot owner key) ∧
      desk'.access.ledger.state.encode = desk.access.ledger.state.encode ∧
      desk'.notifier = desk.notifier) := by
  have hended : (apply moment d treasury).Ensures desk _ _ := apply_ensures moment d treasury
  have hcases : Unapplied desk desk' ∨ ∃ a, result = .ok (.applied a) ∧
      desk'.access.ledger.checkpoints = desk.access.ledger.checkpoints := by
    cases result with
    | ok outcome =>
      have houtcome := hended.of_ok h
      cases outcome with
      | noChange => exact .inl houtcome
      | skipped reason => exact .inl houtcome
      | applied a => exact .inr ⟨a, rfl, houtcome.checkpoints⟩
    | error e =>
      rcases hended.of_error h with hkept | ⟨hrefuses, -⟩
      · exact .inl hkept
      · exact absurd hrefuses hserves.not_refusesReverts
  have hcheckpoints : desk'.access.ledger.checkpoints = desk.access.ledger.checkpoints := by
    rcases hcases with hkept | ⟨a, -, hsame⟩
    · exact hkept.ledger.checkpoints
    · exact hsame
  refine ⟨hcheckpoints, fun id saved hid => Ledger.revert_saved hcheckpoints hid, fun hnot => ?_⟩
  rcases hcases with hkept | ⟨a, ha, -⟩
  · have hstate := hkept.ledger.state
    refine ⟨fun account => ?_, fun owner key => ?_, ?_, hkept.notifier⟩
    · rw [hstate]
    · rw [hstate]
    · rw [hstate]
  · exact absurd ha (hnot a)

end Attempts

/-- A gate that serves so many writes to slots and then no more. -/
structure ScarceGate where
  writes : Nat

instance : Gate ScarceGate where
  check request g :=
    match request, g.writes with
    | .write .., 0 => (some "set refused", g)
    | .write .., n + 1 => (none, ⟨n⟩)
    | _, _ => (none, g)

/-- An expansion that the treasury can just pay for, above an outstanding checkpoint. Three writes
are served: the supply and two fields of the record. -/
def scarceDesk : Desk ScarceGate PegBand.State where
  access := { ledger := (Ledger.empty.setBalance (.system 7) (.ofUInt64 3)).checkpoint.2
              gate := ⟨3⟩ }
  source := .initial .default
  notifier := .ofCapacity 1
  metrics := .empty

/-- The expansion on `scarceDesk`. -/
def scarceAttempt : Except AdjustmentError Outcome × Desk ScarceGate PegBand.State :=
  (@apply _ _ Radix.digest _ _ ⟨⟨0⟩, .idle⟩
    ⟨.expansion, .ofWord (.ofUInt64 5), .ofWord (.ofUInt64 3), 0, .ofWord (.ofUInt64 5), 0⟩
    (.system 7)).apply scarceDesk

/-- The writes run out on the way, and the contraction is undone. -/
theorem apply_all_or_nothing_scarce :
    ServesReverts ScarceGate ∧
    scarceAttempt.1 = .error (.journal (.ledger (.unavailable "set refused"))) ∧
    scarceAttempt.2.access.ledger.checkpoints = scarceDesk.access.ledger.checkpoints ∧
    (∀ account, scarceAttempt.2.access.ledger.state.balance account =
      scarceDesk.access.ledger.state.balance account) ∧
    scarceAttempt.2.access.ledger.state.encode = scarceDesk.access.ledger.state.encode ∧
    scarceAttempt.2.notifier = scarceDesk.notifier := by
  have hserves : ServesReverts ScarceGate := fun _ _ => rfl
  have hresult : scarceAttempt.1 =
      .error (.journal (.ledger (.unavailable "set refused"))) := by decide +kernel
  have hall := @apply_all_or_nothing _ _ _ Radix.digest _ hserves _ _ _ scarceDesk
    scarceAttempt.2 scarceAttempt.1 (Prod.eta scarceAttempt).symm
  obtain ⟨hcheckpoints, -, hnothing⟩ := hall
  obtain ⟨hbalance, -, hencode, hnotifier⟩ := hnothing fun a => by rw [hresult]; nofun
  exact ⟨hserves, hresult, hcheckpoints, hbalance, hencode, hnotifier⟩

end Engine

end StableSupply
