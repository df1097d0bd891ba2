import StableSupply.Proofs.Engine.Apply

/-! # What the engine decides on

The outcome of an attempt follows from the decision, the source's verdict on it and the state of the
ledger (`Engine.apply_judges`): a decision to hold changes nothing, an infeasible one is skipped, and
a feasible one is applied if there is a plan for it and the journal has an index for its record.
Otherwise the attempt fails with the error that says which of the two is missing, or with that of a
refused request. -/

namespace StableSupply.Engine

open Gate

/-- The treasury can be charged or paid as the plan has it. -/
theorem Plan.Follows.pays {p : Plan} {d : Decision} {treasury : Address}
    {balance minimum supply : Word} (h : p.Follows d treasury balance minimum supply) :
    ∃ after, p.kind.Pays p.counterpart balance after := by
  obtain ⟨-, hadmissible⟩ := newSupply_eq_ok.1 h.newSupply
  rw [h.kind]
  cases hkind : d.kind with
  | none => exact ⟨balance, rfl⟩
  | expansion =>
    rw [hkind] at hadmissible
    have hle : p.counterpart.toNat ≤ balance.toNat := hadmissible
    have hlt := balance.isLt
    exact ⟨⟨balance.toNat - p.counterpart.toNat, by omega⟩, Nat.sub_add_cancel hle⟩
  | contraction =>
    rw [hkind] at hadmissible
    exact ⟨⟨balance.toNat + p.counterpart.toNat, hadmissible.1⟩, rfl⟩

variable [Digest]

/-! ## Verdicts -/

/-- The plan for a decision on a state. -/
def planIn (d : Decision) (treasury : Address) (s : State) : Except AdjustmentError Plan :=
  planOf d treasury (s.balance treasury) (Slot.minimumSupply.word s) (Slot.currentSupply.word s)

/-- What there is against a feasible decision: it has no plan, or its record no index. -/
inductive Rejects (d : Decision) (treasury : Address) (s : State) : AdjustmentError → Prop
  | unplanned {e : AdjustmentError} (h : planIn d treasury s = .error e) : Rejects d treasury s e
  | unrecorded {p : Plan} {after : Word} {c : JournalError} (hplan : planIn d treasury s = .ok p)
    (h : Journal.nextIndex journalAccount d.kind ((s.setBalance treasury after).setSlots
      [Slot.currentSupply.set p.newSupply]) = .error c) : Rejects d treasury s (.journal c)

/-- The outcome fits the decision, the verdict on it and the state. -/
inductive Grants (d : Decision) (treasury : Address) (s : State) : Feasibility → Outcome → Prop
  | held {verdict : Feasibility} (h : d.IsHold) : Grants d treasury s verdict .noChange
  | skipped {reason : String} (h : ¬ d.IsHold) :
    Grants d treasury s (.infeasible reason) (.skipped reason)
  | applied {p : Plan} {n : UInt64} {a : AppliedAdjustment} (h : ¬ d.IsHold)
    (hplan : planIn d treasury s = .ok p) (hrecord : a.record = recordOf p d n) :
    Grants d treasury s .feasible (.applied a)

theorem Grants.eq_noChange {d : Decision} {treasury : Address} {s : State} {verdict : Feasibility}
    {outcome : Outcome} (h : Grants d treasury s verdict outcome) (hhold : d.IsHold) :
    outcome = .noChange := by
  cases h with
  | held _ => rfl
  | skipped hnot => exact absurd hhold hnot
  | applied hnot _ _ => exact absurd hhold hnot

/-! ## Programs -/

variable {σ τ : Type} [Gate σ]

/-- Carrying out a plan fails for want of an index at most. -/
theorem adjust_judges {s : Access σ} {d : Decision} {treasury : Address} {p : Plan}
    (hhold : ¬ d.IsHold) (hplan : planIn d treasury s.ledger.state = .ok p) :
    (atomically (carryOut p d treasury)).Ensures s (fun a _ => ∃ n, a.record = recordOf p d n)
      fun e _ => Refused σ e ∨ Rejects d treasury s.ledger.state e := by
  have hp := planOf_eq_ok hplan
  have hcarry : (carryOut p d treasury).Ensures { s with ledger := s.ledger.checkpoint.2 }
      (fun a s' => s'.ledger.checkpoints = s.ledger.checkpoints ++ [s.ledger.state] ∧
        ∃ n, a.record = recordOf p d n)
      fun e s' => s'.ledger.checkpoints = s.ledger.checkpoints ++ [s.ledger.state] ∧
        (Refused σ e ∨ Rejects d treasury s.ledger.state e) := by
    refine (carryOut_ensures p d treasury (hp.kind ▸ hhold)).mono ?_ ?_
    · rintro a s₁ ⟨after, n, _, _, ha, hl⟩
      exact ⟨by rw [hl]; rfl, n, by rw [ha]⟩
    · rintro e s₁ ⟨⟨hcheckpoints, _⟩, he⟩
      refine ⟨hcheckpoints, ?_⟩
      rcases he with hrefused | hunpaid | ⟨after, c, hc, rfl⟩
      · exact .inl hrefused
      · exact absurd hp.pays hunpaid
      · exact .inr (.unrecorded hplan (hp.kind ▸ hc))
  refine (atomically_ensures (Q := fun a _ => ∃ n, a.record = recordOf p d n)
    (E := fun e _ => Refused σ e ∨ Rejects d treasury s.ledger.state e) hcarry).mono ?_ ?_
  · intro a _ h
    exact h.2
  · intro e _ h
    rcases h with ⟨-, -, he⟩ | ⟨-, he⟩
    · exact he
    · exact he

variable [DecisionSource τ]

/-- The source's verdict on a decision for the treasury's balance and the minimum in the state. -/
def verdict (moment : Moment) (d : Decision) (treasury : Address) (s : State) (source : τ) :
    Feasibility :=
  (DecisionSource.feasible moment d (s.balance treasury) (Slot.minimumSupply.word s) source).1

theorem applyUncounted_judges (moment : Moment) (d : Decision) (treasury : Address)
    (desk : Desk σ τ) :
    (applyUncounted moment d treasury).Ensures desk
      (fun outcome _ => Grants d treasury desk.access.ledger.state
        (verdict moment d treasury desk.access.ledger.state desk.source) outcome)
      fun e _ => Refused σ e ∨ ¬ d.IsHold ∧
        verdict moment d treasury desk.access.ledger.state desk.source = .feasible ∧
        Rejects d treasury desk.access.ledger.state e := by
  unfold applyUncounted
  by_cases hhold : d.IsHold
  · rw [if_pos hhold]
    exact .held hhold
  rw [if_neg hhold]
  simp only [onLedger, Act.ensures_bind, Act.ensures_on, Act.ensures_failingWith,
    ensures_askFeasible]
  refine (Slot.read_ensures .minimumSupply).mono ?_ fun e s₁ h₁ => .inl (.inl ⟨e, rfl, h₁.2⟩)
  intro minimum s₁ h₁
  obtain ⟨hl₁, rfl⟩ := h₁
  refine (Access.balance_ensures treasury).mono ?_ fun e s₂ h₂ => .inl (.inl ⟨e, rfl, h₂.2⟩)
  intro balance s₂ h₂
  obtain ⟨hl₂, rfl⟩ := h₂
  rw [hl₁] at hl₂ ⊢
  have hverdict : verdict moment d treasury desk.access.ledger.state desk.source =
    (DecisionSource.feasible moment d (desk.access.ledger.state.balance treasury)
      (Slot.minimumSupply.word desk.access.ledger.state) desk.source).1 := rfl
  split
  · next reason hreason =>
    rw [hverdict, hreason]
    exact .skipped hhold
  · next hfeasible =>
    rw [hverdict, hfeasible]
    simp only [Act.ensures_bind, Act.ensures_on, Act.ensures_modify, Act.ensures_pure]
    refine (plan_ensures d treasury _ _).mono ?_ ?_
    · intro p s₃ h₃
      obtain ⟨hl₃, hp⟩ := h₃
      rw [hl₂] at hl₃ hp
      have hplan : planIn d treasury s₃.ledger.state = .ok p := by
        rw [hl₃]
        exact hp
      refine (adjust_judges hhold hplan).mono ?_ ?_
      · rintro a s₄ ⟨n, ha⟩
        exact .applied hhold hp ha
      · intro e s₄ h₄
        rw [hl₃] at h₄
        exact h₄.imp_right fun h => ⟨hhold, trivial, h⟩
    · intro e s₃ h₃
      refine h₃.2.imp_right fun h => ⟨hhold, trivial, .unplanned ?_⟩
      rw [hl₂] at h
      exact h

/-- The outcome is the one that the source's verdict grants, and a failure is a refusal or a
rejection. -/
theorem apply_judges (moment : Moment) (d : Decision) (treasury : Address) (desk : Desk σ τ) :
    (apply moment d treasury).Ensures desk
      (fun outcome _ => Grants d treasury desk.access.ledger.state
        (verdict moment d treasury desk.access.ledger.state desk.source) outcome)
      fun e _ => Refused σ e ∨ ¬ d.IsHold ∧
        verdict moment d treasury desk.access.ledger.state desk.source = .feasible ∧
        Rejects d treasury desk.access.ledger.state e := by
  simp only [apply, Act.ensures_bind, Act.ensures_attempt, Act.ensures_modify,
    Act.ensures_liftExcept]
  exact (applyUncounted_judges moment d treasury _).mono (fun _ _ h => h) fun _ _ h => h

end StableSupply.Engine
