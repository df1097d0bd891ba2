import StableSupply.Proofs.Genesis
import StableSupply.Proofs.Manager.Run
import StableSupply.Simulation.Faults

/-! # The supply never falls below its minimum

From a ledger that genesis has seeded, no sequence of operations takes the supply below the minimum,
and none touches the minimum itself (`Manager.run_floor`). Nothing is asked of the source, whose
decisions and verdicts on them are arbitrary, or of the gate: the floor also holds where an
adjustment fails and its reversal is refused. -/

namespace StableSupply

open Engine Gate

section Runs

variable {σ τ : Type} [Digest] [Gate σ]

/-- The minimum is in its slot, and the supply is no lower. -/
structure Floored (minimum : Word) (s : State) : Prop where
  held : Slot.minimumSupply.word s = minimum
  floor : minimum ≤ Slot.currentSupply.word s

namespace Floored

variable {token : StableToken} {minimum : Word} {s s' : State} {as : List AppliedAdjustment}

/-- Genesis leaves the supply no lower than its minimum. -/
theorem of_seeded (h : Seeded token s) : Floored token.minimumSupply s :=
  ⟨h.minimumSupply, h.currentSupply.symm ▸ h.floor⟩

/-- An expansion only raises the supply, and a contraction was checked against the minimum. -/
theorem floor_adjusts (hsep : Digest.Separates token) {a : AppliedAdjustment}
    (h : Floored minimum s) (ha : Adjusts s a s') : minimum ≤ Slot.currentSupply.word s' := by
  rw [ha.word_currentSupply hsep]
  have hshifts := ha.supply
  rw [ha.previousSupply] at hshifts
  have hfloor : minimum.toNat ≤ (Slot.currentSupply.word s).toNat := h.floor
  cases hkind : a.record.kind with
  | none => exact absurd hkind ha.enters.kind_ne_none
  | expansion =>
    rw [hkind] at hshifts
    have hsum : a.record.resultingSupply.toNat =
        (Slot.currentSupply.word s).toNat + a.record.supplyDelta.toNat := hshifts
    show minimum.toNat ≤ a.record.resultingSupply.toNat
    omega
  | contraction => exact h.held ▸ ha.floor hkind

/-- What an adjustment leaves that stopped on the way is the old supply or an admissible new one. -/
theorem floor_leavesPart (hsep : Digest.Separates token) (h : Floored minimum s)
    (hpart : LeavesPart s s') : minimum ≤ Slot.currentSupply.word s' := by
  obtain ⟨supply, hadmissible, hpart⟩ := hpart
  rcases hpart.word_currentSupply hsep with hold | hnew
  · rw [hold]
    exact h.floor
  · rw [hnew, ← h.held]
    exact hadmissible (h.held.symm ▸ h.floor)

/-- No step takes the supply below the minimum. -/
theorem step (hsep : Digest.Separates token) (hstep : Step σ s as s') (h : Floored minimum s) :
    Floored minimum s' := by
  refine ⟨?_, ?_⟩
  · rw [hstep.word_of_ne hsep Slot.inUse_minimumSupply (by decide) (by decide) (by decide), h.held]
  · cases hstep with
    | observed hslot =>
      rw [Slot.word_observed hsep hslot Slot.inUse_currentSupply (by decide)]
      exact h.floor
    | applied ha => exact h.floor_adjusts hsep ha
    | left _ hpart => exact h.floor_leavesPart hsep hpart

theorem course (hsep : Digest.Separates token) (hcourse : Course σ s as s')
    (h : Floored minimum s) : Floored minimum s' := by
  induction hcourse with
  | rest => exact h
  | step hstep _ ih => exact ih (h.step hsep hstep)

end Floored

/-- After every run of operations that starts in the state that genesis left, the minimum is the one
of genesis and the supply is no lower. The gate of genesis may be another than the manager's, and
the ledger may have been committed since. -/
theorem Manager.run_floor {ρ : Type} [Gate ρ] [DecisionSource τ] {accounts : Genesis.Accounts}
    {value : ValueToken} {stable : StableToken} {staking : Staking} {now : UInt64}
    {before after : Access ρ} {report : Genesis.Report} (hsep : Digest.Separates stable)
    (hgenesis : (Genesis.run accounts value stable staking now).apply before =
      (.ok report, after))
    (m : Manager σ τ) (hm : m.state = after.ledger.state) (events : List (Event σ τ)) :
    Slot.minimumSupply.word (m.run events).2.state = stable.minimumSupply ∧
    Slot.minimumSupply.word (m.run events).2.state ≤
      Slot.currentSupply.word (m.run events).2.state := by
  have hseeded : Seeded stable m.state := hm ▸ Genesis.seeded_of_run hsep hgenesis
  have hfloored := (Floored.of_seeded hseeded).course hsep (m.run_course events)
  exact ⟨hfloored.held, hfloored.held ▸ hfloored.floor⟩

end Runs

/-- A manager on the ledger of `Genesis.sample` that refuses reversals and, after two writes, all
further ones. -/
def Manager.unruly : Manager Simulation.FaultGate PegBand.State :=
  .initial .default
    ⟨Genesis.sampleAccess.ledger, { Simulation.FaultGate.initial with
      faults := { revert := true, writeBudget := some 2 } }⟩
    (.initial .default)

/-- A contraction by five tokens is applied to it. -/
def Manager.unrulyRun : List AppliedAdjustment × Manager Simulation.FaultGate PegBand.State :=
  @run _ _ Radix.digest _ _ unruly
    [.operation ⟨0⟩ (.apply ⟨.contraction, .ofWord (units 5), .zero, 0, .ofWord (units 999995), 0⟩
      Genesis.sampleAccounts.treasury)]

/-- The contraction stops on the way and is not undone. -/
theorem Manager.run_floor_unruly :
    unrulyRun.1 = [] ∧
    @Slot.word Radix.digest .currentSupply unrulyRun.2.state = units 999995 ∧
    @Slot.word Radix.digest .minimumSupply unrulyRun.2.state = units 1 ∧
    @Slot.word Radix.digest .minimumSupply unrulyRun.2.state ≤
      @Slot.word Radix.digest .currentSupply unrulyRun.2.state := by
  have hnone : unrulyRun.1 = [] := by decide +kernel
  have hsupply : @Slot.word Radix.digest .currentSupply unrulyRun.2.state = units 999995 := by
    decide +kernel
  have hstate : unruly.state = Genesis.sampleAccess.ledger.state := by
    simp only [state, unruly, initial]
  have hfloor := @run_floor _ _ Radix.digest _ _ _ _ _ _ _ _ _ _ _ _ Radix.separates
    Genesis.sample_apply unruly hstate
    [.operation ⟨0⟩ (.apply ⟨.contraction, .ofWord (units 5), .zero, 0, .ofWord (units 999995), 0⟩
      Genesis.sampleAccounts.treasury)]
  exact ⟨hnone, hsupply, hfloor.1, hfloor.2⟩

end StableSupply
