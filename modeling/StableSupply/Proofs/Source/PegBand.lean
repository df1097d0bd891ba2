import StableSupply.Proofs.Act
import StableSupply.Source.PegBand

/-! # What the peg band decides

Where the greatest step is no more than the whole supply and neither the target nor the price is
zero, the controller comes to a decision (`PegBand.decide_decides`): no amount on the way outgrows
its 512 bits. The change is then a part of the supply, and the supply that the decision expects is
the present one moved by exactly that change. -/

namespace StableSupply.PegBand

/-! ## Amounts -/

/-- A step is a share of the supply no greater than the greatest one. -/
theorem step_le (maxStepBps deviationSize volatility : Nat) :
    step maxStepBps deviationSize volatility ≤ maxStepBps := by
  have hdamping : 200 - min volatility 100 ≤ 200 := Nat.sub_le ..
  have hcapped : min deviationSize maxStepBps * (200 - min volatility 100) ≤ maxStepBps * 200 :=
    Nat.mul_le_mul (Nat.min_le_right ..) hdamping
  refine Nat.div_le_of_le_mul ?_
  rw [Nat.mul_comm 200]
  exact Nat.le_trans (Nat.mod_le ..) hcapped

theorem wide_of_lt {n : Nat} (h : n < 2 ^ 256 * 2 ^ 256) : wide n = .ok ⟨n, h⟩ := by
  rw [wide, Wide.ofNat?, dif_pos h]

/-- The change of the supply for the deviation that the controller sees. -/
def State.supplyDelta (s : State) (supply : Word) (volatility : Nat) : Nat :=
  supply.toNat * step s.band.maxStepBps.toNat (deviationSize s.current s.target) volatility / 10000

theorem State.supplyDelta_le {s : State} (hstep : s.band.maxStepBps.toNat ≤ 10000) (supply : Word)
    (volatility : Nat) : s.supplyDelta supply volatility ≤ supply.toNat := by
  refine Nat.div_le_of_le_mul ?_
  rw [Nat.mul_comm]
  exact Nat.mul_le_mul_right _ (Nat.le_trans (step_le ..) hstep)

/-! ## Decisions -/

/-- The decision adjusts the supply for the deviation that the controller sees. -/
structure Adjusts (s : State) (timestamp : UInt64) (supply price : Word) (volatility : Nat)
    (d : Decision) : Prop where
  kind : d.kind = if 0 < deviation s.current s.target then .expansion else .contraction
  supplyDelta : d.supplyDelta.toNat = s.supplyDelta supply volatility
  counterpart : d.counterpart.toNat =
    s.supplyDelta supply volatility * s.target.toNat / price.toNat
  deviationBps : d.deviationBps = .ofInt (deviation s.current s.target)
  resultingSupply : d.resultingSupply.toNat =
    if 0 < deviation s.current s.target then supply.toNat + s.supplyDelta supply volatility
    else supply.toNat - s.supplyDelta supply volatility
  timestamp : d.timestamp = timestamp

theorem adjust_adjusts {s : State} (hstep : s.band.maxStepBps.toNat ≤ 10000) (timestamp : UInt64)
    (supply price : Word) (volatility : Nat) :
    ∃ d, adjust s timestamp supply price volatility = .ok d ∧
      Adjusts s timestamp supply price volatility d := by
  have hsupply : supply.toNat < 2 ^ 256 := supply.isLt
  have htarget : s.target.toNat < 2 ^ 256 := s.target.isLt
  have hbps : step s.band.maxStepBps.toNat (deviationSize s.current s.target) volatility ≤ 10000 :=
    Nat.le_trans (step_le ..) hstep
  have hdelta : s.supplyDelta supply volatility ≤ supply.toNat := s.supplyDelta_le hstep ..
  have hproduct : supply.toNat * step s.band.maxStepBps.toNat (deviationSize s.current s.target)
      volatility < 2 ^ 256 * 2 ^ 256 :=
    Nat.mul_lt_mul_of_lt_of_le hsupply (Nat.le_trans hbps (by decide)) (by decide)
  have hworth : s.supplyDelta supply volatility * s.target.toNat < 2 ^ 256 * 2 ^ 256 :=
    Nat.mul_lt_mul_of_lt_of_le (Nat.lt_of_le_of_lt hdelta hsupply) (Nat.le_of_lt htarget)
      (by decide)
  have hcounterpart : s.supplyDelta supply volatility * s.target.toNat / price.toNat <
      2 ^ 256 * 2 ^ 256 := Nat.lt_of_le_of_lt (Nat.div_le_self ..) hworth
  have hresult : (if 0 < deviation s.current s.target then
        supply.toNat + s.supplyDelta supply volatility
      else supply.toNat - s.supplyDelta supply volatility) < 2 ^ 256 * 2 ^ 256 := by
    split <;> omega
  have hshare : s.supplyDelta supply volatility < 2 ^ 256 * 2 ^ 256 := by omega
  unfold adjust
  simp only [wide_of_lt hproduct, bind, Except.bind]
  simp only [State.supplyDelta] at hshare hworth hcounterpart hresult
  simp only [wide_of_lt hshare, wide_of_lt hworth, wide_of_lt hcounterpart, wide_of_lt hresult]
  exact ⟨_, rfl, rfl, rfl, rfl, rfl, rfl, rfl⟩

/-- What the controller decides: to leave the supply alone within the dead band, else to adjust it. -/
def Decides (s : State) (timestamp : UInt64) (supply price : Word) (volatility : Nat)
    (d : Decision) : Prop :=
  if deviationSize s.current s.target ≤ s.band.deadbandBps.toNat then
    d = .hold supply (.ofInt (deviation s.current s.target)) timestamp
  else Adjusts s timestamp supply price volatility d

theorem decide_decides {s : State} (hstep : s.band.maxStepBps.toNat ≤ 10000)
    (htarget : ¬ s.target.IsZero) {price : Word} (hprice : ¬ price.IsZero) (moment : Moment)
    (supply : Word) (volatility : UInt8) :
    ∃ d damping, (decide moment supply price volatility).apply s = (.ok d, { s with damping }) ∧
      Decides s moment.now.unixSeconds supply price volatility.toNat d := by
  unfold Decides
  simp only [decide, Act.apply_bind, Act.apply_get, if_neg htarget, if_neg hprice]
  split
  · exact ⟨_, 0, rfl, rfl⟩
  · obtain ⟨d, hd, hadjusts⟩ := adjust_adjusts hstep moment.now.unixSeconds supply price
      volatility.toNat
    refine ⟨d, min volatility.toNat 100, ?_, hadjusts⟩
    rw [hd]
    rfl

/-- What the scheduler is doing does not matter to the controller. -/
theorem decide_congr {moment moment' : Moment} (h : moment.now = moment'.now) :
    decide moment = decide moment' := by
  unfold decide
  rw [h]

/-- The supply that the decision expects is the given one, moved by the decision's change. -/
structure Foresees (supply : Word) (d : Decision) : Prop where
  supplyDelta_le : d.supplyDelta.toNat ≤ supply.toNat
  expansion : d.kind = .expansion →
    d.resultingSupply.toNat = supply.toNat + d.supplyDelta.toNat
  contraction : d.kind = .contraction →
    d.resultingSupply.toNat + d.supplyDelta.toNat = supply.toNat

theorem Decides.foresees {s : State} {timestamp : UInt64} {supply price : Word} {volatility : Nat}
    {d : Decision} (h : Decides s timestamp supply price volatility d)
    (hstep : s.band.maxStepBps.toNat ≤ 10000) : Foresees supply d := by
  unfold Decides at h
  split at h
  · subst h
    exact ⟨Nat.zero_le _, nofun, nofun⟩
  · have hdelta := s.supplyDelta_le hstep supply volatility
    rw [← h.supplyDelta] at hdelta
    have hkind := h.kind
    have hresult := h.resultingSupply
    rw [← h.supplyDelta] at hresult
    split at hkind
    · next hexpands =>
      rw [if_pos hexpands] at hresult
      refine ⟨hdelta, fun _ => hresult, fun hcontracts => ?_⟩
      rw [hkind] at hcontracts
      cases hcontracts
    · next hcontracts =>
      rw [if_neg hcontracts] at hresult
      refine ⟨hdelta, fun hexpands => ?_, fun _ => by omega⟩
      rw [hkind] at hexpands
      cases hexpands

end StableSupply.PegBand
