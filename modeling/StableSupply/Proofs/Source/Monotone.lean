import Mathlib.Algebra.Order.Ring.Int
import Mathlib.Order.Monotone.Odd
import StableSupply.Proofs.Source.Figures

/-! # The controller is monotone

The deviation rises with the current value and falls with the target (`PegBand.deviation_mono`,
`PegBand.deviation_anti`), and the supply that a decision expects is moved by a change that depends
on the deviation alone, is odd in it and rises with it (`PegBand.signedChange_mono`). So the expected
supply rises with the value and falls with the target, across the dead band and the greatest step.
The size of the change falls with the volatility, and the counterpart with the price as well
(`PegBand.decide_monotone`). -/

namespace StableSupply.PegBand

/-! ## Deviations -/

section Deviations

variable {current current' target target' : Word}

theorem deviationSize_of_le (h : target ≤ current) : deviationSize current target =
    min ((current.toNat - target.toNat) * 10000 / target.toNat) (2 ^ 63 - 1) := by
  rw [deviationSize, Nat.sub_eq_zero_of_le h, Nat.add_zero]

theorem deviationSize_of_not_le (h : ¬ target ≤ current) : deviationSize current target =
    min ((target.toNat - current.toNat) * 10000 / target.toNat) (2 ^ 63 - 1) := by
  have hle : current.toNat ≤ target.toNat := Nat.le_of_not_le h
  rw [deviationSize, Nat.sub_eq_zero_of_le hle, Nat.zero_add]

/-- A deviation below is no greater than one above. -/
theorem neg_deviationSize_le (current current' target target' : Word) :
    -(deviationSize current target : Int) ≤ deviationSize current' target' := by omega

theorem deviation_mono (target : Word) (h : current ≤ current') :
    deviation current target ≤ deviation current' target := by
  have hle : current.toNat ≤ current'.toNat := h
  unfold deviation
  by_cases habove : target ≤ current
  · have habove' : target ≤ current' := Nat.le_trans habove h
    rw [if_pos habove, if_pos habove', deviationSize_of_le habove, deviationSize_of_le habove']
    have hscaled : (current.toNat - target.toNat) * 10000 ≤
        (current'.toNat - target.toNat) * 10000 :=
      Nat.mul_le_mul_right _ (Nat.sub_le_sub_right hle _)
    have hdiv := Nat.div_le_div_right (c := target.toNat) hscaled
    omega
  rw [if_neg habove]
  by_cases habove' : target ≤ current'
  · rw [if_pos habove']
    exact neg_deviationSize_le ..
  · rw [if_neg habove', deviationSize_of_not_le habove, deviationSize_of_not_le habove']
    have hscaled : (target.toNat - current'.toNat) * 10000 ≤
        (target.toNat - current.toNat) * 10000 :=
      Nat.mul_le_mul_right _ (Nat.sub_le_sub_left hle _)
    have hdiv := Nat.div_le_div_right (c := target.toNat) hscaled
    omega

/-- What is missing to a target is no smaller a share of a greater target. -/
theorem shortfall_mono {current target target' : Nat} (hpos : 0 < target) (h : target ≤ target')
    (hbelow : current ≤ target) :
    (target - current) * 10000 / target ≤ (target' - current) * 10000 / target' := by
  have hshare : (target - current) * 10000 / target ≤ 10000 :=
    Nat.div_le_of_le_mul (Nat.mul_le_mul_right _ (Nat.sub_le ..))
  rw [Nat.le_div_iff_mul_le (Nat.lt_of_lt_of_le hpos h)]
  calc
    (target - current) * 10000 / target * target'
    _ = (target - current) * 10000 / target * target +
        (target - current) * 10000 / target * (target' - target) := by
      rw [← Nat.mul_add, Nat.add_sub_cancel' h]
    _ ≤ (target - current) * 10000 + 10000 * (target' - target) :=
      Nat.add_le_add (Nat.div_mul_le_self ..) (Nat.mul_le_mul_right _ hshare)
    _ = (target' - current) * 10000 := by omega

theorem deviation_anti (current : Word) (hpos : ¬ target.IsZero) (h : target ≤ target') :
    deviation current target' ≤ deviation current target := by
  have hle : target.toNat ≤ target'.toNat := h
  have hpos' : 0 < target.toNat := Nat.pos_of_ne_zero hpos
  unfold deviation
  by_cases habove' : target' ≤ current
  · have habove : target ≤ current := Nat.le_trans h habove'
    rw [if_pos habove, if_pos habove', deviationSize_of_le habove, deviationSize_of_le habove']
    have hscaled : (current.toNat - target'.toNat) * 10000 ≤
        (current.toNat - target.toNat) * 10000 :=
      Nat.mul_le_mul_right _ (Nat.sub_le_sub_left hle _)
    have hdiv := Nat.div_le_div hscaled hle hpos
    omega
  rw [if_neg habove']
  by_cases habove : target ≤ current
  · rw [if_pos habove]
    exact neg_deviationSize_le ..
  · rw [if_neg habove, deviationSize_of_not_le habove, deviationSize_of_not_le habove']
    have hdiv := shortfall_mono hpos' hle (Nat.le_of_not_le habove)
    omega

end Deviations

/-! ## Changes of the supply -/

section Changes

variable {band : PegBand} (hstep : band.maxStepBps.toNat ≤ 10000) (supply volatility : Nat)

/-- What the supply is moved by for a deviation of this size. -/
def change (band : PegBand) (supply volatility deviationSize : Nat) : Nat :=
  if deviationSize ≤ band.deadbandBps.toNat then 0
  else supply * step band.maxStepBps.toNat deviationSize volatility / 10000

/-- The same with the direction of the deviation. -/
def signedChange (band : PegBand) (supply volatility : Nat) (deviation : Int) : Int :=
  deviation.sign * band.change supply volatility deviation.natAbs

theorem change_zero : band.change supply volatility 0 = 0 := if_pos (Nat.zero_le _)

include hstep in
theorem change_mono {size size' : Nat} (h : size ≤ size') :
    band.change supply volatility size ≤ band.change supply volatility size' := by
  unfold change
  by_cases hheld : size ≤ band.deadbandBps.toNat
  · rw [if_pos hheld]
    exact Nat.zero_le _
  have hheld' : ¬ size' ≤ band.deadbandBps.toNat := fun hle => hheld (Nat.le_trans h hle)
  rw [if_neg hheld, if_neg hheld', step_eq hstep, step_eq hstep]
  refine Nat.div_le_div_right (Nat.mul_le_mul_left _ (Nat.div_le_div_right ?_))
  exact Nat.mul_le_mul_right _ (by omega)

include hstep in
theorem change_anti {volatility volatility' : Nat} (h : volatility ≤ volatility') (size : Nat) :
    band.change supply volatility' size ≤ band.change supply volatility size := by
  unfold change
  split
  · exact Nat.le_refl _
  · rw [step_eq hstep, step_eq hstep]
    refine Nat.div_le_div_right (Nat.mul_le_mul_left _ (Nat.div_le_div_right ?_))
    exact Nat.mul_le_mul_left _ (by omega)

theorem signedChange_neg (deviation : Int) :
    band.signedChange supply volatility (-deviation) =
      -band.signedChange supply volatility deviation := by
  rw [signedChange, signedChange, Int.sign_neg, Int.natAbs_neg, Int.neg_mul]

theorem signedChange_of_nonneg {deviation : Int} (h : 0 ≤ deviation) :
    band.signedChange supply volatility deviation =
      band.change supply volatility deviation.natAbs := by
  rcases Int.lt_or_eq_of_le h with hpos | rfl
  · rw [signedChange, Int.sign_eq_one_of_pos hpos, Int.one_mul]
  · rw [signedChange, Int.natAbs_zero, change_zero]
    rfl

include hstep in
theorem signedChange_mono {deviation deviation' : Int} (h : deviation ≤ deviation') :
    band.signedChange supply volatility deviation ≤
      band.signedChange supply volatility deviation' := by
  refine monotone_of_odd_of_monotoneOn_nonneg (signedChange_neg supply volatility) ?_ h
  intro x hx y hy hxy
  have hx' : 0 ≤ x := hx
  have hsize : x.natAbs ≤ y.natAbs := by omega
  rw [signedChange_of_nonneg _ _ hx', signedChange_of_nonneg _ _ hy]
  exact Int.ofNat_le.2 (change_mono hstep supply volatility hsize)

end Changes

/-! ## Decisions -/

section Decisions

variable {s s' : State} {timestamp : UInt64} {supply price price' : Word} {volatility : Nat}
  {d d' : Decision}

theorem Decides.supplyDelta_eq (h : Decides s timestamp supply price volatility d) :
    d.supplyDelta.toNat =
      s.band.change supply.toNat volatility (deviationSize s.current s.target) := by
  unfold change
  rcases h.cases with ⟨hheld, hd⟩ | ⟨hout, hadjusts⟩
  · rw [if_pos hheld, hd]
    rfl
  · rw [if_neg (Nat.not_le.2 hout), hadjusts.supplyDelta]
    rfl

theorem Decides.counterpart_eq (h : Decides s timestamp supply price volatility d) :
    d.counterpart.toNat = d.supplyDelta.toNat * s.target.toNat / price.toNat := by
  rcases h.cases with ⟨-, hd⟩ | ⟨-, hadjusts⟩
  · rw [hd]
    show 0 = 0 * s.target.toNat / price.toNat
    rw [Nat.zero_mul, Nat.zero_div]
  · rw [hadjusts.counterpart, hadjusts.supplyDelta]

/-- The expected supply is the present one, moved by the change in the direction of the
deviation. -/
theorem Decides.resultingSupply_eq (h : Decides s timestamp supply price volatility d)
    (hstep : s.band.maxStepBps.toNat ≤ 10000) :
    (d.resultingSupply.toNat : Int) = supply.toNat +
      s.band.signedChange supply.toNat volatility (deviation s.current s.target) := by
  have hforesees := h.foresees hstep
  rw [signedChange, natAbs_deviation, ← h.supplyDelta_eq]
  rcases h.cases with ⟨-, hd⟩ | ⟨hout, hadjusts⟩
  · rw [hd]
    show (supply.toNat : Int) = supply.toNat + (deviation s.current s.target).sign * (0 : Nat)
    omega
  have hkind := hadjusts.kind
  split at hkind
  · next hpos =>
    rw [Int.sign_eq_one_of_pos hpos, hforesees.expansion hkind]
    omega
  · next hnot =>
    have habs := natAbs_deviation s.current s.target
    have hneg : deviation s.current s.target < 0 := by omega
    have hresult := hforesees.contraction hkind
    rw [Int.sign_eq_neg_one_of_neg hneg]
    omega

/-- The kind is a matter of the deviation and the dead band. -/
theorem Decides.kind_eq (h : Decides s timestamp supply price volatility d) :
    d.kind =
      if deviationSize s.current s.target ≤ s.band.deadbandBps.toNat then .none
      else if 0 < deviation s.current s.target then .expansion
      else .contraction := by
  rcases h.cases with ⟨hheld, hd⟩ | ⟨hout, hadjusts⟩
  · rw [if_pos hheld, hd]
    rfl
  · rw [if_neg (Nat.not_le.2 hout), hadjusts.kind]

theorem resultingSupply_mono {timestamp' : UInt64}
    (h : Decides s timestamp supply price volatility d)
    (h' : Decides s' timestamp' supply price' volatility d') (hband : s'.band = s.band)
    (hstep : s.band.maxStepBps.toNat ≤ 10000)
    (hdeviation : deviation s.current s.target ≤ deviation s'.current s'.target) :
    d.resultingSupply.toNat ≤ d'.resultingSupply.toNat := by
  have hresult := h.resultingSupply_eq hstep
  have hresult' := h'.resultingSupply_eq (hband ▸ hstep)
  have hmono := signedChange_mono hstep supply.toNat volatility hdeviation
  rw [hband] at hresult'
  omega

/-- Two decisions of controllers with the same band on the same supply. The one on the greater value
expects no smaller supply, and the one on the greater target no greater one; prices have no part in
that. On the same value and target the decisions are of one kind, the one at the higher volatility
makes no greater change, and neither higher volatility nor a higher price makes the counterpart
greater. -/
theorem decide_monotone (hband : s'.band = s.band) (hstep : s.band.maxStepBps.toNat ≤ 10000)
    {moment moment' : Moment} {volatility volatility' : UInt8}
    (h : ((decide moment supply price volatility).apply s).1 = .ok d)
    (h' : ((decide moment' supply price' volatility').apply s').1 = .ok d') :
    (volatility = volatility' → s.target = s'.target → s.current ≤ s'.current →
      d.resultingSupply.toNat ≤ d'.resultingSupply.toNat) ∧
    (volatility = volatility' → s.current = s'.current → s.target ≤ s'.target →
      d'.resultingSupply.toNat ≤ d.resultingSupply.toNat) ∧
    (s.current = s'.current → s.target = s'.target → d.kind = d'.kind ∧
      (price = price' → volatility ≤ volatility' →
        d'.supplyDelta.toNat ≤ d.supplyDelta.toNat ∧ d'.counterpart.toNat ≤ d.counterpart.toNat) ∧
      (volatility = volatility' → price ≤ price' →
        d'.counterpart.toNat ≤ d.counterpart.toNat)) := by
  have hstep' : s'.band.maxStepBps.toNat ≤ 10000 := hband ▸ hstep
  have hdecides := decides_of_ok hstep h
  have hdecides' := decides_of_ok hstep' h'
  obtain ⟨htarget, hprice⟩ := not_isZero_of_ok h
  refine ⟨?_, ?_, ?_⟩
  · rintro rfl hsame hle
    refine resultingSupply_mono hdecides hdecides' hband hstep ?_
    rw [← hsame]
    exact deviation_mono _ hle
  · rintro rfl hsame hle
    refine resultingSupply_mono hdecides' hdecides hband.symm hstep' ?_
    rw [← hsame]
    exact deviation_anti _ htarget hle
  intro hcurrent htargets
  have hkind : d.kind = d'.kind := by
    rw [hdecides.kind_eq, hdecides'.kind_eq, hband, hcurrent, htargets]
  have hdelta := hdecides.supplyDelta_eq
  have hdelta' := hdecides'.supplyDelta_eq
  rw [hband, ← hcurrent, ← htargets] at hdelta'
  have hcounterpart := hdecides.counterpart_eq
  have hcounterpart' := hdecides'.counterpart_eq
  rw [← htargets] at hcounterpart'
  refine ⟨hkind, ?_, ?_⟩
  · rintro rfl hle
    have hchange : d'.supplyDelta.toNat ≤ d.supplyDelta.toNat := by
      rw [hdelta, hdelta']
      exact change_anti hstep _ (UInt8.le_iff_toNat_le.1 hle) _
    refine ⟨hchange, ?_⟩
    rw [hcounterpart, hcounterpart']
    exact Nat.div_le_div_right (Nat.mul_le_mul_right _ hchange)
  · rintro rfl hle
    rw [hcounterpart, hcounterpart', hdelta', ← hdelta]
    exact Nat.div_le_div_left hle (Nat.pos_of_ne_zero hprice)

/-- A controller with the default band that sees a value against a target. -/
def watching (target current : UInt64) : State :=
  { State.initial .default with target := .ofUInt64 target, current := .ofUInt64 current }

/-- The decision of the controller on a supply of a million. -/
def decision (s : State) (price : UInt64) (volatility : UInt8) : Except SourceError Decision :=
  ((decide ⟨⟨7⟩, .idle⟩ (.ofUInt64 1000000) (.ofUInt64 price) volatility).apply s).1

/-- From a contraction to an expansion as the value rises and back as the target does; on the same
value and target the expansion is smaller at the higher volatility, and costs less at the higher
price. -/
theorem decide_monotone_across :
    ∃ low high far rough dear,
      decision (watching 1000 900) 3 10 = .ok low ∧ decision (watching 1000 1100) 3 10 = .ok high ∧
      decision (watching 1300 1100) 3 10 = .ok far ∧ decision (watching 1000 1100) 3 90 = .ok rough ∧
      decision (watching 1000 1100) 7 10 = .ok dear ∧
      low.kind = .contraction ∧ high.kind = .expansion ∧ far.kind = .contraction ∧
      low.resultingSupply.toNat ≤ high.resultingSupply.toNat ∧
      far.resultingSupply.toNat ≤ high.resultingSupply.toNat ∧
      rough.supplyDelta.toNat ≤ high.supplyDelta.toNat ∧
      dear.counterpart.toNat ≤ high.counterpart.toNat := by
  have hlow : decision (watching 1000 900) 3 10 = .ok ⟨.contraction, ⟨47500, by decide⟩,
      ⟨15833333, by decide⟩, -1000, ⟨952500, by decide⟩, 0⟩ := by decide +kernel
  have hhigh : decision (watching 1000 1100) 3 10 = .ok ⟨.expansion, ⟨47500, by decide⟩,
      ⟨15833333, by decide⟩, 1000, ⟨1047500, by decide⟩, 0⟩ := by decide +kernel
  have hfar : decision (watching 1300 1100) 3 10 = .ok ⟨.contraction, ⟨47500, by decide⟩,
      ⟨20583333, by decide⟩, -1538, ⟨952500, by decide⟩, 0⟩ := by decide +kernel
  have hrough : decision (watching 1000 1100) 3 90 = .ok ⟨.expansion, ⟨27500, by decide⟩,
      ⟨9166666, by decide⟩, 1000, ⟨1027500, by decide⟩, 0⟩ := by decide +kernel
  have hdear : decision (watching 1000 1100) 7 10 = .ok ⟨.expansion, ⟨47500, by decide⟩,
      ⟨6785714, by decide⟩, 1000, ⟨1047500, by decide⟩, 0⟩ := by decide +kernel
  have hband (target current target' current' : UInt64) :
      (watching target' current').band = (watching target current).band := rfl
  have hstep (target current : UInt64) :
      (watching target current).band.maxStepBps.toNat ≤ 10000 :=
    show PegBand.default.maxStepBps.toNat ≤ 10000 by decide
  obtain ⟨hvalue, -, -⟩ := decide_monotone (hband ..) (hstep ..) hlow hhigh
  obtain ⟨-, htarget, -⟩ := decide_monotone (hband ..) (hstep ..) hhigh hfar
  obtain ⟨-, -, hvolatility⟩ := decide_monotone (hband ..) (hstep ..) hhigh hrough
  obtain ⟨-, -, hprice⟩ := decide_monotone (hband ..) (hstep ..) hhigh hdear
  refine ⟨_, _, _, _, _, hlow, hhigh, hfar, hrough, hdear, rfl, rfl, rfl, ?_, ?_, ?_, ?_⟩
  · exact hvalue rfl rfl (by decide)
  · exact htarget rfl rfl (by decide)
  · exact ((hvolatility rfl rfl).2.1 rfl (by decide)).1
  · exact (hprice rfl rfl).2.2 rfl (by decide)

end Decisions

end StableSupply.PegBand
