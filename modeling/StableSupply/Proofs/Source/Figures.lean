import StableSupply.Proofs.Source.PegBand

/-! # The figures of a decision are exact

The controller works with numbers of 64 and of 512 bits. `PegBand.State.figures?` repeats its work
one operation after the other, and gives up at the first whose result does not fit its width or
whose divisor is zero. With a greatest step of no more than the whole supply it does not give up
unless the target or the price is zero, and a decision has just the figures that it finds
(`PegBand.Decides.figures_eq`). They are those of the formulas over the integers
(`PegBand.decide_exact`). -/

namespace StableSupply

/-! ## Checked operations -/

namespace Checked

/-- The number, if it is below the bound. -/
def fit (bound n : Nat) : Option Nat := if n < bound then some n else none

/-- The sum, if it is in bounds. -/
def add (bound a b : Nat) : Option Nat := fit bound (a + b)

/-- The difference, if there is one. -/
def sub (a b : Nat) : Option Nat := if b ≤ a then some (a - b) else none

/-- The product, if it is in bounds. -/
def mul (bound a b : Nat) : Option Nat := fit bound (a * b)

/-- The quotient, rounded down, if there is one. -/
def div (a b : Nat) : Option Nat := if b = 0 then none else some (a / b)

/-- The smaller number is taken from the greater one. -/
def distance (a b : Nat) : Option Nat := if b ≤ a then sub a b else sub b a

variable {bound a b : Nat}

theorem add_of_lt (h : a + b < bound) : add bound a b = some (a + b) := if_pos h

theorem sub_of_le (h : b ≤ a) : sub a b = some (a - b) := if_pos h

theorem mul_of_lt (h : a * b < bound) : mul bound a b = some (a * b) := if_pos h

theorem div_of_ne_zero (h : b ≠ 0) : div a b = some (a / b) := if_neg h

theorem distance_eq (a b : Nat) : distance a b = some ((a - b) + (b - a)) := by
  unfold distance
  split
  · next h => rw [sub_of_le h, Nat.sub_eq_zero_of_le h, Nat.add_zero]
  · next h =>
    have hle : a ≤ b := Nat.le_of_not_le h
    rw [sub_of_le hle, Nat.sub_eq_zero_of_le hle, Nat.zero_add]

end Checked

/-- What a decision says in numbers. -/
structure Figures where
  deviationSize : Nat
  supplyDelta : Nat
  counterpart : Nat
  resultingSupply : Nat
  deriving DecidableEq

/-- The amounts of a decision. -/
def Decision.figures (d : Decision) : Figures where
  deviationSize := d.deviationBps.toInt.natAbs
  supplyDelta := d.supplyDelta.toNat
  counterpart := d.counterpart.toNat
  resultingSupply := d.resultingSupply.toNat

namespace PegBand

/-- Numbers of 64 bits are below this one. -/
def narrowBound : Nat := 2 ^ 64

/-- Numbers of 512 bits are below this one. -/
def wideBound : Nat := 2 ^ 256 * 2 ^ 256

/-- The distance from the target in basis points, no more than a signed number holds. -/
def deviationSize? (current target : Nat) : Option Nat := do
  let distance ← Checked.distance current target
  let scaled ← Checked.mul wideBound distance 10000
  let size ← Checked.div scaled target
  return min size (2 ^ 63 - 1)

/-- The share of the supply to be moved, which volatility lowers down to a half. -/
def step? (maxStepBps deviationSize volatility : Nat) : Option Nat := do
  let damping ← Checked.sub 200 (min volatility 100)
  let product ← Checked.mul narrowBound (min deviationSize maxStepBps) damping
  Checked.div product 200

namespace State

/-- The part of the supply to be moved. -/
def supplyDelta? (s : State) (deviationSize supply volatility : Nat) : Option Nat := do
  let step ← step? s.band.maxStepBps.toNat deviationSize volatility
  let product ← Checked.mul wideBound supply step
  Checked.div product 10000

/-- What that part is worth at the target, in value tokens. -/
def counterpart? (s : State) (supplyDelta price : Nat) : Option Nat := do
  let worth ← Checked.mul wideBound supplyDelta s.target.toNat
  Checked.div worth price

/-- The supply once that part is moved. -/
def resultingSupply? (s : State) (supply supplyDelta : Nat) : Option Nat :=
  if s.target ≤ s.current then Checked.add wideBound supply supplyDelta
  else Checked.sub supply supplyDelta

/-- The figures of the decision, unless an operation on the way has no result. -/
def figures? (s : State) (supply price volatility : Nat) : Option Figures := do
  let size ← deviationSize? s.current.toNat s.target.toNat
  if size ≤ s.band.deadbandBps.toNat then return ⟨size, 0, 0, supply⟩
  let supplyDelta ← s.supplyDelta? size supply volatility
  let counterpart ← s.counterpart? supplyDelta price
  let resultingSupply ← s.resultingSupply? supply supplyDelta
  return ⟨size, supplyDelta, counterpart, resultingSupply⟩

end State

/-! ## The deviation -/

section Deviation

variable {current target : Word}

theorem deviationSize_le (current target : Word) : deviationSize current target ≤ 2 ^ 63 - 1 :=
  Nat.min_le_right ..

theorem natAbs_deviation (current target : Word) :
    (deviation current target).natAbs = deviationSize current target := by
  unfold deviation
  split
  · exact Int.natAbs_natCast _
  · rw [Int.natAbs_neg, Int.natAbs_natCast]

/-- A deviation fits a signed number of 64 bits. -/
theorem toInt_deviation (current target : Word) :
    (Int64.ofInt (deviation current target)).toInt = deviation current target := by
  have habs := natAbs_deviation current target
  have hle := deviationSize_le current target
  exact Int64.toInt_ofInt_of_le (by omega) (by omega)

theorem deviation_pos_iff :
    0 < deviation current target ↔ target ≤ current ∧ 0 < deviationSize current target := by
  unfold deviation
  split
  · next h => simp [h]
  · next h => simp [h]

/-- The deviation has the sign of the distance. -/
theorem deviation_eq (current target : Word) :
    deviation current target = ((current.toNat : Int) - target.toNat).sign *
      (min (2 ^ 63 - 1) (((current.toNat : Int) - target.toNat).natAbs * 10000 / target.toNat) :
        Nat) := by
  have hdistance : ((current.toNat : Int) - target.toNat).natAbs =
      (current.toNat - target.toNat) + (target.toNat - current.toNat) := by omega
  have hsize : deviationSize current target = min (2 ^ 63 - 1)
      (((current.toNat : Int) - target.toNat).natAbs * 10000 / target.toNat) := by
    rw [hdistance, Nat.min_comm]
    rfl
  rw [← hsize, deviation]
  rcases Nat.lt_trichotomy target.toNat current.toNat with hlt | heq | hgt
  · have hle : target ≤ current := Nat.le_of_lt hlt
    rw [if_pos hle, Int.sign_eq_one_of_pos (by omega), Int.one_mul]
  · have hle : target ≤ current := Nat.le_of_eq heq
    have hzero : deviationSize current target = 0 := by simp [hsize, heq]
    rw [if_pos hle, hzero]
    simp
  · have hnot : ¬ target ≤ current := Nat.not_le.2 hgt
    rw [if_neg hnot, Int.sign_eq_neg_one_of_neg (by omega), Int.neg_one_mul]

theorem deviationSize?_eq (htarget : ¬ target.IsZero) :
    deviationSize? current.toNat target.toNat = some (deviationSize current target) := by
  have hcurrent := current.isLt
  have hlt := target.isLt
  have hscaled : ((current.toNat - target.toNat) + (target.toNat - current.toNat)) * 10000 <
      wideBound :=
    Nat.mul_lt_mul_of_lt_of_le (by omega) (by decide) (by decide)
  simp only [deviationSize?, Checked.distance_eq, Checked.mul_of_lt hscaled,
    Checked.div_of_ne_zero htarget, Option.bind_eq_bind, Option.bind_some]
  rfl

end Deviation

/-! ## The step -/

section Step

variable {maxStepBps : Nat}

/-- The product that a step is made of is far from 64 bits. -/
theorem product_lt (hstep : maxStepBps ≤ 10000) (deviationSize volatility : Nat) :
    min deviationSize maxStepBps * (200 - min volatility 100) < narrowBound :=
  calc
    min deviationSize maxStepBps * (200 - min volatility 100) ≤ 10000 * 200 :=
      Nat.mul_le_mul (Nat.le_trans (Nat.min_le_right ..) hstep) (Nat.sub_le ..)
    _ < narrowBound := by decide

theorem step_eq (hstep : maxStepBps ≤ 10000) (deviationSize volatility : Nat) :
    step maxStepBps deviationSize volatility =
      min deviationSize maxStepBps * (200 - min volatility 100) / 200 := by
  have hproduct : min deviationSize maxStepBps * (200 - min volatility 100) < 2 ^ 64 :=
    product_lt hstep ..
  rw [step, Nat.mod_eq_of_lt hproduct]

theorem step?_eq (hstep : maxStepBps ≤ 10000) (deviationSize volatility : Nat) :
    step? maxStepBps deviationSize volatility = some (step maxStepBps deviationSize volatility) := by
  have hcapped : min volatility 100 ≤ 200 := Nat.le_trans (Nat.min_le_right ..) (by decide)
  simp only [step?, Checked.sub_of_le hcapped, Checked.mul_of_lt (product_lt hstep ..),
    Checked.div_of_ne_zero (show 200 ≠ 0 by decide), Option.bind_eq_bind, Option.bind_some,
    step_eq hstep]

end Step

/-! ## Decisions -/

section Decisions

variable {s : State} {timestamp : UInt64} {supply price : Word} {volatility : Nat} {d : Decision}

/-- Outside the dead band there is a deviation, so its sign is that of the distance. -/
theorem deviation_pos_iff_of_lt (h : s.band.deadbandBps.toNat < deviationSize s.current s.target) :
    0 < deviation s.current s.target ↔ s.target ≤ s.current := by
  rw [deviation_pos_iff, and_iff_left (Nat.zero_lt_of_lt h)]

/-- Outside the dead band the value is not the target. -/
theorem toNat_ne_of_lt (h : s.band.deadbandBps.toNat < deviationSize s.current s.target) :
    s.target.toNat ≠ s.current.toNat := by
  intro heq
  have hzero : deviationSize s.current s.target = 0 := by simp [deviationSize, heq]
  omega

theorem Decides.toInt_deviationBps (h : Decides s timestamp supply price volatility d) :
    d.deviationBps.toInt = deviation s.current s.target := by
  unfold Decides at h
  split at h
  · rw [h]
    exact toInt_deviation ..
  · rw [h.deviationBps]
    exact toInt_deviation ..

theorem Decides.natAbs_deviationBps (h : Decides s timestamp supply price volatility d) :
    d.deviationBps.toInt.natAbs = deviationSize s.current s.target := by
  rw [h.toInt_deviationBps, natAbs_deviation]

/-- A decision either leaves the supply alone, or it adjusts the supply for a deviation outside the
dead band. -/
theorem Decides.cases (h : Decides s timestamp supply price volatility d) :
    (deviationSize s.current s.target ≤ s.band.deadbandBps.toNat ∧
      d = .hold supply d.deviationBps timestamp) ∨
    (s.band.deadbandBps.toNat < deviationSize s.current s.target ∧
      Adjusts s timestamp supply price volatility d) := by
  unfold Decides at h
  split at h
  · next hheld =>
    refine .inl ⟨hheld, ?_⟩
    rw [h]
    rfl
  · next hadjusted => exact .inr ⟨Nat.not_le.1 hadjusted, h⟩

theorem Adjusts.kind_ne_none (h : Adjusts s timestamp supply price volatility d) :
    d.kind ≠ .none := by
  rw [h.kind]
  split <;> decide

theorem State.supplyDelta?_eq (hstep : s.band.maxStepBps.toNat ≤ 10000) (supply : Word)
    (volatility : Nat) :
    s.supplyDelta? (deviationSize s.current s.target) supply.toNat volatility =
      some (s.supplyDelta supply volatility) := by
  have hproduct : supply.toNat *
      step s.band.maxStepBps.toNat (deviationSize s.current s.target) volatility < wideBound :=
    Nat.mul_lt_mul_of_lt_of_le supply.isLt
      (Nat.le_trans (step_le ..) (Nat.le_trans hstep (by decide))) (by decide)
  simp only [State.supplyDelta?, step?_eq hstep, Checked.mul_of_lt hproduct,
    Checked.div_of_ne_zero (show 10000 ≠ 0 by decide), Option.bind_eq_bind, Option.bind_some]
  rfl

theorem State.counterpart?_eq (hprice : ¬ price.IsZero) {supplyDelta : Nat}
    (hdelta : supplyDelta < 2 ^ 256) :
    s.counterpart? supplyDelta price.toNat = some (supplyDelta * s.target.toNat / price.toNat) := by
  have hworth : supplyDelta * s.target.toNat < wideBound :=
    Nat.mul_lt_mul_of_lt_of_le hdelta (Nat.le_of_lt s.target.isLt) (by decide)
  simp only [State.counterpart?, Checked.mul_of_lt hworth, Checked.div_of_ne_zero hprice,
    Option.bind_eq_bind, Option.bind_some]

theorem State.resultingSupply?_eq {supplyDelta : Nat} (hdelta : supplyDelta ≤ supply.toNat) :
    s.resultingSupply? supply.toNat supplyDelta =
      some (if s.target ≤ s.current then supply.toNat + supplyDelta
        else supply.toNat - supplyDelta) := by
  have hsupply := supply.isLt
  have hsum : supply.toNat + supplyDelta < wideBound := by
    unfold wideBound
    omega
  unfold State.resultingSupply?
  split
  · exact Checked.add_of_lt hsum
  · exact Checked.sub_of_le hdelta

/-- No operation on the way to a decision goes wrong. -/
theorem Decides.figures_eq (h : Decides s timestamp supply price volatility d)
    (hstep : s.band.maxStepBps.toNat ≤ 10000) (htarget : ¬ s.target.IsZero)
    (hprice : ¬ price.IsZero) :
    s.figures? supply.toNat price.toNat volatility = some d.figures := by
  have hsize := h.natAbs_deviationBps
  simp only [State.figures?, deviationSize?_eq htarget, Option.bind_eq_bind, Option.bind_some]
  rcases h.cases with ⟨hheld, hd⟩ | ⟨hout, hadjusts⟩
  · rw [if_pos hheld, Decision.figures, hsize, hd]
    rfl
  have hdelta : s.supplyDelta supply volatility ≤ supply.toNat := s.supplyDelta_le hstep ..
  have hresult := hadjusts.resultingSupply
  simp only [deviation_pos_iff_of_lt hout] at hresult
  simp only [if_neg (Nat.not_le.2 hout), State.supplyDelta?_eq hstep,
    State.counterpart?_eq hprice (Nat.lt_of_le_of_lt hdelta supply.isLt),
    State.resultingSupply?_eq hdelta, Option.bind_some]
  rw [Decision.figures, hsize, hadjusts.supplyDelta, hadjusts.counterpart, hresult]
  rfl

/-! ## The formulas -/

/-- The decision is the one of the formulas over the integers. -/
structure Exact (s : State) (supply price : Word) (volatility : Nat) (d : Decision) : Prop where
  deviationBps : d.deviationBps.toInt = ((s.current.toNat : Int) - s.target.toNat).sign *
    (min (2 ^ 63 - 1)
      (((s.current.toNat : Int) - s.target.toNat).natAbs * 10000 / s.target.toNat) : Nat)
  hold_iff : d.kind = .none ↔ d.deviationBps.toInt.natAbs ≤ s.band.deadbandBps.toNat
  hold : d.kind = .none → d.supplyDelta.toNat = 0 ∧ d.counterpart.toNat = 0
  expansion_iff : d.kind ≠ .none → (d.kind = .expansion ↔ s.target < s.current)
  supplyDelta : d.kind ≠ .none → d.supplyDelta.toNat = supply.toNat *
    (min d.deviationBps.toInt.natAbs s.band.maxStepBps.toNat * (200 - min volatility 100) / 200) /
      10000
  supplyDelta_le : d.supplyDelta.toNat ≤ supply.toNat
  counterpart : d.kind ≠ .none →
    d.counterpart.toNat = d.supplyDelta.toNat * s.target.toNat / price.toNat
  resultingSupply : (d.resultingSupply.toNat : Int) =
    match d.kind with
    | .none => (supply.toNat : Int)
    | .expansion => supply.toNat + d.supplyDelta.toNat
    | .contraction => supply.toNat - d.supplyDelta.toNat

theorem Adjusts.expansion_iff (h : Adjusts s timestamp supply price volatility d)
    (hout : s.band.deadbandBps.toNat < deviationSize s.current s.target) :
    d.kind = .expansion ↔ s.target < s.current := by
  have hne := toNat_ne_of_lt hout
  rw [h.kind]
  simp only [deviation_pos_iff_of_lt hout]
  split
  · next hle =>
    have hlt : s.target < s.current := Nat.lt_of_le_of_ne hle hne
    exact iff_of_true rfl hlt
  · next hnot =>
    refine iff_of_false nofun fun hlt => hnot ?_
    exact Nat.le_of_lt hlt

theorem Decides.exact (h : Decides s timestamp supply price volatility d)
    (hstep : s.band.maxStepBps.toNat ≤ 10000) : Exact s supply price volatility d := by
  have hsize := h.natAbs_deviationBps
  have hforesees := h.foresees hstep
  have hdeviation := h.toInt_deviationBps.trans (deviation_eq ..)
  rcases h.cases with ⟨hheld, hd⟩ | ⟨hout, hadjusts⟩
  · have hkind : d.kind = .none := by
      rw [hd]
      rfl
    refine ⟨hdeviation, iff_of_true hkind (hsize ▸ hheld), ?_, absurd hkind, absurd hkind,
      hforesees.supplyDelta_le, absurd hkind, ?_⟩
    · intro _
      rw [hd]
      exact ⟨rfl, rfl⟩
    · rw [hd]
      rfl
  · have hkind := hadjusts.kind_ne_none
    refine ⟨hdeviation, iff_of_false hkind (by omega), fun hnone => absurd hnone hkind, ?_, ?_,
      hforesees.supplyDelta_le, ?_, ?_⟩
    · intro _
      exact hadjusts.expansion_iff hout
    · intro _
      rw [hadjusts.supplyDelta, hsize, ← step_eq hstep]
      rfl
    · intro _
      rw [hadjusts.counterpart, hadjusts.supplyDelta]
    · cases hexpands : d.kind with
      | none => exact absurd hexpands hkind
      | expansion =>
        rw [hforesees.expansion hexpands]
        rfl
      | contraction =>
        have hresult := hforesees.contraction hexpands
        show (d.resultingSupply.toNat : Int) = supply.toNat - d.supplyDelta.toNat
        omega

/-! ## Calls -/

section Calls

variable {moment : Moment} {volatility : UInt8}

/-- Without a target or a price there is no decision. -/
theorem decide_of_isZero (h : s.target.IsZero ∨ price.IsZero) (moment : Moment) (supply : Word)
    (volatility : UInt8) :
    ∃ reason, (decide moment supply price volatility).apply s =
      (.error (.invalidInput reason), s) := by
  simp only [decide, Act.apply_bind, Act.apply_get]
  by_cases htarget : s.target.IsZero
  · rw [if_pos htarget]
    exact ⟨_, rfl⟩
  · rw [if_neg htarget, if_pos (h.resolve_left htarget)]
    exact ⟨_, rfl⟩

/-- With both there is one. -/
theorem decide_outcome (hstep : s.band.maxStepBps.toNat ≤ 10000) (moment : Moment)
    (supply price : Word) (volatility : UInt8) :
    ((s.target.IsZero ∨ price.IsZero) ∧
      ∃ reason, (decide moment supply price volatility).apply s =
        (.error (.invalidInput reason), s)) ∨
    (¬ s.target.IsZero ∧ ¬ price.IsZero ∧
      ∃ d damping, (decide moment supply price volatility).apply s = (.ok d, { s with damping }) ∧
        Decides s moment.now.unixSeconds supply price volatility.toNat d) := by
  by_cases hzero : s.target.IsZero ∨ price.IsZero
  · exact .inl ⟨hzero, decide_of_isZero hzero moment supply volatility⟩
  · obtain ⟨htarget, hprice⟩ := not_or.1 hzero
    exact .inr ⟨htarget, hprice, decide_decides hstep htarget hprice moment supply volatility⟩

theorem not_isZero_of_ok (h : ((decide moment supply price volatility).apply s).1 = .ok d) :
    ¬ s.target.IsZero ∧ ¬ price.IsZero := by
  rw [← not_or]
  intro hzero
  obtain ⟨reason, herror⟩ := decide_of_isZero hzero moment supply volatility
  rw [herror] at h
  cases h

theorem decides_of_ok (hstep : s.band.maxStepBps.toNat ≤ 10000)
    (h : ((decide moment supply price volatility).apply s).1 = .ok d) :
    Decides s moment.now.unixSeconds supply price volatility.toNat d := by
  rcases decide_outcome hstep moment supply price volatility with
    ⟨-, reason, herror⟩ | ⟨-, -, other, damping, hother, hdecides⟩
  · rw [herror] at h
    cases h
  · rw [hother] at h
    obtain rfl : other = d := Except.ok.inj h
    exact hdecides

end Calls

/-- A controller whose greatest step is no more than the whole supply fails to decide exactly if the
target or the price is zero, and then it is as it was before. Otherwise no operation on the way
overflows or divides by zero, the decision is that of the integer formulas, and nothing but the
damping has changed. -/
theorem decide_exact (hstep : s.band.maxStepBps.toNat ≤ 10000) (moment : Moment)
    (supply price : Word) (volatility : UInt8) :
    let outcome := (decide moment supply price volatility).apply s
    ((∃ e, outcome.1 = .error e) ↔ s.target.IsZero ∨ price.IsZero) ∧
    (∀ e, outcome.1 = .error e → outcome.2 = s) ∧
    ∀ d, outcome.1 = .ok d →
      s.figures? supply.toNat price.toNat volatility.toNat = some d.figures ∧
      Exact s supply price volatility.toNat d ∧ ∃ damping, outcome.2 = { s with damping } := by
  intro outcome
  have hcases := decide_outcome hstep moment supply price volatility
  rcases hcases with ⟨hzero, reason, herror⟩ | ⟨htarget, hprice, other, damping, hok, hdecides⟩
  · have hfirst : outcome.1 = .error (.invalidInput reason) := congrArg (·.1) herror
    refine ⟨iff_of_true ⟨_, hfirst⟩ hzero, fun _ _ => congrArg (·.2) herror, ?_⟩
    intro d hd
    rw [hfirst] at hd
    cases hd
  · have hfirst : outcome.1 = .ok other := congrArg (·.1) hok
    have hnone (e : SourceError) : outcome.1 ≠ .error e := by
      rw [hfirst]
      nofun
    refine ⟨iff_of_false (fun ⟨e, he⟩ => hnone e he) (not_or.2 ⟨htarget, hprice⟩),
      fun e he => absurd he (hnone e), ?_⟩
    intro d hd
    obtain rfl : other = d := Except.ok.inj (hfirst.symm.trans hd)
    exact ⟨hdecides.figures_eq hstep htarget hprice, hdecides.exact hstep, damping,
      congrArg (·.2) hok⟩

theorem greatest_lt : 2 ^ 256 - 1 < 2 ^ 256 := Nat.sub_lt (by decide) (by decide)

/-- The greatest word. -/
def greatest : Word := ⟨2 ^ 256 - 1, greatest_lt⟩

/-- A controller that sees nothing of the greatest target, and may burn the whole supply. -/
def utmost : State :=
  { State.initial ⟨0, 10000, .default⟩ with target := greatest, current := .zero }

/-- The greatest supply is burned for the greatest counterpart there can be, just short of 512 bits.
Without a price nothing is. -/
theorem decide_exact_utmost :
    utmost.band.maxStepBps.toNat ≤ 10000 ∧
    (∃ d, ((decide ⟨⟨7⟩, .idle⟩ greatest (.ofUInt64 1) 0).apply utmost).1 = .ok d ∧
      d.figures = ⟨10000, 2 ^ 256 - 1, (2 ^ 256 - 1) * (2 ^ 256 - 1), 0⟩ ∧
      d.deviationBps.toInt = -10000) ∧
    ∃ e, ((decide ⟨⟨7⟩, .idle⟩ greatest .zero 0).apply utmost).1 = .error e := by
  have hstep : utmost.band.maxStepBps.toNat ≤ 10000 := by decide
  have hfigures : utmost.figures? (2 ^ 256 - 1) 1 0 =
      some ⟨10000, 2 ^ 256 - 1, (2 ^ 256 - 1) * (2 ^ 256 - 1), 0⟩ := by decide +kernel
  obtain ⟨hfails, -, hdecides⟩ := decide_exact hstep ⟨⟨7⟩, .idle⟩ greatest (.ofUInt64 1) 0
  obtain ⟨hfails', -, -⟩ := decide_exact hstep ⟨⟨7⟩, .idle⟩ greatest .zero 0
  refine ⟨hstep, ?_, hfails'.2 (.inr rfl)⟩
  cases hdecision : ((decide ⟨⟨7⟩, .idle⟩ greatest (.ofUInt64 1) 0).apply utmost).1 with
  | error e => exact absurd (hfails.1 ⟨e, hdecision⟩) (by decide +kernel)
  | ok d =>
    obtain ⟨hsame, hexact, -⟩ := hdecides d hdecision
    exact ⟨d, rfl, Option.some.inj (hsame.symm.trans hfigures),
      hexact.deviationBps.trans (by decide +kernel)⟩

end Decisions

end PegBand

end StableSupply
