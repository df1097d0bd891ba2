import StableSupply.Proofs.Genesis
import StableSupply.Proofs.Manager.Failure
import StableSupply.Proofs.Manager.Growth
import StableSupply.Proofs.Slot.Cycle
import StableSupply.Proofs.Source.PegBand

/-! # The controller and the engine agree

The controller finds a decision feasible in 512 bits, and the engine checks the decision again in 256
bits on what it reads itself, after the source's values have been written. Where nothing is refused
the second check fails for want of bits at most, and just where a sum of the decision needs more than
a word (`Manager.process_peg`): the writes in between do not touch what either of them reads. -/

namespace StableSupply

open Engine Gate

/-! ## The engine's check of what the controller found feasible -/

namespace Engine

theorem fit_of_lt {quantity : Quantity} {amount : Wide} (h : amount.toNat < 2 ^ 256) :
    fit quantity amount = .ok ⟨amount.toNat, h⟩ :=
  fit_eq_ok.2 rfl

theorem fit_of_le {quantity : Quantity} {amount : Wide} (h : 2 ^ 256 ≤ amount.toNat) :
    fit quantity amount = .error (.overflow quantity) := by
  rw [fit, Wide.toWord?, Word.ofNat?_eq_none.2 h]

end Engine

namespace PegBand

/-- The adjustment needs an amount of more than 256 bits. -/
def Overflows (supply balance : Word) (d : Decision) : Prop :=
  match d.kind with
  | .none => False
  | .expansion => 2 ^ 256 ≤ supply.toNat + d.supplyDelta.toNat
  | .contraction => 2 ^ 256 ≤ d.counterpart.toNat ∨ 2 ^ 256 ≤ balance.toNat + d.counterpart.toNat

/-- What the controller asks of an adjustment before it calls it feasible. -/
theorem feasible_iff {d : Decision} {balance minimum : Word} :
    feasible d balance minimum = .feasible ↔
      match d.kind with
      | .none => True
      | .expansion => d.counterpart.toNat ≤ balance.toNat
      | .contraction => minimum.toNat ≤ d.resultingSupply.toNat := by
  unfold feasible
  cases d.kind with
  | none => simp
  | expansion => simp
  | contraction => simp

/-- The engine has a plan for the decision that leads to the supply that the decision expects, or it
finds an amount too great, just where there is one. -/
def Replanned (d : Decision) (treasury : Address) (balance minimum supply : Word) : Prop :=
  (Overflows supply balance d ∧
    ∃ q, planOf d treasury balance minimum supply = .error (.overflow q)) ∨
  (¬ Overflows supply balance d ∧
    ∃ p, planOf d treasury balance minimum supply = .ok p ∧ p.claimedSupply = p.newSupply)

section Replanned

variable {d : Decision} {supply balance minimum : Word}

theorem Foresees.supplyDelta_lt (h : Foresees supply d) : d.supplyDelta.toNat < 2 ^ 256 :=
  Nat.lt_of_le_of_lt h.supplyDelta_le supply.isLt

/-- An expansion that the treasury covers comes out as it was foreseen, unless it overflows. -/
theorem replanned_of_expansion (h : Foresees supply d) (hkind : d.kind = .expansion)
    (hcovered : d.counterpart.toNat ≤ balance.toNat) (treasury : Address) :
    Replanned d treasury balance minimum supply := by
  have hdelta := h.supplyDelta_lt
  have hcounterpart : d.counterpart.toNat < 2 ^ 256 := Nat.lt_of_le_of_lt hcovered balance.isLt
  have hresult := h.expansion hkind
  by_cases hover : 2 ^ 256 ≤ supply.toNat + d.supplyDelta.toNat
  · left
    refine ⟨by simpa only [Overflows, hkind] using hover, .resultingSupply, ?_⟩
    rw [← hresult] at hover
    simp only [planOf, fit_of_lt hdelta, fit_of_lt hcounterpart, fit_of_le hover, bind,
      Except.bind]
  · right
    refine ⟨by simpa only [Overflows, hkind] using hover, ?_⟩
    have hsum : d.resultingSupply.toNat < 2 ^ 256 := by omega
    have hnew : newSupply .expansion treasury balance minimum supply ⟨_, hdelta⟩
        ⟨_, hcounterpart⟩ = .ok ⟨d.resultingSupply.toNat, hsum⟩ :=
      newSupply_eq_ok.2 ⟨hresult, hcovered⟩
    simp only [planOf, fit_of_lt hdelta, fit_of_lt hcounterpart, fit_of_lt hsum, hkind, hnew,
      bind, Except.bind]
    exact ⟨_, rfl, rfl⟩

/-- A contraction that leaves the minimum comes out as it was foreseen, unless it overflows. -/
theorem replanned_of_contraction (h : Foresees supply d) (hkind : d.kind = .contraction)
    (hfloor : minimum.toNat ≤ d.resultingSupply.toNat) (treasury : Address) :
    Replanned d treasury balance minimum supply := by
  have hdelta := h.supplyDelta_lt
  have hresult := h.contraction hkind
  have hsum : d.resultingSupply.toNat < 2 ^ 256 := by
    have hlt := supply.isLt
    omega
  by_cases hwide : 2 ^ 256 ≤ d.counterpart.toNat
  · left
    refine ⟨by simpa only [Overflows, hkind] using Or.inl hwide, .counterpart, ?_⟩
    simp only [planOf, fit_of_lt hdelta, fit_of_le hwide, bind, Except.bind]
  have hcounterpart : d.counterpart.toNat < 2 ^ 256 := Nat.not_le.1 hwide
  by_cases hover : 2 ^ 256 ≤ balance.toNat + d.counterpart.toNat
  · left
    refine ⟨by simpa only [Overflows, hkind] using Or.inr hover, .treasuryBalance, ?_⟩
    have hadd : balance.add? ⟨d.counterpart.toNat, hcounterpart⟩ = none :=
      Word.add?_eq_none.2 hover
    simp only [planOf, fit_of_lt hdelta, fit_of_lt hcounterpart, fit_of_lt hsum, hkind,
      newSupply, hadd, bind, Except.bind]
    rfl
  · right
    refine ⟨by simpa only [Overflows, hkind, not_or] using ⟨hwide, hover⟩, ?_⟩
    have hnew : newSupply .contraction treasury balance minimum supply ⟨_, hdelta⟩
        ⟨_, hcounterpart⟩ = .ok ⟨d.resultingSupply.toNat, hsum⟩ :=
      newSupply_eq_ok.2 ⟨hresult, Nat.not_le.1 hover, hfloor⟩
    simp only [planOf, fit_of_lt hdelta, fit_of_lt hcounterpart, fit_of_lt hsum, hkind, hnew,
      bind, Except.bind]
    exact ⟨_, rfl, rfl⟩

/-- A feasible decision comes out as it was foreseen, unless it overflows. -/
theorem replanned_of_feasible (h : Foresees supply d) (hhold : ¬ d.IsHold)
    (hfeasible : feasible d balance minimum = .feasible) (treasury : Address) :
    Replanned d treasury balance minimum supply := by
  rw [feasible_iff] at hfeasible
  cases hkind : d.kind with
  | none => exact absurd hkind hhold
  | expansion =>
    rw [hkind] at hfeasible
    exact replanned_of_expansion h hkind hfeasible treasury
  | contraction =>
    rw [hkind] at hfeasible
    exact replanned_of_contraction h hkind hfeasible treasury

end Replanned

end PegBand

/-! ## What the cycle's own writes leave alone -/

section Frame

variable [Digest]

namespace Manager

/-- No price means one, so the price that a decision is made from is never zero. -/
theorem marketIn_eq_ok {s : State} {volatility : UInt64}
    (h : (Slot.marketVolatility.word s).toUInt64 = .ok volatility) :
    ∃ price capped, ¬ price.IsZero ∧
      marketIn s = .ok (Slot.currentSupply.word s, price, capped) := by
  unfold marketIn
  rw [h]
  refine ⟨_, _, ?_, rfl⟩
  split
  · decide
  · assumption

theorem treasuryIn_congr {settings : ManagerSettings} {s s' : State}
    (h : Slot.treasuryAddress.word s' = Slot.treasuryAddress.word s) :
    treasuryIn settings s' = treasuryIn settings s := by
  unfold treasuryIn
  rw [h]

end Manager

end Frame

/-! ## Cycles -/

namespace Manager

variable [Digest]

/-- The outcome of a cycle that does not fail, by the decision and by the controller's verdict on
it. -/
def Suits (d : Decision) (balance minimum : Word) : Outcome → Prop
  | .noChange => d.IsHold
  | .skipped reason => PegBand.feasible d balance minimum = .infeasible reason
  | .applied a => ¬ d.IsHold ∧ PegBand.feasible d balance minimum = .feasible ∧
    a.record.claimedSupply = a.record.resultingSupply

/-- A cycle ends as the engine's re-check of the decision does. -/
def Answers (supply balance minimum : Word) (d : Decision) :
    Except UpdateError UpdateReport → Prop
  | .ok report => report.decision = d ∧ Suits d balance minimum report.outcome ∧
    ¬ (PegBand.feasible d balance minimum = .feasible ∧ PegBand.Overflows supply balance d)
  | .error e => (∃ q, e = .adjustment (.overflow q)) ∧
    PegBand.feasible d balance minimum = .feasible ∧ PegBand.Overflows supply balance d

section Conclusions

variable {moment : Moment} {settings : ManagerSettings} {d : Decision} {s : State}
  {source : PegBand.State} {treasury : Address}

/-- Where a cycle concludes, its outcome suits the decision, and no feasible decision overflowed. -/
theorem Concludes.suits (hforesees : PegBand.Foresees (Slot.currentSupply.word s) d)
    (htreasury : treasuryIn settings s = .ok treasury) {outcome : Outcome}
    (h : Concludes moment settings d s source outcome) :
    Suits d (s.balance treasury) (Slot.minimumSupply.word s) outcome ∧
      ¬ (PegBand.feasible d (s.balance treasury) (Slot.minimumSupply.word s) = .feasible ∧
        PegBand.Overflows (Slot.currentSupply.word s) (s.balance treasury) d) := by
  obtain ⟨other, hresolved, hgrants⟩ := h
  by_cases hhold : d.IsHold
  · have hkind : d.kind = .none := hhold
    have hnone : ¬ PegBand.Overflows (Slot.currentSupply.word s) (s.balance treasury) d := by
      simp [PegBand.Overflows, hkind]
    obtain rfl := hgrants.eq_noChange hhold
    exact ⟨hhold, fun h => hnone h.2⟩
  obtain rfl : treasury = other := Except.ok.inj (htreasury.symm.trans (hresolved hhold))
  have hverdict : verdict moment d treasury s source =
    PegBand.feasible d (s.balance treasury) (Slot.minimumSupply.word s) := rfl
  rw [hverdict] at hgrants
  cases hfeasible : PegBand.feasible d (s.balance treasury) (Slot.minimumSupply.word s) with
  | infeasible reason =>
    rw [hfeasible] at hgrants
    cases hgrants with
    | held hyes => exact absurd hyes hhold
    | skipped _ =>
      refine ⟨hfeasible, ?_⟩
      rintro ⟨h, -⟩
      cases h
  | feasible =>
    rw [hfeasible] at hgrants
    cases hgrants with
    | held hyes => exact absurd hyes hhold
    | applied _ hplan hrecord =>
      rcases PegBand.replanned_of_feasible hforesees hhold hfeasible treasury with
        ⟨-, q, herror⟩ | ⟨hfits, p, hok, hclaimed⟩
      · rw [planIn, herror] at hplan
        cases hplan
      · obtain rfl := Except.ok.inj (hok.symm.trans hplan)
        refine ⟨⟨hhold, hfeasible, ?_⟩, fun h => hfits h.2⟩
        rw [hrecord]
        exact hclaimed

/-- The journal has an index for the record, so what is missing is a plan. -/
theorem Unconcluded.overflows (hforesees : PegBand.Foresees (Slot.currentSupply.word s) d)
    (htreasury : treasuryIn settings s = .ok treasury) (hapart : Slot.Apart) {n : UInt64}
    (hcount : Journal.countIn journalAccount s = .ok n) (hroom : n.toNat + 1 < 2 ^ 64)
    {e : UpdateError} (h : Unconcluded OpenGate moment settings d s source e) :
    (∃ q, e = .adjustment (.overflow q)) ∧
      PegBand.feasible d (s.balance treasury) (Slot.minimumSupply.word s) = .feasible ∧
      PegBand.Overflows (Slot.currentSupply.word s) (s.balance treasury) d := by
  cases h with
  | refused h => exact absurd h UpdateError.not_refused_openGate
  | unresolved _ h =>
    rw [htreasury] at h
    cases h
  | @rejected other c hhold hresolved hfeasible hrejects =>
    obtain rfl : treasury = other := Except.ok.inj (htreasury.symm.trans hresolved)
    cases hrejects with
    | unplanned herror =>
      rcases PegBand.replanned_of_feasible hforesees hhold hfeasible treasury with
        ⟨hover, q, hplan⟩ | ⟨-, p, hplan, -⟩
      · obtain rfl := Except.error.inj (hplan.symm.trans herror)
        exact ⟨⟨q, rfl⟩, hfeasible, hover⟩
      · rw [planIn, hplan] at herror
        cases herror
    | @unrecorded p after c _ hindex =>
      have hword : Slot.historyCount.word ((s.setBalance treasury after).setSlots
          [Slot.currentSupply.set p.newSupply]) = Slot.historyCount.word s := by
        refine State.slot_setSlot_of_ne _ _ ?_
        intro hplace
        exact hapart.key_ne (Prod.mk.inj hplace).2
      have hnext : Journal.nextIndex journalAccount d.kind ((s.setBalance treasury after).setSlots
          [Slot.currentSupply.set p.newSupply]) = .ok n :=
        Journal.nextIndex_eq_ok.2 ⟨hhold, (Journal.countIn_congr hword).trans hcount, hroom⟩
      rw [hnext] at hindex
      cases hindex

end Conclusions

section Cycles

variable {m : Manager OpenGate PegBand.State} {now : Instant} {treasury : Address} {n : UInt64}
  {market : Word × Word × UInt8} {d : Decision} {source : PegBand.State}

/-- What is read before and after the source's values are written is the same. -/
theorem Settles.answers (hapart : Slot.Apart)
    (htreasury : treasuryIn m.settings m.state = .ok treasury)
    (hcount : Journal.countIn journalAccount m.state = .ok n) (hroom : n.toNat + 1 < 2 ^ 64)
    (hmarket : marketIn m.state = .ok market)
    (hdecision : answerOn market (m.moment now) m.desk.source = (.ok d, source))
    (hforesees : PegBand.Foresees (Slot.currentSupply.word m.state) d)
    {result : Except UpdateError UpdateReport} (h : m.Settles now result) :
    Answers (Slot.currentSupply.word m.state) (m.state.balance treasury)
      (Slot.minimumSupply.word m.state) d result := by
  have hprepared {u : ValueUpdate} {m' : Manager OpenGate PegBand.State}
      (hu : m.asked.Prepared now u m') : u.decision = d ∧ m'.state = m.state.setSlots u.writes := by
    obtain ⟨other, hother, hanswer⟩ := hu.decision
    obtain rfl : market = other := Except.ok.inj (hmarket.symm.trans hother)
    have hsame : (Except.ok u.decision, m'.desk.source) = (.ok d, source) :=
      hanswer.symm.trans hdecision
    exact ⟨Except.ok.inj (Prod.mk.inj hsame).1, hu.state⟩
  have hframe (slot : Slot) (hslot : slot ∈ Slot.consulted) (u : ValueUpdate) :
      slot.word (m.state.setSlots u.writes) = slot.word m.state :=
    u.word_setSlots m.state (hapart.key_notMem hslot)
  have hsupply := hframe .currentSupply (by decide)
  have hminimum := hframe .minimumSupply (by decide)
  have hrecords := hframe .historyCount (by decide)
  have hrecorded := hframe .treasuryAddress (by decide)
  cases result with
  | ok report =>
    obtain ⟨u, m', hu, hreport, hconcludes⟩ := h
    obtain ⟨rfl, hstate⟩ := hprepared hu
    rw [hstate] at hconcludes
    have hsuits := hconcludes.suits (by rwa [hsupply]) ((treasuryIn_congr (hrecorded u)).trans htreasury)
    rw [hsupply, hminimum, State.balance_setSlots] at hsuits
    exact ⟨hreport, hsuits⟩
  | error e =>
    rcases h with hundecided | ⟨u, m', hu, hunconcluded⟩
    · cases hundecided with
      | refused h => exact absurd h UpdateError.not_refused_openGate
      | unread h =>
        rw [hmarket] at h
        cases h
      | unanswered hother h =>
        obtain rfl := Except.ok.inj (hmarket.symm.trans hother)
        have hanswer := (congrArg (·.1) hdecision).symm.trans h
        cases hanswer
    · obtain ⟨rfl, hstate⟩ := hprepared hu
      rw [hstate] at hunconcluded
      have hover := hunconcluded.overflows (by rwa [hsupply])
        ((treasuryIn_congr (hrecorded u)).trans htreasury) hapart
        ((Journal.countIn_congr (hrecords u)).trans hcount) hroom
      rwa [hsupply, hminimum, State.balance_setSlots] at hover

/-- A cycle of a controller whose greatest step is no more than the supply, where nothing is refused
and what the cycle reads decodes. The controller comes to a decision, and the cycle reports the
outcome that the decision deserves, unless the decision is feasible and one of its amounts outgrows
a word; just then the cycle fails, with an overflow. What an adjustment claims is what it results
in. -/
theorem process_peg {volatility : UInt64} (hapart : Slot.Apart)
    (hstep : m.desk.source.band.maxStepBps.toNat ≤ 10000)
    (htarget : ¬ m.desk.source.target.IsZero)
    (htreasury : treasuryIn m.settings m.state = .ok treasury)
    (hcount : Journal.counted m.state = .ok n) (hroom : n.toNat + 1 < 2 ^ 64)
    (hvolatility : (Slot.marketVolatility.word m.state).toUInt64 = .ok volatility) :
    let supply := Slot.currentSupply.word m.state
    let balance := m.state.balance treasury
    let minimum := Slot.minimumSupply.word m.state
    let result := ((process now).apply m).1
    ∃ market d source, marketIn m.state = .ok market ∧
      answerOn market (m.moment now) m.desk.source = (.ok d, source) ∧
      (∀ e, result = .error e → ∃ q, e = .adjustment (.overflow q)) ∧
      ((∃ e, result = .error e) ↔
        PegBand.feasible d balance minimum = .feasible ∧ PegBand.Overflows supply balance d) ∧
      ∀ report, result = .ok report →
        report.decision = d ∧ Suits d balance minimum report.outcome := by
  intro supply balance minimum result
  obtain ⟨price, volatility, hprice, hmarket⟩ := marketIn_eq_ok hvolatility
  obtain ⟨d, damping, hdecision, hdecides⟩ := PegBand.decide_decides hstep htarget hprice
    (m.moment now) supply volatility
  have hforesees : PegBand.Foresees supply d := hdecides.foresees hstep
  have hanswers : Answers supply balance minimum d result := by
    have hcountIn := (Journal.counted_eq _).symm.trans hcount
    rw [← m.settings_beginChecking, ← m.state_beginChecking] at htreasury
    rw [← m.state_beginChecking] at hcountIn
    have hmarket' : marketIn m.beginChecking.state = .ok (supply, price, volatility) := by
      rwa [m.state_beginChecking]
    have hforesees' : PegBand.Foresees (Slot.currentSupply.word m.beginChecking.state) d := by
      rwa [m.state_beginChecking]
    have hdecision' : answerOn (supply, price, volatility) (m.beginChecking.moment now)
        m.beginChecking.desk.source = (.ok d, { m.desk.source with damping }) := by
      have hmoment : PegBand.decide (m.beginChecking.moment now) = PegBand.decide (m.moment now) :=
        PegBand.decide_congr rfl
      rw [m.desk_beginChecking, ← hdecision, ← hmoment]
      rfl
    have h := (process_settles now m).answers hapart htreasury hcountIn hroom hmarket'
      hdecision' hforesees'
    rwa [m.state_beginChecking] at h
  refine ⟨_, d, _, hmarket, hdecision, ?_, ⟨?_, ?_⟩, ?_⟩
  · intro e he
    rw [he] at hanswers
    exact hanswers.1
  · rintro ⟨e, he⟩
    rw [he] at hanswers
    exact hanswers.2
  · intro hover
    cases hresult : result with
    | error e => exact ⟨e, rfl⟩
    | ok report =>
      rw [hresult] at hanswers
      exact absurd hover hanswers.2.2
  · intro report hreport
    rw [hreport] at hanswers
    exact ⟨hanswers.1, hanswers.2.1⟩

end Cycles

/-- A manager on the ledger of `Genesis.sample` whose treasury holds as much as it can, and whose
controller sees a value of nine tenths of the target. -/
def brimful : Manager OpenGate PegBand.State :=
  .initial .default
    ⟨Genesis.sampleAccess.ledger.setBalance Genesis.sampleAccounts.treasury
      ⟨2 ^ 256 - 1, by decide⟩, {}⟩
    { PegBand.State.initial .default with current := .ofUInt64 900000000000000000 }

omit [Digest] in
/-- A contraction that leaves more than enough of the supply, but has to pay the treasury. -/
theorem process_peg_brimful :
    @Slot.Apart Radix.digest ∧ brimful.desk.source.band.maxStepBps.toNat ≤ 10000 ∧
    @treasuryIn Radix.digest brimful.settings brimful.state =
      .ok Genesis.sampleAccounts.treasury ∧
    ((@process _ _ Radix.digest _ _ ⟨7⟩).apply brimful).1 =
      .error (.adjustment (.overflow .treasuryBalance)) ∧
    ∃ d, PegBand.feasible d (brimful.state.balance Genesis.sampleAccounts.treasury)
        (@Slot.word Radix.digest .minimumSupply brimful.state) = .feasible ∧
      PegBand.Overflows (@Slot.word Radix.digest .currentSupply brimful.state)
        (brimful.state.balance Genesis.sampleAccounts.treasury) d := by
  have hapart : @Slot.Apart Radix.digest := by
    unfold Slot.Apart
    decide +kernel
  have hstep : brimful.desk.source.band.maxStepBps.toNat ≤ 10000 := by decide +kernel
  have htreasury : @treasuryIn Radix.digest brimful.settings brimful.state =
      .ok Genesis.sampleAccounts.treasury := by decide +kernel
  have hresult : ((@process _ _ Radix.digest _ _ ⟨7⟩).apply brimful).1 =
      .error (.adjustment (.overflow .treasuryBalance)) := by decide +kernel
  have hcount : @Journal.counted Radix.digest brimful.state = .ok 0 := by decide +kernel
  have hvolatility : (@Slot.word Radix.digest .marketVolatility brimful.state).toUInt64 =
      .ok 25 := by decide +kernel
  obtain ⟨_, d, _, _, _, _, hiff, _⟩ := @process_peg Radix.digest brimful ⟨7⟩ _ _ _ hapart hstep
    (by decide +kernel) htreasury hcount (by decide) hvolatility
  exact ⟨hapart, hstep, htreasury, hresult, d, hiff.1 ⟨_, hresult⟩⟩

end Manager

end StableSupply
