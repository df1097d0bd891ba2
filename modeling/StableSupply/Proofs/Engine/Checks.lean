import StableSupply.Proofs.Engine.Verdict
import StableSupply.Proofs.Genesis
import StableSupply.Proofs.Manager.Growth

/-! # The checks of an adjustment

A feasible decision is checked for six things in turn (`Check`). Where every request is served it is
applied if all of them hold, and otherwise the attempt fails with what the first one that does not
hold reports (`Engine.apply_decides`). An applied decision moves the supply, the treasury's balance
and the history, and nothing else (`Engine.Settles`). -/

namespace StableSupply.Engine

/-! ## Checks -/

/-- In the order in which they are made. -/
inductive Check
  /-- The amounts of the decision are ledger words. -/
  | supplyDelta
  | counterpart
  | resultingSupply
  /-- The treasury can pay, or be paid. -/
  | treasury
  /-- The supply stays a ledger word no lower than the minimum. -/
  | supply
  /-- The history has an index for the record. -/
  | journal
  deriving DecidableEq

namespace Check

/-- Every check, in the order in which they are made. -/
def all : List Check := [supplyDelta, counterpart, resultingSupply, treasury, supply, journal]

/-- The checks made before this one. -/
def earlier (check : Check) : List Check := all.takeWhile (· ≠ check)

/-- The journal comes last. -/
theorem forall_of_earlier {P : Check → Prop} (h : ∀ check ∈ journal.earlier, P check)
    (hjournal : P journal) (check : Check) : P check := by
  cases check with
  | journal => exact hjournal
  | _ => exact h _ (by decide)

variable [Digest] (d : Decision) (treasury : Address) (s : State)

/-- A decision passes the check. -/
def Holds : Check → Prop
  | supplyDelta => d.supplyDelta.toNat < 2 ^ 256
  | counterpart => d.counterpart.toNat < 2 ^ 256
  | resultingSupply => d.resultingSupply.toNat < 2 ^ 256
  | .treasury =>
    match d.kind with
    | .none => True
    | .expansion => d.counterpart.toNat ≤ (s.balance treasury).toNat
    | .contraction => (s.balance treasury).toNat + d.counterpart.toNat < 2 ^ 256
  | supply =>
    match d.kind with
    | .none => True
    | .expansion => (Slot.currentSupply.word s).toNat + d.supplyDelta.toNat < 2 ^ 256
    | .contraction =>
      (Slot.minimumSupply.word s).toNat + d.supplyDelta.toNat ≤ (Slot.currentSupply.word s).toNat
  | journal => ∃ n, Journal.counted s = .ok n ∧ n.toNat + 1 < 2 ^ 64

/-- What is reported where the check does not hold. -/
inductive Reports : Check → AdjustmentError → Prop
  | supplyDelta : Reports .supplyDelta (.overflow .supplyDelta)
  | counterpart : Reports .counterpart (.overflow .counterpart)
  | resultingSupply : Reports .resultingSupply (.overflow .resultingSupply)
  | unpaid {required : Word} (hkind : d.kind = .expansion)
    (hrequired : required.toNat = d.counterpart.toNat) :
    Reports .treasury (.insufficientBalance treasury (s.balance treasury) required)
  | overpaid (hkind : d.kind = .contraction) : Reports .treasury (.overflow .treasuryBalance)
  | overgrown (hkind : d.kind = .expansion) : Reports .supply (.overflow .stableSupply)
  | undercut {delta : Word} (hkind : d.kind = .contraction)
    (hdelta : delta.toNat = d.supplyDelta.toNat) :
    Reports .supply
      (.supplyUnderflow (Slot.currentSupply.word s) delta (Slot.minimumSupply.word s))
  | uncounted {c : JournalError} (h : Journal.counted s = .error c) : Reports .journal (.journal c)
  | exhausted {n : UInt64} (h : Journal.counted s = .ok n) :
    Reports .journal (.journal (.corrupted n "history counter exhausted"))

/-- The check is the first that does not hold, and the error is what it reports. -/
structure Stops (check : Check) (e : AdjustmentError) : Prop where
  earlier : ∀ c ∈ check.earlier, c.Holds d treasury s
  fails : ¬ check.Holds d treasury s
  reports : Reports d treasury s check e

end Check

/-! ## Failures of a plan -/

/-- The treasury is judged before the supply. -/
theorem newSupply_expansion_eq_error {treasury : Address}
    {balance minimum supply delta counterpart : Word} {e : AdjustmentError} :
    newSupply .expansion treasury balance minimum supply delta counterpart = .error e ↔
      (balance.toNat < counterpart.toNat ∧
        e = .insufficientBalance treasury balance counterpart) ∨
      counterpart.toNat ≤ balance.toNat ∧ 2 ^ 256 ≤ supply.toNat + delta.toNat ∧
        e = .overflow .stableSupply := by
  have hlt : balance < counterpart ↔ balance.toNat < counterpart.toNat := Iff.rfl
  rw [← Word.add?_eq_none, ← Nat.not_lt]
  simp only [newSupply, hlt]
  split
  · next h => simp [h, eq_comm]
  · next h => cases supply.add? delta <;> simp [h, eq_comm]

theorem newSupply_contraction_eq_error {treasury : Address}
    {balance minimum supply delta counterpart : Word} {e : AdjustmentError} :
    newSupply .contraction treasury balance minimum supply delta counterpart = .error e ↔
      (2 ^ 256 ≤ balance.toNat + counterpart.toNat ∧ e = .overflow .treasuryBalance) ∨
      balance.toNat + counterpart.toNat < 2 ^ 256 ∧ supply.toNat < minimum.toNat + delta.toNat ∧
        e = .supplyUnderflow supply delta minimum := by
  rw [← Nat.not_le, ← Word.add?_eq_none]
  simp only [newSupply, Option.isNone_iff_eq_none]
  split
  · next h => simp [h, eq_comm]
  · next h =>
    simp only [h, false_and, not_false_iff, true_and, false_or]
    cases hsub : supply.sub? delta with
    | none =>
      have hdelta := Word.sub?_eq_none.1 hsub
      have hshort : supply.toNat < minimum.toNat + delta.toNat := by omega
      simp [hshort, eq_comm]
    | some rest =>
      have hrest := Word.sub?_eq_some.1 hsub
      have hshort : supply.toNat < minimum.toNat + delta.toNat ↔ ¬ minimum ≤ rest := by
        show _ ↔ ¬ minimum.toNat ≤ rest.toNat
        omega
      simp only [hshort]
      split
      · next hmin => simp [hmin]
      · next hmin => simp [hmin, eq_comm]

namespace Check

variable [Digest] {d : Decision} {treasury : Address} {s : State}

/-- A plan passes every check but that of the journal. -/
theorem holds_of_follows {p : Plan}
    (hp : p.Follows d treasury (s.balance treasury) (Slot.minimumSupply.word s)
      (Slot.currentSupply.word s)) :
    ∀ check ∈ journal.earlier, check.Holds d treasury s := by
  obtain ⟨hshifts, hadmissible⟩ := newSupply_eq_ok.1 hp.newSupply
  have hearlier : journal.earlier =
      [supplyDelta, counterpart, resultingSupply, .treasury, supply] := by decide
  simp only [hearlier, List.forall_mem_cons, Holds]
  rw [← hp.supplyDelta, ← hp.counterpart, ← hp.claimedSupply]
  refine ⟨p.supplyDelta.isLt, p.counterpart.isLt, p.claimedSupply.isLt, ?treasury, ?supply, nofun⟩
  case treasury =>
    cases hkind : d.kind with
    | none => trivial
    | expansion =>
      rw [hkind] at hadmissible
      exact hadmissible
    | contraction =>
      rw [hkind] at hadmissible
      exact hadmissible.1
  case supply =>
    cases hkind : d.kind with
    | none => trivial
    | expansion =>
      rw [hkind] at hshifts
      have hsum : p.newSupply.toNat = (Slot.currentSupply.word s).toNat + p.supplyDelta.toNat :=
        hshifts
      exact hsum ▸ p.newSupply.isLt
    | contraction =>
      rw [hkind] at hshifts hadmissible
      have hrest : p.newSupply.toNat + p.supplyDelta.toNat = (Slot.currentSupply.word s).toNat :=
        hshifts
      have hmin : (Slot.minimumSupply.word s).toNat ≤ p.newSupply.toNat := hadmissible.2
      show (Slot.minimumSupply.word s).toNat + p.supplyDelta.toNat ≤ _
      omega

theorem stops_of_newSupply {delta counterpart : Word} {e : AdjustmentError}
    (hdelta : delta.toNat = d.supplyDelta.toNat)
    (hcounterpart : counterpart.toNat = d.counterpart.toNat)
    (hclaimed : d.resultingSupply.toNat < 2 ^ 256)
    (h : newSupply d.kind treasury (s.balance treasury) (Slot.minimumSupply.word s)
      (Slot.currentSupply.word s) delta counterpart = .error e) :
    ∃ check, Stops d treasury s check e := by
  have hamounts : ∀ c ∈ Check.treasury.earlier, c.Holds d treasury s := by
    have hearlier : Check.treasury.earlier = [supplyDelta, .counterpart, resultingSupply] := by
      decide
    simp only [hearlier, List.forall_mem_cons, Holds]
    exact ⟨hdelta ▸ delta.isLt, hcounterpart ▸ counterpart.isLt, hclaimed, nofun⟩
  have hpaid (hholds : Check.treasury.Holds d treasury s) :
      ∀ c ∈ supply.earlier, c.Holds d treasury s := by
    have happend : supply.earlier = Check.treasury.earlier ++ [.treasury] := by decide
    rw [happend, List.forall_mem_append]
    exact ⟨hamounts, List.forall_mem_singleton.2 hholds⟩
  cases hkind : d.kind with
  | none =>
    rw [hkind] at h
    cases h
  | expansion =>
    rw [hkind] at h
    rcases newSupply_expansion_eq_error.1 h with ⟨hlt, rfl⟩ | ⟨hle, hge, rfl⟩
    · refine ⟨.treasury, hamounts, ?_, .unpaid hkind hcounterpart⟩
      simp only [Holds, hkind, ← hcounterpart]
      exact Nat.not_le.2 hlt
    · refine ⟨.supply, hpaid ?_, ?_, .overgrown hkind⟩
      · simp only [Holds, hkind, ← hcounterpart]
        exact hle
      · simp only [Holds, hkind, ← hdelta]
        exact Nat.not_lt.2 hge
  | contraction =>
    rw [hkind] at h
    rcases newSupply_contraction_eq_error.1 h with ⟨hge, rfl⟩ | ⟨hlt, hshort, rfl⟩
    · refine ⟨.treasury, hamounts, ?_, .overpaid hkind⟩
      simp only [Holds, hkind, ← hcounterpart]
      exact Nat.not_lt.2 hge
    · refine ⟨.supply, hpaid ?_, ?_, .undercut hkind hdelta⟩
      · simp only [Holds, hkind, ← hcounterpart]
        exact hlt
      · simp only [Holds, hkind, ← hdelta]
        exact Nat.not_le.2 hshort

theorem stops_of_planIn {e : AdjustmentError} (h : planIn d treasury s = .error e) :
    ∃ check, Stops d treasury s check e := by
  simp only [planIn, planOf, bind, Except.bind] at h
  split at h
  · next e₁ hdelta =>
    obtain ⟨hge, rfl⟩ := fit_eq_error.1 hdelta
    cases h
    exact ⟨.supplyDelta, List.forall_mem_nil _, Nat.not_lt.2 hge, .supplyDelta⟩
  next delta hdelta =>
  rw [fit_eq_ok] at hdelta
  have hfirst : ∀ c ∈ Check.counterpart.earlier, c.Holds d treasury s :=
    List.forall_mem_singleton.2 (show _ < _ from hdelta ▸ delta.isLt)
  split at h
  · next e₁ hcounterpart =>
    obtain ⟨hge, rfl⟩ := fit_eq_error.1 hcounterpart
    cases h
    exact ⟨.counterpart, hfirst, Nat.not_lt.2 hge, .counterpart⟩
  next counterpart hcounterpart =>
  rw [fit_eq_ok] at hcounterpart
  split at h
  · next e₁ hclaimed =>
    obtain ⟨hge, rfl⟩ := fit_eq_error.1 hclaimed
    cases h
    refine ⟨.resultingSupply, ?_, Nat.not_lt.2 hge, .resultingSupply⟩
    exact List.forall_mem_cons.2 ⟨hfirst _ (by decide), List.forall_mem_singleton.2
      (show _ < _ from hcounterpart ▸ counterpart.isLt)⟩
  next claimed hclaimed =>
  rw [fit_eq_ok] at hclaimed
  split at h
  · next e₁ hsupply =>
    cases h
    exact stops_of_newSupply hdelta hcounterpart (hclaimed ▸ claimed.isLt) hsupply
  · cases h

section Separated

variable {token : StableToken} (hsep : Digest.Separates token)
include hsep

/-- The counter is not touched before the record is appended. -/
theorem counted_before_append {after n : Word} :
    Journal.countIn journalAccount ((s.setBalance treasury after).setSlots
      [Slot.currentSupply.set n]) = Journal.counted s := by
  rw [Journal.counted_eq]
  exact Journal.countIn_congr
    (Slot.word_set_of_ne hsep Slot.inUse_currentSupply Slot.inUse_historyCount (by decide))

/-- The journal is consulted only once all other checks have passed. -/
theorem stops_of_nextIndex {p : Plan} {after : Word} {c : JournalError} (hhold : ¬ d.IsHold)
    (hplan : planIn d treasury s = .ok p)
    (h : Journal.nextIndex journalAccount d.kind ((s.setBalance treasury after).setSlots
      [Slot.currentSupply.set p.newSupply]) = .error c) :
    Stops d treasury s journal (.journal c) := by
  refine ⟨holds_of_follows (planOf_eq_ok hplan), ?_, ?_⟩
  · rintro ⟨n, hn, hlt⟩
    rw [Journal.nextIndex_eq_ok.2 ⟨hhold, (counted_before_append hsep).trans hn, hlt⟩] at h
    cases h
  · rw [Journal.nextIndex, if_neg (show ¬ d.kind = .none from hhold), counted_before_append hsep] at h
    split at h
    · next n hn =>
      split at h
      · cases h
      · cases h
        exact .exhausted hn
    · next e hn =>
      cases h
      exact .uncounted hn

/-- Whatever is rejected is rejected by the first check that fails. -/
theorem stops_of_rejects {e : AdjustmentError} (hhold : ¬ d.IsHold)
    (h : Rejects d treasury s e) : ∃ check, Stops d treasury s check e := by
  cases h with
  | unplanned hplan => exact stops_of_planIn hplan
  | unrecorded hplan hindex => exact ⟨journal, stops_of_nextIndex hsep hhold hplan hindex⟩

end Separated

end Check

/-! ## Effects -/

section Effects

variable [Digest] {σ τ : Type}

/-- An applied decision, and all that has changed with it. -/
structure Enacts (d : Decision) (treasury : Address) (desk : Desk σ τ) (a : AppliedAdjustment)
    (desk' : Desk σ τ) : Prop where
  supply : d.kind.Shifts a.record.supplyDelta
    (Slot.currentSupply.word desk.access.ledger.state)
    (Slot.currentSupply.word desk'.access.ledger.state)
  payment : d.kind.Pays a.record.counterpart (desk.access.ledger.state.balance treasury)
    (desk'.access.ledger.state.balance treasury)
  records : Records d a.record
  counted : Journal.counted desk.access.ledger.state = .ok a.record.index ∧
    Journal.counted desk'.access.ledger.state = .ok (a.record.index + 1)
  recorded : Journal.recorded a.record.index desk'.access.ledger.state = .ok a.record
  otherRecords : ∀ index, index ≠ a.record.index →
    Journal.recorded index desk'.access.ledger.state =
      Journal.recorded index desk.access.ledger.state
  otherBalances : ∀ account, account ≠ treasury →
    desk'.access.ledger.state.balance account = desk.access.ledger.state.balance account
  otherSlots : ∀ owner key, (owner, key) ≠ (Slot.currentSupply.owner, Slot.currentSupply.key) →
    (owner, key) ≠ (journalAccount, Slot.historyCount.key) →
    (∀ field : HistoryField, (owner, key) ≠ (journalAccount, field.key a.record.index)) →
    desk'.access.ledger.state.slot owner key = desk.access.ledger.state.slot owner key
  previousSupply : a.previousSupply = Slot.currentSupply.word desk.access.ledger.state
  resultingSupply : a.record.resultingSupply = Slot.currentSupply.word desk'.access.ledger.state
  treasuryBefore : a.treasuryBefore = desk.access.ledger.state.balance treasury
  treasuryAfter : a.treasuryAfter = desk'.access.ledger.state.balance treasury
  counterparty : a.treasury = treasury
  checkpoints : desk'.access.ledger.checkpoints = desk.access.ledger.checkpoints
  notifier : desk'.notifier = (desk.notifier.publishAdjustment a).2

theorem slot_adjustmentWrites_other {s : State} {record : HistoryRecord} {owner : Address}
    {key : Hash} (hsupply : (owner, key) ≠ (Slot.currentSupply.owner, Slot.currentSupply.key))
    (hcount : (owner, key) ≠ (journalAccount, Slot.historyCount.key))
    (hfield : ∀ field : HistoryField, (owner, key) ≠ (journalAccount, field.key record.index)) :
    (s.setSlots (adjustmentWrites record)).slot owner key = s.slot owner key := by
  apply State.slot_setSlots_of_notMem
  intro w hw hplace
  rcases List.mem_cons.1 hw with rfl | hw
  · exact hsupply hplace.symm
  · rcases Journal.mem_recordWrites.1 hw with ⟨field, rfl⟩ | rfl
    · exact hfield field hplace.symm
    · exact hcount hplace.symm

variable {token : StableToken} {desk desk' : Desk σ τ} {d : Decision} {treasury : Address}
  {a : AppliedAdjustment}

/-- An adjustment that was applied has done what it was to do, and nothing else. -/
theorem Applied.enacts (hsep : Digest.Separates token) (h : Applied d treasury desk a desk') :
    Enacts d treasury desk a desk' := by
  obtain ⟨hadjusts, hcheckpoints, rfl, hrecords, hnotifier⟩ := h
  have henters := hadjusts.enters
  have hsupply := hadjusts.word_currentSupply hsep
  have hbalance := hadjusts.balance_treasury
  exact
    { supply := by
        rw [hsupply, ← hadjusts.previousSupply, ← hrecords.kind]
        exact hadjusts.supply
      payment := by
        rw [hbalance, ← hadjusts.treasuryBefore, ← hrecords.kind]
        exact hadjusts.paid
      records := hrecords
      counted := by
        rw [Journal.counted_eq, Journal.counted_eq]
        exact ⟨henters.countIn_before hsep, henters.countIn_after hsep⟩
      recorded := by
        rw [Journal.recorded_eq]
        exact henters.recordAt_index hsep
      otherRecords := fun index hne => by
        rw [Journal.recorded_eq, Journal.recorded_eq]
        exact henters.recordAt_of_ne hsep hne
      otherBalances := fun account hne => hadjusts.balance_of_ne hne
      otherSlots := fun owner key hplace hcount hfield => by
        rw [hadjusts.state, slot_adjustmentWrites_other hplace hcount hfield, State.slot_setBalance]
      previousSupply := hadjusts.previousSupply
      resultingSupply := hsupply.symm
      treasuryBefore := hadjusts.treasuryBefore
      treasuryAfter := hbalance.symm
      counterparty := rfl
      checkpoints := hcheckpoints
      notifier := hnotifier }

end Effects

/-! ## Outcomes -/

section Outcomes

variable [Digest] {token : StableToken} {τ : Type} [DecisionSource τ]

omit [Digest] in
theorem not_refused_openGate {e : AdjustmentError} : ¬ Refused OpenGate e := by
  rintro (⟨c, -, hrefusal⟩ | ⟨c, -, c', -, hrefusal⟩)
  · exact Gate.openGate_not_refusal hrefusal
  · exact Gate.openGate_not_refusal hrefusal

omit [Digest] in
theorem not_refusesReverts_openGate : ¬ Gate.RefusesReverts OpenGate :=
  Gate.ServesReverts.not_refusesReverts fun _ _ => rfl

/-- How an attempt ends where every request is served. -/
inductive Ends (d : Decision) (treasury : Address) (desk : Desk OpenGate τ) (answer : Feasibility)
    (desk' : Desk OpenGate τ) : Except AdjustmentError Outcome → Prop
  | held (h : d.IsHold) (hkept : Unapplied desk desk') :
    Ends d treasury desk answer desk' (.ok .noChange)
  | declined {reason : String} (h : ¬ d.IsHold) (hanswer : answer = .infeasible reason)
    (hkept : Unapplied desk desk') : Ends d treasury desk answer desk' (.ok (.skipped reason))
  | enacted {a : AppliedAdjustment} (h : ¬ d.IsHold) (hanswer : answer = .feasible)
    (hholds : ∀ check : Check, check.Holds d treasury desk.access.ledger.state)
    (henacts : Enacts d treasury desk a desk') :
    Ends d treasury desk answer desk' (.ok (.applied a))
  | stopped {check : Check} {e : AdjustmentError} (h : ¬ d.IsHold) (hanswer : answer = .feasible)
    (hstops : Check.Stops d treasury desk.access.ledger.state check e)
    (hkept : Unapplied desk desk') : Ends d treasury desk answer desk' (.error e)

/-- How a call of the engine ends, for every verdict of the source. -/
theorem apply_ends (hsep : Digest.Separates token) (moment : Moment) (d : Decision)
    (treasury : Address) (desk : Desk OpenGate τ) :
    Ends d treasury desk (verdict moment d treasury desk.access.ledger.state desk.source)
      ((apply moment d treasury).apply desk).2 ((apply moment d treasury).apply desk).1 := by
  have hboth := (apply_judges moment d treasury desk).and (apply_ensures moment d treasury)
  unfold Act.Ensures at hboth
  split at hboth
  · next outcome desk' happly =>
    obtain ⟨hgrants, hended⟩ := hboth
    rw [happly]
    generalize verdict moment d treasury desk.access.ledger.state desk.source = answer at hgrants
    cases hgrants with
    | held hhold => exact .held hhold hended
    | skipped hhold => exact .declined hhold rfl hended
    | applied hhold hplan hrecord =>
      have happlied : Applied d treasury desk _ desk' := hended
      refine .enacted hhold rfl (Check.forall_of_earlier ?_ ?_) (happlied.enacts hsep)
      · exact Check.holds_of_follows (planOf_eq_ok hplan)
      · exact ⟨_, (happlied.enacts hsep).counted.1, happlied.adjusts.enters.index_lt⟩
  · next e desk' happly =>
    obtain ⟨hjudged, hended⟩ := hboth
    obtain ⟨hhold, hfeasible, hrejects⟩ := hjudged.resolve_left not_refused_openGate
    obtain ⟨check, hstops⟩ := Check.stops_of_rejects hsep hhold hrejects
    rw [happly]
    exact .stopped hhold hfeasible hstops
      (hended.resolve_right fun hleft => not_refusesReverts_openGate hleft.1)

/-- Where every request is served, a decision to hold changes nothing, an infeasible one is skipped,
and a feasible one is applied if and only if it passes every check; otherwise the attempt fails with
what the first check that does not hold reports. An attempt that does not apply the decision leaves
the ledger and the notifier as they were, and one that does enacts it. -/
theorem apply_decides (hsep : Digest.Separates token) (moment : Moment) (d : Decision)
    (treasury : Address) (desk : Desk OpenGate τ) :
    let s := desk.access.ledger.state
    let answer := verdict moment d treasury s desk.source
    let result := ((apply moment d treasury).apply desk).1
    let desk' := ((apply moment d treasury).apply desk).2
    (result = .ok .noChange ↔ d.IsHold) ∧
    (∀ reason, result = .ok (.skipped reason) ↔ ¬ d.IsHold ∧ answer = .infeasible reason) ∧
    ((∃ a, result = .ok (.applied a)) ↔
      ¬ d.IsHold ∧ answer = .feasible ∧ ∀ check : Check, check.Holds d treasury s) ∧
    (∀ e, result = .error e → ∃ check, Check.Stops d treasury s check e) ∧
    ((∀ a, result ≠ .ok (.applied a)) →
      desk.access.ledger.Agrees desk'.access.ledger ∧ desk'.notifier = desk.notifier) ∧
    ∀ a, result = .ok (.applied a) → Enacts d treasury desk a desk' := by
  intro s answer result desk'
  have hends : Ends d treasury desk answer desk' result := apply_ends hsep moment d treasury desk
  generalize result = r at hends
  cases hends with
  | held hhold hkept =>
    simp [hhold, hkept.ledger, hkept.notifier]
  | declined hhold hanswer hkept =>
    simp [hhold, hanswer, hkept.ledger, hkept.notifier]
  | enacted hhold hanswer hholds henacts =>
    have hall : ∀ check : Check, check.Holds d treasury s := hholds
    simp [hhold, hanswer, hall, henacts]
  | stopped hhold hanswer hstops hkept =>
    have hnotAll : ¬ ∀ check : Check, check.Holds d treasury s := fun h => hstops.fails (h _)
    have hfirst : ∃ check, Check.Stops d treasury s check _ := ⟨_, hstops⟩
    simp [hhold, hanswer, hnotAll, hfirst, hkept.ledger, hkept.notifier]

end Outcomes

/-- The ledger of `Genesis.sample`, whose treasury holds nothing. -/
def brinkDesk : Desk OpenGate PegBand.State where
  access := Genesis.sampleAccess
  source := .initial .default
  notifier := .ofCapacity 1
  metrics := .empty

/-- A contraction down to the minimum supply that pays the treasury the greatest balance. -/
def brinkDecision : Decision :=
  ⟨.contraction, .ofWord (units 999999), .ofWord ⟨256 ^ 32 - 1, by decide⟩, 0, .ofWord (units 1), 0⟩

def brinkAttempt : Except AdjustmentError Outcome × Desk OpenGate PegBand.State :=
  (@apply _ _ Radix.digest _ _ ⟨⟨0⟩, .idle⟩ brinkDecision Genesis.sampleAccounts.treasury).apply
    brinkDesk

def brinkAdjustment : AppliedAdjustment where
  record :=
    { index := 0
      kind := .contraction
      supplyDelta := units 999999
      counterpart := ⟨256 ^ 32 - 1, by decide⟩
      deviationBps := 0
      resultingSupply := units 1
      claimedSupply := units 1
      timestamp := 0 }
  treasury := Genesis.sampleAccounts.treasury
  previousSupply := units 1000000
  treasuryBefore := .zero
  treasuryAfter := ⟨256 ^ 32 - 1, by decide⟩

/-- A treasury is filled to the last unit, and the supply taken down to its minimum. -/
theorem apply_decides_brink :
    brinkAttempt.1 = .ok (.applied brinkAdjustment) ∧
    (∀ check : Check, @check.Holds Radix.digest brinkDecision Genesis.sampleAccounts.treasury
      brinkDesk.access.ledger.state) ∧
    @Enacts Radix.digest _ _ brinkDecision Genesis.sampleAccounts.treasury brinkDesk
      brinkAdjustment brinkAttempt.2 := by
  have hresult : brinkAttempt.1 = .ok (.applied brinkAdjustment) := by decide +kernel
  have hdecides := @apply_decides Radix.digest _ _ _ Radix.separates ⟨⟨0⟩, .idle⟩ brinkDecision
    Genesis.sampleAccounts.treasury brinkDesk
  obtain ⟨-, -, happlied, -, -, henacts⟩ := hdecides
  exact ⟨hresult, (happlied.1 ⟨_, hresult⟩).2.2, henacts _ hresult⟩

end StableSupply.Engine
