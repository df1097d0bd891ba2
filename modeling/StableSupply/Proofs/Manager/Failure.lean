import StableSupply.Proofs.Engine.Verdict
import StableSupply.Proofs.Manager.Run

/-! # Why a cycle fails

What a cycle reads of the ledger is a function of the ledger's state: the market (`marketIn`) and the
treasury (`treasuryIn`). With the source's answers and the engine's verdict it determines how the
cycle ends, refused requests apart: before its decision it fails only as `Undecided` tells and after
it only as `Unconcluded` does (`Manager.prepare_ensures`, `Manager.conclude_ensures`). -/

namespace StableSupply

open Engine Gate

/-- The error is that of a refused request. -/
inductive UpdateError.Refused (σ : Type) [Gate σ] : UpdateError → Prop
  | ledger {c : LedgerError} (h : Refusal σ c) : Refused σ (.ledger c)
  | adjustment {c : AdjustmentError} (h : Engine.Refused σ c) : Refused σ (.adjustment c)
  | journal {c : JournalError} (h : Journal.Refused σ c) : Refused σ (.journal c)

/-- A cycle ends in one of these before its decision, refused requests apart. -/
inductive UpdateError.Early : UpdateError → Prop
  | source (c : SourceError) : Early (.source c)
  | volatility (c : WordError) : Early (.corruptState ("market volatility: " ++ c.message))

/-- A cycle ends in one of these after its update, refused requests apart. -/
inductive UpdateError.Late : UpdateError → Prop
  | missingTreasury : Late .missingTreasury
  | treasury (c : WordError) : Late (.corruptState ("treasury address: " ++ c.message))
  | adjustment (c : AdjustmentError) : Late (.adjustment c)

theorem UpdateError.Late.not_early {e : UpdateError} (h : e.Late) : ¬ e.Early := by
  intro hearly
  cases h with
  | missingTreasury => cases hearly
  | adjustment c => cases hearly
  | treasury c =>
    generalize hreason : "treasury address: " ++ c.message = reason at hearly
    obtain - | d := hearly
    have hhead := congrArg (fun text => text.toList.head?) hreason
    simp [String.toList_append] at hhead

theorem UpdateError.not_refused_openGate {e : UpdateError} : ¬ Refused OpenGate e := by
  rintro (h | (⟨c, -, h⟩ | ⟨c, -, c', -, h⟩) | ⟨c, -, h⟩) <;> exact openGate_not_refusal h

namespace Manager

open Act

variable {σ τ α : Type} [Digest]

/-! ## What a cycle reads -/

/-- The market as a state records it. -/
def marketIn (s : State) : Except UpdateError (Word × Word × UInt8) :=
  match (Slot.marketVolatility.word s).toUInt64 with
  | .ok volatility =>
    .ok (Slot.currentSupply.word s,
      if (Slot.valueTokenPrice.word s).IsZero then units 1 else Slot.valueTokenPrice.word s,
      (min volatility 100).toUInt8)
  | .error e => .error (.corruptState ("market volatility: " ++ e.message))

/-- A market that cannot be read stops a cycle before its decision. -/
theorem early_of_marketIn {s : State} {e : UpdateError} (h : marketIn s = .error e) : e.Early := by
  unfold marketIn at h
  split at h
  · cases h
  · next c _ =>
    cases h
    exact .volatility c

/-- The counterparty of adjustments under the settings. -/
def treasuryIn (settings : ManagerSettings) (s : State) : Except UpdateError Address :=
  match settings.treasury with
  | some treasury => .ok treasury
  | none =>
    match (Slot.treasuryAddress.word s).toAddress with
    | .ok treasury => if treasury.IsZero then .error .missingTreasury else .ok treasury
    | .error e => .error (.corruptState ("treasury address: " ++ e.message))

/-- A treasury that cannot be resolved stops a cycle after its decision. -/
theorem late_of_treasuryIn {settings : ManagerSettings} {s : State} {e : UpdateError}
    (h : treasuryIn settings s = .error e) : e.Late := by
  unfold treasuryIn at h
  split at h
  · cases h
  · split at h
    · split at h
      · cases h
        exact .missingTreasury
      · cases h
    · next c _ =>
      cases h
      exact .treasury c

variable [Gate σ]

/-- The manager with another state of the gate, as requests leave it that change nothing else. -/
def withGate (m : Manager σ τ) (gate : σ) : Manager σ τ :=
  { m with desk := { m.desk with access := { m.desk.access with gate } } }

/-- A request was refused, and requests before it have changed nothing else either. -/
inductive Rebuffed (m : Manager σ τ) : UpdateError → Manager σ τ → Prop
  | mk {c : LedgerError} (gate : σ) (h : Refusal σ c) : Rebuffed m (.ledger c) (m.withGate gate)

section Rebuffs

variable {m m' : Manager σ τ} {e : UpdateError}

omit [Digest] in
theorem Rebuffed.refused (h : m.Rebuffed e m') : e.Refused σ := by
  obtain ⟨_, hrefusal⟩ := h
  exact .ledger hrefusal

omit [Digest] in
theorem Rebuffed.eq_ledger (h : m.Rebuffed e m') : ∃ c, e = .ledger c := by
  obtain ⟨_, -⟩ := h
  exact ⟨_, rfl⟩

omit [Digest] in
theorem Rebuffed.state (h : m.Rebuffed e m') : m'.state = m.state := by
  obtain ⟨_, -⟩ := h
  rfl

omit [Digest] in
theorem Rebuffed.of_withGate {gate : σ} (h : (m.withGate gate).Rebuffed e m') :
    m.Rebuffed e m' := by
  obtain ⟨gate', hrefusal⟩ := h
  exact ⟨gate', hrefusal⟩

end Rebuffs

omit [Digest] in
/-- A request that leaves the ledger as it is changes nothing but the gate. -/
theorem onLedger_ensures {act : Act (Access σ) LedgerError α} {m : Manager σ τ} {Q : α → Prop}
    (h : act.Ensures m.desk.access (fun a s => s.ledger = m.desk.access.ledger ∧ Q a)
      fun e s => s.ledger = m.desk.access.ledger ∧ Refusal σ e) :
    (onLedger act : Program σ τ α).Ensures m (fun a m' => ∃ gate, m' = m.withGate gate ∧ Q a)
      fun e m' => m.Rebuffed e m' := by
  simp only [onLedger, onDesk, Engine.onLedger, ensures_on, ensures_failingWith]
  refine h.mono ?_ ?_
  · rintro a ⟨_, gate⟩ ⟨rfl, ha⟩
    exact ⟨gate, rfl, ha⟩
  · rintro e ⟨_, gate⟩ ⟨rfl, hrefusal⟩
    exact ⟨gate, hrefusal⟩

omit [Digest] in
theorem attach_ensures (m : Manager σ τ) :
    (onLedger Access.attach : Program σ τ Unit).Ensures m
      (fun _ m' => ∃ gate, m' = m.withGate gate) fun e m' => m.Rebuffed e m' := by
  refine (onLedger_ensures (Q := fun _ => True) ?_).mono ?_ fun _ _ h => h
  · exact Access.attach_ensures.mono (fun _ _ h => ⟨h, trivial⟩) fun _ _ h => h
  · rintro _ _ ⟨gate, rfl, -⟩
    exact ⟨gate, rfl⟩

theorem readSlot_ensures (slot : Slot) (m : Manager σ τ) :
    (onLedger slot.read : Program σ τ Word).Ensures m
      (fun word m' => ∃ gate, m' = m.withGate gate ∧ word = slot.word m.state)
      fun e m' => m.Rebuffed e m' :=
  onLedger_ensures (Slot.read_ensures slot)

/-- The market is read from the state, or a request for it is refused. -/
theorem readMarket_ensures (m : Manager σ τ) :
    (readMarket : Program σ τ _).Ensures m
      (fun market m' => ∃ gate, m' = m.withGate gate ∧ marketIn m.state = .ok market)
      fun e m' => m.Rebuffed e m' ∨
        ∃ gate, m' = m.withGate gate ∧ marketIn m.state = .error e := by
  simp only [readMarket, ensures_bind]
  refine (readSlot_ensures _ m).mono ?_ fun _ _ => .inl
  rintro supply _ ⟨gate₁, rfl, rfl⟩
  refine (readSlot_ensures _ _).mono ?_ fun _ _ h => .inl h.of_withGate
  rintro price _ ⟨gate₂, rfl, rfl⟩
  refine (readSlot_ensures _ _).mono ?_ fun _ _ h => .inl h.of_withGate.of_withGate
  rintro word _ ⟨gate₃, rfl, rfl⟩
  unfold marketIn
  split
  · next volatility hvolatility =>
    change (Slot.marketVolatility.word m.state).toUInt64 = .ok volatility at hvolatility
    rw [hvolatility]
    exact ⟨gate₃, rfl, rfl⟩
  · next e he =>
    change (Slot.marketVolatility.word m.state).toUInt64 = .error e at he
    rw [he]
    exact .inr ⟨gate₃, rfl, rfl⟩

/-- The treasury is resolved from the state, or a request for it is refused. -/
theorem resolveTreasury_ensures (m : Manager σ τ) :
    (resolveTreasury : Program σ τ Address).Ensures m
      (fun treasury m' => ∃ gate, m' = m.withGate gate ∧
        treasuryIn m.settings m.state = .ok treasury)
      fun e m' => m.Rebuffed e m' ∨
        ∃ gate, m' = m.withGate gate ∧ treasuryIn m.settings m.state = .error e := by
  simp only [resolveTreasury, ensures_bind, ensures_get]
  unfold treasuryIn
  cases m.settings.treasury with
  | some treasury => exact ⟨m.desk.access.gate, rfl, rfl⟩
  | none =>
    simp only [ensures_bind]
    refine (readSlot_ensures _ m).mono ?_ fun _ _ => .inl
    rintro word _ ⟨gate, rfl, rfl⟩
    cases (Slot.treasuryAddress.word m.state).toAddress with
    | error e => exact .inr ⟨gate, rfl, rfl⟩
    | ok treasury =>
      dsimp only
      split
      · exact .inr ⟨gate, rfl, rfl⟩
      · exact ⟨gate, rfl, rfl⟩

/-! ## Until the update is due -/

section Cycles

variable [DecisionSource τ]

/-- What the source answers when it is asked for a decision on a market. -/
def answerOn (market : Word × Word × UInt8) (moment : Moment) (source : τ) :
    Except SourceError Decision × τ :=
  (DecisionSource.decide moment market.1 market.2.1 market.2.2).apply source

/-- The cycle fails with the error for want of a decision. -/
inductive Undecided (σ : Type) [Gate σ] (moment : Moment) (s : State) (source : τ) :
    UpdateError → Prop
  | refused {e : UpdateError} (h : UpdateError.Refused σ e) : Undecided σ moment s source e
  | unread {e : UpdateError} (h : marketIn s = .error e) : Undecided σ moment s source e
  | unanswered {market : Word × Word × UInt8} {c : SourceError} (hmarket : marketIn s = .ok market)
    (h : (answerOn market moment source).1 = .error c) : Undecided σ moment s source (.source c)

/-- The update tells of the source's decision on the market, and its values have been written. -/
structure Prepared (now : Instant) (m : Manager σ τ) (u : ValueUpdate) (m' : Manager σ τ) :
    Prop where
  decision : ∃ market, marketIn m.state = .ok market ∧
    answerOn market (m.moment now) m.desk.source = (.ok u.decision, m'.desk.source)
  state : m'.state = m.state.setSlots u.writes
  settings : m'.settings = m.settings
  phase : m'.phase = m.phase

/-- The decision is the source's answer on the market. A failure on the way leaves the state as it
is. -/
theorem obtainDecision_ensures (now : Instant) (observed : Option Instant) (m : Manager σ τ) :
    (obtainDecision now observed : Program σ τ Decision).Ensures m
      (fun d m' => (∃ market, marketIn m.state = .ok market ∧
        answerOn market (m.moment now) m.desk.source = (.ok d, m'.desk.source)) ∧
        m'.state = m.state ∧ m'.settings = m.settings ∧ m'.phase = m.phase)
      fun e m' => Undecided σ (m.moment now) m.state m.desk.source e ∧
        (e.Early ∨ ∃ c, e = .ledger c) ∧ m'.state = m.state := by
  simp only [obtainDecision, ensures_bind, ensures_get]
  refine (readMarket_ensures m).mono ?_ ?_
  · rintro market _ ⟨gate, rfl, hmarket⟩
    simp only [onSource, onDesk, ensures_on, ensures_failingWith]
    refine (ensures_apply _ m.desk.source).mono ?_ ?_
    · intro d source hanswer
      simp only [note, ensures_modify]
      split
      · exact ⟨⟨market, hmarket, hanswer⟩, rfl, rfl, rfl⟩
      · exact ⟨⟨market, hmarket, hanswer⟩, rfl, rfl, rfl⟩
    · intro c source hanswer
      exact ⟨.unanswered hmarket (congrArg (·.1) hanswer), .inl (.source c), rfl⟩
  · rintro e _ (hrebuffed | ⟨gate, rfl, hunread⟩)
    · exact ⟨.refused hrebuffed.refused, .inr hrebuffed.eq_ledger, hrebuffed.state⟩
    · exact ⟨.unread hunread, .inl (early_of_marketIn hunread), rfl⟩

/-- The source is asked for the time of its data first. -/
theorem prepare_ensures (now : Instant) (m : Manager σ τ) :
    (prepare now : Program σ τ ValueUpdate).Ensures m
      (fun u m' => m.asked.Prepared now u m')
      fun e _ => Undecided σ (m.moment now) m.state m.asked.desk.source e := by
  simp only [prepare, ensures_bind]
  show Act.Ensures _ m.asked _ _
  refine (attach_ensures _).mono ?_ fun _ _ h => .refused h.refused
  rintro _ _ ⟨gate, rfl⟩
  refine (obtainDecision_ensures now _ _).mono ?_ fun _ _ h => h.1
  rintro d m₁ ⟨hdecision, hstate₁, hsettings₁, hphase₁⟩
  refine (recordValues_ensures d _ m₁).mono ?_ ?_
  · rintro u _ ⟨rfl, -, -, access, rfl, hwritten⟩
    rw [hstate₁] at hwritten
    exact ⟨hdecision, hwritten, hsettings₁, hphase₁⟩
  · rintro e _ ⟨c, _, _, rfl, hrefusal, -⟩
    exact .refused (.ledger hrefusal)

/-! ## After the update -/

/-- The cycle fails with the error when it applies its decision. -/
inductive Unconcluded (σ : Type) [Gate σ] (moment : Moment) (settings : ManagerSettings)
    (d : Decision) (s : State) (source : τ) : UpdateError → Prop
  | refused {e : UpdateError} (h : UpdateError.Refused σ e) :
    Unconcluded σ moment settings d s source e
  | unresolved {e : UpdateError} (hhold : ¬ d.IsHold) (h : treasuryIn settings s = .error e) :
    Unconcluded σ moment settings d s source e
  | rejected {treasury : Address} {c : AdjustmentError} (hhold : ¬ d.IsHold)
    (htreasury : treasuryIn settings s = .ok treasury)
    (hfeasible : verdict moment d treasury s source = .feasible) (h : Rejects d treasury s c) :
    Unconcluded σ moment settings d s source (.adjustment c)

/-- The decision comes to the outcome. Whoever the treasury is does not matter to a decision to
hold. -/
def Concludes (moment : Moment) (settings : ManagerSettings) (d : Decision) (s : State)
    (source : τ) (outcome : Outcome) : Prop :=
  ∃ treasury, (¬ d.IsHold → treasuryIn settings s = .ok treasury) ∧
    Grants d treasury s (verdict moment d treasury s source) outcome

/-- An attempt as a manager makes it. -/
theorem applyDecision_ensures (now : Instant) (d : Decision) (treasury : Address)
    (m : Manager σ τ) :
    (applyDecision now d treasury : Program σ τ Outcome).Ensures m
      (fun outcome _ => Grants d treasury m.state
        (verdict (m.moment now) d treasury m.state m.desk.source) outcome)
      fun e _ => UpdateError.Refused σ e ∨ ∃ c, e = .adjustment c ∧ ¬ d.IsHold ∧
        verdict (m.moment now) d treasury m.state m.desk.source = .feasible ∧
        Rejects d treasury m.state c := by
  simp only [applyDecision, onDesk, ensures_bind, ensures_get, ensures_on, ensures_failingWith]
  refine (apply_judges (m.moment now) d treasury m.desk).mono (fun _ _ h => h) ?_
  rintro c _ (hrefused | hrejected)
  · exact .inl (.adjustment hrefused)
  · exact .inr ⟨c, rfl, hrejected⟩

/-- Once it has its decision, a cycle concludes by the state and the source alone, or stops with a
failure that one of them explains. -/
theorem conclude_ensures (now : Instant) (d : Decision) (m : Manager σ τ) :
    (conclude now d : Program σ τ UpdateReport).Ensures m
      (fun report _ => report.decision = d ∧
        Concludes (m.moment now) m.settings d m.state m.desk.source report.outcome)
      fun e _ => Unconcluded σ (m.moment now) m.settings d m.state m.desk.source e := by
  unfold conclude
  split
  · next hhold =>
    simp only [ensures_bind, ensures_pure]
    refine (applyDecision_ensures now d .zero m).mono ?_ ?_
    · intro outcome _ h
      exact ⟨trivial, .zero, absurd hhold, h⟩
    · rintro e _ (hrefused | ⟨c, -, hnot, -⟩)
      · exact .refused hrefused
      · exact absurd hhold hnot
  · next hhold =>
    simp only [ensures_bind, ensures_pure]
    refine (resolveTreasury_ensures m).mono ?_ ?_
    · rintro treasury _ ⟨gate, rfl, htreasury⟩
      refine (applyDecision_ensures now d treasury _).mono ?_ ?_
      · intro outcome _ h
        exact ⟨trivial, treasury, fun _ => htreasury, h⟩
      · rintro e _ (hrefused | ⟨c, rfl, -, hfeasible, hrejects⟩)
        · exact .refused hrefused
        · exact .rejected hhold htreasury hfeasible hrejects
    · rintro e _ (hrebuffed | ⟨_, -, hunresolved⟩)
      · exact .refused hrebuffed.refused
      · exact .unresolved hhold hunresolved

/-! ## Whole cycles -/

/-- How a cycle of the manager ends. -/
def Settles (now : Instant) (m : Manager σ τ) : Except UpdateError UpdateReport → Prop
  | .ok report => ∃ u m', m.asked.Prepared now u m' ∧ report.decision = u.decision ∧
    Concludes (m.moment now) m.settings u.decision m'.state m'.desk.source report.outcome
  | .error e => Undecided σ (m.moment now) m.state m.asked.desk.source e ∨
    ∃ u m', m.asked.Prepared now u m' ∧
      Unconcluded σ (m.moment now) m.settings u.decision m'.state m'.desk.source e

/-- How a cycle settles is told by the manager that it starts from. -/
theorem decideAndApply_settles (now : Instant) (m : Manager σ τ) :
    (decideAndApply now : Program σ τ UpdateReport).Ensures m
      (fun report _ => Settles now m (.ok report)) fun e _ => Settles now m (.error e) := by
  simp only [decideAndApply, ensures_bind, ensures_modify]
  refine (prepare_ensures now m).mono ?_ fun _ _ => .inl
  intro u m₁ hprepared
  have hmoment : m₁.moment now = m.moment now := congrArg (Moment.mk now) hprepared.phase
  have hsettings : m₁.settings = m.settings := hprepared.settings
  refine (conclude_ensures now u.decision _).mono ?_ ?_
  · rintro report _ ⟨hdecision, hconcludes⟩
    refine ⟨u, m₁, hprepared, hdecision, ?_⟩
    rw [← hmoment, ← hsettings]
    exact hconcludes
  · intro e _ hunconcluded
    refine .inr ⟨u, m₁, hprepared, ?_⟩
    rw [← hmoment, ← hsettings]
    exact hunconcluded

/-- Noting and counting a cycle change nothing of how it ends. -/
theorem cycle_settles (now : Instant) (m : Manager σ τ) :
    m.Settles now ((cycle now).apply m).1 := by
  have hsettles := (ensures_iff (R := fun result _ => m.begun.Settles now result)).1
    (decideAndApply_settles now m.begun)
  rw [apply_cycle]
  cases hresult : ((decideAndApply now).apply m.begun).1 with
  | ok report =>
    rw [hresult] at hsettles
    obtain ⟨u, m', h, hreport⟩ := hsettles
    exact ⟨u, m', ⟨h.decision, h.state, h.settings, h.phase⟩, hreport⟩
  | error e =>
    rw [hresult] at hsettles
    rcases hsettles with hundecided | ⟨u, m', h, hunconcluded⟩
    · exact .inl hundecided
    · exact .inr ⟨u, m', ⟨h.decision, h.state, h.settings, h.phase⟩, hunconcluded⟩

omit [Digest] [Gate σ] [DecisionSource τ] in
theorem desk_beginChecking (m : Manager σ τ) : m.beginChecking.desk = m.desk := by
  unfold beginChecking
  split <;> rfl

omit [Digest] [Gate σ] [DecisionSource τ] in
theorem settings_beginChecking (m : Manager σ τ) : m.beginChecking.settings = m.settings := by
  unfold beginChecking
  split <;> rfl

omit [Digest] [Gate σ] [DecisionSource τ] in
theorem state_beginChecking (m : Manager σ τ) : m.beginChecking.state = m.state := by
  rw [state, desk_beginChecking, state]

omit [Digest] [Gate σ] [DecisionSource τ] in
theorem state_endChecking (m : Manager σ τ) : m.endChecking.state = m.state := by
  unfold endChecking
  split <;> rfl

theorem process_settles (now : Instant) (m : Manager σ τ) :
    m.beginChecking.Settles now ((process now).apply m).1 := by
  rw [process, apply_whileChecking]
  exact cycle_settles now m.beginChecking

end Cycles

end Manager

end StableSupply
