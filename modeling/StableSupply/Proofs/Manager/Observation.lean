import StableSupply.Proofs.Manager.Failure
import StableSupply.Proofs.Manager.News

/-! # Observations that are half recorded

A market observation goes to the source first and then to the ledger. If it succeeds both hold it. If
a request is refused the ledger is as it was, but the source keeps what it was told, and the manager
goes on as if the source had been told by somebody else (`Manager.observe_halves`). So the next check
can run a cycle on an observation that was reported as failed
(`Manager.refused_observation_adjusts`). -/

namespace StableSupply

open Engine Gate

/-- What a peg controller holds once it was told of an observation. -/
def PegBand.State.told (now : Instant) (value : Word) (source : PegBand.State) : PegBand.State :=
  { source with current := value, lastUpdate := some now }

namespace Manager

open Act

section Observing

variable {σ : Type} [Digest] [Gate σ] {m m' : Manager σ PegBand.State}

/-- The manager after its source alone was told. -/
def tell (now : Instant) (value : Word) (m : Manager σ PegBand.State) : Manager σ PegBand.State :=
  { m with desk.source := m.desk.source.told now value }

/-- The source and the ledger hold the observation, and nothing else has changed. -/
structure Recorded (now : Instant) (value : Word) (m m' : Manager σ PegBand.State) : Prop where
  source : m'.desk.source = m.desk.source.told now value
  slot : Slot.currentValue.word m'.state = value
  slots : ∀ owner key, (owner, key) ≠ (Slot.currentValue.owner, Slot.currentValue.key) →
    m'.state.slot owner key = m.state.slot owner key
  balances : ∀ account, m'.state.balance account = m.state.balance account
  rest : ∃ access, m' = { m.tell now value with desk.access := access }

/-- The source holds the observation, the ledger does not, and nothing else has changed. -/
structure HalfRecorded (now : Instant) (value : Word) (e : UpdateError)
    (m m' : Manager σ PegBand.State) : Prop where
  refused : ∃ c, e = .ledger c ∧ Refusal σ c
  source : m'.desk.source = m.desk.source.told now value
  ledger : m'.desk.access.ledger = m.desk.access.ledger
  /-- It is only without effect where the source held the same already. -/
  idle_iff : m'.desk.source = m.desk.source ↔
    m.desk.source.current = value ∧ m.desk.source.lastUpdate = some now
  /-- All goes on as if the source had been told by somebody else. -/
  later : ∃ gate : σ, ∀ events,
    m'.run events = m.run (.elsewhere (·.told now value) id (fun _ => gate) :: events)
  /-- The observation is news to a check unless something as late was used up before. -/
  check : m.phase ≠ .stopped → ∀ t : Instant,
    ∃ noted, Passage m' noted ((perform t .check).apply m').2 ∧
      (.cycle ∈ noted ↔ ∀ used, m.lastApplied = some used → used < now)

omit [Digest] in
/-- Being told makes no difference only to a source that holds the value from the same moment. -/
theorem told_eq_iff {now : Instant} {value : Word} {source : PegBand.State} :
    source.told now value = source ↔ source.current = value ∧ source.lastUpdate = some now := by
  constructor
  · intro h
    rw [← h]
    exact ⟨rfl, rfl⟩
  · rintro ⟨rfl, hlast⟩
    obtain ⟨_, _, _, _, _, _⟩ := source
    obtain rfl : _ = some now := hlast
    rfl

theorem halfRecorded_withGate {now : Instant} {value : Word} {c : LedgerError} (gate : σ)
    (h : Refusal σ c) : HalfRecorded now value (.ledger c) m ((m.tell now value).withGate gate) where
  refused := ⟨c, rfl, h⟩
  source := rfl
  ledger := rfl
  idle_iff := told_eq_iff
  later := ⟨gate, fun _ => rfl⟩
  check hphase t := by
    obtain ⟨noted, hpassage, hcycle, -⟩ :=
      check_passage (m := (m.tell now value).withGate gate) hphase t
    refine ⟨noted, hpassage, hcycle.trans ⟨?_, fun h => ⟨now, rfl, h⟩⟩⟩
    rintro ⟨_, ⟨⟩, hlater⟩
    exact hlater

omit [Gate σ] in
/-- Where the value is written, both the source and the slot hold it. -/
theorem recorded_write {now : Instant} {value : Word} {access : Access σ}
    (h : access.ledger = m.desk.access.ledger.setSlots [Slot.currentValue.set value]) :
    Recorded now value m { m.tell now value with desk.access := access } := by
  have hstate : access.ledger.state = m.state.setSlots [Slot.currentValue.set value] := by
    rw [h]
    rfl
  refine ⟨rfl, ?_, fun owner key hne => ?_, fun account => ?_, access, rfl⟩
  · refine (congrArg Slot.currentValue.word hstate).trans ?_
    exact State.slot_setSlots_of_mem ⟨_, List.mem_singleton_self _, rfl⟩ (by simp [Slot.set])
  · refine (congrArg (·.slot owner key) hstate).trans (State.slot_setSlots_of_notMem ?_)
    rintro _ hw hplace
    obtain rfl := List.mem_singleton.1 hw
    exact hne hplace.symm
  · exact (congrArg (·.balance account) hstate).trans (State.balance_setSlots ..)

/-- A market observation that succeeds is held by the source and by the ledger. One that fails is held
by the source alone, whatever request was refused. -/
theorem observe_halves (now : Instant) (value : Word) (m : Manager σ PegBand.State) :
    let outcome := (observe now value : Program σ PegBand.State Unit).apply m
    (outcome.1 = .ok () → Recorded now value m outcome.2) ∧
    ∀ e, outcome.1 = .error e → HalfRecorded now value e m outcome.2 := by
  have hensures : (observe now value : Program σ PegBand.State Unit).Ensures m
      (fun _ m' => Recorded now value m m') fun e m' => HalfRecorded now value e m m' := by
    simp only [observe, ensures_bind, ensures_modify]
    show Act.Ensures _ (m.tell now value) _ _
    refine (attach_ensures _).mono ?_ ?_
    · rintro _ _ ⟨gate, rfl⟩
      simp only [onLedger, onDesk, Engine.onLedger, ensures_on, ensures_failingWith]
      refine (Slot.write_ensures Slot.currentValue value).mono ?_ ?_
      · intro _ access hwritten
        exact recorded_write hwritten
      · rintro c ⟨_, gate'⟩ ⟨rfl, hrefusal⟩
        exact halfRecorded_withGate gate' hrefusal
    · rintro _ _ ⟨gate, hrefusal⟩
      exact halfRecorded_withGate gate hrefusal
  refine ⟨fun hok => hensures.of_ok (Prod.ext hok rfl), fun e he => ?_⟩
  exact hensures.of_error (Prod.ext he rfl)

end Observing

/-! ## A refused observation that a check acts on -/

section Refused

open Simulation

/-- A manager whose ledger is not handed out. Its treasury is the reserve. -/
def unheard : Manager FaultGate PegBand.State :=
  .initial { ManagerSettings.default with treasury := some Genesis.sampleAccounts.reserve }
    cutOffAccess (.initial .default)

/-- It is told of a value two hundredths above the target. -/
def misheard : Except UpdateError Unit × Manager FaultGate PegBand.State :=
  (@observe _ _ Radix.digest _ _ ⟨5⟩ ⟨102 * 10 ^ 16, by decide⟩).apply unheard

/-- The ledger is handed out again, and a check is made. -/
def checkedLater (m : Manager FaultGate PegBand.State) :
    List AppliedAdjustment × Manager FaultGate PegBand.State :=
  @run _ _ Radix.digest _ _ m
    [.elsewhere id id fun gate => { gate with down := false }, .operation ⟨6⟩ .check]

/-- The observation is refused, and the check expands the supply for it. Without the observation it
does nothing. -/
theorem refused_observation_adjusts :
    misheard.1 = .error (.ledger (.unavailable "state refused")) ∧
    misheard.2.desk.source.current ≠ unheard.desk.source.current ∧
    misheard.2.desk.source.lastUpdate ≠ unheard.desk.source.lastUpdate ∧
    (checkedLater misheard.2).1.length = 1 ∧
    @Slot.word Radix.digest .currentSupply (checkedLater misheard.2).2.state = units 1017500 ∧
    (checkedLater unheard).1.length = 0 ∧
    @Slot.word Radix.digest .currentSupply (checkedLater unheard).2.state = units 1000000 := by
  decide +kernel

end Refused

end Manager

end StableSupply
