import StableSupply.Proofs.Manager.Failure
import StableSupply.Proofs.Manager.Intact
import StableSupply.Simulation.Faults

/-! # What the ledger holds is never to blame

On an undamaged state (`Intact`) an operation fails because a request was refused, or for a reason
that lies with the source, the decision or the manager (`UpdateError.Expected`). Every run from a
seeded ledger stays on undamaged states, so no operation ever finds a record or a slot that does not
decode (`Manager.run_durable`). -/

namespace StableSupply

open Engine Gate

/-! ## Errors -/

/-- Something that the ledger holds does not decode. -/
inductive UpdateError.Corruption : UpdateError → Prop
  | state (reason : String) : Corruption (.corruptState reason)
  | history (index : UInt64) (reason : String) : Corruption (.journal (.corrupted index reason))
  | append (index : UInt64) (reason : String) :
    Corruption (.adjustment (.journal (.corrupted index reason)))

/-- The decision asks for more than the amounts allow. -/
inductive AdjustmentError.OfAmounts : AdjustmentError → Prop
  | insufficientBalance (treasury : Address) (balance required : Word) :
    OfAmounts (.insufficientBalance treasury balance required)
  | supplyUnderflow (current delta minimum : Word) :
    OfAmounts (.supplyUnderflow current delta minimum)
  | overflow (quantity : Quantity) : OfAmounts (.overflow quantity)

/-- The error is that of a refused request, or lies with the source, the decision or the manager. -/
inductive UpdateError.Expected (σ : Type) [Gate σ] : UpdateError → Prop
  | refused {e : UpdateError} (h : e.Refused σ) : Expected σ e
  | source (cause : SourceError) : Expected σ (.source cause)
  | sourceTimeout (limit : Duration) : Expected σ (.sourceTimeout limit)
  | amounts {cause : AdjustmentError} (h : cause.OfAmounts) : Expected σ (.adjustment cause)
  | missingTreasury : Expected σ .missingTreasury
  | stopped : Expected σ .stopped

/-- What may be expected of a sound ledger is never that something does not decode. -/
theorem UpdateError.Expected.not_corruption {σ : Type} [Gate σ] {e : UpdateError}
    (h : e.Expected σ) : ¬ e.Corruption := by
  intro hcorruption
  cases hcorruption with
  | state reason =>
    cases h with
    | refused h => cases h
  | history index reason =>
    cases h with
    | refused h =>
      obtain ⟨c, hc, -⟩ : Journal.Refused σ _ := by
        cases h with
        | journal h => exact h
      cases hc
  | append index reason =>
    cases h with
    | refused h =>
      obtain ⟨c, hc, -⟩ | ⟨c, hc, c', hc', -⟩ : Engine.Refused σ _ := by
        cases h with
        | adjustment h => exact h
      · cases hc
      · cases hc
        cases hc'
    | amounts h => cases h

/-! ## Plans -/

theorem Engine.newSupply_eq_error {kind : Kind} {treasury : Address}
    {balance minimum supply delta counterpart : Word} {e : AdjustmentError}
    (h : newSupply kind treasury balance minimum supply delta counterpart = .error e) :
    e.OfAmounts := by
  cases kind with
  | none => cases h
  | expansion =>
    simp only [newSupply] at h
    split at h
    · cases h
      exact .insufficientBalance ..
    · split at h
      · cases h
      · cases h
        exact .overflow _
  | contraction =>
    simp only [newSupply] at h
    split at h
    · cases h
      exact .overflow _
    · split at h
      · split at h
        · cases h
        · cases h
          exact .supplyUnderflow ..
      · cases h
        exact .supplyUnderflow ..

theorem Engine.planOf_eq_error {d : Decision} {treasury : Address} {balance minimum supply : Word}
    {e : AdjustmentError} (h : planOf d treasury balance minimum supply = .error e) :
    e.OfAmounts := by
  simp only [planOf, bind, Except.bind] at h
  split at h
  · next hdelta =>
    cases h
    obtain ⟨-, rfl⟩ := fit_eq_error.1 hdelta
    exact .overflow _
  split at h
  · next hcounterpart =>
    cases h
    obtain ⟨-, rfl⟩ := fit_eq_error.1 hcounterpart
    exact .overflow _
  split at h
  · next hclaimed =>
    cases h
    obtain ⟨-, rfl⟩ := fit_eq_error.1 hclaimed
    exact .overflow _
  split at h
  · next hsupply =>
    cases h
    exact newSupply_eq_error hsupply
  · cases h

section Undamaged

variable [Digest] {token : StableToken} {records : List HistoryRecord} {s : State}

namespace Intact

/-- Where the history has room for another record, only amounts speak against a decision. -/
theorem rejects (hsep : Digest.Separates token) (h : Intact records s)
    (hroom : records.length + 1 < 2 ^ 64) {d : Decision} {treasury : Address} {e : AdjustmentError}
    (hhold : ¬ d.IsHold) (hrejects : Rejects d treasury s e) : e.OfAmounts := by
  cases hrejects with
  | unplanned hplan => exact planOf_eq_error hplan
  | @unrecorded p after c hplan hindex =>
    have hcount : Journal.countIn journalAccount ((s.setBalance treasury after).setSlots
        [Slot.currentSupply.set p.newSupply]) = .ok (.ofNat records.length) := by
      rw [← h.history.countIn]
      exact Journal.countIn_congr
        (Slot.word_set_of_ne hsep Slot.inUse_currentSupply Slot.inUse_historyCount (by decide))
    have hnext := Journal.nextIndex_eq_ok.2 ⟨hhold, hcount, by
      rwa [UInt64.toNat_ofNat_of_lt' h.history.length_lt]⟩
    rw [hindex] at hnext
    cases hnext

variable {σ : Type} [Gate σ]

/-- On an intact state the market is read. -/
theorem marketIn_ne_error (h : Intact records s) {e : UpdateError} :
    Manager.marketIn s ≠ .error e := by
  obtain ⟨n, hn⟩ := h.volatility
  rw [Manager.marketIn, hn]
  nofun

/-- On an intact state the treasury is missing, if anything. -/
theorem treasuryIn_eq_error (h : Intact records s) {settings : ManagerSettings} {e : UpdateError}
    (herror : Manager.treasuryIn settings s = .error e) : e = .missingTreasury := by
  unfold Manager.treasuryIn at herror
  obtain ⟨account, haccount⟩ := h.treasury
  split at herror
  · cases herror
  · rw [haccount] at herror
    dsimp only at herror
    split at herror
    · exact (Except.error.inj herror).symm
    · cases herror

/-- The values of an update go to slots that nothing else is in. -/
theorem prepared (hsep : Digest.Separates token) (h : Intact records s) (u : ValueUpdate) :
    Intact records (s.setSlots u.writes) :=
  ((h.observed hsep (by decide)).observed hsep (by decide)).observed hsep (by decide)

end Intact

namespace Manager

open Act

variable {σ τ α : Type} [Gate σ]

/-! ## Operations -/

/-- Reading an intact history gives its last records, unless a request is refused. -/
theorem history_ensures (m : Manager σ τ) (h : Intact records m.state) (max : UInt64) :
    (history max : Program σ τ (List HistoryRecord)).Ensures m
      (fun answer _ => answer = records.drop (records.length - max.toNat))
      fun e _ => e.Refused σ := by
  simp only [history, ensures_bind]
  refine (attach_ensures m).mono ?_ fun _ _ h => h.refused
  rintro _ _ ⟨gate, rfl⟩
  simp only [onDesk, Engine.onLedger, ensures_on, ensures_failingWith]
  have hrecords : Journal.lastRecords journalAccount max m.state =
      .ok (records.drop (records.length - max.toNat)) := h.history.lastRecords max
  refine (Journal.query_answers journalAccount max (m.withGate gate).desk.access rfl).mono ?_ ?_
  · rintro answer _ ⟨-, hanswer⟩
    exact (Except.ok.inj (hrecords.symm.trans hanswer)).symm
  · rintro e _ ⟨-, herror | hrefused⟩
    · cases hrecords.symm.trans herror
    · exact .journal hrefused

variable [DecisionSource τ]

theorem settles_expected (hsep : Digest.Separates token) (hroom : records.length + 1 < 2 ^ 64)
    {now : Instant} {m : Manager σ τ} (h : Intact records m.state) {e : UpdateError}
    (hsettles : m.Settles now (.error e)) : e.Expected σ := by
  rcases hsettles with hundecided | ⟨u, m', hprepared, hunconcluded⟩
  · cases hundecided with
    | refused hrefused => exact .refused hrefused
    | unread hunread => exact absurd hunread h.marketIn_ne_error
    | unanswered _ _ => exact .source _
  · have hasked : Intact records m.asked.state := h
    have h' : Intact records m'.state := hprepared.state ▸ hasked.prepared hsep u
    cases hunconcluded with
    | refused hrefused => exact .refused hrefused
    | unresolved _ herror =>
      rw [h'.treasuryIn_eq_error herror]
      exact .missingTreasury
    | rejected hhold _ _ hrejects => exact .amounts (h'.rejects hsep hroom hhold hrejects)

/-- A cycle, as it runs by itself or within an operation. -/
theorem cycle_expected (hsep : Digest.Separates token) (hroom : records.length + 1 < 2 ^ 64)
    (now : Instant) {m : Manager σ τ} (h : Intact records m.state) {e : UpdateError}
    (he : ((cycle now).apply m).1 = .error e) : e.Expected σ := by
  have hsettles := cycle_settles now m
  rw [he] at hsettles
  exact settles_expected hsep hroom h hsettles

theorem process_expected (hsep : Digest.Separates token) (hroom : records.length + 1 < 2 ^ 64)
    (now : Instant) {m : Manager σ τ} (h : Intact records m.state) :
    (process now : Program σ τ UpdateReport).Ensures m (fun _ _ => True)
      fun e _ => e.Expected σ := by
  refine (ensures_apply (process now) m).mono (fun _ _ _ => trivial) ?_
  intro e m' happly
  have hsettles := process_settles now m
  rw [happly] at hsettles
  rw [← m.state_beginChecking] at h
  exact settles_expected hsep hroom h hsettles

omit [Digest] in
/-- A query leaves the ledger alone. -/
theorem settleQuery_ensures (now : Instant) (limit : Duration) (answered : Bool)
    (m : Manager σ τ) :
    (settleQuery now limit answered : Program σ τ Unit).Ensures m
      (fun _ m' => m'.state = m.state) fun e _ => e.Expected σ := by
  unfold settleQuery
  split
  · simp only [ensures_bind, ensures_get, onSource, onDesk, ensures_on, ensures_failingWith]
    exact (ensures_apply _ m.desk.source).mono (fun _ _ _ => rfl) fun c _ _ => .source c
  · exact .sourceTimeout limit

theorem applyAdjustment_expected (hsep : Digest.Separates token)
    (hroom : records.length + 1 < 2 ^ 64) (now : Instant) (d : Decision) (treasury : Address)
    {m : Manager σ τ} (h : Intact records m.state) :
    (applyAdjustment now d treasury : Program σ τ Outcome).Ensures m (fun _ _ => True)
      fun e _ => e.Expected σ := by
  simp only [applyAdjustment, ensures_bind]
  refine (attach_ensures m).mono ?_ fun _ _ h => .refused h.refused
  rintro _ _ ⟨gate, rfl⟩
  refine (applyDecision_ensures now d treasury _).mono (fun _ _ _ => trivial) ?_
  rintro e _ (hrefused | ⟨c, rfl, hhold, -, hrejects⟩)
  · exact .refused hrefused
  · have h₁ : Intact records (m.withGate gate).state := h
    exact .amounts (h₁.rejects hsep hroom hhold hrejects)

/-- A check does not report how its cycle failed. -/
theorem check_ensures {ε : Type} (now : Instant) (m : Manager σ τ) :
    (check now : Act (Manager σ τ) ε (Option UpdateReport)).Ensures m (fun _ _ => True)
      fun _ _ => False := by
  simp only [check, ensures_bind, ensures_get]
  split
  · trivial
  simp only [whileChecking, catchUp, ensures_bind, ensures_modify, ensures_attempt,
    ensures_liftExcept]
  refine (ensures_apply askLastUpdate _).mono ?_ ?_
  · intro latest m₁ _
    simp only [ensures_get]
    split
    · simp only [ensures_bind, ensures_attempt]
      exact (ensures_apply (cycle now) m₁).mono (fun _ _ _ => trivial) fun _ _ _ => trivial
    · trivial
  · intro e m₁ happly
    cases happly

/-- On an intact state every operation ends as may be expected. -/
theorem perform_expected (hsep : Digest.Separates token) (hroom : records.length + 1 < 2 ^ 64)
    (now : Instant) (operation : Operation) {m : Manager σ τ} (h : Intact records m.state) :
    (perform now operation : Program σ τ Answer).Ensures m (fun _ _ => True)
      fun e _ => e.Expected σ := by
  cases operation with
  | start =>
    simp only [perform, start, ensures_bind, ensures_get, ensures_pure]
    split
    · exact .stopped
    split
    · simp only [onSource, onDesk, ensures_bind, ensures_on, ensures_failingWith, ensures_modify]
      exact (ensures_apply _ m.desk.source).mono (fun _ _ _ => trivial) fun c _ _ => .source c
    · trivial
  | stop => trivial
  | check =>
    simp only [perform, ensures_bind, ensures_pure]
    exact (check_ensures now m).mono (fun _ _ _ => trivial) fun _ _ h => h.elim
  | process =>
    simp only [perform, ensures_bind, ensures_pure]
    exact process_expected hsep hroom now h
  | refresh =>
    simp only [perform, refresh, ensures_bind, ensures_get, ensures_pure]
    exact (settleQuery_ensures now _ _ m).mono (fun _ _ _ => trivial) fun _ _ h => h
  | force limit =>
    simp only [perform, force, ensures_bind, ensures_get, ensures_pure]
    split
    · exact .stopped
    · simp only [ensures_bind]
      refine (settleQuery_ensures now limit _ m).mono ?_ fun _ _ h => h
      intro _ m₁ hstate
      exact process_expected hsep hroom now (hstate ▸ h)
  | apply d treasury =>
    simp only [perform, ensures_bind, ensures_pure]
    exact applyAdjustment_expected hsep hroom now d treasury h
  | observe value =>
    simp only [perform, observe, ensures_bind, ensures_modify, ensures_pure]
    refine (attach_ensures _).mono ?_ fun _ _ h => .refused h.refused
    intro _ m₁ _
    simp only [onLedger, onDesk, Engine.onLedger, ensures_on, ensures_failingWith]
    exact (Slot.write_ensures .currentValue value).mono (fun _ _ _ => trivial)
      fun _ _ h => .refused (.ledger h.2)
  | history max =>
    simp only [perform, ensures_bind, ensures_pure]
    exact (history_ensures m h max).mono (fun _ _ _ => trivial) fun _ _ => .refused

/-! ## Runs -/

/-- Follows a run from the state that genesis left, whatever the source answers and whatever the gate
refuses, reversals included. At any two points of it the history consists of records that can be
read, and those of the first point are still there at the second. Reading the history gives the last
of them unless a request is refused; an operation, or a cycle begun on that ledger, never fails
because something there does not decode. -/
theorem run_durable {ρ : Type} [Gate ρ] {accounts : Genesis.Accounts} {value : ValueToken}
    {stable : StableToken} {staking : Staking} {now : UInt64} {before after : Access ρ}
    {report : Genesis.Report} (hsep : Digest.Separates stable)
    (hgenesis : (Genesis.run accounts value stable staking now).apply before =
      (.ok report, after))
    (m : Manager σ τ) (hm : m.state = after.ledger.state)
    (earlier later : List (Event σ τ)) :
    let m₁ := (m.run earlier).2
    let m₂ := (m₁.run later).2
    ∃ records₁ records₂, Journal.Holds records₁ m₁.state ∧ Journal.Holds records₂ m₂.state ∧
      records₁ <+: records₂ ∧
      (∀ max, (history max : Program σ τ (List HistoryRecord)).Ensures m₂
        (fun answer _ => answer = records₂.drop (records₂.length - max.toNat))
        fun e _ => e.Refused σ) ∧
      (records₂.length + 1 < 2 ^ 64 →
        (∀ now operation e, ((perform now operation).apply m₂).1 = .error e →
          e.Expected σ ∧ ¬ e.Corruption) ∧
        ∀ m' : Manager σ τ, m'.state = m₂.state → ∀ now e,
          ((cycle now).apply m').1 = .error e → e.Expected σ ∧ ¬ e.Corruption) := by
  have hintact : Intact [] m.state := hm ▸ Genesis.intact_of_run hsep hgenesis
  obtain ⟨records₁, h₁⟩ := hintact.course hsep (m.run_course earlier)
  obtain ⟨entered, h₂⟩ := h₁.course hsep ((m.run earlier).2.run_course later)
  refine ⟨_, _, h₁.history, h₂.history, List.prefix_append .., history_ensures _ h₂, ?_⟩
  intro hroom
  constructor
  · intro now operation e he
    have hexpected : e.Expected σ := (perform_expected hsep hroom now operation h₂).of_error
      (Prod.ext he rfl)
    exact ⟨hexpected, hexpected.not_corruption⟩
  · intro m' hstate now e he
    have hexpected : e.Expected σ := cycle_expected hsep hroom now (hstate ▸ h₂) he
    exact ⟨hexpected, hexpected.not_corruption⟩

end Manager

end Undamaged

/-! ### A torn record -/

namespace Manager

/-- A manager on the ledger of `Genesis.sample` that refuses reversals and, after three writes, all
further ones. -/
def tearing : Manager Simulation.FaultGate PegBand.State :=
  .initial .default
    ⟨Genesis.sampleAccess.ledger, { Simulation.FaultGate.initial with
      faults := { revert := true, writeBudget := some 3 } }⟩
    (.initial .default)

/-- Applies a contraction. The supply and two slots of its record are written. -/
def torn : Manager Simulation.FaultGate PegBand.State :=
  (@run _ _ Radix.digest _ _ tearing
    [.operation ⟨0⟩ (.apply ⟨.contraction, .ofWord (units 5), .ofWord (units 7), 0,
      .ofWord (units 999995), 0⟩ Genesis.sampleAccounts.treasury)]).2

/-- Applies an expansion once the gate lets everything pass. -/
def mended : Manager Simulation.FaultGate PegBand.State :=
  (@run _ _ Radix.digest _ _ torn
    [.elsewhere id id fun _ => Simulation.FaultGate.initial,
     .operation ⟨0⟩ (.apply ⟨.expansion, .ofWord (units 2), .zero, 0, .ofWord (units 999997), 0⟩
      Genesis.sampleAccounts.treasury)]).2

/-- The torn record is not counted, and the next one takes its place. -/
theorem run_durable_mended :
    @Journal.counted Radix.digest torn.state = .ok 0 ∧
    torn.state.slot SystemAccount.stableToken (@HistoryField.key Radix.digest .kind 0) =
      .ofUInt64 Kind.contraction.code ∧
    @Journal.counted Radix.digest mended.state = .ok 1 ∧
    @Journal.recorded Radix.digest 0 mended.state = .ok ⟨0, .expansion, units 2, .zero, 0,
      units 999997, units 999997, 0⟩ ∧
    ∃ records₁ records₂, @Journal.Holds Radix.digest records₁ torn.state ∧
      @Journal.Holds Radix.digest records₂ mended.state ∧ records₁ <+: records₂ := by
  have hstate : tearing.state = Genesis.sampleAccess.ledger.state := by
    simp only [state, tearing, initial]
  have hdurable := @run_durable Radix.digest _ _ _ _ _ _ _ _ _ _ _ _ _ _ Radix.separates
    Genesis.sample_apply tearing hstate
    [.operation ⟨0⟩ (.apply ⟨.contraction, .ofWord (units 5), .ofWord (units 7), 0,
      .ofWord (units 999995), 0⟩ Genesis.sampleAccounts.treasury)]
    [.elsewhere id id fun _ => Simulation.FaultGate.initial,
     .operation ⟨0⟩ (.apply ⟨.expansion, .ofWord (units 2), .zero, 0, .ofWord (units 999997), 0⟩
      Genesis.sampleAccounts.treasury)]
  obtain ⟨records₁, records₂, h₁, h₂, hprefix, -⟩ := hdurable
  refine ⟨?_, ?_, ?_, ?_, records₁, records₂, h₁, h₂, hprefix⟩
  all_goals decide +kernel

end Manager

end StableSupply
