import StableSupply.Proofs.Genesis.Outcome

/-! # What a rejected genesis leaves

The stable token's seeder looks at its whole configuration before it writes, so a rejection by it
leaves no trace. The value token's seeder credits the allocations before it finds that a text is too
long, and genesis looks at the stable token after the value token was seeded. Such a rejection leaves
the two allocations credited (`Genesis.Remains`), and a genesis with a better configuration then
credits its own on top of them; otherwise it leaves what it would have left on its own
(`Genesis.rejected_remains`). -/

namespace StableSupply

/-! ## Rejections -/

/-- The configuration is at fault, and not a request to the ledger. -/
def GenesisError.Rejects : GenesisError → Prop
  | token _ | encoding .. => True
  | ledger _ => False

/-- How many of the value token's settings are written before the rejection, if its amounts are
acceptable. -/
def GenesisError.reached : GenesisError → Nat
  | encoding .valueName _ => 1
  | encoding .valueSymbol _ => 2
  | _ => 5

theorem State.slot_setSlots_congr {s t : State} {ws : List SlotWrite} {owner : Address} {key : Hash}
    (h : (owner, key) ∉ ws.map SlotWrite.place → s.slot owner key = t.slot owner key) :
    (s.setSlots ws).slot owner key = (t.setSlots ws).slot owner key := by
  induction ws generalizing s t with
  | nil => exact h (List.not_mem_nil)
  | cons w ws ih =>
    rw [setSlots_cons, setSlots_cons]
    apply ih
    intro hlater
    by_cases hplace : (owner, key) = w.place
    · cases hplace
      rw [slot_setSlot_self, slot_setSlot_self]
    · rw [slot_setSlot_of_ne s w.word hplace, slot_setSlot_of_ne t w.word hplace]
      exact h (by simp [hplace, hlater])

namespace Genesis

/-- Settings are encoded in one way only. -/
theorem Encodes.unique {settings : List (Slot × Setting)}
    {parameters parameters' : List (Slot × Word)} (h : Encodes settings parameters)
    (h' : Encodes settings parameters') : parameters = parameters' := by
  induction h generalizing parameters' with
  | nil =>
    cases h'
    rfl
  | cons hhead _ ih =>
    cases h' with
    | cons hhead' htail =>
      have hslot := hhead.1.symm.trans hhead'.1
      have hword := Except.ok.inj (hhead.2.symm.trans hhead'.2)
      rw [Prod.ext hslot hword, ih htail]

section Outcome

variable {σ : Type} [Digest] [Gate σ] {s : Access σ}

/-- What a rejection leaves: nothing if the amounts of the value token are not acceptable, and
otherwise its allocations and the first of its settings. -/
structure Remains (token : ValueToken) (founder reserve : Address) (e : GenesisError)
    (before after : Access σ) : Prop where
  untouched : token.validate ≠ .ok () → after = before
  written : token.validate = .ok () → ∃ funded parameters,
    Funded token founder reserve before.ledger.state funded ∧
    Encodes ((valueSettings token).take e.reached) parameters ∧
    after.ledger.state = funded.setSlots (parameterWrites parameters)

omit [Digest] [Gate σ] in
/-- A request that fails does not reject the configuration. -/
theorem request_not_rejects {α : Type} (act : Act (Access σ) LedgerError α) :
    (act.failingWith GenesisError.ledger).Ensures s (fun _ _ => True) fun e _ => ¬ e.Rejects := by
  rw [Act.ensures_failingWith]
  exact (Act.ensures_apply act s).mono (fun _ _ _ => trivial) fun _ _ _ => id

/-- Writing parameters fails only where the gate refuses a request. -/
theorem writeAll_not_rejects (parameters : List (Slot × Word)) :
    (writeAll parameters).Ensures s (fun _ _ => True) fun e _ => ¬ e.Rejects := by
  induction parameters generalizing s with
  | nil => trivial
  | cons p rest ih =>
    simp only [writeAll, Act.ensures_bind]
    exact (request_not_rejects (p.1.write p.2)).mono (fun _ _ _ => ih) fun _ _ h => h

omit [Digest] in
theorem shortText_error_encoding {field : GenesisText} {text : String} {e : GenesisError}
    (h : shortText field text = .error e) : ∃ c, e = .encoding field c := by
  unfold shortText at h
  cases hword : Word.ofShortText text with
  | ok w =>
    rw [hword] at h
    cases h
  | error c =>
    rw [hword] at h
    exact ⟨c, (Except.error.inj h).symm⟩

/-- The stable token's seeder rejects before its first request. -/
theorem seedStableToken_rejects (token : StableToken) (treasury : Address) (now : UInt64) :
    (seedStableToken token treasury now).Ensures s (fun _ _ => True)
      fun e s' => e.Rejects → s' = s ∧ e.reached = 5 := by
  simp only [seedStableToken, Act.ensures_bind, Act.ensures_liftExcept]
  cases token.validate with
  | error c => exact fun _ => ⟨trivial, rfl⟩
  | ok _ =>
  cases hname : shortText .stableName token.name with
  | error e =>
    obtain ⟨c, rfl⟩ := shortText_error_encoding hname
    exact fun _ => ⟨trivial, rfl⟩
  | ok name =>
  cases hsymbol : shortText .stableSymbol token.symbol with
  | error e =>
    obtain ⟨c, rfl⟩ := shortText_error_encoding hsymbol
    exact fun _ => ⟨trivial, rfl⟩
  | ok symbol =>
  exact (writeAll_not_rejects _).mono (fun _ _ _ => trivial) fun _ _ hnot hrejects =>
    absurd hrejects hnot

/-- The value token's seeder rejects amounts before its first request, and a text when the settings
before it are written. -/
theorem seedValueToken_rejects (token : ValueToken) (founder reserve : Address) :
    (seedValueToken token founder reserve).Ensures s (fun _ _ => True)
      fun e s' => e.Rejects → Remains token founder reserve e s s' := by
  simp only [seedValueToken, Act.ensures_bind, Act.ensures_liftExcept, Act.ensures_pure]
  cases hvalid : token.validate with
  | error c => exact fun _ => ⟨fun _ => rfl, fun hok => by rw [hvalid] at hok; cases hok⟩
  | ok _ =>
  have hleft {e : GenesisError} {s' : Access σ} {funded : State} {parameters : List (Slot × Word)}
      (hfunded : Funded token founder reserve s.ledger.state funded)
      (hencodes : Encodes ((valueSettings token).take e.reached) parameters)
      (hstate : s'.ledger.state = funded.setSlots (parameterWrites parameters)) :
      e.Rejects → Remains token founder reserve e s s' := fun _ =>
    ⟨fun hnot => absurd hvalid hnot, fun _ => ⟨funded, parameters, hfunded, hencodes, hstate⟩⟩
  have hrequest {e : GenesisError} {s' : Access σ} (hnot : ¬ e.Rejects) :
      e.Rejects → Remains token founder reserve e s s' := fun h => absurd h hnot
  refine ((credit_ensures founder _).and (request_not_rejects _)).mono ?_ fun _ _ h => hrequest h.2
  rintro _ s₁ ⟨⟨a, ha, hl₁⟩, -⟩
  refine ((credit_ensures reserve _).and (request_not_rejects _)).mono ?_ fun _ _ h => hrequest h.2
  rintro _ s₂ ⟨⟨b, hb, hl₂⟩, -⟩
  rw [hl₁] at hb hl₂
  have hfunded : Funded token founder reserve s.ledger.state s₂.ledger.state :=
    ⟨a, b, ha, hb, hl₂⟩
  refine ((write_ensures _ _).and (request_not_rejects _)).mono ?_ fun _ _ h => hrequest h.2
  rintro _ s₃ ⟨h₃, -⟩
  cases hname : shortText .valueName token.name with
  | error e =>
    obtain ⟨c, rfl⟩ := shortText_error_encoding hname
    have hencodes : Encodes ((valueSettings token).take 1) [(.valueMaxSupply, token.maxSupply)] :=
      .cons ⟨rfl, rfl⟩ .nil
    exact hleft hfunded hencodes (by rw [h₃]; rfl)
  | ok name =>
  refine ((write_ensures _ _).and (request_not_rejects _)).mono ?_ fun _ _ h => hrequest h.2
  rintro _ s₄ ⟨h₄, -⟩
  cases hsymbol : shortText .valueSymbol token.symbol with
  | error e =>
    obtain ⟨c, rfl⟩ := shortText_error_encoding hsymbol
    have hencodes : Encodes ((valueSettings token).take 2)
        [(.valueMaxSupply, token.maxSupply), (.valueTokenName, name)] :=
      .cons ⟨rfl, rfl⟩ <| .cons ⟨rfl, shortText_eq_ok.1 hname⟩ .nil
    exact hleft hfunded hencodes (by rw [h₄, h₃]; rfl)
  | ok symbol =>
  refine (request_not_rejects _).mono ?_ fun _ _ => hrequest
  intro _ s₅ _
  refine (request_not_rejects _).mono ?_ fun _ _ => hrequest
  intro _ s₆ _
  refine (request_not_rejects _).mono ?_ fun _ _ => hrequest
  intro _ s₇ _
  refine (request_not_rejects _).mono ?_ fun _ _ => hrequest
  intro _ s₈ _
  exact (request_not_rejects _).mono (fun _ _ _ => trivial) fun _ _ => hrequest

/-- The stable token is looked at when the value token's seeder is done. -/
theorem run_rejects (accounts : Accounts) (value : ValueToken) (stable : StableToken)
    (staking : Staking) (now : UInt64) :
    (run accounts value stable staking now).Ensures s (fun _ _ => True)
      fun e s' => e.Rejects → Remains value accounts.founder accounts.reserve e s s' := by
  simp only [run, Act.ensures_bind, Act.ensures_pure]
  refine ((seedValueToken_ensures value accounts.founder accounts.reserve).and
    (seedValueToken_rejects value accounts.founder accounts.reserve)).mono ?_ fun _ _ h => h.2
  rintro balances s₁ ⟨⟨hfundable, ⟨funded, parameters, hfunded, hencodes, hl₁⟩, -⟩, -⟩
  have hrequest {e : GenesisError} {s' : Access σ} (hnot : ¬ e.Rejects) :
      e.Rejects → Remains value accounts.founder accounts.reserve e s s' := fun h => absurd h hnot
  refine (seedStableToken_rejects stable accounts.treasury now).mono ?_ ?_
  · intro _ s₂ _
    refine (writeAll_not_rejects _).mono ?_ fun _ _ => hrequest
    intro _ s₃ _
    refine (request_not_rejects _).mono ?_ fun _ _ => hrequest
    intro _ s₄ _
    exact (request_not_rejects _).mono (fun _ _ _ => trivial) fun _ _ => hrequest
  · intro e s₂ h hrejects
    obtain ⟨rfl, hreached⟩ := h hrejects
    have hvalid := validate_value_eq_ok.2 ⟨hfundable.allocations_lt, hfundable.allocations_le⟩
    refine ⟨fun hnot => absurd hvalid hnot, fun _ => ⟨funded, parameters, hfunded, ?_, hl₁⟩⟩
    rw [hreached]
    exact hencodes

end Outcome

/-! ## What can be read afterwards -/

section Reading

variable {σ : Type} [Digest]

/-- What is credited to an account and stays credited. -/
def remaining (token : ValueToken) (founder reserve account : Address) : Nat :=
  if token.validate = .ok () then
    (if account = founder then token.founderAllocation.toNat else 0) +
      if account = reserve then token.reserveAllocation.toNat else 0
  else 0

namespace Remains

variable {token : ValueToken} {founder reserve : Address} {e : GenesisError}
  {before after : Access σ}

theorem balance (h : Remains token founder reserve e before after) (account : Address) :
    (after.ledger.state.balance account).toNat =
      (before.ledger.state.balance account).toNat + remaining token founder reserve account := by
  by_cases hvalid : token.validate = .ok ()
  · obtain ⟨funded, parameters, hfunded, -, hstate⟩ := h.written hvalid
    rw [hstate, State.balance_setSlots, hfunded.balance, remaining, if_pos hvalid, Nat.add_assoc]
  · rw [h.untouched hvalid, remaining, if_neg hvalid, Nat.add_zero]

theorem slot (h : Remains token founder reserve e before after) {owner : Address} {key : Hash}
    (hnot : (owner, key) ∉ places (valueSettings token)) :
    after.ledger.state.slot owner key = before.ledger.state.slot owner key := by
  by_cases hvalid : token.validate = .ok ()
  · obtain ⟨funded, parameters, hfunded, hencodes, hstate⟩ := h.written hvalid
    rw [hstate, hencodes.slot_eq, hfunded.slot]
    intro hmem
    exact hnot (((List.take_sublist ..).map _).subset hmem)
  · rw [h.untouched hvalid]

end Remains

omit [Digest] in
/-- What is admissible is so where accounts have less. -/
theorem Admissible.of_balance_le {accounts : Accounts} {value : ValueToken} {stable : StableToken}
    {s s' : State} (h : Admissible accounts value stable s')
    (hle : ∀ account, (s.balance account).toNat ≤ (s'.balance account).toNat) :
    Admissible accounts value stable s := by
  have hfounder := hle accounts.founder
  have hreserve := hle accounts.reserve
  have hfounder_lt := h.value.founder_lt
  have hreserve_lt := h.value.reserve_lt
  exact ⟨{ h.value with founder_lt := by omega, reserve_lt := by omega }, h.stable⟩

/-- A genesis that succeeds on a ledger succeeds on one with lower balances as well, and the two
differ by what the balances differed. -/
theorem run_of_extra {accounts : Accounts} {value : ValueToken} {stable : StableToken}
    {staking : Staking} {now : UInt64} {before after again : Access OpenGate} {report : Report}
    {extra : Address → Nat}
    (hbalance : ∀ account, (after.ledger.state.balance account).toNat =
      (before.ledger.state.balance account).toNat + extra account)
    (hslot : ∀ owner key, (owner, key) ∉ places (valueSettings value) →
      after.ledger.state.slot owner key = before.ledger.state.slot owner key)
    (h : (run accounts value stable staking now).apply after = (.ok report, again)) :
    ∃ report' once, (run accounts value stable staking now).apply before = (.ok report', once) ∧
      (∀ owner key, again.ledger.state.slot owner key = once.ledger.state.slot owner key) ∧
      ∀ account, (again.ledger.state.balance account).toNat =
        (once.ledger.state.balance account).toNat + extra account := by
  obtain ⟨hadmissible, ⟨funded, parameters, hfunded, hencodes, hstate⟩, -⟩ :=
    (run_ensures accounts value stable staking now).of_ok h
  have hbefore : Admissible accounts value stable before.ledger.state :=
    hadmissible.of_balance_le fun account => by
      rw [hbalance]
      exact Nat.le_add_right ..
  have hspec := run_ensures (s := before) accounts value stable staking now
  rcases honce : (run accounts value stable staking now).apply before with ⟨e | report', once⟩
  · rcases hspec.of_error honce with ⟨c, -, hrefusal⟩ | hnot
    · exact absurd hrefusal Gate.openGate_not_refusal
    · exact absurd hbefore hnot
  obtain ⟨-, ⟨funded', parameters', hfunded', hencodes', hstate'⟩, -⟩ := hspec.of_ok honce
  obtain rfl := hencodes.unique hencodes'
  refine ⟨report', once, rfl, fun owner key => ?_, fun account => ?_⟩
  · rw [hstate, hstate']
    apply State.slot_setSlots_congr
    intro hnot
    rw [hencodes.places_eq] at hnot
    rw [hfunded.slot, hfunded'.slot]
    refine hslot owner key fun hmem => hnot ?_
    simp only [places, settings, List.map_append, List.mem_append]
    exact .inl (.inl hmem)
  · rw [hstate, hstate', State.balance_setSlots, State.balance_setSlots, hfunded.balance,
      hfunded'.balance, hbalance]
    omega

/-- The stable token's seeder leaves no trace of a configuration that it rejects. Of one that the value
token's seeder or the whole genesis rejects there remain the value token's allocations and the first
of its settings, if its amounts are acceptable. When genesis then succeeds with another configuration
its settings are as if it had run alone, and the allocations that remained come on top. -/
theorem rejected_remains (accounts : Accounts) (value : ValueToken) (stable : StableToken)
    (staking : Staking) (now : UInt64) (before : Access OpenGate) :
    (∀ e after, (seedStableToken stable accounts.treasury now).apply before = (.error e, after) →
      e.Rejects → after = before) ∧
    (∀ e after,
      (seedValueToken value accounts.founder accounts.reserve).apply before = (.error e, after) →
      e.Rejects → Remains value accounts.founder accounts.reserve e before after) ∧
    ∀ e after, (run accounts value stable staking now).apply before = (.error e, after) →
      e.Rejects → Remains value accounts.founder accounts.reserve e before after ∧
      ∀ accounts' value' stable' staking' now' report again,
        (run accounts' value' stable' staking' now').apply after = (.ok report, again) →
        ∃ report' once,
          (run accounts' value' stable' staking' now').apply before = (.ok report', once) ∧
          (∀ owner key, again.ledger.state.slot owner key = once.ledger.state.slot owner key) ∧
          ∀ account, (again.ledger.state.balance account).toNat =
            (once.ledger.state.balance account).toNat +
              remaining value accounts.founder accounts.reserve account := by
  refine ⟨fun e after happly hrejects => ?_, fun e after happly hrejects => ?_,
    fun e after happly hrejects => ?_⟩
  · exact ((seedStableToken_rejects stable accounts.treasury now).of_error happly hrejects).1
  · exact (seedValueToken_rejects value accounts.founder accounts.reserve).of_error happly hrejects
  · have hremains := (run_rejects accounts value stable staking now).of_error happly hrejects
    refine ⟨hremains, ?_⟩
    intro accounts' value' stable' staking' now' report again hagain
    exact run_of_extra hremains.balance (fun _ _ => hremains.slot) hagain

end Reading

/-! ### A name that is too long -/

/-- The default value token, with a name of 33 bytes. -/
def overlong : ValueToken := { ValueToken.default with name := "Orbis Omnira Unitas Lex and Heirs" }

/-- Genesis with that name, on an empty ledger. -/
def overlongGenesis : Except GenesisError Report × Access OpenGate :=
  (@run _ Radix.digest _ sampleAccounts overlong Radix.token .default 0).apply ⟨.empty, {}⟩

def twiceReport : Report :=
  { sampleReport with founderBalance := units 25200000, reserveBalance := units 16800000 }

/-- The name is rejected, and yet the founder has been credited. -/
theorem overlong_credited :
    let outcome := (@seedValueToken OpenGate Radix.digest _ overlong sampleAccounts.founder
      sampleAccounts.reserve).apply ⟨.empty, {}⟩
    outcome.1 = .error (.encoding .valueName (.tooLong 33)) ∧
    outcome.2.ledger.state.balance sampleAccounts.founder = units 12600000 ∧
    State.empty.balance sampleAccounts.founder = .zero := by
  decide +kernel

/-- After a second genesis under a shorter name the founder has the allocation twice. -/
theorem rejected_remains_twice :
    overlongGenesis.1 = .error (.encoding .valueName (.tooLong 33)) ∧
    ∃ once, sample.apply ⟨.empty, {}⟩ = (.ok sampleReport, once) ∧
      once.ledger.state.balance sampleAccounts.founder = units 12600000 ∧
      ∃ report again, sample.apply overlongGenesis.2 = (.ok report, again) ∧
        (∀ owner key, again.ledger.state.slot owner key = once.ledger.state.slot owner key) ∧
        (again.ledger.state.balance sampleAccounts.founder).toNat = 25200000 * 10 ^ 18 := by
  have herror : overlongGenesis.1 = .error (.encoding .valueName (.tooLong 33)) := by decide +kernel
  have hfounder : sampleAccess.ledger.state.balance sampleAccounts.founder = units 12600000 := by
    decide +kernel
  have hok : (sample.apply overlongGenesis.2).1 = .ok twiceReport := by decide +kernel
  have hrejected : overlongGenesis =
      (.error (.encoding .valueName (.tooLong 33)), overlongGenesis.2) := by
    rw [← herror]
  have hagain : sample.apply overlongGenesis.2 =
      (.ok twiceReport, (sample.apply overlongGenesis.2).2) := by
    rw [← hok]
  obtain ⟨-, -, hrun⟩ := @rejected_remains Radix.digest sampleAccounts overlong Radix.token .default
    0 ⟨.empty, {}⟩
  obtain ⟨-, hrerun⟩ := hrun _ _ hrejected trivial
  obtain ⟨report', once, honce, hslots, hbalances⟩ := hrerun _ _ _ _ _ _ _ hagain
  have hsame : sampleAccess = once := (Prod.mk.inj (sample_apply.symm.trans honce)).2
  refine ⟨herror, sampleAccess, sample_apply, hfounder, twiceReport, _, hagain, ?_, ?_⟩
  · rw [hsame]
    exact hslots
  · refine (hbalances sampleAccounts.founder).trans ?_
    rw [← hsame, hfounder]
    decide +kernel

end Genesis

end StableSupply
