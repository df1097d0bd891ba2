import StableSupply.Node.Bootstrap
import StableSupply.Proofs.Genesis.Outcome
import StableSupply.Proofs.Manager.Failure
import StableSupply.Proofs.Manager.Steady
import StableSupply.Proofs.Slot.Capitals

/-! # The counterparty of a node's adjustments

On every validated configuration a node starts, and its cycles know a counterparty: the configured
one, or else the one of genesis, which no adjustment and no market value overwrites
(`Bootstrap.treasury_resolved`). Validation lets an account of genesis pass that it refuses as a
configured one. With the zero account in that place the node starts as well, but has nobody to
adjust with (`Bootstrap.treasury_missing`). -/

namespace StableSupply

open Engine Gate

/-! ## Validation -/

namespace Config

/-- Who is to pay and be paid for adjustments. -/
def counterparty (c : Config) : Except ConfigError Address := do
  return (← c.adjustmentTreasury).getD (← c.treasury)

/-- An account that validation accepts as the configured counterparty. -/
def IsPayer (account : Address) : Prop := account ≠ SystemAccount.seigniorage ∧ ¬ account.IsZero

/-- What validation requires of a configuration with these accounts. -/
structure Accepts (c : Config) (accounts : Genesis.Accounts) (configured : Option Address) :
    Prop where
  founder : c.founder = .ok accounts.founder
  reserve : c.reserve = .ok accounts.reserve
  treasury : c.treasury = .ok accounts.treasury
  adjustmentTreasury : c.adjustmentTreasury = .ok configured
  payer : ∀ account ∈ configured, IsPayer account
  interval : c.updates.intervalSecs ≠ 0
  oracleTimeout : c.updates.oracleTimeoutSecs ≠ 0
  deadband : c.updates.deadbandBps < 10000
  maxStep : c.updates.maxStepBps ≤ 10000

/-- A check passes if what it throws on does not hold. -/
theorem check_eq_ok {ε : Type} {P : Prop} [Decidable P] {e : ε} {f : PUnit → Except ε Unit}
    {rest : Except ε Unit} :
    (if P then throw e >>= f else rest) = .ok () ↔ ¬ P ∧ rest = .ok () := by
  by_cases h : P
  · rw [if_pos h]
    exact ⟨nofun, fun hnot => absurd h hnot.1⟩
  · rw [if_neg h, and_iff_right h]

theorem lastCheck_eq_ok {ε : Type} {P : Prop} [Decidable P] {e : ε} :
    (if P then throw e else pure () : Except ε Unit) = .ok () ↔ ¬ P := by
  by_cases h : P
  · rw [if_pos h]
    exact ⟨nofun, fun hnot => absurd h hnot⟩
  · rw [if_neg h]
    exact ⟨fun _ => h, fun _ => rfl⟩

theorem points_iff {deadband maxStep : UInt64} :
    ¬ (10000 ≤ deadband ∨ 10000 < maxStep) ↔ deadband < 10000 ∧ maxStep ≤ 10000 := by
  rw [not_or, UInt64.not_le, UInt64.not_lt]

theorem validate_eq_ok {c : Config} :
    c.validate = .ok () ↔ ∃ accounts configured, c.Accepts accounts configured := by
  unfold validate
  simp only [bind_eq_ok]
  constructor
  · rintro ⟨founder, hfounder, reserve, hreserve, treasury, htreasury, configured, hconfigured,
      hchecks⟩
    refine ⟨⟨founder, reserve, treasury⟩, configured, ?_⟩
    cases configured with
    | none =>
      simp only [check_eq_ok, lastCheck_eq_ok, points_iff] at hchecks
      obtain ⟨hinterval, htimeout, hdeadband, hstep⟩ := hchecks
      exact ⟨hfounder, hreserve, htreasury, hconfigured, nofun, hinterval, htimeout, hdeadband,
        hstep⟩
    | some account =>
      simp only [check_eq_ok, lastCheck_eq_ok, points_iff] at hchecks
      obtain ⟨hpayer, hinterval, htimeout, hdeadband, hstep⟩ := hchecks
      refine ⟨hfounder, hreserve, htreasury, hconfigured, ?_, hinterval, htimeout, hdeadband,
        hstep⟩
      rintro _ ⟨⟩
      exact not_or.1 hpayer
  · rintro ⟨accounts, configured, h⟩
    refine ⟨_, h.founder, _, h.reserve, _, h.treasury, configured, h.adjustmentTreasury, ?_⟩
    cases configured with
    | none =>
      simp only [check_eq_ok, lastCheck_eq_ok, points_iff]
      exact ⟨h.interval, h.oracleTimeout, h.deadband, h.maxStep⟩
    | some account =>
      simp only [check_eq_ok, lastCheck_eq_ok, points_iff]
      exact ⟨not_or.2 (h.payer account rfl), h.interval, h.oracleTimeout, h.deadband, h.maxStep⟩

section Accepted

variable {c : Config} {accounts : Genesis.Accounts} {configured : Option Address}

theorem adjustmentTreasury_eq_none (h : c.adjustmentTreasury = .ok none) :
    c.updates.treasury = none := by
  unfold adjustmentTreasury at h
  split at h
  · obtain ⟨_, -, ⟨⟩⟩ := bind_eq_ok.1 h
  · assumption

theorem counterparty_of_accepts (h : c.Accepts accounts configured) :
    c.counterparty = .ok (configured.getD accounts.treasury) := by
  rw [counterparty, h.adjustmentTreasury, h.treasury]
  rfl

theorem managerSettings_of_accepts (h : c.Accepts accounts configured) :
    ∃ settings, c.managerSettings = .ok settings ∧ settings.treasury = configured := by
  rw [managerSettings, h.adjustmentTreasury]
  exact ⟨_, rfl, rfl⟩

end Accepted

end Config

/-! ## The genesis of a node -/

namespace Bootstrap

/-- Genesis for the default tokens succeeds on an empty ledger whatever the accounts are. -/
theorem admissible_default (accounts : Genesis.Accounts) :
    Genesis.Admissible accounts .default .default State.empty := by
  have hempty (account : Address) : (State.empty.balance account).toNat = 0 := rfl
  have hallocations : ValueToken.default.founderAllocation.toNat +
      ValueToken.default.reserveAllocation.toNat < 2 ^ 256 := by decide
  refine ⟨⟨hallocations, by decide, ?_, ?_, by decide +kernel, by decide +kernel⟩,
    ⟨by decide, by decide, by decide +kernel, by decide +kernel⟩⟩
  · rw [hempty]
    omega
  · rw [hempty]
    split <;> omega

section Start

variable [Digest] {c : Config} {accounts : Genesis.Accounts} {configured : Option Address}

theorem run_of_accepts (h : c.Accepts accounts configured) {now : UInt64}
    {report : Genesis.Report} {access : Access OpenGate}
    (hgenesis : (Genesis.run (σ := OpenGate) ⟨accounts.founder, accounts.reserve, accounts.treasury⟩
      .default .default .default (c.genesis.timestamp.getD now)).apply ⟨.empty, .mk⟩ =
      (.ok report, access)) :
    run c now = .ok ⟨access.ledger.commit, report⟩ := by
  unfold run
  refine bind_eq_ok.2 ⟨accounts.founder, by rw [h.founder]; rfl, ?_⟩
  refine bind_eq_ok.2 ⟨accounts.reserve, by rw [h.reserve]; rfl, ?_⟩
  refine bind_eq_ok.2 ⟨accounts.treasury, by rw [h.treasury]; rfl, ?_⟩
  dsimp only
  rw [hgenesis]
  rfl

/-- A node starts from every accepted configuration, on a ledger that genesis has configured. -/
theorem exists_run (hsep : Digest.Separates StableToken.default)
    (h : c.Accepts accounts configured) (now : UInt64) :
    ∃ b, run c now = .ok b ∧
      Genesis.Configured accounts .default .default .default (c.genesis.timestamp.getD now)
        State.empty b.ledger.state b.report := by
  rcases hgenesis : (Genesis.run (σ := OpenGate) accounts .default .default .default
    (c.genesis.timestamp.getD now)).apply ⟨.empty, .mk⟩ with ⟨e | report, access⟩
  · rcases (Genesis.run_ensures accounts _ _ _ _).of_error hgenesis with ⟨_, -, hrefusal⟩ | hnot
    · exact absurd hrefusal openGate_not_refusal
    · exact absurd (admissible_default accounts) hnot
  · obtain ⟨-, ⟨funded, parameters, hfunded, hencodes, hstate⟩, hreport⟩ :=
      (Genesis.run_ensures accounts _ _ _ _).of_ok hgenesis
    have hconfigured := Genesis.configured_of_writes hsep hfunded hencodes
    rw [← hstate, ← hreport] at hconfigured
    exact ⟨⟨access.ledger.commit, report⟩, run_of_accepts h hgenesis, hconfigured⟩

end Start

end Bootstrap

/-! ## Cycles -/

section Cycles

variable [Digest] {token : StableToken}

/-- The recorded account counts if none is configured, but not if it is zero. -/
theorem Manager.treasuryIn_eq {settings : ManagerSettings} {s : State} {recorded : Address}
    (hrecorded : (Slot.treasuryAddress.word s).toAddress = .ok recorded)
    (hconfigured : ∀ account ∈ settings.treasury, ¬ account.IsZero) :
    Manager.treasuryIn settings s =
      if (settings.treasury.getD recorded).IsZero then .error .missingTreasury
      else .ok (settings.treasury.getD recorded) := by
  unfold Manager.treasuryIn
  cases htreasury : settings.treasury with
  | some account => exact (if_neg (hconfigured account htreasury)).symm
  | none =>
    rw [hrecorded]
    rfl

namespace Manager

variable {σ τ : Type} [Gate σ] [DecisionSource τ] {m : Manager σ τ} {recorded : Address}

/-- The ledger records the account, and no account is configured that could not stand in for it. -/
structure HasTreasury (recorded : Address) (m : Manager σ τ) : Prop where
  recorded : (Slot.treasuryAddress.word m.state).toAddress = .ok recorded
  configured : ∀ account ∈ m.settings.treasury, ¬ account.IsZero

omit [Gate σ] [DecisionSource τ] in
theorem HasTreasury.congr {m' : Manager σ τ} (h : m.HasTreasury recorded)
    (hsettings : m'.settings = m.settings)
    (hword : Slot.treasuryAddress.word m'.state = Slot.treasuryAddress.word m.state) :
    m'.HasTreasury recorded := ⟨hword ▸ h.recorded, hsettings ▸ h.configured⟩

/-- No operation writes another account. -/
theorem HasTreasury.run (hsep : Digest.Separates token) (h : m.HasTreasury recorded)
    (hphase : m.phase ≠ .checking) (events : List (Event σ τ)) :
    (m.run events).2.HasTreasury recorded :=
  h.congr (run_settings hphase events)
    ((m.run_course events).word_of_ne hsep trivial (by decide) (by decide) (by decide))

omit [Gate σ] in
theorem HasTreasury.prepared (hsep : Digest.Separates token) (h : m.HasTreasury recorded)
    {now : Instant} {u : ValueUpdate} {m₁ : Manager σ τ} (hprepared : m.asked.Prepared now u m₁) :
    m₁.HasTreasury recorded := by
  refine h.congr hprepared.settings ?_
  rw [hprepared.state]
  exact u.word_setSlots _ (Slot.key_notMem_observed hsep trivial (by decide))

omit [DecisionSource τ] in
theorem HasTreasury.resolveTreasury_ensures (h : m.HasTreasury recorded) :
    (resolveTreasury : Program σ τ Address).Ensures m
      (fun treasury _ => treasury = m.settings.treasury.getD recorded)
      fun e _ => UpdateError.Refused σ e ∨
        e = .missingTreasury ∧ (m.settings.treasury.getD recorded).IsZero := by
  have htreasury := treasuryIn_eq h.recorded h.configured
  refine (Manager.resolveTreasury_ensures m).mono ?_ ?_
  · rintro treasury _ ⟨_, -, hok⟩
    rw [htreasury] at hok
    split at hok
    · cases hok
    · exact (Except.ok.inj hok).symm
  · rintro e _ (hrebuffed | ⟨_, -, herror⟩)
    · exact .inl hrebuffed.refused
    · rw [htreasury] at herror
      split at herror
      · next hzero => exact .inr ⟨(Except.error.inj herror).symm, hzero⟩
      · cases herror

/-- A cycle lacks a treasury only if that is the zero account. -/
theorem HasTreasury.isZero_of_cycle (hsep : Digest.Separates token) (h : m.HasTreasury recorded)
    {now : Instant} (hfailed : ((cycle now).apply m).1 = .error .missingTreasury) :
    (m.settings.treasury.getD recorded).IsZero := by
  have hsettles := cycle_settles now m
  rw [hfailed] at hsettles
  rcases hsettles with hundecided | ⟨u, m₁, hprepared, hunconcluded⟩
  · cases hundecided with
    | refused hrefused => cases hrefused
    | unread hunread =>
      unfold marketIn at hunread
      split at hunread <;> cases hunread
  · cases hunconcluded with
    | refused hrefused => cases hrefused
    | unresolved _ hunresolved =>
      have hhas := h.prepared hsep hprepared
      have hsettings : m₁.settings = m.settings := hprepared.settings
      rw [← hsettings, treasuryIn_eq hhas.recorded hhas.configured] at hunresolved
      rw [← hsettings]
      split at hunresolved
      · assumption
      · cases hunresolved

end Manager

end Cycles

/-! ## Nodes -/

namespace Bootstrap

open Manager

section Resolution

variable {σ τ : Type} [Digest] [Gate σ] [DecisionSource τ]

/-- From every validated configuration a node starts at every time. Whatever its manager is asked to
do, later cycles resolve the counterparty of the configuration, and one of them can only lack it if
that is the zero account. It is neither that nor the account of seigniorage if it was configured, or
if the account of genesis is neither of them. -/
theorem treasury_resolved (hsep : Digest.Separates StableToken.default) {c : Config}
    (hvalid : c.validate = .ok ()) (now : UInt64) :
    ∃ b settings account, run c now = .ok b ∧ c.managerSettings = .ok settings ∧
      c.counterparty = .ok account ∧
      ((c.updates.treasury = none → ∀ a, c.treasury = .ok a → Config.IsPayer a) →
        Config.IsPayer account) ∧
      ∀ (gate : σ) (source : τ) (events : List (Event σ τ)) (m : Manager σ τ) (later : Instant),
        let reached := ((Manager.initial settings ⟨b.ledger, gate⟩ source).run events).2
        m.settings = reached.settings → m.state = reached.state →
        (∀ u m₁, (prepare later).apply m = (.ok u, m₁) →
          (resolveTreasury : Program σ τ Address).Ensures
            { m₁ with desk := m₁.desk.publishUpdate u } (fun treasury _ => treasury = account)
            fun e _ => UpdateError.Refused σ e ∨ e = .missingTreasury ∧ account.IsZero) ∧
        (((cycle later).apply m).1 = .error .missingTreasury → account.IsZero) := by
  obtain ⟨accounts, configured, haccepts⟩ := Config.validate_eq_ok.1 hvalid
  obtain ⟨b, hb, hconfigured⟩ := exists_run hsep haccepts now
  obtain ⟨settings, hsettings, rfl⟩ := Config.managerSettings_of_accepts haccepts
  refine ⟨b, settings, _, hb, hsettings, Config.counterparty_of_accepts haccepts, ?_, ?_⟩
  · intro hgenesis
    cases htreasury : settings.treasury with
    | some account => exact haccepts.payer account htreasury
    | none =>
      have hnone : c.updates.treasury = none :=
        Config.adjustmentTreasury_eq_none (htreasury ▸ haccepts.adjustmentTreasury)
      exact hgenesis hnone _ haccepts.treasury
  intro gate source events m later reached hsame hstate
  have hrecorded : (Slot.treasuryAddress.word b.ledger.state).toAddress = .ok accounts.treasury :=
    hconfigured.settled .treasuryAddress (.account accounts.treasury)
      (by simp [Genesis.settings, Genesis.stableSettings, Genesis.tokenSettings])
  have hphase : (Manager.initial settings ⟨b.ledger, gate⟩ source).phase ≠ .checking :=
    show Phase.idle ≠ .checking by decide
  have hinitial : Manager.HasTreasury accounts.treasury
      (Manager.initial settings ⟨b.ledger, gate⟩ source) :=
    ⟨hrecorded, fun account haccount => (haccepts.payer account haccount).2⟩
  have hreached : reached.settings = settings := run_settings hphase events
  have hhas : m.HasTreasury accounts.treasury :=
    (hinitial.run hsep hphase events).congr hsame (by rw [hstate])
  have haccount : m.settings.treasury = settings.treasury := by rw [hsame, hreached]
  rw [← haccount]
  refine ⟨fun u m₁ happly => ?_, hhas.isZero_of_cycle hsep⟩
  have hprepared := (prepare_ensures later m).of_ok happly
  have hkept : m₁.settings = m.settings := hprepared.settings
  have hpublished : Manager.HasTreasury accounts.treasury
      { m₁ with desk := m₁.desk.publishUpdate u } :=
    (hhas.prepared hsep hprepared).congr rfl rfl
  rw [← hkept]
  exact hpublished.resolveTreasury_ensures

end Resolution

/-- A node with the defaults never lacks a counterparty. -/
theorem treasury_resolved_default :
    @Digest.Separates Capitals.digest .default ∧ (Config.default none).validate = .ok () ∧
    ∃ b settings, @run Capitals.digest (Config.default none) 0 = .ok b ∧
      (Config.default none).managerSettings = .ok settings ∧
      ∀ (source : PegBand.State) (events : List (Event OpenGate PegBand.State)) (later : Instant),
        ((@cycle _ _ Capitals.digest _ _ later).apply (@Manager.run _ _ Capitals.digest _ _
          (Manager.initial settings ⟨b.ledger, {}⟩ source) events).2).1 ≠
            .error .missingTreasury := by
  have hvalid : (Config.default none).validate = .ok () := by decide +kernel
  have hpayer (a : Address) (ha : (Config.default none).treasury = .ok a) : Config.IsPayer a := by
    have hgenesis : (Config.default none).treasury = .ok (Address.system 0x2002) := by
      decide +kernel
    rw [hgenesis] at ha
    obtain rfl := Except.ok.inj ha
    exact ⟨by decide, by decide⟩
  obtain ⟨b, settings, account, hb, hsettings, -, haccount, hresolved⟩ :=
    @treasury_resolved OpenGate PegBand.State Capitals.digest _ _ Capitals.separates
      (Config.default none) hvalid 0
  refine ⟨Capitals.separates, hvalid, b, settings, hb, hsettings, ?_⟩
  intro source events later hfailed
  exact (haccount fun _ => hpayer).2 ((hresolved {} source events _ later rfl rfl).2 hfailed)

/-! ### A node with nobody to adjust with -/

/-- The defaults, but the zero account as the treasury of genesis. -/
def unpaid : Config :=
  { Config.default none with
    genesis := { Config.defaultGenesis with treasury := Address.zero.text } }

/-- The first cycle of such a node, after the market value has doubled. -/
def unpaidCycle : Except BootstrapError (Except UpdateError UpdateReport) := do
  let b ← @run Capitals.digest unpaid 0
  let settings ← unpaid.managerSettings.mapError .config
  let observed := (@perform _ _ Capitals.digest _ _ ⟨0⟩ (.observe (units 2))).apply
    (schedule unpaid settings b ⟨0⟩).manager
  return ((@process _ _ Capitals.digest _ _ ⟨0⟩).apply observed.2).1

/-- The configuration is valid and the node starts, but its cycle lacks a treasury. -/
theorem treasury_missing :
    unpaid.validate = .ok () ∧ unpaidCycle = .ok (.error .missingTreasury) := by
  constructor
  · decide +kernel
  · decide +kernel

end Bootstrap

end StableSupply
