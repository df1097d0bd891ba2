import StableSupply.Proofs.Genesis
import StableSupply.Proofs.Manager.Growth

/-! # The outcome of genesis

Where every request is served, genesis succeeds on admissible configurations and on no others, and a
ledger on which it succeeded is `Configured`: the settings are in their slots, the allocations are on
their accounts, and nothing else has changed (`Genesis.run_configures`). -/

namespace StableSupply

namespace Genesis

/-! ## Credited balances -/

namespace Funded

variable {token : ValueToken} {founder reserve : Address} {s s' : State}

/-- The founder and the reserve get their allocations, both if they are one account. -/
theorem balance (h : Funded token founder reserve s s') (account : Address) :
    (s'.balance account).toNat = (s.balance account).toNat +
      (if account = founder then token.founderAllocation.toNat else 0) +
      if account = reserve then token.reserveAllocation.toNat else 0 := by
  obtain ⟨a, b, ha, hb, rfl⟩ := h
  rw [balance_reserve s reserve ha] at hb
  by_cases hreserve : account = reserve
  · subst hreserve
    rw [State.balance_setBalance_self, hb, if_pos rfl]
  · rw [State.balance_setBalance_of_ne _ _ hreserve, if_neg hreserve, Nat.add_zero,
      balance_reserve s account ha]

/-- The total grows by both allocations. -/
theorem total (h : Funded token founder reserve s s') :
    s'.total = s.total + token.founderAllocation.toNat + token.reserveAllocation.toNat := by
  obtain ⟨a, b, ha, hb, rfl⟩ := h
  have hfounder := s.total_setBalance founder a
  have hreserve := (s.setBalance founder a).total_setBalance reserve b
  omega

theorem slot (h : Funded token founder reserve s s') (owner : Address) (key : Hash) :
    s'.slot owner key = s.slot owner key := by
  obtain ⟨a, b, -, -, rfl⟩ := h
  rfl

end Funded

/-! ## The configured state -/

section Outcome

variable [Digest]

/-- How genesis leaves a state on success, and what it reports. -/
structure Configured (accounts : Accounts) (value : ValueToken) (stable : StableToken)
    (staking : Staking) (now : UInt64) (s s' : State) (report : Report) : Prop where
  /-- The settings are those of the slots that exist for the token. -/
  complete : ∀ slot : Slot, slot.InUse stable ↔
    ∃ setting, (slot, setting) ∈ settings value stable staking accounts.treasury now
  /-- Every slot reads back as its setting. -/
  settled : ∀ slot setting, (slot, setting) ∈
    settings value stable staking accounts.treasury now → setting.ReadFrom (slot.word s')
  /-- No two of the settings share a place. -/
  apart : (places (settings value stable staking accounts.treasury now)).Nodup
  history : Journal.counted s' = .ok 0
  /-- Nothing else is written. -/
  untouched : ∀ owner key, (owner, key) ∉
    places (settings value stable staking accounts.treasury now) →
      s'.slot owner key = s.slot owner key
  total : s'.total = s.total + value.founderAllocation.toNat + value.reserveAllocation.toNat
  /-- The allocations are credited, both to one account if founder and reserve are the same. -/
  balance : ∀ account, (s'.balance account).toNat = (s.balance account).toNat +
    (if account = accounts.founder then value.founderAllocation.toNat else 0) +
    if account = accounts.reserve then value.reserveAllocation.toNat else 0
  report : report = reportIn accounts now s'

variable {accounts : Accounts} {value : ValueToken} {stable : StableToken} {staking : Staking}
  {now : UInt64}

/-- The allocations and the writes of all parameters are what genesis is to do. -/
theorem configured_of_writes (hsep : Digest.Separates stable) {s funded : State}
    {parameters : List (Slot × Word)}
    (hfunded : Funded value accounts.founder accounts.reserve s funded)
    (hencodes : Encodes (settings value stable staking accounts.treasury now) parameters) :
    Configured accounts value stable staking now s
      (funded.setSlots (parameterWrites parameters))
      (reportIn accounts now (funded.setSlots (parameterWrites parameters))) where
  complete slot := by
    rw [← mem_settings_iff value stable staking accounts.treasury now, List.mem_map]
    constructor
    · rintro ⟨p, hp, rfl⟩
      exact ⟨p.2, hp⟩
    · rintro ⟨setting, hmem⟩
      exact ⟨_, hmem, rfl⟩
  settled slot setting hmem := hencodes.readFrom hsep funded slot setting hmem
  apart := nodup_places hsep
  history := by
    have hword : (funded.setSlots (parameterWrites parameters)).slot Engine.journalAccount
        Slot.historyCount.key = .zero :=
      hencodes.word_eq hsep funded .historyCount (.number 0)
        (by simp [settings, stableSettings, tokenSettings]) rfl
    rw [Journal.counted_eq, Journal.countIn, hword]
    rfl
  untouched owner key hnot := by rw [hencodes.slot_eq funded hnot, hfunded.slot]
  total := by rw [State.total_setSlots, hfunded.total]
  balance account := by rw [State.balance_setSlots, hfunded.balance]
  report := rfl

variable (accounts value stable staking now) in
/-- Where every request is served, genesis succeeds exactly on the admissible configurations, and
then it has written the configuration and nothing else. -/
theorem run_configures (hsep : Digest.Separates stable) (before : Access OpenGate) :
    let outcome := (run accounts value stable staking now).apply before
    ((∃ report, outcome.1 = .ok report) ↔ Admissible accounts value stable before.ledger.state) ∧
    ∀ report, outcome.1 = .ok report →
      Configured accounts value stable staking now before.ledger.state outcome.2.ledger.state
        report := by
  have hspec := run_ensures (s := before) accounts value stable staking now
  rcases houtcome : (run accounts value stable staking now).apply before with ⟨result, after⟩
  cases result with
  | error e =>
    have hnot : ¬ Admissible accounts value stable before.ledger.state := by
      refine (hspec.of_error houtcome).resolve_left ?_
      rintro ⟨c, -, hrefusal⟩
      exact Gate.openGate_not_refusal hrefusal
    exact ⟨⟨nofun, fun h => absurd h hnot⟩, nofun⟩
  | ok report =>
    obtain ⟨hadmissible, ⟨funded, parameters, hfunded, hencodes, hstate⟩, hreport⟩ :=
      hspec.of_ok houtcome
    refine ⟨⟨fun _ => hadmissible, fun _ => ⟨report, rfl⟩⟩, ?_⟩
    intro report' hok
    obtain rfl := Except.ok.inj hok
    rw [hreport, hstate]
    exact configured_of_writes hsep hfunded hencodes

end Outcome

/-! ### Founder and reserve in one account -/

/-- A token with regions and timeframes, whose name begins with a NUL. -/
def weightedToken : StableToken :=
  { StableToken.default with
    name := "\x00UltraStable"
    continentalWeights := .ofList [("asia", 8), ("africa", 4)]
    timeframeWeights := .ofList [("week", 4)]
    smoothingWindows := .ofList [("week", 7)] }

theorem separates_weightedToken : @Digest.Separates Radix.digest weightedToken :=
  Radix.separates_of_plain fun _ =>
    Radix.plain_of_nameInUse (by decide +kernel) (by decide +kernel) (by decide +kernel)

/-- The founder's account is also the reserve's. -/
def joinedAccounts : Accounts := { sampleAccounts with reserve := sampleAccounts.founder }

/-- A ledger on which that account has five tokens. -/
def joinedAccess : Access OpenGate :=
  ⟨{ Ledger.empty with state := State.empty.setBalance joinedAccounts.founder (units 5) }, {}⟩

theorem joined_same : joinedAccounts.reserve = joinedAccounts.founder := rfl

/-- One account may be founder and reserve. -/
theorem joined_admissible :
    Admissible joinedAccounts .default weightedToken joinedAccess.ledger.state := by
  refine ⟨⟨?_, ?_, ?_, ?_, ?_, ?_⟩, ⟨?_, ?_, ?_, ?_⟩⟩
  case refine_4 =>
    rw [if_pos joined_same]
    decide +kernel
  all_goals decide +kernel

/-- Both allocations come on top of the five tokens, and the name is read without its NUL. -/
theorem run_configures_joined :
    @Digest.Separates Radix.digest weightedToken ∧
    let outcome := (@run _ Radix.digest _ joinedAccounts .default weightedToken .default
      1700000000).apply joinedAccess
    ∃ report, outcome.1 = .ok report ∧
      report.founderBalance.toNat = 21000005 * 10 ^ 18 ∧
      outcome.2.ledger.state.total = 21000005 * 10 ^ 18 ∧
      (@Slot.word Radix.digest .tokenName outcome.2.ledger.state).toShortText =
        .ok "UltraStable" ∧
      (@Slot.word Radix.digest (.continentalWeight "asia") outcome.2.ledger.state).toUInt64 =
        .ok 8 := by
  have hrun := @run_configures Radix.digest joinedAccounts .default weightedToken .default
    1700000000 separates_weightedToken joinedAccess
  obtain ⟨report, hreport⟩ := hrun.1.2 joined_admissible
  have hconfigured := hrun.2 report hreport
  let : Digest := Radix.digest
  refine ⟨separates_weightedToken, report, hreport, ?_, ?_, ?_, ?_⟩
  · rw [hconfigured.report]
    refine (hconfigured.balance joinedAccounts.founder).trans ?_
    rw [if_pos rfl, if_pos joined_same.symm]
    decide +kernel
  · refine hconfigured.total.trans ?_
    decide +kernel
  · exact hconfigured.settled .tokenName (.text weightedToken.name)
      (by simp [settings, stableSettings, tokenSettings])
  · exact hconfigured.settled (.continentalWeight "asia") (.number 8) (by decide +kernel)

end Genesis

end StableSupply
