import StableSupply.Genesis
import StableSupply.Proofs.Genesis.Settings
import StableSupply.Proofs.Ledger.Requests
import StableSupply.Proofs.Ledger.Total

/-! # What the seeders do

A seeder that nothing is refused to succeeds if its parameters are acceptable, and then it has written
the words of its settings; the value token's has credited the two allocations before. Put together,
genesis either has something against the configuration (`Genesis.Admissible`) or writes the words of
all settings and does nothing else (`Genesis.run_ensures`). -/

namespace StableSupply

namespace Genesis

/-! ## What a configuration has to satisfy -/

/-- The allocations are no more than the greatest supply, the two accounts can be credited with them
one after the other, and the texts fit words. -/
structure Fundable (token : ValueToken) (founder reserve : Address) (s : State) : Prop where
  allocations_lt : token.founderAllocation.toNat + token.reserveAllocation.toNat < 2 ^ 256
  allocations_le :
    token.founderAllocation.toNat + token.reserveAllocation.toNat ≤ token.maxSupply.toNat
  founder_lt : (s.balance founder).toNat + token.founderAllocation.toNat < 2 ^ 256
  reserve_lt : (s.balance reserve).toNat + (if reserve = founder then token.founderAllocation.toNat
    else 0) + token.reserveAllocation.toNat < 2 ^ 256
  name : (Bytes.ofText token.name).length ≤ 32
  symbol : (Bytes.ofText token.symbol).length ≤ 32

/-- The stable token's parameters are in bounds, and its texts fit words. -/
structure Issuable (token : StableToken) : Prop where
  supply : token.minimumSupply ≤ token.initialSupply
  volatility : token.initialVolatility ≤ 100
  name : (Bytes.ofText token.name).length ≤ 32
  symbol : (Bytes.ofText token.symbol).length ≤ 32

/-- Nothing keeps genesis from succeeding. -/
structure Admissible (accounts : Accounts) (value : ValueToken) (stable : StableToken)
    (s : State) : Prop where
  value : Fundable value accounts.founder accounts.reserve s
  stable : Issuable stable

/-- The parameters of the value token are valid if both allocations fit into the supply. -/
theorem validate_value_eq_ok {token : ValueToken} :
    token.validate = .ok () ↔
      token.founderAllocation.toNat + token.reserveAllocation.toNat < 2 ^ 256 ∧
      token.founderAllocation.toNat + token.reserveAllocation.toNat ≤ token.maxSupply.toNat := by
  unfold ValueToken.validate
  cases hsum : token.founderAllocation.add? token.reserveAllocation with
  | none =>
    have hle := Word.add?_eq_none.1 hsum
    exact ⟨nofun, fun h => absurd h.1 (Nat.not_lt.2 hle)⟩
  | some total =>
    have htotal := Word.add?_eq_some.1 hsum
    have hle : total ≤ token.maxSupply ↔
        token.founderAllocation.toNat + token.reserveAllocation.toNat ≤ token.maxSupply.toNat := by
      rw [← htotal]
      rfl
    have hlt := total.isLt
    rw [htotal] at hlt
    simp only [hle]
    split
    · next h => exact ⟨fun _ => ⟨hlt, h⟩, fun _ => rfl⟩
    · next h => exact ⟨nofun, fun h' => absurd h'.2 h⟩

/-- The parameters of the stable token are valid if the supply starts no lower than its minimum and
the volatility is a percentage. -/
theorem validate_stable_eq_ok {token : StableToken} :
    token.validate = .ok () ↔
      token.minimumSupply ≤ token.initialSupply ∧ token.initialVolatility ≤ 100 := by
  unfold StableToken.validate
  split
  · next h => exact ⟨fun _ => h, fun _ => rfl⟩
  · next h => exact ⟨nofun, fun h' => absurd h' h⟩

theorem shortText_eq_ok {field : GenesisText} {text : String} {w : Word} :
    shortText field text = .ok w ↔ Word.ofShortText text = .ok w := by
  unfold shortText
  cases Word.ofShortText text with
  | ok v => simp [Except.mapError]
  | error e => exact ⟨nofun, nofun⟩

/-- A text that is too long is the only one without a word. -/
theorem shortText_eq_error {field : GenesisText} {text : String} {e : GenesisError}
    (h : shortText field text = .error e) : ¬ (Bytes.ofText text).length ≤ 32 := by
  intro hlength
  have hok : shortText field text = .ok ⟨(Bytes.ofText text).toNat, _⟩ :=
    shortText_eq_ok.2 (dif_pos hlength)
  rw [h] at hok
  cases hok

/-! ## What is written -/

/-- The parameters of the value token, in the order in which they are written. -/
def valueParameters (token : ValueToken) (name symbol : Word) : List (Slot × Word) :=
  [(.valueMaxSupply, token.maxSupply),
   (.valueTokenName, name),
   (.valueTokenSymbol, symbol),
   (.valueTokenDecimals, .ofUInt64 token.decimals.toUInt64),
   (.valueTokenPrice, units 1)]

/-- The staking parameters, in the order in which they are written. -/
def stakingParameters (staking : Staking) : List (Slot × Word) :=
  [(.stakingReward, .ofUInt64 staking.rewardBps),
   (.minimumStakingPeriod, .ofUInt64 staking.minimumPeriod),
   (.stakingUnlockPeriod, .ofUInt64 staking.unlockPeriod),
   (.totalStaked, .zero),
   (.lastRewardBlock, .zero)]

theorem encodes_valueParameters {token : ValueToken} {name symbol : Word}
    (hname : Word.ofShortText token.name = .ok name)
    (hsymbol : Word.ofShortText token.symbol = .ok symbol) :
    Encodes (valueSettings token) (valueParameters token name symbol) :=
  .cons ⟨rfl, rfl⟩ <| .cons ⟨rfl, hname⟩ <| .cons ⟨rfl, hsymbol⟩ <| .cons ⟨rfl, rfl⟩ <|
    .cons ⟨rfl, rfl⟩ .nil

theorem encodes_stakingParameters (staking : Staking) :
    Encodes (stakingSettings staking) (stakingParameters staking) :=
  .cons ⟨rfl, rfl⟩ <| .cons ⟨rfl, rfl⟩ <| .cons ⟨rfl, rfl⟩ <| .cons ⟨rfl, rfl⟩ <|
    .cons ⟨rfl, rfl⟩ .nil

theorem encodes_mapSettings {ν : Type} (family : SlotFamily) (number : ν → UInt64)
    (t : Table String ν) :
    Encodes (mapSettings family number t)
      (t.entries.map fun e => (family.slot e.1, .ofUInt64 (number e.2))) := by
  unfold mapSettings
  induction t.entries with
  | nil => exact .nil
  | cons e rest ih => exact .cons ⟨rfl, rfl⟩ ih

/-- The parameters that are written encode the settings of the token. -/
theorem encodes_stableParameters {token : StableToken} {name symbol : Word}
    (hname : Word.ofShortText token.name = .ok name)
    (hsymbol : Word.ofShortText token.symbol = .ok symbol) (treasury : Address) (now : UInt64) :
    Encodes (stableSettings token treasury now)
      (stableParameters token name symbol treasury now) := by
  refine .append (.append (.append ?_ (encodes_mapSettings .continental ..))
    (encodes_mapSettings .timeframe ..)) (encodes_mapSettings .smoothing ..)
  exact .cons ⟨rfl, hname⟩ <| .cons ⟨rfl, hsymbol⟩ <| .cons ⟨rfl, rfl⟩ <| .cons ⟨rfl, rfl⟩ <|
    .cons ⟨rfl, rfl⟩ <| .cons ⟨rfl, rfl⟩ <| .cons ⟨rfl, rfl⟩ <| .cons ⟨rfl, rfl⟩ <|
    .cons ⟨rfl, rfl⟩ <| .cons ⟨rfl, rfl⟩ <| .cons ⟨rfl, rfl⟩ <| .cons ⟨rfl, rfl⟩ <|
    .cons ⟨rfl, rfl⟩ <| .cons ⟨rfl, rfl⟩ .nil

/-! ## Seeders -/

section Outcome

variable {σ : Type} [Digest] [Gate σ] {s : Access σ}

open Gate

/-- The error is that of a refused request. -/
def Refused (σ : Type) [Gate σ] (e : GenesisError) : Prop := ∃ c, e = .ledger c ∧ Refusal σ c

/-- The two allocations have been credited, one after the other. -/
def Funded (token : ValueToken) (founder reserve : Address) (s s' : State) : Prop :=
  ∃ a b : Word, a.toNat = (s.balance founder).toNat + token.founderAllocation.toNat ∧
    b.toNat = ((s.setBalance founder a).balance reserve).toNat + token.reserveAllocation.toNat ∧
    s' = (s.setBalance founder a).setBalance reserve b

theorem write_ensures (slot : Slot) (word : Word) :
    (write slot word).Ensures s
      (fun _ s' => s'.ledger = s.ledger.setSlots [slot.set word])
      fun e _ => Refused σ e := by
  simp only [write, Act.ensures_failingWith]
  exact (Slot.write_ensures slot word).mono (fun _ _ h => h) fun c _ h => ⟨c, rfl, h.2⟩

omit [Digest] in
/-- An allocation is credited unless the gate refuses it or the balance would be no word. -/
theorem credit_ensures (account : Address) (amount : Word) :
    ((Access.credit account amount .genesis).failingWith GenesisError.ledger).Ensures s
      (fun _ s' => ∃ after : Word,
        after.toNat = (s.ledger.state.balance account).toNat + amount.toNat ∧
        s'.ledger.state = s.ledger.state.setBalance account after)
      fun e _ => Refused σ e ∨
        2 ^ 256 ≤ (s.ledger.state.balance account).toNat + amount.toNat := by
  simp only [Act.ensures_failingWith]
  by_cases hfits : (s.ledger.state.balance account).toNat + amount.toNat < 2 ^ 256
  · refine (Access.credit_ensures account amount _).mono ?_ ?_
    · intro _ s₁ h₁
      rw [Ledger.credit_of_lt hfits] at h₁
      exact ⟨_, rfl, by rw [← Except.ok.inj h₁]; rfl⟩
    · rintro c s₁ ⟨-, hrefused | herror⟩
      · exact .inl ⟨c, rfl, hrefused⟩
      · rw [Ledger.credit_of_lt hfits] at herror
        cases herror
  · refine (Access.credit_ensures account amount _).mono ?_ ?_
    · intro _ s₁ h₁
      rw [Ledger.credit_of_le (Nat.not_lt.1 hfits)] at h₁
      cases h₁
    · intro c s₁ _
      exact .inr (Nat.not_lt.1 hfits)

omit [Digest] in
theorem balance_ensures (account : Address) :
    ((Access.balance account).failingWith GenesisError.ledger).Ensures s
      (fun word s' => s'.ledger = s.ledger ∧ word = s.ledger.state.balance account)
      fun e _ => Refused σ e := by
  simp only [Act.ensures_failingWith]
  exact (Access.balance_ensures account).mono (fun _ _ h => h) fun c _ h => ⟨c, rfl, h.2⟩

omit [Digest] [Gate σ] in
/-- Where the founder and the reserve are one account, the second credit comes on top of the first. -/
theorem balance_reserve (s : State) (reserve : Address) {founder : Address} {a : Word}
    {allocation : Nat} (ha : a.toNat = (s.balance founder).toNat + allocation) :
    ((s.setBalance founder a).balance reserve).toNat =
      (s.balance reserve).toNat + if reserve = founder then allocation else 0 := by
  by_cases hsame : reserve = founder
  · subst hsame
    rw [State.balance_setBalance_self, ha, if_pos rfl]
  · rw [State.balance_setBalance_of_ne _ _ hsame, if_neg hsame, Nat.add_zero]

/-- The value token is recorded unless the gate refuses a request or the token does not admit it. -/
theorem seedValueToken_ensures (token : ValueToken) (founder reserve : Address) :
    (seedValueToken token founder reserve).Ensures s
      (fun balances s' => Fundable token founder reserve s.ledger.state ∧
        (∃ funded parameters, Funded token founder reserve s.ledger.state funded ∧
          Encodes (valueSettings token) parameters ∧
          s'.ledger.state = funded.setSlots (parameterWrites parameters)) ∧
        balances = (s'.ledger.state.balance founder, s'.ledger.state.balance reserve))
      fun e _ => Refused σ e ∨ ¬ Fundable token founder reserve s.ledger.state := by
  simp only [seedValueToken, Act.ensures_bind, Act.ensures_liftExcept, Act.ensures_pure]
  cases hvalid : token.validate with
  | error e =>
    refine .inr fun h => ?_
    rw [validate_value_eq_ok.2 ⟨h.allocations_lt, h.allocations_le⟩] at hvalid
    cases hvalid
  | ok _ =>
  obtain ⟨hsum, hmax⟩ := validate_value_eq_ok.1 hvalid
  refine (credit_ensures founder _).mono ?_ fun _ _ h => h.imp_right fun hover hfundable =>
    Nat.not_lt.2 hover hfundable.founder_lt
  rintro _ s₁ ⟨a, ha, hl₁⟩
  have hbalance := balance_reserve s.ledger.state reserve ha
  refine (credit_ensures reserve _).mono ?_ fun _ _ h => h.imp_right fun hover hfundable => ?_
  case refine_2 =>
    rw [hl₁, hbalance] at hover
    exact Nat.not_lt.2 hover hfundable.reserve_lt
  rintro _ s₂ ⟨b, hb, hl₂⟩
  rw [hl₁] at hb hl₂
  refine (write_ensures _ _).mono ?_ fun _ _ => .inl
  intro _ s₃ h₃
  cases hname : shortText .valueName token.name with
  | error e => exact .inr fun hfundable => shortText_eq_error hname hfundable.name
  | ok name =>
  refine (write_ensures _ _).mono ?_ fun _ _ => .inl
  intro _ s₄ h₄
  cases hsymbol : shortText .valueSymbol token.symbol with
  | error e => exact .inr fun hfundable => shortText_eq_error hsymbol hfundable.symbol
  | ok symbol =>
  refine (write_ensures _ _).mono ?_ fun _ _ => .inl
  intro _ s₅ h₅
  refine (write_ensures _ _).mono ?_ fun _ _ => .inl
  intro _ s₆ h₆
  refine (write_ensures _ _).mono ?_ fun _ _ => .inl
  intro _ s₇ h₇
  refine (balance_ensures founder).mono ?_ fun _ _ => .inl
  rintro _ s₈ ⟨h₈, rfl⟩
  refine (balance_ensures reserve).mono ?_ fun _ _ => .inl
  rintro _ s₉ ⟨h₉, rfl⟩
  have hname' := shortText_eq_ok.1 hname
  have hsymbol' := shortText_eq_ok.1 hsymbol
  refine ⟨?_, ⟨_, valueParameters token name symbol, ⟨a, b, ha, hb, rfl⟩,
    encodes_valueParameters hname' hsymbol', ?_⟩, ?_⟩
  · refine ⟨hsum, hmax, ha ▸ a.isLt, ?_, (Word.ofShortText_eq_ok.1 hname').1,
      (Word.ofShortText_eq_ok.1 hsymbol').1⟩
    rw [← hbalance, ← hb]
    exact b.isLt
  · rw [h₉, h₈, h₇, h₆, h₅, h₄, h₃, ← hl₂]
    rfl
  · rw [h₉, h₈]

theorem writeAll_ensures (parameters : List (Slot × Word)) :
    (writeAll parameters).Ensures s
      (fun _ s' => s'.ledger.state = s.ledger.state.setSlots (parameterWrites parameters))
      fun e _ => Refused σ e := by
  induction parameters generalizing s with
  | nil => rfl
  | cons p rest ih =>
    simp only [writeAll, Act.ensures_bind]
    refine (write_ensures p.1 p.2).mono ?_ fun _ _ h => h
    intro _ s₁ h₁
    refine ih.mono ?_ fun _ _ h => h
    intro _ s₂ h₂
    rw [h₂, h₁]
    rfl

/-- The stable token is recorded unless the gate refuses a request or the token does not admit it.
-/
theorem seedStableToken_ensures (token : StableToken) (treasury : Address) (now : UInt64) :
    (seedStableToken token treasury now).Ensures s
      (fun _ s' => Issuable token ∧ ∃ parameters, Encodes (stableSettings token treasury now)
        parameters ∧ s'.ledger.state = s.ledger.state.setSlots (parameterWrites parameters))
      fun e _ => Refused σ e ∨ ¬ Issuable token := by
  simp only [seedStableToken, Act.ensures_bind, Act.ensures_liftExcept]
  cases hvalid : token.validate with
  | error e =>
    refine .inr fun h => ?_
    rw [validate_stable_eq_ok.2 ⟨h.supply, h.volatility⟩] at hvalid
    cases hvalid
  | ok _ =>
  obtain ⟨hsupply, hvolatility⟩ := validate_stable_eq_ok.1 hvalid
  cases hname : shortText .stableName token.name with
  | error e => exact .inr fun h => shortText_eq_error hname h.name
  | ok name =>
  cases hsymbol : shortText .stableSymbol token.symbol with
  | error e => exact .inr fun h => shortText_eq_error hsymbol h.symbol
  | ok symbol =>
  have hname' := shortText_eq_ok.1 hname
  have hsymbol' := shortText_eq_ok.1 hsymbol
  refine (writeAll_ensures _).mono ?_ fun _ _ => .inl
  intro _ s₁ h₁
  refine ⟨⟨hsupply, hvolatility, (Word.ofShortText_eq_ok.1 hname').1,
    (Word.ofShortText_eq_ok.1 hsymbol').1⟩, _, encodes_stableParameters hname' hsymbol' _ _, h₁⟩

/-- What there is to report of a state. -/
def reportIn (accounts : Accounts) (now : UInt64) (s : State) : Report where
  founder := accounts.founder
  founderBalance := s.balance accounts.founder
  reserve := accounts.reserve
  reserveBalance := s.balance accounts.reserve
  treasury := accounts.treasury
  stableSupply := Slot.currentSupply.word s
  minimumStableSupply := Slot.minimumSupply.word s
  genesisTime := now

/-- Genesis succeeds on an admissible configuration only, and then it has credited the allocations and
written the settings. It fails on another one only, or because a request was refused. -/
theorem run_ensures (accounts : Accounts) (value : ValueToken) (stable : StableToken)
    (staking : Staking) (now : UInt64) :
    (run accounts value stable staking now).Ensures s
      (fun report s' => Admissible accounts value stable s.ledger.state ∧
        (∃ funded parameters,
          Funded value accounts.founder accounts.reserve s.ledger.state funded ∧
          Encodes (settings value stable staking accounts.treasury now) parameters ∧
          s'.ledger.state = funded.setSlots (parameterWrites parameters)) ∧
        report = reportIn accounts now s'.ledger.state)
      fun e _ => Refused σ e ∨ ¬ Admissible accounts value stable s.ledger.state := by
  simp only [run, Act.ensures_bind, Act.ensures_failingWith, Act.ensures_pure]
  refine (seedValueToken_ensures value accounts.founder accounts.reserve).mono ?_
    fun _ _ h => h.imp_right fun hnot h => hnot h.value
  rintro balances s₁ ⟨hvalue, ⟨funded, valueParameters, hfunded, hvalues, hl₁⟩, rfl⟩
  refine (seedStableToken_ensures stable accounts.treasury now).mono ?_
    fun _ _ h => h.imp_right fun hnot h => hnot h.stable
  rintro _ s₂ ⟨hstable, stableParameters, hstables, hl₂⟩
  refine (writeAll_ensures (stakingParameters staking)).mono ?_ fun _ _ => .inl
  intro _ s₃ hl₃
  refine (Slot.read_ensures .currentSupply).mono ?_ fun c _ h => .inl ⟨c, rfl, h.2⟩
  rintro _ s₄ ⟨h₄, rfl⟩
  refine (Slot.read_ensures .minimumSupply).mono ?_ fun c _ h => .inl ⟨c, rfl, h.2⟩
  rintro _ s₅ ⟨h₅, rfl⟩
  have hbalance (account : Address) :
      s₁.ledger.state.balance account = s₅.ledger.state.balance account := by
    rw [h₅, h₄, hl₃, hl₂, State.balance_setSlots, State.balance_setSlots]
  refine ⟨⟨hvalue, hstable⟩, ⟨funded, _, hfunded,
    (hvalues.append hstables).append (encodes_stakingParameters staking), ?_⟩, ?_⟩
  · rw [h₅, h₄, hl₃, hl₂, hl₁, ← State.setSlots_append, ← State.setSlots_append]
    simp only [parameterWrites, List.map_append, List.append_assoc]
  · simp only [reportIn, hbalance, h₅, h₄]

end Outcome

end Genesis

end StableSupply
