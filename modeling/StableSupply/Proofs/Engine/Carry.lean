import StableSupply.Engine
import StableSupply.Proofs.Journal

/-! # What an adjustment does to a ledger

A decision and the words that the engine reads determine its plan (`planOf`). Carrying a plan out
pays or charges the treasury and then makes a list of writes, the supply first and the history
record after it (`adjustmentWrites`). `Adjusts` says in terms of states what an adjustment that was
carried out in full did, and `PartlyAdjusts` what one leaves that stopped on the way. -/

namespace StableSupply

/-! ## Amounts that a kind moves -/

namespace Kind

/-- An expansion adds to the supply, a contraction takes from it. -/
def Shifts (kind : Kind) (delta before after : Word) : Prop :=
  match kind with
  | none => after = before
  | expansion => after.toNat = before.toNat + delta.toNat
  | contraction => after.toNat + delta.toNat = before.toNat

/-- The treasury is charged for an expansion and paid for a contraction. -/
def Pays (kind : Kind) (counterpart before after : Word) : Prop :=
  match kind with
  | none => after = before
  | expansion => after.toNat + counterpart.toNat = before.toNat
  | contraction => after.toNat = before.toNat + counterpart.toNat

end Kind

namespace Ledger

/-- A credit is the payment of a contraction. -/
theorem credit_eq_ok {l l' : Ledger} {account : Address} {amount : Word} :
    l.credit account amount = .ok l' ↔
      ∃ after, Kind.contraction.Pays amount (l.state.balance account) after ∧
        l' = l.setBalance account after := by
  simp only [credit, Kind.Pays, ← Word.add?_eq_some]
  split
  · next total h => simp [h, eq_comm]
  · next h => simp [h]

/-- A debit is the payment of an expansion. -/
theorem debit_eq_ok {l l' : Ledger} {account : Address} {amount : Word} :
    l.debit account amount = .ok l' ↔
      ∃ after, Kind.expansion.Pays amount (l.state.balance account) after ∧
        l' = l.setBalance account after := by
  simp only [debit, Kind.Pays, ← Word.sub?_eq_some]
  split
  · next rest h => simp [h, eq_comm]
  · next h => simp [h]

end Ledger

namespace Engine

open Gate

/-! ## Plans -/

/-- The supply that a kind leads to, with what the engine demands of it. -/
theorem newSupply_eq_ok {kind : Kind} {treasury : Address}
    {balance minimum supply delta counterpart n : Word} :
    newSupply kind treasury balance minimum supply delta counterpart = .ok n ↔
      kind.Shifts delta supply n ∧
        match kind with
        | .none => True
        | .expansion => counterpart ≤ balance
        | .contraction => balance.toNat + counterpart.toNat < 2 ^ 256 ∧ minimum ≤ n := by
  cases kind with
  | none => simp [newSupply, Kind.Shifts, eq_comm]
  | expansion =>
    simp only [newSupply, Kind.Shifts, ← Word.add?_eq_some]
    have hle : counterpart ≤ balance ↔ ¬ balance < counterpart := Nat.not_lt.symm
    by_cases hlt : balance < counterpart
    · simp [hlt, hle]
    · cases hadd : supply.add? delta <;> simp [hlt, hle]
  | contraction =>
    simp only [newSupply, Kind.Shifts, ← Word.sub?_eq_some]
    cases hadd : balance.add? counterpart with
    | none =>
      have hle := Word.add?_eq_none.1 hadd
      rw [if_pos Option.isNone_none]
      constructor
      · intro herror
        cases herror
      · intro h
        exact absurd h.2.1 (Nat.not_lt.2 hle)
    | some total =>
      have hlt : balance.toNat + counterpart.toNat < 2 ^ 256 :=
        Word.add?_eq_some.1 hadd ▸ total.isLt
      cases hsub : supply.sub? delta with
      | none => simp
      | some rest =>
        simp only [Option.isNone_some, Bool.false_eq_true, if_false, Option.some.injEq]
        by_cases hmin : minimum ≤ rest
        · rw [if_pos hmin, Except.ok.injEq]
          exact ⟨fun h => ⟨h, hlt, h ▸ hmin⟩, fun h => h.1⟩
        · rw [if_neg hmin]
          constructor
          · intro herror
            cases herror
          · intro h
            exact absurd (h.1 ▸ h.2.2) hmin

/-- The plan that a decision comes to on a ledger with the supply. -/
def planOf (d : Decision) (treasury : Address) (balance minimum supply : Word) :
    Except AdjustmentError Plan := do
  let supplyDelta ← fit .supplyDelta d.supplyDelta
  let counterpart ← fit .counterpart d.counterpart
  let claimedSupply ← fit .resultingSupply d.resultingSupply
  let newSupply ← newSupply d.kind treasury balance minimum supply supplyDelta counterpart
  return { kind := d.kind, supplyDelta, counterpart, previousSupply := supply, newSupply,
           claimedSupply, treasuryBefore := balance }

theorem fit_eq_ok {quantity : Quantity} {amount : Wide} {w : Word} :
    fit quantity amount = .ok w ↔ w.toNat = amount.toNat := by
  rw [← Word.ofNat?_eq_some]
  simp only [fit, Wide.toWord?]
  split
  · next h => simp [h]
  · next h => simp [h]

theorem fit_eq_error {quantity : Quantity} {amount : Wide} {e : AdjustmentError} :
    fit quantity amount = .error e ↔ 2 ^ 256 ≤ amount.toNat ∧ e = .overflow quantity := by
  rw [← Word.ofNat?_eq_none]
  simp only [fit, Wide.toWord?]
  split
  · next h => simp [h]
  · next h => simp [h, eq_comm]

/-- A plan repeats the decision's amounts and what was read, and reaches an admissible supply. -/
structure Plan.Follows (p : Plan) (d : Decision) (treasury : Address)
    (balance minimum supply : Word) : Prop where
  kind : p.kind = d.kind
  supplyDelta : p.supplyDelta.toNat = d.supplyDelta.toNat
  counterpart : p.counterpart.toNat = d.counterpart.toNat
  claimedSupply : p.claimedSupply.toNat = d.resultingSupply.toNat
  previousSupply : p.previousSupply = supply
  treasuryBefore : p.treasuryBefore = balance
  newSupply : Engine.newSupply d.kind treasury balance minimum supply p.supplyDelta
    p.counterpart = .ok p.newSupply

/-- A plan follows from the decision and from what the state reads. -/
theorem planOf_eq_ok {d : Decision} {treasury : Address} {balance minimum supply : Word}
    {p : Plan} (h : planOf d treasury balance minimum supply = .ok p) :
    p.Follows d treasury balance minimum supply := by
  simp only [planOf, bind, Except.bind] at h
  split at h
  · cases h
  next delta hdelta =>
  split at h
  · cases h
  next counterpart hcounterpart =>
  split at h
  · cases h
  next claimed hclaimed =>
  split at h
  · cases h
  next n hn =>
  cases h
  exact ⟨rfl, fit_eq_ok.1 hdelta, fit_eq_ok.1 hcounterpart, fit_eq_ok.1 hclaimed, rfl, rfl, hn⟩

/-- The supply that a plan leads to is no lower than the minimum, if the supply before is not. -/
theorem Plan.Follows.floor {p : Plan} {d : Decision} {treasury : Address}
    {balance minimum supply : Word} (h : p.Follows d treasury balance minimum supply)
    (hfloor : minimum ≤ supply) : minimum ≤ p.newSupply := by
  obtain ⟨hshifts, hadmissible⟩ := newSupply_eq_ok.1 h.newSupply
  have hle : minimum.toNat ≤ supply.toNat := hfloor
  cases hkind : d.kind with
  | none =>
    rw [hkind] at hshifts
    obtain rfl : p.newSupply = supply := hshifts
    exact hfloor
  | expansion =>
    rw [hkind] at hshifts
    have hsum : p.newSupply.toNat = supply.toNat + p.supplyDelta.toNat := hshifts
    show minimum.toNat ≤ p.newSupply.toNat
    omega
  | contraction =>
    rw [hkind] at hadmissible
    exact hadmissible.2

/-! ## States before and after -/

variable [Digest]

/-- The supply, and the history record after it. -/
def adjustmentWrites (record : HistoryRecord) : List SlotWrite :=
  Slot.currentSupply.set record.resultingSupply :: Journal.recordWrites journalAccount record

/-- An adjustment led from one state to another. The record was appended once the treasury and the
supply had been changed. -/
structure Adjusts (s : State) (a : AppliedAdjustment) (s' : State) : Prop where
  previousSupply : a.previousSupply = Slot.currentSupply.word s
  supply : a.record.kind.Shifts a.record.supplyDelta a.previousSupply a.record.resultingSupply
  floor : a.record.kind = .contraction → Slot.minimumSupply.word s ≤ a.record.resultingSupply
  treasuryBefore : a.treasuryBefore = s.balance a.treasury
  paid : a.record.kind.Pays a.record.counterpart a.treasuryBefore a.treasuryAfter
  index : Journal.nextIndex journalAccount a.record.kind
    ((s.setBalance a.treasury a.treasuryAfter).setSlots
      [Slot.currentSupply.set a.record.resultingSupply]) = .ok a.record.index
  state : s' = (s.setBalance a.treasury a.treasuryAfter).setSlots (adjustmentWrites a.record)

/-- An adjustment that was to lead to the supply stopped on the way. -/
inductive PartlyAdjusts (supply : Word) (s : State) : State → Prop
  | kept : PartlyAdjusts supply s s
  | supplied {treasury : Address} {after : Word} {done : List SlotWrite}
      (hdone : done <+: [Slot.currentSupply.set supply]) :
      PartlyAdjusts supply s ((s.setBalance treasury after).setSlots done)
  | recorded {treasury : Address} {after : Word} {record : HistoryRecord} {done : List SlotWrite}
      (hsupply : record.resultingSupply = supply)
      (hindex : Journal.nextIndex journalAccount record.kind
        ((s.setBalance treasury after).setSlots [Slot.currentSupply.set supply]) =
          .ok record.index)
      (hdone : done <+: adjustmentWrites record) :
      PartlyAdjusts supply s ((s.setBalance treasury after).setSlots done)

/-! ## Programs -/

variable {σ : Type} [Gate σ] {s : Access σ}

/-- The engine reports a refused request. -/
def Refused (σ : Type) [Gate σ] (e : AdjustmentError) : Prop :=
  (∃ c, e = .ledger c ∧ Refusal σ c) ∨ ∃ c, e = .journal c ∧ Journal.Refused σ c

/-- Planning leaves the ledger as it is. -/
theorem plan_ensures (d : Decision) (treasury : Address) (balance minimum : Word) :
    (plan d treasury balance minimum).Ensures s
      (fun p s' => s'.ledger = s.ledger ∧
        planOf d treasury balance minimum (Slot.currentSupply.word s.ledger.state) = .ok p)
      fun e s' => s'.ledger = s.ledger ∧ (Refused σ e ∨
        planOf d treasury balance minimum (Slot.currentSupply.word s.ledger.state) = .error e) := by
  simp only [plan, planOf, Act.ensures_bind, Act.ensures_liftExcept, Act.ensures_failingWith,
    Act.ensures_pure]
  cases hdelta : fit .supplyDelta d.supplyDelta with
  | error e => exact ⟨trivial, .inr rfl⟩
  | ok delta =>
  cases hcounterpart : fit .counterpart d.counterpart with
  | error e => exact ⟨trivial, .inr rfl⟩
  | ok counterpart =>
  cases hclaimed : fit .resultingSupply d.resultingSupply with
  | error e => exact ⟨trivial, .inr rfl⟩
  | ok claimed =>
  refine (Slot.read_ensures .currentSupply).mono ?_ ?_
  · intro supply s₁ h₁
    obtain ⟨hl, rfl⟩ := h₁
    simp only [bind, Except.bind]
    split
    · next n hn => exact ⟨hl, by rw [hn]; rfl⟩
    · next e he => exact ⟨hl, .inr (by rw [he])⟩
  · intro e s₁ h₁
    exact ⟨h₁.1, .inl (.inl ⟨e, rfl, h₁.2⟩)⟩

omit [Digest] in
/-- The treasury pays or is paid, or the ledger stays as it is. -/
theorem settle_ensures (p : Plan) (treasury : Address) (hkind : p.kind ≠ .none) :
    (settle p treasury).Ensures s
      (fun _ s' => ∃ after,
        p.kind.Pays p.counterpart (s.ledger.state.balance treasury) after ∧
        s'.ledger = s.ledger.setBalance treasury after)
      fun e s' => s'.ledger = s.ledger ∧ (Refusal σ e ∨
        ¬ ∃ after, p.kind.Pays p.counterpart (s.ledger.state.balance treasury) after) := by
  unfold settle
  split
  · next h => exact absurd h hkind
  · next h =>
    rw [h]
    refine (Access.debit_ensures ..).mono (fun _ s₁ h₁ => Ledger.debit_eq_ok.1 h₁) ?_
    intro e s₁ h₁
    refine ⟨h₁.1, h₁.2.imp_right ?_⟩
    rintro he ⟨after, hpays⟩
    rw [Ledger.debit_eq_ok.2 ⟨after, hpays, rfl⟩] at he
    cases he
  · next h =>
    rw [h]
    refine (Access.credit_ensures ..).mono (fun _ s₁ h₁ => Ledger.credit_eq_ok.1 h₁) ?_
    intro e s₁ h₁
    refine ⟨h₁.1, h₁.2.imp_right ?_⟩
    rintro he ⟨after, hpays⟩
    rw [Ledger.credit_eq_ok.2 ⟨after, hpays, rfl⟩] at he
    cases he

/-- The record of a carried out plan. -/
def recordOf (p : Plan) (d : Decision) (index : UInt64) : HistoryRecord where
  index
  kind := p.kind
  supplyDelta := p.supplyDelta
  counterpart := p.counterpart
  deviationBps := d.deviationBps
  resultingSupply := p.newSupply
  claimedSupply := p.claimedSupply
  timestamp := d.timestamp

theorem carryOut_ensures (p : Plan) (d : Decision) (treasury : Address) (hkind : p.kind ≠ .none) :
    (carryOut p d treasury).Ensures s
      (fun a s' => ∃ after n,
        p.kind.Pays p.counterpart (s.ledger.state.balance treasury) after ∧
        Journal.nextIndex journalAccount p.kind
          ((s.ledger.state.setBalance treasury after).setSlots
            [Slot.currentSupply.set p.newSupply]) = .ok n ∧
        a = { record := recordOf p d n, treasury, previousSupply := p.previousSupply
              treasuryBefore := p.treasuryBefore, treasuryAfter := after } ∧
        s'.ledger =
          (s.ledger.setBalance treasury after).setSlots (adjustmentWrites (recordOf p d n)))
      fun e s' =>
        (s'.ledger.checkpoints = s.ledger.checkpoints ∧
          PartlyAdjusts p.newSupply s.ledger.state s'.ledger.state) ∧
        (Refused σ e ∨
          (¬ ∃ after, p.kind.Pays p.counterpart (s.ledger.state.balance treasury) after) ∨
          ∃ after c, Journal.nextIndex journalAccount p.kind
            ((s.ledger.state.setBalance treasury after).setSlots
              [Slot.currentSupply.set p.newSupply]) = .error c ∧ e = .journal c) := by
  simp only [carryOut, Act.ensures_bind, Act.ensures_failingWith, Act.ensures_pure]
  refine (settle_ensures p treasury hkind).mono ?settled ?unsettled
  case unsettled =>
    intro e s₁ h₁
    rw [h₁.1]
    exact ⟨⟨rfl, .kept⟩, h₁.2.elim (fun h => .inl (.inl ⟨e, rfl, h⟩)) fun h => .inr (.inl h)⟩
  case settled =>
  intro _ s₁ h₁
  obtain ⟨after, hpays, hl₁⟩ := h₁
  refine (Slot.write_ensures .currentSupply p.newSupply).mono ?written ?unwritten
  case unwritten =>
    intro e s₂ h₂
    rw [h₂.1, hl₁]
    exact ⟨⟨rfl, .supplied List.nil_prefix⟩, .inl (.inl ⟨e, rfl, h₂.2⟩)⟩
  case written =>
  intro _ s₂ h₂
  rw [hl₁] at h₂
  refine (Slot.read_ensures .currentSupply).mono ?readBack ?unread
  case unread =>
    intro e s₃ h₃
    rw [h₃.1, h₂]
    exact ⟨⟨rfl, .supplied List.prefix_rfl⟩, .inl (.inl ⟨e, rfl, h₃.2⟩)⟩
  case readBack =>
  intro supply s₃ h₃
  -- what is read back is what was just written
  obtain ⟨hl₃, hsupply⟩ := h₃
  obtain rfl : supply = p.newSupply := by
    rw [hsupply, h₂]
    exact State.slot_setSlot_self ..
  rw [h₂] at hl₃
  refine (Journal.append_ensures journalAccount _).mono ?appended ?unappended
  case unappended =>
    intro e s₄ h₄
    rw [hl₃] at h₄
    rcases h₄ with ⟨hl₄, hc⟩ | ⟨hc, hl₄ | ⟨n, hn, done, hdone, hl₄⟩⟩
    · rw [hl₄]
      exact ⟨⟨rfl, .supplied List.prefix_rfl⟩, .inr (.inr ⟨after, e, hc, rfl⟩)⟩
    · rw [hl₄]
      exact ⟨⟨rfl, .supplied List.prefix_rfl⟩, .inl (.inr ⟨e, rfl, hc⟩)⟩
    · rw [hl₄, ← Ledger.setSlots_append]
      have hpart : Slot.currentSupply.set p.newSupply :: done <+:
          adjustmentWrites (recordOf p d n) := List.cons_prefix_cons.2 ⟨rfl, hdone⟩
      exact ⟨⟨rfl, .recorded rfl hn hpart⟩, .inl (.inr ⟨e, rfl, hc⟩)⟩
  case appended =>
  intro r s₄ h₄
  rw [hl₃] at h₄
  obtain ⟨n, hn, rfl, hl₄⟩ := h₄
  rw [← Ledger.setSlots_append] at hl₄
  refine (Access.balance_ensures treasury).mono ?_ ?_
  · intro balance s₅ h₅
    obtain ⟨hl₅, rfl⟩ := h₅
    refine ⟨after, n, hpays, hn, ?_, hl₅.trans hl₄⟩
    rw [hl₄, Ledger.state_setSlots, State.balance_setSlots]
    congr 1
    exact State.balance_setBalance_self ..
  · intro e s₅ h₅
    rw [h₅.1, hl₄]
    have hpart : Slot.currentSupply.set p.newSupply ::
        Journal.recordWrites journalAccount (recordOf p d n) <+:
          adjustmentWrites (recordOf p d n) := List.prefix_rfl
    exact ⟨⟨rfl, .recorded rfl hn hpart⟩, .inl (.inl ⟨e, rfl, h₅.2⟩)⟩

end Engine

end StableSupply
