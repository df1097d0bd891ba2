import StableSupply.Proofs.Genesis
import StableSupply.Proofs.Manager.Growth
import StableSupply.Proofs.Manager.Run

/-! # A run can be replayed from its records

Where reversals are served, the ledger after a run is told by the adjustments that the run reported
(`Audited`): the history holds their records in order, each record's supply follows from the one
before it, and an account's balance differs from the one at the start by what it paid and received
as treasury. One step keeps this (`Audited.step`), hence every course and every run
(`Manager.run_audit`). -/

namespace StableSupply

open Engine Gate

/-! ## Telling the ledger from the adjustments -/

/-- The records lead from one supply to another, each from where the record before it led. -/
def SupplyChain : (before : Word) → List HistoryRecord → (after : Word) → Prop
  | before, [], after => after = before
  | before, record :: rest, after =>
    record.kind ≠ .none ∧ record.kind.Shifts record.supplyDelta before record.resultingSupply ∧
      SupplyChain record.resultingSupply rest after

/-- A chain goes on with a record that starts where it ends. -/
theorem SupplyChain.concat {before last : Word} {records : List HistoryRecord}
    {record : HistoryRecord} (h : SupplyChain before records last) (hkind : record.kind ≠ .none)
    (hshifts : record.kind.Shifts record.supplyDelta last record.resultingSupply) :
    SupplyChain before (records ++ [record]) record.resultingSupply := by
  induction records generalizing before with
  | nil =>
    obtain rfl : last = before := h
    exact ⟨hkind, hshifts, rfl⟩
  | cons r rest ih => exact ⟨h.1, h.2.1, ih h.2.2⟩

/-- What the adjustments of a kind with the account as treasury moved in all. -/
def moved (kind : Kind) (account : Address) (made : List AppliedAdjustment) : Nat :=
  (made.map fun a =>
    if a.treasury = account ∧ a.record.kind = kind then a.record.counterpart.toNat else 0).sum

theorem moved_concat (kind : Kind) (account : Address) (made : List AppliedAdjustment)
    (a : AppliedAdjustment) : moved kind account (made ++ [a]) = moved kind account made +
      if a.treasury = account ∧ a.record.kind = kind then a.record.counterpart.toNat else 0 := by
  simp [moved]

/-! ## The invariant -/

section Runs

variable {σ τ : Type} [Digest] [Gate σ]

/-- The state is the one that the adjustments lead to from the start, where the supply was `supply`
and the history empty. -/
structure Audited (start : State) (supply : Word) (made : List AppliedAdjustment) (s : State) :
    Prop where
  empty : Journal.counted start = .ok 0
  history : Journal.Grows start (made.map (·.record)) s
  chain : SupplyChain supply (made.map (·.record)) (Slot.currentSupply.word s)
  balances : ∀ account, (s.balance account).toNat + moved .expansion account made =
    (start.balance account).toNat + moved .contraction account made

namespace Audited

variable {token : StableToken} {start s s' : State} {supply : Word}
  {made as : List AppliedAdjustment}

/-- At the start no adjustment has been made. -/
theorem of_seeded (h : Seeded token start) : Audited start token.initialSupply [] start where
  empty := by
    have hword : start.slot journalAccount Slot.historyCount.key = .zero := h.historyCount
    rw [Journal.counted_eq, Journal.countIn, hword]
    rfl
  history := .rest start
  chain := h.currentSupply
  balances _ := rfl

/-! ### The history -/

theorem counted (h : Audited start supply made s) :
    ∃ n : UInt64, Journal.counted s = .ok n ∧ n.toNat = made.length := by
  obtain ⟨n, hn, hlength⟩ := h.history.count 0 h.empty
  refine ⟨n, hn, ?_⟩
  rw [hlength, List.length_map]
  exact Nat.zero_add _

theorem length (h : Audited start supply made s) : made.length < 2 ^ 64 := by
  obtain ⟨n, -, hlength⟩ := h.counted
  exact hlength ▸ n.toNat_lt

theorem count (h : Audited start supply made s) :
    Journal.countIn journalAccount s = .ok (.ofNat made.length) := by
  obtain ⟨n, hn, hlength⟩ := h.counted
  rw [← Journal.counted_eq, hn, ← hlength, UInt64.ofNat_toNat]

/-- Each record is at its index. -/
theorem records (h : Audited start supply made s) (i : Nat) (hi : i < made.length) :
    made[i].record.index = .ofNat i ∧
      Journal.recordAt journalAccount (.ofNat i) s = .ok made[i].record := by
  obtain ⟨hindex, hrecord⟩ := h.history.appended 0 h.empty i (by rwa [List.length_map])
  rw [List.getElem_map] at hindex hrecord
  have hplace : made[i].record.index = .ofNat i := by
    rw [← UInt64.ofNat_toNat (x := made[i].record.index), hindex]
    exact congrArg UInt64.ofNat (Nat.zero_add i)
  rw [hplace, Journal.recorded_eq] at hrecord
  exact ⟨hplace, hrecord⟩

/-! ### Steps -/

/-- The balance of an account before and after an adjustment. -/
theorem balance_adjusts {a : AppliedAdjustment} (ha : Adjusts s a s') (account : Address) :
    (s'.balance account).toNat +
        (if a.treasury = account ∧ a.record.kind = .expansion then a.record.counterpart.toNat
          else 0) =
      (s.balance account).toNat +
        if a.treasury = account ∧ a.record.kind = .contraction then a.record.counterpart.toNat
          else 0 := by
  by_cases haccount : a.treasury = account
  · subst haccount
    have hpays := ha.paid
    rw [ha.treasuryBefore, ← ha.balance_treasury] at hpays
    cases hkind : a.record.kind with
    | none => exact absurd hkind ha.enters.kind_ne_none
    | expansion =>
      rw [hkind] at hpays
      simpa [Kind.Pays] using hpays
    | contraction =>
      rw [hkind] at hpays
      simpa [Kind.Pays] using hpays
  · rw [ha.balance_of_ne (Ne.symm haccount)]
    simp [haccount]

theorem adjusts (hsep : Digest.Separates token) {a : AppliedAdjustment}
    (h : Audited start supply made s) (ha : Adjusts s a s') :
    Audited start supply (made ++ [a]) s' := by
  refine ⟨h.empty, ?_, ?_, fun account => ?_⟩
  · rw [List.map_append, List.map_singleton]
    exact h.history.adjusts hsep ha
  · rw [List.map_append, List.map_singleton, ha.word_currentSupply hsep]
    exact h.chain.concat ha.enters.kind_ne_none (ha.previousSupply ▸ ha.supply)
  · rw [moved_concat, moved_concat]
    have hbefore := h.balances account
    have hafter := balance_adjusts ha account
    omega

/-- The slots for the source's values are none of the history, and not the supply. -/
theorem observed (hsep : Digest.Separates token) {slot : Slot} {word : Word}
    (hslot : slot ∈ Slot.observed) (h : Audited start supply made s) :
    Audited start supply made (s.setSlots [slot.set word]) := by
  refine ⟨h.empty, h.history.observed hsep hslot, ?_, fun account => ?_⟩
  · rw [Slot.word_observed hsep hslot Slot.inUse_currentSupply (by decide)]
    exact h.chain
  · rw [State.balance_setSlots]
    exact h.balances account

theorem step (hserves : ServesReverts σ) (hsep : Digest.Separates token)
    (h : Audited start supply made s) (hstep : Step σ s as s') :
    Audited start supply (made ++ as) s' := by
  cases hstep with
  | observed hslot =>
    rw [List.append_nil]
    exact h.observed hsep hslot
  | applied ha => exact h.adjusts hsep ha
  | left hrefuses _ => exact absurd hrefuses hserves.not_refusesReverts

theorem course (hserves : ServesReverts σ) (hsep : Digest.Separates token)
    (h : Audited start supply made s) (hcourse : Course σ s as s') :
    Audited start supply (made ++ as) s' := by
  induction hcourse generalizing made with
  | rest => rwa [List.append_nil]
  | step hstep _ ih =>
    rw [← List.append_assoc]
    exact ih (h.step hserves hsep hstep)

end Audited

/-- Replays a run that started in the state that genesis left, under a gate that serves reversals.
The history, when it is read back, holds the records of the reported adjustments, record `i` at
index `i`. Their supplies follow from one another and lead from the initial supply to the present
one. An account has what genesis gave it, less what it paid for expansions as treasury, and what it
was paid for contractions. -/
theorem Manager.run_audit {ρ : Type} [Gate ρ] [DecisionSource τ] {accounts : Genesis.Accounts}
    {value : ValueToken} {stable : StableToken} {staking : Staking} {now : UInt64}
    {before after : Access ρ} {report : Genesis.Report} (hserves : ServesReverts σ)
    (hsep : Digest.Separates stable)
    (hgenesis : (Genesis.run accounts value stable staking now).apply before =
      (.ok report, after))
    (m : Manager σ τ) (hm : m.state = after.ledger.state) (events : List (Event σ τ)) :
    let made := (m.run events).1
    let l := (m.run events).2.desk.access.ledger
    (made.length < 2 ^ 64 ∧
      ((Journal.count journalAccount).apply (⟨l, {}⟩ : Access OpenGate)).1 =
        .ok (.ofNat made.length) ∧
      ∀ i (h : i < made.length), made[i].record.index = .ofNat i ∧
        ((Journal.read journalAccount (.ofNat i)).apply (⟨l, {}⟩ : Access OpenGate)).1 =
          .ok made[i].record) ∧
    SupplyChain stable.initialSupply (made.map (·.record)) (Slot.currentSupply.word l.state) ∧
    ∀ account, (l.state.balance account).toNat + moved .expansion account made =
      (after.ledger.state.balance account).toNat + moved .contraction account made := by
  have hseeded : Seeded stable m.state := hm ▸ Genesis.seeded_of_run hsep hgenesis
  have haudited := (Audited.of_seeded hseeded).course hserves hsep (m.run_course events)
  rw [List.nil_append] at haudited
  refine ⟨⟨haudited.length, ?_, fun i hi => ⟨(haudited.records i hi).1, ?_⟩⟩, haudited.chain,
    fun account => ?_⟩
  · exact ((Journal.count_answers journalAccount).apply_open {}).trans haudited.count
  · exact ((Journal.read_answers journalAccount _).apply_open {}).trans (haudited.records i hi).2
  · rw [← hm]
    exact haudited.balances account

end Runs

/-- A manager on the ledger of `Genesis.sample`, and two adjustments for which too few writes are
served. -/
def Manager.scarce : Manager ScarceGate PegBand.State :=
  .initial .default ⟨Genesis.sampleAccess.ledger, ⟨12⟩⟩ (.initial .default)

def Manager.scarceEvents : List (Event ScarceGate PegBand.State) :=
  [.operation ⟨0⟩ (.apply ⟨.contraction, .ofWord (units 5), .ofWord (units 7), 0,
    .ofWord (units 999995), 0⟩ Genesis.sampleAccounts.treasury),
   .operation ⟨0⟩ (.apply ⟨.expansion, .ofWord (units 2), .ofWord (units 1), 0,
    .ofWord (units 999997), 0⟩ Genesis.sampleAccounts.treasury)]

/-- The run of both, with the adjustments that it reports. -/
def Manager.scarceRun : List AppliedAdjustment × Manager ScarceGate PegBand.State :=
  @run _ _ Radix.digest _ _ scarce scarceEvents

/-- The first of them is applied and the second is undone. -/
theorem Manager.run_audit_scarce :
    ServesReverts ScarceGate ∧
    scarceRun.1.map (·.record.kind) = [.contraction] ∧
    SupplyChain Radix.token.initialSupply (scarceRun.1.map (·.record))
      (@Slot.word Radix.digest .currentSupply scarceRun.2.desk.access.ledger.state) ∧
    ∀ account, (scarceRun.2.desk.access.ledger.state.balance account).toNat +
        moved .expansion account scarceRun.1 =
      (Genesis.sampleAccess.ledger.state.balance account).toNat +
        moved .contraction account scarceRun.1 := by
  have hserves : ServesReverts ScarceGate := fun _ _ => rfl
  have hkinds : scarceRun.1.map (·.record.kind) = [.contraction] := by decide +kernel
  have hstate : scarce.state = Genesis.sampleAccess.ledger.state := by
    simp only [state, scarce, initial]
  have haudit := @run_audit _ _ Radix.digest _ _ _ _ _ _ _ _ _ _ _ _ hserves Radix.separates
    Genesis.sample_apply scarce hstate scarceEvents
  refine ⟨hserves, hkinds, ?_⟩
  unfold scarceRun
  exact haudit.2

end StableSupply
