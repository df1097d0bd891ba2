import Mathlib.Data.List.DropRight
import StableSupply.Proofs.Ledger.Plain

/-! # Accounts that changed since the last commit

A ledger keeps the accounts whose balance was set since it was committed, and putting a saved state
back counts as setting every balance recorded in it. So an account whose balance is another than at
the last commit is among them, with one exception (`Bench.run_marks`): a copy of the state from
before the commit, put back after it, takes accounts away that it does not record, and nothing
notes these. -/

namespace StableSupply

namespace Table

variable {κ ν : Type} [KeyOrder κ]

theorem mem_keys_insert_self (t : Table κ ν) (k : κ) (v : ν) : k ∈ (t.insert k v).keys :=
  mem_keys_iff.2 ⟨v, find?_insert_self ..⟩

theorem mem_keys_insert {t : Table κ ν} {j : κ} (k : κ) (v : ν) (h : j ∈ t.keys) :
    j ∈ (t.insert k v).keys := by
  by_cases hk : j = k
  · rw [hk]
    exact mem_keys_insert_self ..
  · obtain ⟨u, hu⟩ := mem_keys_iff.1 h
    exact mem_keys_iff.2 ⟨u, (find?_insert_of_ne _ _ hk).trans hu⟩

theorem mem_keys_of_insert {t : Table κ ν} {j k : κ} {v : ν} (h : j ∈ (t.insert k v).keys)
    (hk : j ≠ k) : j ∈ t.keys := by
  obtain ⟨u, hu⟩ := mem_keys_iff.1 h
  exact mem_keys_iff.2 ⟨u, (find?_insert_of_ne _ _ hk).symm.trans hu⟩

theorem mem_keys_foldl_insert {t : Table κ ν} {j : κ} (v : ν) (ks : List κ) (h : j ∈ t.keys) :
    j ∈ (ks.foldl (fun t k => t.insert k v) t).keys := by
  induction ks generalizing t with
  | nil => exact h
  | cons k ks ih => exact ih (mem_keys_insert k v h)

theorem mem_keys_foldl_insert_of_mem {j : κ} {ks : List κ} (t : Table κ ν) (v : ν) (h : j ∈ ks) :
    j ∈ (ks.foldl (fun t k => t.insert k v) t).keys := by
  obtain ⟨before, after, rfl⟩ := List.append_of_mem h
  rw [List.foldl_append, List.foldl_cons]
  exact mem_keys_foldl_insert v after (mem_keys_insert_self ..)

end Table

namespace State

/-- The account's balance was set, if only to zero. -/
def Records (s : State) (account : Address) : Prop := account ∈ s.balances.keys

instance (s : State) (account : Address) : Decidable (s.Records account) :=
  inferInstanceAs (Decidable (account ∈ s.balances.keys))

/-- An account that is not recorded has nothing. -/
theorem balance_of_not_records {s : State} {account : Address} (h : ¬ s.Records account) :
    s.balance account = .zero := by
  cases hfind : s.balances.find? account with
  | none => rw [balance, hfind, Option.getD_none]
  | some amount => exact absurd (Table.mem_keys_iff.2 ⟨amount, hfind⟩) h

end State

namespace Ledger

/-- The account counts as changed since the last commit. -/
def Marks (l : Ledger) (account : Address) : Prop := account ∈ l.dirty.keys

instance (l : Ledger) (account : Address) : Decidable (l.Marks account) :=
  inferInstanceAs (Decidable (account ∈ l.dirty.keys))

/-- Every account that the restored state records is marked. -/
theorem marks_restore {saved : State} {account : Address} (l : Ledger)
    (h : saved.Records account) : (l.restore saved).Marks account :=
  Table.mem_keys_foldl_insert_of_mem l.dirty () h

end Ledger

/-! ## The last commit -/

namespace LedgerOperation

def isCommit : LedgerOperation → Bool
  | commit => true
  | _ => false

/-- The operations up to the last commit; none if there was no commit. -/
def untilCommit (operations : List LedgerOperation) : List LedgerOperation :=
  operations.rdropWhile (!·.isCommit)

/-- The operations after the last commit; all of them if there was no commit. -/
def sinceCommit (operations : List LedgerOperation) : List LedgerOperation :=
  operations.rtakeWhile (!·.isCommit)

theorem eq_commit_of_isCommit {operation : LedgerOperation} (h : operation.isCommit = true) :
    operation = .commit := by
  cases operation with
  | commit => rfl
  | _ => cases h

/-- The operations up to the last commit, and those after it, are all of them. -/
theorem untilCommit_append_sinceCommit (operations : List LedgerOperation) :
    untilCommit operations ++ sinceCommit operations = operations :=
  List.rdropWhile_append_rtakeWhile ..

/-- Nothing is committed after the last commit. -/
theorem isCommit_of_mem_sinceCommit {operation : LedgerOperation}
    {operations : List LedgerOperation} (h : operation ∈ sinceCommit operations) :
    operation.isCommit = false := by
  simpa using List.mem_rtakeWhile_imp h

theorem untilCommit_cases (operations : List LedgerOperation) :
    untilCommit operations = [] ∨ ∃ earlier, untilCommit operations = earlier ++ [.commit] := by
  by_cases hnil : untilCommit operations = []
  · exact .inl hnil
  · have hlast := List.rdropWhile_last_not _ _ hnil
    rw [Bool.not_eq_true, Bool.not_eq_false'] at hlast
    have hcommit : (untilCommit operations).getLast hnil = .commit := eq_commit_of_isCommit hlast
    refine .inr ⟨(untilCommit operations).dropLast, ?_⟩
    rw [← hcommit, List.dropLast_append_getLast]

end LedgerOperation

namespace Bench

open LedgerOperation

theorem run_append (b : Bench) (earlier later : List LedgerOperation) :
    (b.run (earlier ++ later)).2 = ((b.run earlier).2.run later).2 := by
  induction earlier generalizing b with
  | nil => rfl
  | cons operation rest ih => exact ih _

/-- Right after a commit there is no checkpoint. -/
theorem checkpoints_run_untilCommit (operations : List LedgerOperation) :
    (empty.run (untilCommit operations)).2.ledger.checkpoints = [] := by
  obtain hnil | ⟨earlier, hcommit⟩ := untilCommit_cases operations
  · rw [hnil]
    rfl
  · rw [hcommit, run_append]
    rfl

/-! ## What was recorded at the commit -/

/-- A copy taken before the commit that does not record the account was put back after it. -/
def TakesAway (base : Bench) (later : List LedgerOperation) (account : Address) : Prop :=
  ∃ n copy, .restore n ∈ later ∧ base.copies[n]? = some copy ∧ ¬ copy.Records account

/-- Where a run has come since the commit at `base`, by some of the operations `later`. -/
structure Since (base : Bench) (later : List LedgerOperation) (b : Bench) : Prop where
  /-- Copies taken since stand after those taken before. -/
  copies : base.copies <+: b.copies
  marked : ∀ account, b.ledger.state.Records account →
    b.ledger.state.balance account ≠ base.ledger.state.balance account → b.ledger.Marks account
  /-- An account that is recorded at the commit and not taken away is recorded in all states since,
  saved ones included. -/
  kept : ∀ account, base.ledger.state.Records account → ¬ base.TakesAway later account →
    b.ledger.state.Records account ∧ (∀ s ∈ b.ledger.checkpoints, s.Records account) ∧
      ∀ n s, base.copies.length ≤ n → b.copies[n]? = some s → s.Records account

namespace Since

variable {base b : Bench} {later : List LedgerOperation}

theorem start (h : base.ledger.checkpoints = []) : base.Since later base where
  copies := List.prefix_rfl
  marked _ _ hne := absurd rfl hne
  kept account hrecords _ := by
    refine ⟨hrecords, fun s hs => ?_, fun n s hle hs => ?_⟩
    · rw [h] at hs
      cases hs
    · rw [List.getElem?_eq_none hle] at hs
      cases hs

theorem setBalance (h : base.Since later b) (account : Address) (amount : Word) :
    base.Since later { b with ledger := b.ledger.setBalance account amount } where
  copies := h.copies
  marked other hrecords hne := by
    by_cases ho : other = account
    · rw [ho]
      exact Table.mem_keys_insert_self ..
    · refine Table.mem_keys_insert _ _ (h.marked other (Table.mem_keys_of_insert hrecords ho) ?_)
      rwa [← State.balance_setBalance_of_ne _ amount ho]
  kept other hbase haway := by
    obtain ⟨hrecords, hcheckpoints, hcopies⟩ := h.kept other hbase haway
    exact ⟨Table.mem_keys_insert _ _ hrecords, hcheckpoints, hcopies⟩

theorem setSlot (h : base.Since later b) (owner : Address) (key : Hash) (word : Word) :
    base.Since later { b with ledger := b.ledger.setSlot owner key word } where
  copies := h.copies
  marked account hrecords hne := by
    refine h.marked account ?_ ?_
    · rwa [State.Records, ← State.balances_setSlot]
    · rwa [← State.balance_setSlot]
  kept account hbase haway := by
    obtain ⟨hrecords, hsaved⟩ := h.kept account hbase haway
    refine ⟨?_, hsaved⟩
    rwa [State.Records, Ledger.setSlot, State.balances_setSlot]

theorem checkpoint (h : base.Since later b) :
    base.Since later { b with ledger := b.ledger.checkpoint.2 } where
  copies := h.copies
  marked := h.marked
  kept account hbase haway := by
    obtain ⟨hrecords, hcheckpoints, hcopies⟩ := h.kept account hbase haway
    refine ⟨hrecords, fun s hs => ?_, hcopies⟩
    rcases List.mem_append.1 hs with hs | hs
    · exact hcheckpoints s hs
    · exact List.mem_singleton.1 hs ▸ hrecords

theorem discard (h : base.Since later b) (id : Nat) :
    base.Since later { b with ledger := b.ledger.discard id } where
  copies := h.copies
  marked := h.marked
  kept account hbase haway := by
    obtain ⟨hrecords, hcheckpoints, hcopies⟩ := h.kept account hbase haway
    exact ⟨hrecords, fun s hs => hcheckpoints s (List.mem_of_mem_take hs), hcopies⟩

theorem copy (h : base.Since later b) :
    base.Since later { b with copies := b.copies ++ [b.ledger.state] } where
  copies := h.copies.trans (List.prefix_append ..)
  marked := h.marked
  kept account hbase haway := by
    obtain ⟨hrecords, hcheckpoints, hcopies⟩ := h.kept account hbase haway
    refine ⟨hrecords, hcheckpoints, fun n s hle hs => ?_⟩
    rw [List.getElem?_append] at hs
    split at hs
    · exact hcopies n s hle hs
    · exact List.mem_singleton.1 (List.mem_of_getElem? hs) ▸ hrecords

/-- Whatever state is put back, all that it records is marked. -/
theorem restore (h : base.Since later b) {saved : State}
    (hsaved : ∀ account, base.ledger.state.Records account → ¬ base.TakesAway later account →
      saved.Records account) :
    base.Since later { b with ledger := b.ledger.restore saved } where
  copies := h.copies
  marked _ hrecords _ := Ledger.marks_restore _ hrecords
  kept account hbase haway := ⟨hsaved account hbase haway, (h.kept account hbase haway).2⟩

/-- An operation that fails changes nothing. -/
theorem settle {result : Except LedgerError Ledger} (h : base.Since later b)
    (hok : ∀ l, result = .ok l → base.Since later { b with ledger := l }) :
    base.Since later (b.settle result).2 := by
  cases result with
  | ok l => exact hok l rfl
  | error e => exact h

theorem credit (h : base.Since later b) (account : Address) (amount : Word) :
    base.Since later (b.step (.credit account amount)).2 := by
  refine h.settle fun l hl => ?_
  simp only [Ledger.credit] at hl
  split at hl
  · exact Except.ok.inj hl ▸ h.setBalance ..
  · cases hl

theorem debit (h : base.Since later b) (account : Address) (amount : Word) :
    base.Since later (b.step (.debit account amount)).2 := by
  refine h.settle fun l hl => ?_
  simp only [Ledger.debit] at hl
  split at hl
  · exact Except.ok.inj hl ▸ h.setBalance ..
  · cases hl

/-- Every checkpoint was taken since the commit, so a reversal loses no account of the commit that is
not taken away. -/
theorem revert (h : base.Since later b) (id : Nat) :
    base.Since later (b.step (.revert id)).2 := by
  refine h.settle fun l hl => ?_
  cases hsaved : b.ledger.checkpoints[id]? with
  | none =>
    rw [Ledger.revert, hsaved] at hl
    cases hl
  | some saved =>
    rw [Ledger.revert_of_getElem? hsaved] at hl
    have hrestore : base.Since later { b with ledger := b.ledger.restore saved } :=
      h.restore fun account hbase haway =>
        (h.kept account hbase haway).2.1 saved (List.mem_of_getElem? hsaved)
    exact Except.ok.inj hl ▸ hrestore.discard id

/-- A copy from before the commit may lack an account of the commit, one taken since does not. -/
theorem restoreCopy {n : Nat} (h : base.Since later b) (hmem : .restore n ∈ later) :
    base.Since later (b.step (.restore n)).2 := by
  simp only [step]
  split
  · next copy hcopy =>
    refine h.restore fun account hbase haway => ?_
    rcases Nat.lt_or_ge n base.copies.length with hlt | hge
    · have hold : base.copies[n]? = some copy := by
        rw [← hcopy, List.getElem?_eq_getElem hlt, List.prefix_iff_getElem?.1 h.copies n hlt]
      exact Decidable.not_not.1 fun hlacks => haway ⟨n, copy, hmem, hold, hlacks⟩
    · exact (h.kept account hbase haway).2.2 n copy hge hcopy
  · exact h

/-- One operation other than a commit keeps what holds since the last one. -/
theorem step (h : base.Since later b) {operation : LedgerOperation} (hmem : operation ∈ later)
    (hcommit : operation.isCommit = false) : base.Since later (b.step operation).2 := by
  cases operation with
  | setBalance account amount => exact h.setBalance ..
  | credit account amount => exact h.credit ..
  | debit account amount => exact h.debit ..
  | setSlot owner key word => exact h.setSlot ..
  | checkpoint => exact h.checkpoint
  | revert id => exact h.revert id
  | discard id => exact h.discard id
  | copy => exact h.copy
  | restore n => exact h.restoreCopy hmem
  | commit => cases hcommit

/-- So does any number of them. -/
theorem run (h : base.Since later b) {rest : List LedgerOperation}
    (hrest : ∀ operation ∈ rest, operation ∈ later ∧ operation.isCommit = false) :
    base.Since later (b.run rest).2 := by
  induction rest generalizing b with
  | nil => exact h
  | cons operation rest ih =>
    obtain ⟨⟨hmem, hcommit⟩, hrest⟩ := List.forall_mem_cons.1 hrest
    exact ih (h.step hmem hcommit) hrest

end Since

/-! ## The theorem -/

/-- After any operations, an account with another balance than at the last commit (than zero if
there was none) counts as changed, unless it was recorded at the commit, is recorded no more, and a
copy from before the commit that does not record it was put back since. -/
theorem run_marks (operations : List LedgerOperation) (account : Address) :
    let base := (empty.run (untilCommit operations)).2
    let b := (empty.run operations).2
    b.ledger.state.balance account ≠ base.ledger.state.balance account →
      b.ledger.Marks account ∨
        base.ledger.state.Records account ∧ ¬ b.ledger.state.Records account ∧
          base.TakesAway (sinceCommit operations) account := by
  intro base b hne
  have hsince : base.Since (sinceCommit operations) b := by
    have hrun : b = (base.run (sinceCommit operations)).2 := by
      rw [← run_append, untilCommit_append_sinceCommit]
    rw [hrun]
    exact (Since.start (checkpoints_run_untilCommit operations)).run fun operation hmem =>
      ⟨hmem, isCommit_of_mem_sinceCommit hmem⟩
  by_cases hrecords : b.ledger.state.Records account
  · exact .inl (hsince.marked account hrecords hne)
  · -- its balance is zero now, so at the commit it was not, and it was recorded
    have hbase : base.ledger.state.Records account := by
      refine Decidable.not_not.1 fun hnot => hne ?_
      rw [State.balance_of_not_records hrecords, State.balance_of_not_records hnot]
    refine .inr ⟨hbase, hrecords, Classical.not_not.1 fun haway => hrecords ?_⟩
    exact (hsince.kept account hbase haway).1

/-- A balance is set to nine and committed, then a copy from when it was five is put back. -/
def withdrawn : List LedgerOperation :=
  [.setBalance (.system 1) (.ofUInt64 5), .copy, .setBalance (.system 1) (.ofUInt64 9), .commit,
   .restore 0]

theorem run_marks_withdrawn :
    (empty.run withdrawn).2.ledger.state.balance (.system 1) = .ofUInt64 5 ∧
    (empty.run (untilCommit withdrawn)).2.ledger.state.balance (.system 1) = .ofUInt64 9 ∧
    (empty.run withdrawn).2.ledger.Marks (.system 1) := by
  have hnow : (empty.run withdrawn).2.ledger.state.balance (.system 1) = .ofUInt64 5 := by
    decide +kernel
  have hthen : (empty.run (untilCommit withdrawn)).2.ledger.state.balance (.system 1) =
      .ofUInt64 9 := by
    decide +kernel
  have hne : (empty.run withdrawn).2.ledger.state.balance (.system 1) ≠
      (empty.run (untilCommit withdrawn)).2.ledger.state.balance (.system 1) := by
    rw [hnow, hthen]
    decide
  have hrecords : (empty.run withdrawn).2.ledger.state.Records (.system 1) := by decide +kernel
  have hmarks := run_marks withdrawn (.system 1) hne
  exact ⟨hnow, hthen, hmarks.resolve_right fun haway => haway.2.1 hrecords⟩

/-- A copy of the empty state is put back over a balance that was committed. -/
def emptied : List LedgerOperation :=
  [.copy, .setBalance (.system 1) (.ofUInt64 5), .commit, .restore 0]

/-- The account's balance is gone, and the account does not count as changed. -/
theorem emptied_unmarked :
    (empty.run (untilCommit emptied)).2.ledger.state.balance (.system 1) = .ofUInt64 5 ∧
    (empty.run emptied).2.ledger.state.balance (.system 1) = .zero ∧
    ¬ (empty.run emptied).2.ledger.Marks (.system 1) := by
  decide +kernel

end Bench

end StableSupply
