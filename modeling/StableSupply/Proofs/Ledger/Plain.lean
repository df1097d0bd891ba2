import Mathlib.Logic.Function.Basic
import StableSupply.Proofs.Ledger.Checkpoints
import StableSupply.Proofs.Ledger.Writes
import StableSupply.Proofs.Table
import StableSupply.Proofs.Word

/-! # The ledger as plain maps

What a ledger does can be said without tables, without the set of changed accounts and without the
order in which checkpoints are removed: two total maps, for balances and for slots, and a list of
saved copies of them (`Plain`). Every sequence of operations gives the same answers on both and
leaves both with the same contents, saved and present (`Bench.run_refines`). -/

namespace StableSupply

/-! ## The plain side -/

/-- Everything that can be read of a state. -/
structure Contents where
  balance : Address → Word
  slot : Address → Hash → Word

namespace Contents

/-- Nothing is held anywhere. -/
def zero : Contents := ⟨fun _ => .zero, fun _ _ => .zero⟩

def setBalance (c : Contents) (account : Address) (amount : Word) : Contents :=
  { c with balance := Function.update c.balance account amount }

def setSlot (c : Contents) (owner : Address) (key : Hash) (word : Word) : Contents :=
  { c with slot := Function.update c.slot owner (Function.update (c.slot owner) key word) }

end Contents

/-- What may be done with a ledger. Copies of the state are numbered in the order in which they were
taken and can be put back at any time. -/
inductive LedgerOperation
  | setBalance (account : Address) (amount : Word)
  | credit (account : Address) (amount : Word)
  | debit (account : Address) (amount : Word)
  | setSlot (owner : Address) (key : Hash) (word : Word)
  | checkpoint
  | revert (id : Nat)
  | discard (id : Nat)
  | copy
  | restore (n : Nat)
  | commit

/-- What comes of an operation on a ledger. -/
inductive LedgerAnswer
  | done
  | checkpoint (id : Nat)
  | refused (e : LedgerError)

/-- The contents, with those that were saved at the checkpoints and those that were copied. -/
structure Plain where
  contents : Contents
  saved : List Contents
  copies : List Contents

namespace Plain

def empty : Plain := ⟨.zero, [], []⟩

/-- What an operation means for the contents. -/
def step (p : Plain) : LedgerOperation → LedgerAnswer × Plain
  | .setBalance account amount =>
    (.done, { p with contents := p.contents.setBalance account amount })
  | .credit account amount =>
    let balance := p.contents.balance account
    if h : balance.toNat + amount.toNat < 2 ^ 256 then
      (.done, { p with contents := p.contents.setBalance account ⟨_, h⟩ })
    else (.refused (.balanceOverflow account), p)
  | .debit account amount =>
    let balance := p.contents.balance account
    if amount.toNat ≤ balance.toNat then
      let rest : Word :=
        ⟨balance.toNat - amount.toNat, Nat.lt_of_le_of_lt (Nat.sub_le ..) balance.isLt⟩
      (.done, { p with contents := p.contents.setBalance account rest })
    else (.refused (.insufficientBalance account balance amount), p)
  | .setSlot owner key word => (.done, { p with contents := p.contents.setSlot owner key word })
  | .checkpoint => (.checkpoint p.saved.length, { p with saved := p.saved ++ [p.contents] })
  | .revert id =>
    if h : id < p.saved.length then
      (.done, { p with contents := p.saved[id], saved := p.saved.take id })
    else (.refused (.invalidCheckpoint id), p)
  | .discard id => (.done, { p with saved := p.saved.take id })
  | .copy => (.done, { p with copies := p.copies ++ [p.contents] })
  | .restore n => (.done, { p with contents := p.copies.getD n p.contents })
  | .commit => (.done, { p with saved := [] })

/-- Carries out operations in order. -/
def run (p : Plain) : List LedgerOperation → List LedgerAnswer × Plain
  | [] => ([], p)
  | operation :: rest =>
    let (answer, p) := p.step operation
    let (answers, p) := p.run rest
    (answer :: answers, p)

end Plain

/-! ## The ledger's side -/

/-- A ledger, and the copies that were taken of its state. -/
structure Bench where
  ledger : Ledger
  copies : List State

namespace Bench

def empty : Bench := ⟨.empty, []⟩

/-- The answer of a step that may fail. -/
def settle (b : Bench) : Except LedgerError Ledger → LedgerAnswer × Bench
  | .ok ledger => (.done, { b with ledger })
  | .error e => (.refused e, b)

/-- Carries out an operation on the ledger. -/
def step (b : Bench) : LedgerOperation → LedgerAnswer × Bench
  | .setBalance account amount => (.done, { b with ledger := b.ledger.setBalance account amount })
  | .credit account amount => b.settle (b.ledger.credit account amount)
  | .debit account amount => b.settle (b.ledger.debit account amount)
  | .setSlot owner key word => (.done, { b with ledger := b.ledger.setSlot owner key word })
  | .checkpoint =>
    let (id, ledger) := b.ledger.checkpoint
    (.checkpoint id, { b with ledger })
  | .revert id => b.settle (b.ledger.revert id)
  | .discard id => (.done, { b with ledger := b.ledger.discard id })
  | .copy => (.done, { b with copies := b.copies ++ [b.ledger.state] })
  | .restore n =>
    match b.copies[n]? with
    | some saved => (.done, { b with ledger := b.ledger.restore saved })
    | none => (.done, b)
  | .commit => (.done, { b with ledger := b.ledger.commit })

/-- Carries out operations in order on a ledger. -/
def run (b : Bench) : List LedgerOperation → List LedgerAnswer × Bench
  | [] => ([], b)
  | operation :: rest =>
    let (answer, b) := b.step operation
    let (answers, b) := b.run rest
    (answer :: answers, b)

end Bench

/-! ## Contents of states -/

namespace State

/-- What a state holds, without the tables that it is kept in. -/
def contents (s : State) : Contents := ⟨s.balance, s.slot⟩

/-- Recording a balance changes the contents at its account alone. -/
theorem contents_setBalance (s : State) (account : Address) (amount : Word) :
    (s.setBalance account amount).contents = s.contents.setBalance account amount := by
  simp only [contents, Contents.setBalance, Contents.mk.injEq]
  refine ⟨funext fun other => ?_, rfl⟩
  by_cases h : other = account
  · rw [h, balance_setBalance_self, Function.update_self]
  · rw [balance_setBalance_of_ne _ _ h, Function.update_of_ne h]

/-- Writing a slot changes the contents at its place alone. -/
theorem contents_setSlot (s : State) (owner : Address) (key : Hash) (word : Word) :
    (s.setSlot owner key word).contents = s.contents.setSlot owner key word := by
  simp only [contents, Contents.setSlot, Contents.mk.injEq]
  refine ⟨funext fun account => balance_setSlot .., funext fun other => funext fun key' => ?_⟩
  by_cases ho : other = owner
  · rw [ho, Function.update_self]
    by_cases hk : key' = key
    · rw [hk, slot_setSlot_self, Function.update_self]
    · rw [slot_setSlot_of_ne _ _ fun h => hk (Prod.mk.inj h).2, Function.update_of_ne hk]
  · rw [slot_setSlot_of_ne _ _ fun h => ho (Prod.mk.inj h).1, Function.update_of_ne ho]

/-- No slot is kept for a zero word. -/
def Clean (s : State) : Prop := ∀ owner key, (s.slots owner).find? key ≠ some .zero

theorem Clean.empty : State.empty.Clean := nofun

/-- A write of zero removes the slot, so that none comes to hold zero. -/
theorem Clean.setSlot {s : State} (h : s.Clean) (owner : Address) (key : Hash) (word : Word) :
    (s.setSlot owner key word).Clean := by
  intro other key'
  by_cases ho : other = owner
  · subst ho
    rw [slots_setSlot_self]
    by_cases hzero : word.IsZero
    · rw [if_pos hzero]
      by_cases hk : key' = key
      · rw [hk, Table.find?_erase_self]
        nofun
      · rw [Table.find?_erase_of_ne _ hk]
        exact h other key'
    · rw [if_neg hzero]
      by_cases hk : key' = key
      · rw [hk, Table.find?_insert_self]
        exact fun hword => hzero (Word.isZero_iff.2 (Option.some.inj hword))
      · rw [Table.find?_insert_of_ne _ _ hk]
        exact h other key'
  · rw [slots_setSlot_of_ne _ _ _ ho]
    exact h other key'

/-- In a clean state an owner has as many slots on record as it has slots that do not read zero. -/
theorem Clean.encard_slots {s : State} (h : s.Clean) (owner : Address) :
    {key | s.slot owner key ≠ .zero}.encard = s.slotCount owner := by
  have hset : {key | s.slot owner key ≠ .zero} =
      {key | ∃ word, (s.slots owner).find? key = some word} := by
    ext key
    rw [Set.mem_ofPred_eq, Set.mem_ofPred_eq, slot]
    have hkey := h owner key
    cases hfind : (s.slots owner).find? key with
    | none => simp
    | some word =>
      rw [hfind] at hkey
      exact ⟨fun _ => ⟨word, rfl⟩, fun _ hword => hkey (congrArg some hword)⟩
  rw [hset, Table.encard_keys, slotCount]

end State

/-! ## Refinement -/

namespace Bench

/-- The plain maps are what can be read of the ledger, its checkpoints and the copies, and none of
these keeps a slot for a zero word. -/
structure Refines (b : Bench) (p : Plain) : Prop where
  contents : b.ledger.state.contents = p.contents
  saved : b.ledger.checkpoints.map State.contents = p.saved
  copies : b.copies.map State.contents = p.copies
  clean : b.ledger.state.Clean
  cleanSaved : ∀ s ∈ b.ledger.checkpoints, s.Clean
  cleanCopies : ∀ s ∈ b.copies, s.Clean

namespace Refines

variable {b : Bench} {p : Plain}

theorem empty : Bench.empty.Refines .empty :=
  ⟨rfl, rfl, rfl, State.Clean.empty, nofun, nofun⟩

theorem balance (h : b.Refines p) (account : Address) :
    b.ledger.state.balance account = p.contents.balance account :=
  congrFun (congrArg Contents.balance h.contents) account

theorem slot (h : b.Refines p) (owner : Address) (key : Hash) :
    b.ledger.state.slot owner key = p.contents.slot owner key :=
  congrFun (congrFun (congrArg Contents.slot h.contents) owner) key

theorem length_saved (h : b.Refines p) : b.ledger.checkpoints.length = p.saved.length := by
  rw [← h.saved, List.length_map]

theorem setBalance (h : b.Refines p) (account : Address) (amount : Word) :
    Refines { b with ledger := b.ledger.setBalance account amount }
      { p with contents := p.contents.setBalance account amount } where
  contents := by
    rw [← h.contents]
    exact State.contents_setBalance ..
  saved := h.saved
  copies := h.copies
  clean := h.clean
  cleanSaved := h.cleanSaved
  cleanCopies := h.cleanCopies

theorem credit (h : b.Refines p) (account : Address) (amount : Word) :
    (b.step (.credit account amount)).1 = (p.step (.credit account amount)).1 ∧
      (b.step (.credit account amount)).2.Refines (p.step (.credit account amount)).2 := by
  simp only [step, Plain.step, Ledger.credit, ← h.balance]
  cases hadd : (b.ledger.state.balance account).add? amount with
  | some total =>
    have htotal := Word.add?_eq_some.1 hadd
    have hlt : (b.ledger.state.balance account).toNat + amount.toNat < 2 ^ 256 :=
      htotal ▸ total.isLt
    rw [dif_pos hlt]
    obtain rfl : total = ⟨_, hlt⟩ := Word.toNat_inj.1 htotal
    exact ⟨rfl, h.setBalance ..⟩
  | none =>
    rw [dif_neg (Nat.not_lt.2 (Word.add?_eq_none.1 hadd))]
    exact ⟨rfl, h⟩

theorem debit (h : b.Refines p) (account : Address) (amount : Word) :
    (b.step (.debit account amount)).1 = (p.step (.debit account amount)).1 ∧
      (b.step (.debit account amount)).2.Refines (p.step (.debit account amount)).2 := by
  simp only [step, Plain.step, Ledger.debit, ← h.balance]
  cases hsub : (b.ledger.state.balance account).sub? amount with
  | some rest =>
    have hrest := Word.sub?_eq_some.1 hsub
    rw [if_pos (show amount.toNat ≤ (b.ledger.state.balance account).toNat by omega)]
    have hword : (⟨(b.ledger.state.balance account).toNat - amount.toNat,
        Nat.lt_of_le_of_lt (Nat.sub_le ..) (b.ledger.state.balance account).isLt⟩ : Word) = rest :=
      Word.toNat_inj.1 (show _ - _ = rest.toNat by omega)
    rw [hword]
    exact ⟨rfl, h.setBalance ..⟩
  | none =>
    rw [if_neg (Nat.not_le.2 (Word.sub?_eq_none.1 hsub))]
    exact ⟨rfl, h⟩

theorem setSlot (h : b.Refines p) (owner : Address) (key : Hash) (word : Word) :
    Refines { b with ledger := b.ledger.setSlot owner key word }
      { p with contents := p.contents.setSlot owner key word } where
  contents := by
    rw [← h.contents]
    exact State.contents_setSlot ..
  saved := h.saved
  copies := h.copies
  clean := h.clean.setSlot owner key word
  cleanSaved := h.cleanSaved
  cleanCopies := h.cleanCopies

/-- The present state joins the saved ones. -/
theorem checkpoint (h : b.Refines p) :
    Refines { b with ledger := b.ledger.checkpoint.2 }
      { p with saved := p.saved ++ [p.contents] } where
  contents := h.contents
  saved := by
    rw [← h.saved, ← h.contents]
    exact List.map_append
  copies := h.copies
  clean := h.clean
  cleanSaved s hs := by
    rcases List.mem_append.1 hs with hs | hs
    · exact h.cleanSaved s hs
    · exact List.mem_singleton.1 hs ▸ h.clean
  cleanCopies := h.cleanCopies

/-- The saved states before a name stay, whatever becomes of the present one. -/
theorem discard (h : b.Refines p) (id : Nat) :
    Refines { b with ledger := b.ledger.discard id } { p with saved := p.saved.take id } where
  contents := h.contents
  saved := by
    rw [← h.saved]
    exact List.map_take
  copies := h.copies
  clean := h.clean
  cleanSaved s hs := h.cleanSaved s (List.mem_of_mem_take hs)
  cleanCopies := h.cleanCopies

/-- A clean state is put back. -/
theorem restore (h : b.Refines p) {saved : State} (hclean : saved.Clean) :
    Refines { b with ledger := b.ledger.restore saved } { p with contents := saved.contents } where
  contents := rfl
  saved := h.saved
  copies := h.copies
  clean := hclean
  cleanSaved := h.cleanSaved
  cleanCopies := h.cleanCopies

/-- Both go back to the same checkpoint, or refuse alike. -/
theorem revert (h : b.Refines p) (id : Nat) :
    (b.step (.revert id)).1 = (p.step (.revert id)).1 ∧
      (b.step (.revert id)).2.Refines (p.step (.revert id)).2 := by
  simp only [step, Plain.step]
  split
  · next hlt =>
    have hlength := hlt
    rw [← h.length_saved] at hlength
    have hsaved : b.ledger.checkpoints[id]? = some b.ledger.checkpoints[id] :=
      List.getElem?_eq_getElem hlength
    have hcontents : p.saved[id] = b.ledger.checkpoints[id].contents := by
      simp only [← h.saved, List.getElem_map]
    rw [Ledger.revert_of_getElem? hsaved, hcontents]
    exact ⟨rfl, (h.restore (h.cleanSaved _ (List.getElem_mem hlength))).discard id⟩
  · next hge =>
    rw [Ledger.revert_of_length_le (h.length_saved.symm ▸ Nat.not_lt.1 hge)]
    exact ⟨rfl, h⟩

/-- One operation. -/
theorem step (h : b.Refines p) (operation : LedgerOperation) :
    (b.step operation).1 = (p.step operation).1 ∧
      (b.step operation).2.Refines (p.step operation).2 := by
  cases operation with
  | setBalance account amount => exact ⟨rfl, h.setBalance ..⟩
  | credit account amount => exact h.credit ..
  | debit account amount => exact h.debit ..
  | setSlot owner key word => exact ⟨rfl, h.setSlot ..⟩
  | checkpoint => exact ⟨congrArg LedgerAnswer.checkpoint h.length_saved, h.checkpoint⟩
  | revert id => exact h.revert id
  | discard id => exact ⟨rfl, h.discard id⟩
  | copy =>
    refine ⟨rfl, h.contents, h.saved, ?_, h.clean, h.cleanSaved, fun s hs => ?_⟩
    · simp only [Bench.step, Plain.step, List.map_append, List.map_singleton, h.copies, h.contents]
    · rcases List.mem_append.1 hs with hs | hs
      · exact h.cleanCopies s hs
      · exact List.mem_singleton.1 hs ▸ h.clean
  | restore n =>
    have hmap : p.copies[n]? = b.copies[n]?.map State.contents := by
      rw [← h.copies, List.getElem?_map]
    simp only [Bench.step, Plain.step, List.getD_eq_getElem?_getD, hmap]
    cases hcopy : b.copies[n]? with
    | none => exact ⟨rfl, h⟩
    | some saved => exact ⟨rfl, h.restore (h.cleanCopies _ (List.mem_of_getElem? hcopy))⟩
  | commit => exact ⟨rfl, h.contents, rfl, h.copies, h.clean, nofun, h.cleanCopies⟩

/-- Any sequence of operations. -/
theorem run (h : b.Refines p) (operations : List LedgerOperation) :
    (b.run operations).1 = (p.run operations).1 ∧
      (b.run operations).2.Refines (p.run operations).2 := by
  induction operations generalizing b p with
  | nil => exact ⟨rfl, h⟩
  | cons operation rest ih =>
    obtain ⟨hanswer, hstep⟩ := h.step operation
    obtain ⟨hanswers, hrun⟩ := ih hstep
    refine ⟨?_, hrun⟩
    simp only [Bench.run, Plain.run]
    rw [hanswer, hanswers]

end Refines

/-- A new ledger answers every sequence of operations as plain maps do. Afterwards balances and
slots read as in the maps, at present and in every checkpoint and copy, and an account counts as
many slots as have a word other than zero. -/
theorem run_refines (operations : List LedgerOperation) :
    let b := (empty.run operations).2
    let p := (Plain.empty.run operations).2
    (empty.run operations).1 = (Plain.empty.run operations).1 ∧
    (∀ account, b.ledger.state.balance account = p.contents.balance account) ∧
    (∀ owner key, b.ledger.state.slot owner key = p.contents.slot owner key) ∧
    (∀ owner, {key | p.contents.slot owner key ≠ .zero}.encard =
      b.ledger.state.slotCount owner) ∧
    b.ledger.checkpoints.map State.contents = p.saved ∧
    b.copies.map State.contents = p.copies := by
  obtain ⟨hanswers, hrun⟩ := Refines.empty.run operations
  refine ⟨hanswers, hrun.balance, hrun.slot, fun owner => ?_, hrun.saved, hrun.copies⟩
  simp only [← hrun.slot]
  exact hrun.clean.encard_slots owner

end Bench

end StableSupply
