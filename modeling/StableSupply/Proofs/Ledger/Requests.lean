import StableSupply.Proofs.Act
import StableSupply.Proofs.Ledger.Writes
import StableSupply.Slot

/-! # Outcomes of ledger requests

A request that is served has its effect on the ledger and gives what the ledger answers; one that is
refused leaves the ledger as it was and fails with the gate's reason. Nothing else is said of the
gate: its own state may change with every request. -/

namespace StableSupply

/-! ## Refusals -/

namespace Gate

/-- The gate can refuse the request with this error. -/
def Refuses (σ : Type) [Gate σ] (request : Request) (e : LedgerError) : Prop :=
  ∃ (g : σ) (reason : String), (check request g).1 = some reason ∧ e = .unavailable reason

/-- The error comes of a refused request. -/
def Refusal (σ : Type) [Gate σ] (e : LedgerError) : Prop := ∃ request, Refuses σ request e

/-- Reversals are never refused. -/
def ServesReverts (σ : Type) [Gate σ] : Prop :=
  ∀ (id : Nat) (g : σ), (check (.revert id) g).1 = none

/-- A gate that serves reversals refuses none. -/
theorem ServesReverts.not_refuses {σ : Type} [Gate σ] (h : ServesReverts σ) {id : Nat}
    {e : LedgerError} : ¬ Refuses σ (.revert id) e := by
  rintro ⟨g, reason, hg, -⟩
  rw [h id g] at hg
  cases hg

/-- The open gate refuses nothing. -/
theorem openGate_not_refusal {e : LedgerError} : ¬ Refusal OpenGate e := by
  rintro ⟨request, g, reason, hg, -⟩
  cases hg

end Gate

namespace Access

open Gate

variable {σ ε : Type} {s : Access σ}

/-! ## Checkpoints -/

@[simp] theorem ensures_checkpoint {Q : Nat → Access σ → Prop} {E : ε → Access σ → Prop} :
    checkpoint.Ensures s Q E ↔
      Q s.ledger.checkpoints.length
        { s with ledger := { s.ledger with
            checkpoints := s.ledger.checkpoints ++ [s.ledger.state] } } := Iff.rfl

@[simp] theorem ensures_discard {id : Nat} {Q : Unit → Access σ → Prop} {E : ε → Access σ → Prop} :
    (discard id).Ensures s Q E ↔ Q () { s with ledger := s.ledger.discard id } := Iff.rfl

variable [Gate σ]

/-! ## Requests -/

/-- The gate alone decides whether a request passes, and asking it leaves the ledger as it is. -/
theorem ask_ensures (request : Request) :
    (ask request).Ensures s (fun _ s' => s'.ledger = s.ledger) fun e s' =>
      s'.ledger = s.ledger ∧ Refuses σ request e := by
  simp only [Act.Ensures, ask, Act.apply, ExceptT.run, ExceptT.mk, StateT.run]
  rcases h : Gate.check request s.gate with ⟨_ | reason, g⟩
  · rfl
  · exact ⟨rfl, s.gate, reason, by rw [h], rfl⟩

omit [Gate σ] in
/-- An update that fails leaves the ledger as it is. -/
theorem update_ensures (step : Ledger → Except LedgerError Ledger) :
    (update step).Ensures s (fun _ s' => step s.ledger = .ok s'.ledger) fun e s' =>
      s'.ledger = s.ledger ∧ step s.ledger = .error e := by
  simp only [Act.Ensures, update, Act.apply, ExceptT.run, ExceptT.mk, StateT.run]
  cases h : step s.ledger with
  | ok l => rfl
  | error e => exact ⟨rfl, rfl⟩

theorem attach_ensures :
    (attach : Act (Access σ) LedgerError Unit).Ensures s (fun _ s' => s'.ledger = s.ledger)
      fun e s' => s'.ledger = s.ledger ∧ Refusal σ e :=
  (ask_ensures .attach).mono (fun _ _ h => h) fun _ _ h => ⟨h.1, _, h.2⟩

theorem read_ensures (owner : Address) (key : Hash) :
    (read owner key).Ensures s
      (fun word s' => s'.ledger = s.ledger ∧ word = s.ledger.state.slot owner key)
      fun e s' => s'.ledger = s.ledger ∧ Refusal σ e := by
  simp only [read, Act.ensures_bind]
  refine (ask_ensures _).mono ?_ fun e s₁ h₁ => ⟨h₁.1, _, h₁.2⟩
  intro _ s₁ h₁
  exact ⟨h₁, by rw [h₁]⟩

theorem balance_ensures (account : Address) :
    (balance account).Ensures s
      (fun word s' => s'.ledger = s.ledger ∧ word = s.ledger.state.balance account)
      fun e s' => s'.ledger = s.ledger ∧ Refusal σ e := by
  simp only [balance, Act.ensures_bind]
  refine (ask_ensures _).mono ?_ fun e s₁ h₁ => ⟨h₁.1, _, h₁.2⟩
  intro _ s₁ h₁
  exact ⟨h₁, by rw [h₁]⟩

/-- A request for a change of the ledger. -/
theorem request_ensures (request : Request) (step : Ledger → Except LedgerError Ledger) :
    (ask request >>= fun _ => update step).Ensures s
      (fun _ s' => step s.ledger = .ok s'.ledger)
      fun e s' => s'.ledger = s.ledger ∧ (Refuses σ request e ∨ step s.ledger = .error e) := by
  simp only [Act.ensures_bind]
  refine (ask_ensures request).mono ?_ fun e s₁ h₁ => ⟨h₁.1, .inl h₁.2⟩
  intro _ s₁ h₁
  rw [← h₁]
  exact (update_ensures step).mono (fun _ _ h => h) fun e s₂ h₂ => ⟨h₂.1, .inr h₂.2⟩

/-- A write that is refused leaves the ledger as it is. -/
theorem write_ensures (owner : Address) (key : Hash) (word : Word) :
    (write owner key word).Ensures s (fun _ s' => s'.ledger = s.ledger.setSlot owner key word)
      fun e s' => s'.ledger = s.ledger ∧ Refusal σ e := by
  refine (request_ensures (.write owner key word) _).mono ?_ ?_
  · intro _ s₁ h₁
    exact (Except.ok.inj h₁).symm
  · intro e s₁ h₁
    exact ⟨h₁.1, _, h₁.2.resolve_right fun h => by cases h⟩

/-- A credit fails only if the gate refuses it or the sum is no word. -/
theorem credit_ensures (account : Address) (amount : Word) (reason : BalanceChange) :
    (credit account amount reason).Ensures s
      (fun _ s' => s.ledger.credit account amount = .ok s'.ledger)
      fun e s' => s'.ledger = s.ledger ∧
        (Refusal σ e ∨ s.ledger.credit account amount = .error e) :=
  (request_ensures _ _).mono (fun _ _ h => h) fun _ _ h => ⟨h.1, h.2.imp_left fun h => ⟨_, h⟩⟩

/-- A debit fails only if the gate refuses it or the balance is too low. -/
theorem debit_ensures (account : Address) (amount : Word) (reason : BalanceChange) :
    (debit account amount reason).Ensures s
      (fun _ s' => s.ledger.debit account amount = .ok s'.ledger)
      fun e s' => s'.ledger = s.ledger ∧ (Refusal σ e ∨ s.ledger.debit account amount = .error e) :=
  (request_ensures _ _).mono (fun _ _ h => h) fun _ _ h => ⟨h.1, h.2.imp_left fun h => ⟨_, h⟩⟩

/-- A reversal fails only if the gate refuses it or there is no such checkpoint. -/
theorem revert_ensures (id : Nat) :
    (revert id).Ensures s (fun _ s' => s.ledger.revert id = .ok s'.ledger)
      fun e s' => s'.ledger = s.ledger ∧
        (Refuses σ (.revert id) e ∨ s.ledger.revert id = .error e) :=
  request_ensures (.revert id) _

end Access

/-! ## Requests for named slots -/

namespace Slot

open Gate

variable [Digest]

/-- The word that a state holds in the slot. -/
def word (slot : Slot) (s : State) : Word := s.slot slot.owner slot.key

/-- The write of a word to the slot. -/
def set (slot : Slot) (word : Word) : SlotWrite := ⟨slot.owner, slot.key, word⟩

variable {σ : Type} [Gate σ] {s : Access σ}

theorem read_ensures (slot : Slot) :
    slot.read.Ensures s (fun word s' => s'.ledger = s.ledger ∧ word = slot.word s.ledger.state)
      fun e s' => s'.ledger = s.ledger ∧ Refusal σ e :=
  Access.read_ensures ..

theorem write_ensures (slot : Slot) (word : Word) :
    (slot.write word).Ensures s (fun _ s' => s'.ledger = s.ledger.setSlots [slot.set word])
      fun e s' => s'.ledger = s.ledger ∧ Refusal σ e :=
  Access.write_ensures ..

end Slot

end StableSupply
