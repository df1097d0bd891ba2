import StableSupply.Proofs.Engine.Apply
import StableSupply.Proofs.Engine.Effect
import StableSupply.Proofs.Slot.Cycle

/-! # Courses of the ledger's state

Whatever a manager is asked to do, the state of its ledger changes in steps of three kinds only
(`Step`): one of the slots for the source's values is written, an adjustment is applied, or, where
reversals are refused, an adjustment stops on the way. A `Course` is a run of such steps together
with the adjustments that were applied. -/

namespace StableSupply

open Engine Gate

variable {σ : Type} [Digest] [Gate σ]

/-- The source's values are written to slots of their own. -/
theorem Slot.word_observed {token : StableToken} (hsep : Digest.Separates token) {s : State}
    {slot other : Slot} {word : Word} (hslot : slot ∈ Slot.observed) (huse : other.InUse token)
    (hother : other ∉ Slot.observed) : other.word (s.setSlots [slot.set word]) = other.word s :=
  Slot.word_set_of_ne hsep (Slot.inUse_of_mem_observed hslot) huse
    (Slot.ne_of_mem_observed hslot hother)

/-! ## Courses -/

/-- What an operation may do to the state at once: write one of the source's values, carry out an
adjustment, or, if the gate refuses reversals, leave a part of one. -/
inductive Step (σ : Type) [Gate σ] : State → List AppliedAdjustment → State → Prop
  | observed {s : State} {slot : Slot} {word : Word} (hslot : slot ∈ Slot.observed) :
    Step σ s [] (s.setSlots [slot.set word])
  | applied {s s' : State} {a : AppliedAdjustment} (h : Adjusts s a s') : Step σ s [a] s'
  | left {s s' : State} (hrefuses : RefusesReverts σ) (h : LeavesPart s s') : Step σ s [] s'

/-- Any number of such steps, with the adjustments that were carried out in order. -/
inductive Course (σ : Type) [Gate σ] : State → List AppliedAdjustment → State → Prop
  | rest {s : State} : Course σ s [] s
  | step {s₁ s₂ s₃ : State} {as bs : List AppliedAdjustment} (h : Step σ s₁ as s₂)
    (hrest : Course σ s₂ bs s₃) : Course σ s₁ (as ++ bs) s₃

namespace Course

theorem of_step {s s' : State} {as : List AppliedAdjustment} (h : Step σ s as s') :
    Course σ s as s' := by
  have hcourse := Course.step h .rest
  rwa [List.append_nil] at hcourse

theorem of_eq {s s' : State} (h : s' = s) : Course σ s [] s' := h ▸ .rest

theorem trans {s₁ s₂ s₃ : State} {as bs : List AppliedAdjustment} (h₁ : Course σ s₁ as s₂)
    (h₂ : Course σ s₂ bs s₃) : Course σ s₁ (as ++ bs) s₃ := by
  induction h₁ with
  | rest => exact h₂
  | step h _ ih =>
    rw [List.append_assoc]
    exact .step h (ih h₂)

end Course

/-! ### Slots that no step writes -/

section Settled

variable {token : StableToken} {s s' : State} {as : List AppliedAdjustment} {slot : Slot}

/-- A step touches the source's values, the supply and the counter of the history, and no other
slot. -/
theorem Step.word_of_ne (hsep : Digest.Separates token) (h : Step σ s as s')
    (huse : slot.InUse token) (hobserved : slot ∉ Slot.observed) (hsupply : slot ≠ .currentSupply)
    (hcount : slot ≠ .historyCount) : slot.word s' = slot.word s := by
  cases h with
  | observed hslot => exact Slot.word_observed hsep hslot huse hobserved
  | applied ha => exact ha.word_of_ne hsep huse hsupply hcount
  | left _ hpart =>
    obtain ⟨_, -, hpart⟩ := hpart
    exact hpart.word_of_ne hsep huse hsupply hcount

theorem Course.word_of_ne (hsep : Digest.Separates token) (h : Course σ s as s')
    (huse : slot.InUse token) (hobserved : slot ∉ Slot.observed) (hsupply : slot ≠ .currentSupply)
    (hcount : slot ≠ .historyCount) : slot.word s' = slot.word s := by
  induction h with
  | rest => rfl
  | step hstep _ ih =>
    exact ih.trans (hstep.word_of_ne hsep huse hobserved hsupply hcount)

end Settled

end StableSupply
