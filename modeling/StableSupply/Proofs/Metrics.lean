import Mathlib.Algebra.BigOperators.Group.List.Basic
import Mathlib.Algebra.GroupWithZero.Nat
import StableSupply.Metrics

/-! # Totals of the counters

A counter's total over all its labels is the number of times that something was counted. -/

namespace StableSupply

section Lists

variable {α : Type} [BEq α] [LawfulBEq α] {all : List α}

theorem sum_map_indicator (all : List α) (a : α) :
    (all.map fun b => if a == b then 1 else 0).sum = all.count a := by
  induction all with
  | nil => rfl
  | cons b rest ih =>
    rw [List.map_cons, List.sum_cons, ih, List.count_cons, BEq.comm, Nat.add_comm]

/-- Where every element is listed once, the counts of all of them make up the length. -/
theorem sum_map_count (hall : ∀ a, all.count a = 1) (l : List α) :
    (all.map fun a => l.count a).sum = l.length := by
  induction l with
  | nil => simp
  | cons a rest ih =>
    simp only [List.count_cons]
    rw [List.sum_map_add, ih, sum_map_indicator, hall, List.length_cons]

end Lists

namespace Metrics

/-- The sum of the counters of attempts, over all their labels. -/
def adjustmentTotal (m : Metrics) : Nat :=
  (Kind.all.flatMap fun kind => Status.all.map fun status => m.adjustmentCount kind status).sum

/-- The sum of the counters of cycles, over all their labels. -/
def cycleTotal (m : Metrics) : Nat := (Status.all.map m.cycleCount).sum

/-- Every cycle is counted under exactly one status. -/
theorem cycleTotal_eq (m : Metrics) : m.cycleTotal = m.cycles.length :=
  sum_map_count (by rintro ⟨⟩ <;> rfl) m.cycles

/-- Every attempt is counted under exactly one kind and status. -/
theorem adjustmentTotal_eq (m : Metrics) : m.adjustmentTotal = m.adjustments.length := by
  have hlabels : adjustmentTotal m =
      ((Kind.all.flatMap fun kind => Status.all.map fun status => (kind, status)).map
        fun label => m.adjustments.count label).sum := rfl
  rw [hlabels]
  refine sum_map_count ?_ m.adjustments
  rintro ⟨kind, status⟩
  cases kind <;> cases status <;> rfl

end Metrics

end StableSupply
