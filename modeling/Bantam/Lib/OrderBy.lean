import Mathlib.Data.List.Sort
import Mathlib.Tactic.Common

/-! The order in which a query returns the rows of a table. -/
namespace Tables
variable {ρ : Type} {before : ρ → ρ → Prop}

/-- `ORDER BY`: rows that it does not tell apart come in any order. -/
structure OrderBy (before : ρ → ρ → Prop) where
  rows : List ρ → List ρ
  perm : ∀ l, (rows l).Perm l
  sorted : ∀ l, (rows l).Pairwise before

namespace OrderBy

/-- The order that leaves rows that it does not tell apart as they were. -/
def merging [DecidableRel before] (trans : ∀ a b c, before a b → before b c → before a c)
    (total : ∀ a b, before a b ∨ before b a) : OrderBy before where
  rows l := l.mergeSort fun a b => decide (before a b)
  perm l := List.mergeSort_perm l _
  sorted l := by
    have h : (l.mergeSort fun a b => decide (before a b)).Pairwise
        fun a b => decide (before a b) = true := by
      refine List.pairwise_mergeSort (fun a b c hab hbc => ?_) (fun a b => ?_) l
      · exact decide_eq_true (trans a b c (of_decide_eq_true hab) (of_decide_eq_true hbc))
      · simpa using total a b
    exact h.imp of_decide_eq_true

/-- Rows that are all told apart come in one order. -/
theorem rows_eq (order : OrderBy before) {l l' : List ρ} (h : l'.Perm l) (hl' : l'.Pairwise before)
    (apart : ∀ a ∈ l, ∀ b ∈ l, before a b → before b a → a = b) : order.rows l = l' := by
  have hperm : (order.rows l).Perm l' := (order.perm l).trans h.symm
  refine hperm.eq_of_pairwise (fun a b ha hb hab hba => ?_) (order.sorted l) hl'
  exact apart a ((order.perm l).subset ha) b (h.subset hb) hab hba

end OrderBy
end Tables
