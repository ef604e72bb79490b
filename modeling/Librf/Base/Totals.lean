import Mathlib.Algebra.Order.BigOperators.Group.Finset
import Mathlib.Algebra.Order.Monoid.Canonical.Defs

/-!
# Totals over a table

What the entries below a bound amount to. An entry is exchanged for another, or one is added at
the bound.
-/

namespace Librf.Totals

variable {β M : Type*} [AddCommMonoid M] {weight : β → M} {table : Nat → β} {n i j : Nat}

def total (weight : β → M) (table : Nat → β) (n : Nat) : M := ∑ i ∈ Finset.range n, weight (table i)

theorem total_congr {other : Nat → β} (same : ∀ i < n, weight (other i) = weight (table i)) :
    total weight other n = total weight table n :=
  Finset.sum_congr rfl fun i member => same i (Finset.mem_range.1 member)

theorem total_push (weight : β → M) (table : Nat → β) (entry : β) :
    total weight (Function.update table n entry) (n + 1) = total weight table n + weight entry := by
  rw [total, Finset.sum_range_succ, Function.update_self]
  congr 1
  refine total_congr fun i bound => ?_
  rw [Function.update_of_ne (Nat.ne_of_lt bound)]

theorem total_update (weight : β → M) (table : Nat → β) (entry : β) (bound : i < n) :
    total weight (Function.update table i entry) n + weight (table i) =
      total weight table n + weight entry := by
  have member : i ∈ Finset.range n := Finset.mem_range.2 bound
  have others : ∑ k ∈ (Finset.range n).erase i, weight (Function.update table i entry k) =
      ∑ k ∈ (Finset.range n).erase i, weight (table k) := by
    refine Finset.sum_congr rfl fun k other => ?_
    rw [Function.update_of_ne (Finset.ne_of_mem_erase other)]
  have after := Finset.sum_erase_add _ (fun k => weight (Function.update table i entry k)) member
  have before := Finset.sum_erase_add _ (fun k => weight (table k)) member
  simp only [Function.update_self] at after
  rw [total, total, ← after, ← before, others, add_right_comm]

theorem total_update_of_same (entry : β) (same : weight entry = weight (table i)) :
    total weight (Function.update table i entry) n = total weight table n := by
  refine total_congr fun k _ => ?_
  rcases eq_or_ne k i with rfl | other
  · rw [Function.update_self, same]
  · rw [Function.update_of_ne other]

theorem total_move (weight : β → M) (table : Nat → β) {entry rest : β} (different : i ≠ j)
    (first : i < n) (second : j < n) (moved : weight entry = weight (table j)) (left : weight rest = 0) :
    total weight (Function.update (Function.update table j rest) i entry) n + weight (table i) =
      total weight table n := by
  have emptied := total_update weight table rest second
  have filled := total_update weight (Function.update table j rest) entry first
  rw [Function.update_of_ne different, moved, emptied, left, add_zero] at filled
  exact filled

theorem weight_le_total (weight : β → Nat) (bound : i < n) :
    weight (table i) ≤ total weight table n :=
  Finset.single_le_sum_of_canonicallyOrdered (f := fun i => weight (table i))
    (Finset.mem_range.2 bound)

end Librf.Totals
