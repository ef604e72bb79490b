import Mathlib.Data.List.Nodup

/-!
# Ledgers of numbered things

Things are numbered in the order in which they are made. In a ledger each of them is entered once.
-/

namespace Librf.Ledger

def Once (entries : List Nat) (made : Nat) : Prop :=
  ∀ i, entries.count i = if i < made then 1 else 0

variable {entries later : List Nat} {made i : Nat}

theorem Once.nil : Once [] 0 := fun _ => rfl

theorem Once.perm (once : Once entries made) (same : later.Perm entries) : Once later made :=
  fun i => (same.count_eq i).trans (once i)

theorem count_made (made i : Nat) :
    (if i < made then 1 else 0) + [made].count i = if i < made + 1 then 1 else 0 := by
  rw [List.count_singleton]
  grind

theorem Once.make (once : Once entries made) : Once (entries ++ [made]) (made + 1) := by
  intro i
  rw [List.count_append, once i, count_made]

theorem Once.mem_iff (once : Once entries made) : i ∈ entries ↔ i < made := by
  rw [← List.count_pos_iff, once i]
  split <;> simp [*]

theorem Once.nodup (once : Once entries made) : entries.Nodup := by
  rw [List.nodup_iff_count_le_one]
  intro i
  rw [once i]
  split
  · exact Nat.le_refl 1
  · exact Nat.zero_le 1

end Librf.Ledger
