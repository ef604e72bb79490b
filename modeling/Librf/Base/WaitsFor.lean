import Mathlib.Logic.Relation

/-!
# Who waits for whom

A snapshot of a system of locks: the locks each party holds and the lock each blocked party wants.
-/

namespace Librf

structure Contention (party lock : Type) where
  holds : party → lock → Prop
  wants : party → lock → Prop

namespace Contention

variable {party lock : Type} {c : Contention party lock}

def WaitsFor (c : Contention party lock) (p q : party) : Prop := ∃ l, c.wants p l ∧ c.holds q l

/-- Some party waits for itself, directly or through others. -/
def Deadlocked (c : Contention party lock) : Prop := ∃ p, Relation.TransGen c.WaitsFor p p

theorem not_deadlocked_of_rank (rank : party → Nat)
    (falls : ∀ p q, c.WaitsFor p q → rank q < rank p) : ¬ c.Deadlocked := by
  rintro ⟨p, cycle⟩
  have down : ∀ {a b}, Relation.TransGen c.WaitsFor a b → rank b < rank a := by
    intro a b path
    induction path with
    | single edge => exact falls _ _ edge
    | tail _ edge ih => exact Nat.lt_trans (falls _ _ edge) ih
  exact Nat.lt_irrefl _ (down cycle)

theorem not_deadlocked_of_empty_handed (empty : ∀ p l l', c.wants p l → ¬ c.holds p l') :
    ¬ c.Deadlocked := by
  rintro ⟨p, cycle⟩
  obtain ⟨q, ⟨l, wants, -⟩, -⟩ := Relation.TransGen.head'_iff.mp cycle
  obtain ⟨r, -, ⟨l', -, holds⟩⟩ := Relation.TransGen.tail'_iff.mp cycle
  exact empty p l l' wants holds

end Contention

end Librf
