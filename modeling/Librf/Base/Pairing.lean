import Mathlib.Data.List.Nodup

/-!
# Pairing two growing sequences

The `k`-th member of one sequence is paired with the `k`-th member of the other. At any time only
one of the two sequences can be ahead; its members past the end of the other one are waiting.
-/

namespace Librf

structure Pairing (ρ ω : Type*) where
  left : List ρ
  right : List ω

namespace Pairing

variable {ρ ω : Type*} (p : Pairing ρ ω)

def swap : Pairing ω ρ := ⟨p.right, p.left⟩

def pushLeft (a : ρ) : Pairing ρ ω := ⟨p.left ++ [a], p.right⟩

def pushRight (b : ω) : Pairing ρ ω := ⟨p.left, p.right ++ [b]⟩

def waitingLeft : List ρ := p.left.drop p.right.length

def waitingRight : List ω := p.right.drop p.left.length

def Paired (a : ρ) (b : ω) : Prop :=
  ∃ k : Nat, p.left[k]? = some a ∧ p.right[k]? = some b

variable {p}

theorem paired_swap {a : ρ} {b : ω} : p.swap.Paired b a ↔ p.Paired a b :=
  exists_congr fun _ => and_comm

theorem waitingLeft_eq_nil (ahead : p.waitingRight ≠ []) : p.waitingLeft = [] := by
  simp only [waitingRight, waitingLeft, ne_eq, List.drop_eq_nil_iff] at *
  omega

theorem waitingRight_eq_nil (ahead : p.waitingLeft ≠ []) : p.waitingRight = [] :=
  waitingLeft_eq_nil (p := p.swap) ahead

theorem paired_pushLeft {a x : ρ} {y : ω} : (p.pushLeft a).Paired x y ↔
    p.Paired x y ∨ x = a ∧ p.waitingRight.head? = some y := by
  simp only [Paired, pushLeft, waitingRight, List.head?_drop]
  constructor
  · rintro ⟨k, left, right⟩
    rcases Nat.lt_trichotomy k p.left.length with old | rfl | beyond
    · rw [List.getElem?_append_left old] at left
      exact Or.inl ⟨k, left, right⟩
    · rw [List.getElem?_concat_length, Option.some.injEq] at left
      exact Or.inr ⟨left.symm, right⟩
    · rw [List.getElem?_eq_none (by simpa using Nat.succ_le_of_lt beyond)] at left
      cases left
  · rintro (⟨k, left, right⟩ | ⟨rfl, right⟩)
    · have old : k < p.left.length := (List.getElem?_eq_some_iff.mp left).1
      exact ⟨k, by rwa [List.getElem?_append_left old], right⟩
    · exact ⟨p.left.length, List.getElem?_concat_length, right⟩

theorem paired_pushRight {b y : ω} {x : ρ} : (p.pushRight b).Paired x y ↔
    p.Paired x y ∨ y = b ∧ p.waitingLeft.head? = some x := by
  rw [← paired_swap, ← paired_swap (p := p)]
  exact paired_pushLeft (p := p.swap)

theorem waitingLeft_pushLeft (a : ρ) (level : p.waitingRight = []) :
    (p.pushLeft a).waitingLeft = p.waitingLeft ++ [a] :=
  List.drop_append_of_le_length (List.drop_eq_nil_iff.mp level)

theorem waitingRight_pushLeft (a : ρ) : (p.pushLeft a).waitingRight = p.waitingRight.tail := by
  simp [waitingRight, pushLeft, List.tail_drop]

theorem waitingLeft_pushLeft_of_ahead (a : ρ) (ahead : p.waitingRight ≠ []) :
    (p.pushLeft a).waitingLeft = [] := by
  simp only [waitingRight, waitingLeft, pushLeft, ne_eq, List.drop_eq_nil_iff, List.length_append,
    List.length_singleton] at *
  omega

theorem waitingRight_pushRight (b : ω) (level : p.waitingLeft = []) :
    (p.pushRight b).waitingRight = p.waitingRight ++ [b] :=
  waitingLeft_pushLeft (p := p.swap) b level

theorem waitingLeft_pushRight (b : ω) : (p.pushRight b).waitingLeft = p.waitingLeft.tail :=
  waitingRight_pushLeft (p := p.swap) b

theorem waitingRight_pushRight_of_ahead (b : ω) (ahead : p.waitingLeft ≠ []) :
    (p.pushRight b).waitingRight = [] :=
  waitingLeft_pushLeft_of_ahead (p := p.swap) b ahead

theorem waiting_or_paired {a : ρ} (member : a ∈ p.left) :
    a ∈ p.waitingLeft ∨ ∃ b, p.Paired a b := by
  obtain ⟨k, bound, rfl⟩ := List.getElem_of_mem member
  rcases Nat.lt_or_ge k p.right.length with matched | late
  · exact Or.inr ⟨p.right[k], k, List.getElem?_eq_getElem bound, List.getElem?_eq_getElem matched⟩
  · apply Or.inl (List.mem_iff_getElem?.mpr ⟨k - p.right.length, ?_⟩)
    rw [waitingLeft, List.getElem?_drop, Nat.add_sub_cancel' late, List.getElem?_eq_getElem bound]

theorem not_paired_of_waiting (nodup : p.left.Nodup) {a : ρ} {b : ω}
    (waiting : a ∈ p.waitingLeft) : ¬ p.Paired a b := by
  rintro ⟨k, left, right⟩
  obtain ⟨i, at_⟩ := List.mem_iff_getElem?.mp waiting
  rw [waitingLeft, List.getElem?_drop] at at_
  obtain ⟨first, atFirst⟩ := List.getElem?_eq_some_iff.mp left
  obtain ⟨second, atSecond⟩ := List.getElem?_eq_some_iff.mp at_
  have same := (List.Nodup.getElem_inj_iff nodup).mp (atFirst.trans atSecond.symm)
  have matched := (List.getElem?_eq_some_iff.mp right).1
  omega

end Pairing

end Librf
