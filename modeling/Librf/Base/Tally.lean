import Mathlib.Data.List.Count
import Mathlib.Logic.Function.Basic

/-!
# Entries for the frames on the stacks

Every thread has a stack, and some frames have a key. The entries list the keys of all frames with
their threads, each as often as it occurs.
-/

namespace Librf

variable {φ ι κ : Type*} [DecidableEq ι] [DecidableEq κ]

def Tally (key : φ → Option κ) (stack : ι → List φ) (entries : List (ι × κ)) : Prop :=
  ∀ t x, entries.count (t, x) = (stack t).countP fun f => key f = some x

namespace Tally

variable {key : φ → Option κ} {stack : ι → List φ} {entries : List (ι × κ)} {t : ι} {x : κ}
  {f g : φ} {rest l : List φ}

theorem nil : Tally key (fun _ : ι => []) [] := fun _ _ => rfl

theorem mem (tally : Tally key stack entries) (member : f ∈ stack t) (is : key f = some x) :
    (t, x) ∈ entries := by
  apply List.count_pos_iff.1
  rw [tally t x]
  exact List.countP_pos_iff.2 ⟨f, member, decide_eq_true is⟩

theorem keep (tally : Tally key stack entries)
    (same : ∀ x, (l.countP fun f => key f = some x) = (stack t).countP fun f => key f = some x) :
    Tally key (Function.update stack t l) entries := by
  intro u y
  by_cases here : u = t
  · subst here
    rw [Function.update_self, same, tally u y]
  · rw [Function.update_of_ne here, tally u y]

theorem replace (tally : Tally key stack entries) (top : stack t = f :: rest)
    (same : key g = key f) : Tally key (Function.update stack t (g :: rest)) entries := by
  apply tally.keep
  intro x
  rw [top, List.countP_cons, List.countP_cons, same]

theorem push_none (tally : Tally key stack entries) (free : key g = none) :
    Tally key (Function.update stack t (g :: stack t)) entries := by
  apply tally.keep
  intro x
  rw [List.countP_cons, free]
  simp

theorem pop_none (tally : Tally key stack entries) (top : stack t = f :: rest)
    (free : key f = none) : Tally key (Function.update stack t rest) entries := by
  apply tally.keep
  intro x
  rw [top, List.countP_cons, free]
  simp

theorem push (tally : Tally key stack entries) (is : key g = some x) :
    Tally key (Function.update stack t (g :: stack t)) ((t, x) :: entries) := by
  intro u y
  rw [List.count_cons, tally u y]
  by_cases here : u = t
  · subst here
    rw [Function.update_self, List.countP_cons, is]
    simp
  · have other : ¬ t = u := Ne.symm here
    rw [Function.update_of_ne here]
    simp [other]

theorem pop (tally : Tally key stack entries) (top : stack t = f :: rest) (is : key f = some x) :
    Tally key (Function.update stack t rest) (entries.erase (t, x)) := by
  intro u y
  rw [List.count_erase, tally u y]
  by_cases here : u = t
  · subst here
    rw [Function.update_self, top, List.countP_cons, is]
    by_cases same : x = y
    · simp [same]
    · simp [same]
  · have other : ¬ t = u := Ne.symm here
    rw [Function.update_of_ne here]
    simp [other]

end Tally

end Librf
