import Mathlib.Data.List.Count
import Mathlib.Logic.Function.Basic

/-!
# Stacks of which one has a frame of a kind

Every thread has a stack. Either no stack has a frame of the kind, or one stack has one such frame;
that thread is the owner.
-/

namespace Librf

variable {φ ι : Type*}

/-- `owner` has the only frame for which `p` holds. -/
def Sole [DecidableEq ι] (p : φ → Bool) (stack : ι → List φ) (owner : Option ι) : Prop :=
  ∀ t, (stack t).countP p = if owner = some t then 1 else 0

namespace Sole

variable [DecidableEq ι] {p : φ → Bool} {stack : ι → List φ} {owner : Option ι} {t : ι} {f g : φ}
  {rest l : List φ}

theorem forall_update_of_ne {P : ι → List φ → Prop} (all : ∀ u, u ≠ t → P u (stack u))
    (here : P t l) : ∀ u, P u (Function.update stack t l u) := by
  intro u
  by_cases same : u = t
  · subst same
    rwa [Function.update_self]
  · rw [Function.update_of_ne same]
    exact all u same

theorem forall_update {P : ι → List φ → Prop} (all : ∀ u, P u (stack u)) (here : P t l) :
    ∀ u, P u (Function.update stack t l u) :=
  forall_update_of_ne (fun u _ => all u) here

theorem forall_mem_update_of_ne {P : ι → φ → Prop} (all : ∀ u, u ≠ t → ∀ f ∈ stack u, P u f)
    (here : ∀ f ∈ l, P t f) : ∀ u, ∀ f ∈ Function.update stack t l u, P u f :=
  forall_update_of_ne (P := fun u (l : List φ) => ∀ f ∈ l, P u f) all here

theorem forall_mem_update {P : ι → φ → Prop} (all : ∀ u, ∀ f ∈ stack u, P u f)
    (here : ∀ f ∈ l, P t f) : ∀ u, ∀ f ∈ Function.update stack t l u, P u f :=
  forall_mem_update_of_ne (fun u _ => all u) here

theorem nil : Sole p (fun _ : ι => []) none := fun _ => rfl

theorem owner_of_mem (sole : Sole p stack owner) (member : f ∈ stack t) (is : p f = true) :
    owner = some t := by
  have positive : 0 < (stack t).countP p := List.countP_pos_iff.2 ⟨f, member, is⟩
  rw [sole t] at positive
  by_contra other
  rw [if_neg other] at positive
  exact Nat.lt_irrefl 0 positive

theorem exists_mem (sole : Sole p stack (some t)) : ∃ f ∈ stack t, p f = true := by
  apply List.countP_pos_iff.1
  rw [sole t, if_pos rfl]
  exact Nat.one_pos

theorem not_mem (sole : Sole p stack none) (t : ι) : ∀ f ∈ stack t, p f = false := by
  intro f member
  by_contra is
  have owned := sole.owner_of_mem member ((Bool.not_eq_false _).mp is)
  cases owned

theorem eq_of_countP_le_one (few : l.countP p ≤ 1) (first : f ∈ l) (second : g ∈ l)
    (is : p f = true) (is' : p g = true) : f = g := by
  induction l with
  | nil => cases first
  | cons a l ih =>
      rw [List.countP_cons] at few
      by_cases here : p a = true
      · have none_ : ∀ b ∈ l, ¬ p b = true := by
          rw [if_pos here] at few
          exact List.countP_eq_zero.1 (by omega)
        rcases List.mem_cons.1 first with rfl | first
        · rcases List.mem_cons.1 second with rfl | second
          · rfl
          · exact absurd is' (none_ g second)
        · exact absurd is (none_ f first)
      · rw [if_neg here] at few
        apply ih few
        · exact (List.mem_cons.1 first).resolve_left fun same => here (same ▸ is)
        · exact (List.mem_cons.1 second).resolve_left fun same => here (same ▸ is')

theorem unique {t' : ι} (sole : Sole p stack owner) (first : f ∈ stack t) (second : g ∈ stack t')
    (is : p f = true) (is' : p g = true) : t = t' ∧ f = g := by
  have owned := sole.owner_of_mem first is
  have same : t = t' := Option.some.inj (owned.symm.trans (sole.owner_of_mem second is'))
  subst same
  have few : (stack t).countP p = 1 := by rw [sole t, if_pos owned]
  exact ⟨rfl, eq_of_countP_le_one (Nat.le_of_eq few) first second is is'⟩

theorem not_mem_rest (sole : Sole p stack owner) (top : stack t = f :: rest) (is : p f = true) :
    ∀ g ∈ rest, p g = false := by
  have owned := sole.owner_of_mem (top ▸ List.mem_cons_self) is
  have count := sole t
  rw [top, List.countP_cons, if_pos is, if_pos owned] at count
  intro g member
  by_contra is'
  have positive : 0 < rest.countP p := List.countP_pos_iff.2 ⟨g, member, (Bool.not_eq_false _).mp is'⟩
  omega

theorem not_mem_of_ne {u : ι} (sole : Sole p stack owner) (member : f ∈ stack t) (is : p f = true)
    (other : u ≠ t) : ∀ g ∈ stack u, p g = false := by
  intro g inside
  by_contra is'
  exact other (sole.unique inside member ((Bool.not_eq_false _).mp is') is).1

/-! ## When a stack changes -/

theorem keep (sole : Sole p stack owner) (same : l.countP p = (stack t).countP p) :
    Sole p (Function.update stack t l) owner := by
  intro u
  by_cases here : u = t
  · subst here
    rw [Function.update_self, same, sole u]
  · rw [Function.update_of_ne here, sole u]

theorem replace (sole : Sole p stack owner) (top : stack t = f :: rest) (same : p g = p f) :
    Sole p (Function.update stack t (g :: rest)) owner := by
  apply sole.keep
  rw [top, List.countP_cons, List.countP_cons, same]

theorem pop (sole : Sole p stack owner) (top : stack t = f :: rest) (other : p f = false) :
    Sole p (Function.update stack t rest) owner := by
  apply sole.keep
  rw [top, List.countP_cons, other]
  rfl

theorem push (sole : Sole p stack owner) (other : p g = false) :
    Sole p (Function.update stack t (g :: stack t)) owner := by
  apply sole.keep
  rw [List.countP_cons, other]
  rfl

theorem enter (sole : Sole p stack none) (more : l.countP p = (stack t).countP p + 1) :
    Sole p (Function.update stack t l) (some t) := by
  intro u
  have before := sole u
  rw [if_neg (by simp)] at before
  by_cases here : u = t
  · subst here
    rw [Function.update_self, more, before, if_pos rfl]
  · rw [Function.update_of_ne here, before, if_neg fun same => here (Option.some.inj same).symm]

theorem enter_push (sole : Sole p stack none) (is : p g = true) :
    Sole p (Function.update stack t (g :: stack t)) (some t) := by
  apply sole.enter
  rw [List.countP_cons, if_pos is]

theorem enter_replace (sole : Sole p stack none) (top : stack t = f :: rest) (is : p g = true) :
    Sole p (Function.update stack t (g :: rest)) (some t) := by
  have other := sole.not_mem t f (top ▸ List.mem_cons_self)
  apply sole.enter
  rw [top, List.countP_cons, List.countP_cons, if_pos is, other]
  rfl

theorem leave (sole : Sole p stack owner) (top : stack t = f :: rest) (is : p f = true)
    (less : l.countP p = rest.countP p) : Sole p (Function.update stack t l) none := by
  have owned := sole.owner_of_mem (top ▸ List.mem_cons_self) is
  intro u
  have before := sole u
  rw [if_neg (by simp)]
  by_cases here : u = t
  · subst here
    rw [top, List.countP_cons, if_pos is, if_pos owned] at before
    rw [Function.update_self, less]
    omega
  · rw [Function.update_of_ne here, before, if_neg]
    exact fun other => here (Option.some.inj (owned.symm.trans other)).symm

theorem leave_replace (sole : Sole p stack owner) (top : stack t = f :: rest) (is : p f = true)
    (other : p g = false) : Sole p (Function.update stack t (g :: rest)) none := by
  apply sole.leave top is
  rw [List.countP_cons, other]
  rfl

theorem leave_pop (sole : Sole p stack owner) (top : stack t = f :: rest) (is : p f = true) :
    Sole p (Function.update stack t rest) none :=
  sole.leave top is rfl

end Sole

end Librf
