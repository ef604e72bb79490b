import Mathlib.Data.List.Basic

/-!
# Guarded transition systems

A system is an executable step function: `step s e` is `some t` when event `e` is enabled in `s`.
The same function replays a concrete run and gives the induction over every run.
-/

namespace Librf.Transition

structure System (σ ε : Type*) where
  init : σ
  step : σ → ε → Option σ

variable {σ ε τ : Type*}

def System.replay (M : System σ ε) : σ → List ε → Option σ
  | s, [] => some s
  | s, e :: rest => (M.step s e).bind fun t => M.replay t rest

/-- Every step of the run is allowed where it is taken. -/
def System.Along (M : System σ ε) (allowed : σ → ε → Prop) : σ → List ε → Prop
  | _, [] => True
  | s, e :: rest => allowed s e ∧ ∀ t, M.step s e = some t → M.Along allowed t rest

/-- The states of the runs all of whose steps are allowed where they are taken. -/
inductive System.ReachableBy (M : System σ ε) (allowed : σ → ε → Prop) : σ → Prop
  | init : M.ReachableBy allowed M.init
  | step {s t e} : M.ReachableBy allowed s → allowed s e → M.step s e = some t →
      M.ReachableBy allowed t

abbrev System.Reachable (M : System σ ε) : σ → Prop := M.ReachableBy fun _ _ => True

structure System.Inductive (M : System σ ε) (allowed : σ → ε → Prop) (I : σ → Prop) : Prop where
  init : I M.init
  step : ∀ s e t, M.ReachableBy allowed s → I s → allowed s e → M.step s e = some t → I t

variable {M : System σ ε} {allowed : σ → ε → Prop}

theorem System.Inductive.holds {I : σ → Prop} (inductive_ : M.Inductive allowed I) {s : σ}
    (reachable : M.ReachableBy allowed s) : I s := by
  induction reachable with
  | init => exact inductive_.init
  | step previous permitted action ih => exact inductive_.step _ _ _ previous ih permitted action

theorem System.ReachableBy.mono {permitted : σ → ε → Prop}
    (weaker : ∀ s e, allowed s e → permitted s e) {s : σ} (reachable : M.ReachableBy allowed s) :
    M.ReachableBy permitted s := by
  induction reachable with
  | init => exact .init
  | step _ ok action ih => exact ih.step (weaker _ _ ok) action

theorem System.ReachableBy.reachable {s : σ} (reached : M.ReachableBy allowed s) : M.Reachable s :=
  reached.mono fun _ _ _ => trivial

theorem System.ReachableBy.next {s t : σ} (reached : M.ReachableBy allowed s) (e : ε)
    (action : M.step s e = some t) (permitted : allowed s e) : M.ReachableBy allowed t :=
  reached.step permitted action

def System.after (M : System σ ε) (s : σ) : System σ ε := { M with init := s }

theorem System.reachable_after (M : System σ ε) (s : σ) : (M.after s).Reachable s := .init

theorem System.ReachableBy.after {s t : σ} (reachable : M.ReachableBy allowed s)
    (later : (M.after s).ReachableBy allowed t) : M.ReachableBy allowed t := by
  induction later with
  | init => exact reachable
  | step _ permitted action ih => exact ih.step permitted action

theorem System.Reachable.replay {s t : σ} {events : List ε} (reachable : M.Reachable s)
    (run : M.replay s events = some t) : M.Reachable t := by
  induction events generalizing s with
  | nil =>
      cases run
      exact reachable
  | cons e rest ih =>
      obtain ⟨next, action, run⟩ := Option.bind_eq_some_iff.1 run
      exact ih (reachable.step trivial action) run

theorem System.Reachable.keeps {s t : σ} {events : List ε} {I : σ → Prop}
    (reachable : M.Reachable s) (run : M.replay s events = some t) (holds : I s)
    (step : ∀ s e t, M.Reachable s → I s → M.step s e = some t → I t) : I t := by
  induction events generalizing s with
  | nil =>
      cases run
      exact holds
  | cons e rest ih =>
      obtain ⟨next, action, run⟩ := Option.bind_eq_some_iff.1 run
      exact ih (reachable.step trivial action) run (step s e next reachable holds action)

theorem System.Along.reachableBy {s t : σ} {events : List ε} (along : M.Along allowed s events)
    (reachable : M.ReachableBy allowed s) (run : M.replay s events = some t) :
    M.ReachableBy allowed t := by
  induction events generalizing s with
  | nil =>
      cases run
      exact reachable
  | cons e rest ih =>
      obtain ⟨next, action, run⟩ := Option.bind_eq_some_iff.1 run
      exact ih (along.2 next action) (reachable.step along.1 action) run

theorem System.Along.of_append {s : σ} {events rest : List ε}
    (along : M.Along allowed s (events ++ rest)) : M.Along allowed s events := by
  induction events generalizing s with
  | nil => trivial
  | cons e events ih => exact ⟨along.1, fun t action => ih (along.2 t action)⟩

/-- `N` follows the runs of `M` when it follows every step, with as many steps as it needs. -/
theorem System.ReachableBy.simulated {δ : Type*} {N : System τ δ} {permitted : τ → δ → Prop}
    {R : σ → τ → Prop} {s : σ} (reachable : M.ReachableBy allowed s) (init : R M.init N.init)
    (step : ∀ s e s' t, allowed s e → M.step s e = some s' → N.ReachableBy permitted t → R s t →
      ∃ t', N.ReachableBy permitted t' ∧ R s' t') : ∃ t, N.ReachableBy permitted t ∧ R s t := by
  induction reachable with
  | init => exact ⟨N.init, .init, init⟩
  | step _ ok action ih =>
      obtain ⟨t, followed, related⟩ := ih
      exact step _ _ _ t ok action followed related

theorem System.replay_append (s : σ) (events rest : List ε) :
    M.replay s (events ++ rest) = (M.replay s events).bind fun t => M.replay t rest := by
  induction events generalizing s with
  | nil => rfl
  | cons e events ih =>
      cases action : M.step s e with
      | none => simp [System.replay, action]
      | some t => simpa [System.replay, action] using ih t

theorem System.reachable_of_replay (events : List ε) (test : σ → Bool)
    (run : (M.replay M.init events).map test = some true) :
    ∃ s, M.Reachable s ∧ test s = true := by
  cases h : M.replay M.init events with
  | none => simp [h] at run
  | some s =>
      simp only [h, Option.map_some, Option.some.injEq] at run
      exact ⟨s, System.Reachable.replay .init h, run⟩

section Restrict

variable (M) (allowed) [∀ s e, Decidable (allowed s e)]

def System.restrict : System σ ε where
  init := M.init
  step s e := if allowed s e then M.step s e else none

theorem System.reachableBy_of_restrict {s : σ} (reachable : (M.restrict allowed).Reachable s) :
    M.ReachableBy allowed s := by
  induction reachable with
  | init => exact .init
  | @step s t e _ _ action ih =>
      by_cases permitted : allowed s e
      · exact ih.step permitted ((if_pos permitted).symm.trans action)
      · exact absurd ((if_neg permitted).symm.trans action) (Option.some_ne_none t).symm

theorem System.reachableBy_of_replay (events : List ε) (test : σ → Bool)
    (run : ((M.restrict allowed).replay M.init events).map test = some true) :
    ∃ s, M.ReachableBy allowed s ∧ test s = true := by
  obtain ⟨s, reachable, passed⟩ :=
    System.reachable_of_replay (M := M.restrict allowed) events test run
  exact ⟨s, M.reachableBy_of_restrict allowed reachable, passed⟩

instance System.decidableAlong : (events : List ε) → (s : σ) → Decidable (M.Along allowed s events)
  | [], _ => isTrue trivial
  | e :: rest, s =>
      have := System.decidableAlong rest
      inferInstanceAs (Decidable (allowed s e ∧ ∀ t ∈ M.step s e, M.Along allowed t rest))

end Restrict

end Librf.Transition
