import Librf.Event.Model

/-!
# `reset` beside the attempts to take a token

`try_wait_one` runs under `_lock`, `reset` without it: each access to `_counter` is a step. Nobody
signals.
-/

namespace Librf

def EventImpl.reset {ω : Type} (e : EventImpl ω) : EventImpl ω := { e with counter := 0 }

inductive WaitOne
  | idle
  -- it has loaded a positive value
  | loaded
  -- its `fetch_add(-1)` has found no token
  | restoring
  deriving DecidableEq, Repr

inductive ResetAction
  | load
  | take
  | restore
  | reset
  deriving DecidableEq, Repr

structure Resetting where
  event : EventImpl Nat
  attempt : WaitOne := .idle
  -- history
  results : List Bool := []
  reset : Bool := false
  -- an attempt has succeeded after a `reset`
  late : Bool := false
  deriving DecidableEq, Repr

namespace Resetting

def finish (s : Resetting) (event : EventImpl Nat) (result : Bool) : Resetting :=
  { s with
    event
    attempt := .idle
    results := s.results ++ [result]
    late := s.late || result && s.reset }

def step (s : Resetting) : ResetAction → Option Resetting
  | .load =>
      if s.attempt = .idle then
        if s.event.counter > 0 then some { s with attempt := .loaded }
        else some (s.finish s.event false)
      else none
  | .take =>
      if s.attempt = .loaded then
        let taken := s.event.fetchAdd (-1)
        if taken.1 > 0 then some (s.finish taken.2 true)
        else some { s with event := taken.2, attempt := .restoring }
      else none
  | .restore =>
      if s.attempt = .restoring then some (s.finish (s.event.fetchAdd 1).2 false) else none
  | .reset => some { s with event := s.event.reset, reset := true }

def system (tokens : Nat) : Transition.System Resetting ResetAction where
  init := { event := { counter := tokens } }
  step := step

theorem alone (s : Resetting) (tokens : Nat) (idle : s.attempt = .idle) :
    ∃ actions t, (system tokens).replay s actions = some t ∧ .reset ∉ actions ∧
      t.attempt = .idle ∧ t.event = s.event.tryWaitOne.2 ∧
        t.results = s.results ++ [s.event.tryWaitOne.1] := by
  by_cases positive : s.event.counter > 0
  · refine ⟨[.load, .take], s.finish (s.event.fetchAdd (-1)).2 true, ?_, by simp, rfl, ?_, ?_⟩
    · simp [Transition.System.replay, system, step, idle, positive, EventImpl.fetchAdd]
      rfl
    · simp [finish, EventImpl.tryWaitOne, positive, EventImpl.fetchAdd]
    · simp [finish, EventImpl.tryWaitOne, positive, EventImpl.fetchAdd]
  · refine ⟨[.load], s.finish s.event false, ?_, by simp, rfl, ?_, ?_⟩
    · simp [Transition.System.replay, system, step, idle, positive]
    · simp [finish, EventImpl.tryWaitOne, positive]
    · simp [finish, EventImpl.tryWaitOne, positive]

variable {s t u : Resetting} {tokens : Nat} {action : ResetAction}

/-- No `reset` comes between the `fetch_add(-1)` of an attempt and the addition that undoes it. -/
def Undisturbed (s : Resetting) : ResetAction → Prop
  | .reset => s.attempt ≠ .restoring
  | _ => True

inductive Effect (s : Resetting) : ResetAction → Resetting → Prop
  | load (idle : s.attempt = .idle) (positive : 0 < s.event.counter) :
      Effect s .load { s with attempt := .loaded }
  | refuse (idle : s.attempt = .idle) (empty : s.event.counter ≤ 0) :
      Effect s .load (s.finish s.event false)
  | take (loaded : s.attempt = .loaded) (positive : 0 < s.event.counter) :
      Effect s .take (s.finish (s.event.fetchAdd (-1)).2 true)
  | miss (loaded : s.attempt = .loaded) (empty : s.event.counter ≤ 0) :
      Effect s .take { s with event := (s.event.fetchAdd (-1)).2, attempt := .restoring }
  | restore (restoring : s.attempt = .restoring) :
      Effect s .restore (s.finish (s.event.fetchAdd 1).2 false)
  | reset : Effect s .reset { s with event := s.event.reset, reset := true }

theorem effect_of_step (h : s.step action = some t) : s.Effect action t := by
  cases action with
  | load =>
      simp only [step, Option.ite_none_right_eq_some] at h
      obtain ⟨idle, h⟩ := h
      split at h <;> rename_i found <;> cases h
      · exact .load idle found
      · exact .refuse idle (Int.not_lt.1 found)
  | take =>
      simp only [step, Option.ite_none_right_eq_some] at h
      obtain ⟨loaded, h⟩ := h
      split at h <;> rename_i found <;> cases h
      · exact .take loaded found
      · exact .miss loaded (Int.not_lt.1 found)
  | restore =>
      simp only [step, Option.ite_none_right_eq_some, Option.some.injEq] at h
      obtain ⟨restoring, rfl⟩ := h
      exact .restore restoring
  | reset =>
      cases h
      exact .reset

/-! ## The counter never exceeds what it has been -/

def Below (c : Int) (s : Resetting) : Prop :=
  match s.attempt with
  | .idle => 0 ≤ s.event.counter ∧ s.event.counter ≤ c
  | .loaded => 1 ≤ c ∧ 0 ≤ s.event.counter ∧ s.event.counter ≤ c
  | .restoring => 1 ≤ c ∧ -1 ≤ s.event.counter ∧ s.event.counter ≤ 0

theorem Below.step {c : Int} (below : Below c s) (h : s.step action = some t) : Below c t := by
  cases effect_of_step h with
  | load idle positive =>
      simp only [Below, idle] at below ⊢
      omega
  | refuse idle empty =>
      simp only [Below, idle, finish] at below ⊢
      exact below
  | take loaded positive =>
      simp only [Below, loaded, finish, EventImpl.fetchAdd] at below ⊢
      omega
  | miss loaded empty =>
      simp only [Below, loaded, EventImpl.fetchAdd] at below ⊢
      omega
  | restore restoring =>
      simp only [Below, restoring, finish, EventImpl.fetchAdd] at below ⊢
      omega
  | reset =>
      unfold Below at below ⊢
      dsimp only
      split at below <;> simp only [EventImpl.reset] <;> omega

/-! ## What a `reset` leaves -/

/-- Before a `reset` an attempt that has begun finds its token; after it there is none. -/
def Settled (s : Resetting) : Prop :=
  s.late = false ∧ match s.attempt, s.reset with
    | .idle, false => True
    | .loaded, false => 0 < s.event.counter
    | .restoring, false => False
    | .idle, true | .loaded, true => s.event.counter = 0
    | .restoring, true => s.event.counter = -1

theorem Settled.step (settled : s.Settled) (undisturbed : Undisturbed s action)
    (h : s.step action = some t) : t.Settled := by
  obtain ⟨late, settled⟩ := settled
  cases effect_of_step h with
  | load idle positive =>
      refine ⟨late, ?_⟩
      cases reset : s.reset <;> simp only [idle, reset] at settled ⊢
      · exact positive
      · exact settled
  | refuse idle empty =>
      refine ⟨by simp [finish, late], ?_⟩
      cases reset : s.reset <;> simp only [idle, reset, finish] at settled ⊢
      exact settled
  | take loaded positive =>
      cases reset : s.reset <;> simp only [loaded, reset] at settled
      · exact ⟨by simp [finish, late, reset], by simp [finish, reset]⟩
      · omega
  | miss loaded empty =>
      refine ⟨late, ?_⟩
      cases reset : s.reset <;> simp only [loaded, reset, EventImpl.fetchAdd] at settled ⊢
      · omega
      · rw [settled]
        rfl
  | restore restoring =>
      refine ⟨by simp [finish, late], ?_⟩
      cases reset : s.reset <;>
        simp only [restoring, reset, finish, EventImpl.fetchAdd] at settled ⊢
      rw [settled]
      rfl
  | reset =>
      refine ⟨late, ?_⟩
      cases there : s.attempt with
      | idle | loaded => rfl
      | restoring => exact absurd there undisturbed

structure StaysReset (M : Transition.System Resetting ResetAction) (s : Resetting) : Prop where
  nonneg : s.attempt = .idle → 0 ≤ s.event.counter
  falls : s.attempt = .idle → ∀ u, (M.after s).Reachable u → u.attempt = .idle →
    u.event.counter ≤ s.event.counter
  stays : s.reset = true → s.late = false ∧ (s.attempt = .idle → s.event.counter = 0)
  -- A `reset` there makes a token.
  disturbed : ∀ t, s.attempt = .restoring → M.step s .reset = some t →
    ∃ u, (M.after t).Reachable u ∧ u.late = true

theorem reset_stays (tokens : Nat) (s : Resetting)
    (reachable : (system tokens).ReachableBy Undisturbed s) : s.StaysReset (system tokens) := by
  have below : Below tokens s := by
    refine Transition.System.Inductive.holds (M := system tokens) (I := Below tokens)
      ⟨?_, fun _ _ _ _ below _ h => below.step h⟩ reachable
    simp [Below, system]
  have settled : s.Settled :=
    Transition.System.Inductive.holds (M := system tokens) (I := Settled)
      ⟨⟨rfl, trivial⟩, fun _ _ _ _ settled undisturbed h => settled.step undisturbed h⟩ reachable
  refine ⟨fun idle => ?_, fun idle u later ended => ?_, fun reset => ?_, fun t restoring h => ?_⟩
  · simp only [Below, idle] at below
    exact below.1
  · have still : Below s.event.counter u := by
      refine Transition.System.Inductive.holds (M := (system tokens).after s)
        (I := Below s.event.counter) ⟨?_, fun _ _ _ _ below _ h => below.step h⟩ later
      simp only [Below, idle] at below
      show Below s.event.counter s
      simp only [Below, idle]
      omega
    simp only [Below, ended] at still
    exact still.2
  · obtain ⟨late, settled⟩ := settled
    refine ⟨late, fun idle => ?_⟩
    simpa only [idle, reset] using settled
  · cases h
    let token : Resetting := { s with event := s.event.reset, reset := true }
    have taken : ((system tokens).after token).replay token [.restore, .load, .take] =
        some ((token.finish (token.event.fetchAdd 1).2 false).finish token.event true) := by
      simp [Transition.System.replay, Transition.System.after, system, step, token, restoring,
        EventImpl.reset, EventImpl.fetchAdd, finish]
    exact ⟨_, Transition.System.Reachable.replay .init taken, by simp [finish, token]⟩

theorem reset_stays_beside : ∃ s : Resetting, s.reset = true ∧ s.attempt = .restoring ∧
    s.StaysReset (system 1) := by
  have start : (system 1).ReachableBy Undisturbed { event := { counter := (1 : Nat) } } := .init
  have loaded := start.next .load rfl trivial
  have reset := loaded.next .reset rfl (by simp [Undisturbed])
  exact ⟨_, rfl, rfl, reset_stays 1 _ (reset.next .take rfl trivial)⟩

/-- One `reset` after the load of an attempt, another before its addition. -/
theorem reset_makes_token : ∃ s : Resetting, (system 1).Reachable s ∧ s.reset = true ∧
    s.attempt = .idle ∧ s.event.counter = 1 ∧
      ∃ t, ((system 1).after s).Reachable t ∧ t.results = [false, true] ∧ t.late = true := by
  have start : (system 1).Reachable { event := { counter := (1 : Nat) } } := .init
  have missed := ((start.next .load rfl trivial).next .reset rfl trivial).next .take rfl trivial
  have restored := (missed.next .reset rfl trivial).next .restore rfl trivial
  have later := (system 1).reachable_after
  exact ⟨_, restored, rfl, rfl, rfl, _,
    ((later _).next .load rfl trivial).next .take rfl trivial, rfl, rfl⟩

end Resetting

end Librf
