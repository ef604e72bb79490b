import Librf.When.Completion

/-!
# The last notification and the moment of suspension

`await_ready` and `await_suspend` of the `when_future_t` do not take the lock of `on_notify_one`.
-/

namespace Librf

namespace When

variable {α ε : Type*} {w t u : When α ε} {kind : WhenKind} {size i : Nat}

/-- The notification that brings the counter to 0 comes after `await_transform`, and not between
the ready test and the store of the handle. -/
def Timely (w : When α ε) : WhenAction α ε → Prop
  | .advance i => w.connectors i = .stored → w.state.counter = 1 →
      w.place = .transformed ∨ w.place = .suspended
  | _ => True

structure WakeupKept (w : When α ε) : Prop where
  resumed : w.place = .suspended → w.state.counter = 0 →
    ∃ t, w.step .resume = some t ∧ t.place = .arrived
  asserted : ∀ i, w.connectors i = .stored → Timely w (.advance i) → w.state.notifyAssertion
  -- Any other notification breaks the assertion, or the coroutine never goes on.
  untimely : ∀ i t, ¬ Timely w (.advance i) → w.step (.advance i) = some t →
    ¬ w.state.notifyAssertion ∨
      ∀ u, ((system α ε w.kind w.size).after t).Reachable u → u.place ≠ .arrived

structure Onward (w t : When α ε) : Prop where
  missed : w.missed = true → t.missed = true
  away : t.place = .away → w.place = .away ∧ t.state.scheduler = w.state.scheduler

theorem onward_of_step {action : WhenAction α ε} (h : w.step action = some t) : Onward w t := by
  cases effect_of_step h with
  | @finish i o => cases o <;> exact ⟨id, fun away => ⟨away, rfl⟩⟩
  | advance connects =>
      obtain ⟨place, scheduler⟩ := advanceConnector_frame h
      refine ⟨fun missed => ?_, fun away => ⟨place ▸ away, scheduler⟩⟩
      cases connects with
      | notify => simp [settle, setConnector, notifyOne, missed]
      | _ => exact missed
  | test =>
      refine ⟨id, fun away => ?_⟩
      cases ready : w.state.awaitReady <;> simp [ready] at away
  | discard => exact ⟨id, fun away => ⟨away, rfl⟩⟩
  | _ => exact ⟨id, fun away => by cases away⟩

theorem scheduler_of_away {allowed : When α ε → WhenAction α ε → Prop}
    (reachable : (system α ε kind size).ReachableBy allowed w) (away : w.place = .away) :
    w.state.scheduler = none := by
  have inductive_ : (system α ε kind size).Inductive allowed
      fun w => w.place = .away → w.state.scheduler = none := by
    refine ⟨fun _ => rfl, fun s e t _ known _ h away => ?_⟩
    obtain ⟨before, scheduler⟩ := (onward_of_step h).away away
    exact scheduler.trans (known before)
  exact inductive_.holds reachable away

theorem never_arrives (reachable : (system α ε kind size).Reachable w) (missed : w.missed = true)
    (later : ((system α ε kind size).after w).Reachable u) : u.place ≠ .arrived := by
  have inductive_ : ((system α ε kind size).after w).Inductive (fun _ _ => True)
      fun u => u.missed = true :=
    ⟨missed, fun s e t _ known _ h => (onward_of_step h).missed known⟩
  intro arrived
  have kept := ((counted (reachable.after later)).2.arrived arrived).2.1
  have missed' : u.missed = true := inductive_.holds later
  rw [missed'] at kept
  cases kept

theorem missed_of_timely (reachable : (system α ε kind size).ReachableBy Timely w) :
    w.missed = false := by
  have inductive_ : (system α ε kind size).Inductive Timely fun w => w.missed = false := by
    refine ⟨rfl, fun s e t _ known timely h => ?_⟩
    cases effect_of_step h with
    | @finish i o => cases o <;> exact known
    | advance connects =>
        cases connects with
        | notify stored =>
            by_cases last : s.state.counter = 1
            · rcases timely stored last with there | there <;>
                simp [settle, setConnector, notifyOne, known, there]
            · simp [settle, setConnector, notifyOne, known, WhenState.onNotifyOne, last]
        | _ => exact known
    | _ => exact known
  exact inductive_.holds reachable

theorem wakeup_kept (reachable : (system α ε kind size).ReachableBy Timely w) : w.WakeupKept := by
  have reached := reachable.reachable
  obtain ⟨accounted, awaited⟩ := counted reached
  have kept := missed_of_timely reachable
  constructor
  · intro there zero
    obtain ⟨coro, -, length⟩ := awaited.suspended there
    rw [if_pos ⟨kept, zero⟩] at length
    obtain ⟨sch, queue⟩ := List.length_eq_one_iff.1 length
    simp [step, queue, coro]
  · intro i stored timely last
    have begun : w.place ≠ .away := by
      rcases timely stored last with there | there <;> simp [there]
    exact notifyAssertion_of_begun reached begun last
  · intro i t untimely h
    simp only [Timely, Classical.not_imp, not_or] at untimely
    obtain ⟨stored, last, untransformed, unsuspended⟩ := untimely
    have kind_eq := accounted.kind_eq
    have size_eq := accounted.size_eq
    cases place : w.place with
    | away =>
        left
        intro asserted
        have some_ := asserted last
        rw [scheduler_of_away reached place] at some_
        cases some_
    | transformed => exact absurd place untransformed
    | suspended => exact absurd place unsuspended
    | arrived =>
        have zero := (awaited.arrived place).1
        omega
    | unready | halfway =>
        right
        rw [kind_eq, size_eq]
        have missed : t.missed = true := by
          cases kind_ : w.kind <;> simp only [step, advanceConnector, stored, kind_] at h <;>
            cases h <;>
            simp [settle, setConnector, notifyOne, WhenState.onNotifyOne, last, place]
        exact fun u later => never_arrives (reached.next (.advance i) h trivial) missed later

theorem wakeup_kept_late : ∃ w : When Nat Nat, w.place = .suspended ∧ w.state.counter = 0 ∧
    w.WakeupKept := by
  have start : (system Nat Nat .all 1).ReachableBy Timely (When.initial Nat Nat .all 1) := .init
  have suspended := (((start.next (.transform 0) rfl trivial).next .test rfl trivial).next
    (.storeScheduler 0) rfl trivial).next (.storeCoro 9) rfl trivial
  have stored := (suspended.next (.finish 0 (.value 7)) rfl trivial).next (.advance 0) rfl
    (fun stored => by cases stored)
  have notified := stored.next (.advance 0) rfl (fun _ _ => .inr rfl)
  exact ⟨_, rfl, rfl, wakeup_kept notified⟩

/-- The last child notifies between `await_ready` and `await_suspend`: the coroutine stays
suspended for ever. It notifies before the await: the assertion fails. -/
theorem lost_wakeup :
    (∃ w : When Nat Nat, (system Nat Nat .all 1).Reachable w ∧ w.place = .suspended ∧
      w.state.counter = 0 ∧ ∀ action, w.step action = none) ∧
    ∃ w : When Nat Nat, (system Nat Nat .all 1).Reachable w ∧ w.connectors 0 = .stored ∧
      w.place = .away ∧ ¬ w.state.notifyAssertion := by
  have start : (system Nat Nat .all 1).Reachable (When.initial Nat Nat .all 1) := .init
  constructor
  · have tested := (start.next (.transform 0) rfl trivial).next .test rfl trivial
    have notified := ((tested.next (.finish 0 (.value 7)) rfl trivial).next
      (.advance 0) rfl trivial).next (.advance 0) rfl trivial
    have suspended := (notified.next (.storeScheduler 0) rfl trivial).next
      (.storeCoro 9) rfl trivial
    refine ⟨_, suspended, rfl, rfl, fun action => ?_⟩
    cases action with
    | finish i o =>
        rcases Nat.eq_zero_or_pos i with rfl | out
        · rfl
        · simp [step, settle, setConnector, notifyOne, finishChild, When.initial,
            Function.update_of_ne out.ne']
          omega
    | advance i =>
        rcases Nat.eq_zero_or_pos i with rfl | out
        · rfl
        · simp [step, advanceConnector, settle, setConnector, notifyOne, finishChild, When.initial,
            Function.update_of_ne out.ne']
    | _ => rfl
  · have stored := (start.next (.finish 0 (.value 7)) rfl trivial).next (.advance 0) rfl trivial
    refine ⟨_, stored, rfl, rfl, fun asserted => ?_⟩
    cases asserted rfl

end When

end Librf
