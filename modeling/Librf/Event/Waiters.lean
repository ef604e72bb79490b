import Mathlib.Data.List.Count
import Librf.Event.Model

/-!
# The waiters of an event

One compare-exchange takes a waiter out of `pending`, and the call that made it puts the waiter
into a run queue.
-/

namespace Librf

inductive EventStage
  | pending
  | chosen
  | woken
  | satisfied
  | claimed
  | unlinked
  | expired
  | abandoned
  deriving DecidableEq

namespace EventStage

def waiter (handler : Nat) (timed : Bool) : EventStage → EventWaiter
  | pending => { coro := some handler, timer := timed }
  | chosen => { coro := some handler, timer := timed, value := false, signaled := true }
  | woken =>
      { coro := some handler, timer := false, value := false, signaled := true, scheduled := 1 }
  | satisfied =>
      { coro := none, timer := false, value := false, signaled := true, scheduled := 1,
        results := [true] }
  | claimed =>
      { coro := some handler, timer := timed, value := false, expiry := .claimed, timedOut := true }
  | unlinked =>
      { coro := some handler, timer := timed, value := false, expiry := .unlinked,
        timedOut := true }
  | expired =>
      { coro := some handler, timer := false, value := false, event := false, timedOut := true,
        scheduled := 1 }
  | abandoned =>
      { coro := none, timer := false, value := false, event := false, timedOut := true,
        scheduled := 1, results := [false] }

def queued : EventStage → Nat
  | woken | expired => 1
  | _ => 0

end EventStage

namespace SignalSection

def call? : SignalSection → Option SignalCall
  | free => none
  | popping call | offering call _ | notifying call _ => some call

def offered : SignalSection → List Nat
  | offering _ w => [w]
  | _ => []

def chosen : SignalSection → Option Nat
  | notifying _ w => some w
  | _ => none

end SignalSection

namespace Event

variable {s t : Event} {w : Nat}

inductive Effect (s : Event) : EventAction → Event → Prop
  | awaitReady (free : s.lockSection = .free) : Effect s .awaitReady s.awaitReady
  | awaitSuspend (handler : Nat) (timed : Bool) (free : s.lockSection = .free) :
      Effect s (.awaitSuspend handler timed) (s.awaitSuspend handler timed)
  | signal (free : s.lockSection = .free) : Effect s .signal (s.beginSignal false)
  | signalAll (free : s.lockSection = .free) : Effect s .signalAll (s.beginSignal true)
  | pop (call : SignalCall) (w : Nat) (rest : List Nat) (popping : s.lockSection = .popping call)
      (queue : s.waitAwakes = w :: rest) :
      Effect s .pop { s with waitAwakes := rest, lockSection := .offering call w }
  | notify (call : SignalCall) (w : Nat) (offering : s.lockSection = .offering call w) :
      Effect s .notify (s.notify call w)
  | finishNotify (call : SignalCall) (w : Nat) (notifying : s.lockSection = .notifying call w) :
      Effect s .finishNotify (s.finishNotify call w)
  | leave (call : SignalCall) (popping : s.lockSection = .popping call)
      (queue : s.waitAwakes = []) : Effect s .leave (s.leave call)
  | timeout (w : Nat) (older : w < s.created) (timer : (s.waiters w).timer = true) :
      Effect s (.timeout w) (s.timeout w)
  | removeWaitList (w : Nat) (older : w < s.created) (claimed : (s.waiters w).expiry = .claimed)
      (free : s.lockSection = .free) : Effect s (.removeWaitList w) (s.unlink w)
  | finishTimeout (w : Nat) (older : w < s.created)
      (unlinked : (s.waiters w).expiry = .unlinked) : Effect s (.finishTimeout w) (s.finishTimeout w)
  | resume (w : Nat) (member : w ∈ s.runQueue) : Effect s (.resume w) (s.resume w)
  | destroy (w : Nat) (older : w < s.created) (finished : (s.waiters w).results ≠ [])
      (free : s.lockSection = .free) : Effect s (.destroy w) (s.destroy w)

theorem effect_of_step {action : EventAction} (action_ : step s action = some t) :
    s.Effect action t := by
  cases action with
  | awaitReady =>
      simp only [step, Option.ite_none_right_eq_some, Option.some.injEq] at action_
      obtain ⟨free, rfl⟩ := action_
      exact .awaitReady free
  | awaitSuspend handler timed =>
      simp only [step, Option.ite_none_right_eq_some, Option.some.injEq] at action_
      obtain ⟨free, rfl⟩ := action_
      exact .awaitSuspend handler timed free
  | signal =>
      simp only [step, Option.ite_none_right_eq_some, Option.some.injEq] at action_
      obtain ⟨free, rfl⟩ := action_
      exact .signal free
  | signalAll =>
      simp only [step, Option.ite_none_right_eq_some, Option.some.injEq] at action_
      obtain ⟨free, rfl⟩ := action_
      exact .signalAll free
  | pop =>
      simp only [step] at action_
      split at action_
      · rename_i call w rest popping queue
        cases action_
        exact .pop call w rest popping queue
      · cases action_
  | notify =>
      simp only [step] at action_
      split at action_
      · rename_i call w offering
        cases action_
        exact .notify call w offering
      · cases action_
  | finishNotify =>
      simp only [step] at action_
      split at action_
      · rename_i call w notifying
        cases action_
        exact .finishNotify call w notifying
      · cases action_
  | leave =>
      simp only [step] at action_
      split at action_
      · rename_i call popping queue
        cases action_
        exact .leave call popping queue
      · cases action_
  | timeout w =>
      simp only [step, Option.ite_none_right_eq_some, Option.some.injEq] at action_
      obtain ⟨⟨older, timer⟩, rfl⟩ := action_
      exact .timeout w older timer
  | removeWaitList w =>
      simp only [step, Option.ite_none_right_eq_some, Option.some.injEq] at action_
      obtain ⟨⟨older, claimed, free⟩, rfl⟩ := action_
      exact .removeWaitList w older claimed free
  | finishTimeout w =>
      simp only [step, Option.ite_none_right_eq_some, Option.some.injEq] at action_
      obtain ⟨⟨older, unlinked⟩, rfl⟩ := action_
      exact .finishTimeout w older unlinked
  | resume w =>
      simp only [step, Option.ite_none_right_eq_some, Option.some.injEq] at action_
      obtain ⟨member, rfl⟩ := action_
      exact .resume w member
  | destroy w =>
      simp only [step, Option.ite_none_right_eq_some, Option.some.injEq] at action_
      obtain ⟨⟨older, finished, free⟩, rfl⟩ := action_
      exact .destroy w older finished free

/-! ## One waiter -/

structure Staged (s : Event) (w : Nat) (stage : EventStage) : Prop where
  shape : ∃ handler timed, s.waiters w = stage.waiter handler timed
  queued : s.runQueue.count w = stage.queued
  chosen : s.lockSection.chosen = some w ↔ stage = .chosen

def AllStaged (s : Event) : Prop :=
  (∀ w, w < s.created → ∃ stage, s.Staged w stage) ∧ ∀ w ∈ s.runQueue, w < s.created

theorem Staged.of_same {stage : EventStage} (staged : s.Staged w stage)
    (waiters : t.waiters w = s.waiters w) (queue : t.runQueue.count w = s.runQueue.count w)
    (section_ : t.lockSection.chosen = some w ↔ s.lockSection.chosen = some w) :
    t.Staged w stage where
  shape := by rw [waiters]; exact staged.shape
  queued := queue.trans staged.queued
  chosen := section_.trans staged.chosen

theorem Staged.pending_of_value {stage : EventStage} (staged : s.Staged w stage)
    (value : (s.waiters w).value = true) : stage = .pending := by
  obtain ⟨handler, timed, shape⟩ := staged.shape
  rw [shape] at value
  cases stage <;> simp_all [EventStage.waiter]

theorem Staged.claimed_of_expiry {stage : EventStage} (staged : s.Staged w stage)
    (claimed : (s.waiters w).expiry = .claimed) : stage = .claimed := by
  obtain ⟨handler, timed, shape⟩ := staged.shape
  rw [shape] at claimed
  cases stage <;> simp_all [EventStage.waiter]

theorem Staged.unlinked_of_expiry {stage : EventStage} (staged : s.Staged w stage)
    (unlinked : (s.waiters w).expiry = .unlinked) : stage = .unlinked := by
  obtain ⟨handler, timed, shape⟩ := staged.shape
  rw [shape] at unlinked
  cases stage <;> simp_all [EventStage.waiter]

theorem Staged.of_queued {stage : EventStage} (staged : s.Staged w stage)
    (member : w ∈ s.runQueue) : stage = .woken ∨ stage = .expired := by
  have positive : 0 < stage.queued := staged.queued ▸ List.count_pos_iff.mpr member
  cases stage with
  | woken => exact .inl rfl
  | expired => exact .inr rfl
  | _ => exact absurd positive (Nat.lt_irrefl 0)

theorem AllStaged.of_quiet (all : s.AllStaged) (waiters : t.waiters = s.waiters)
    (created : t.created = s.created) (queue : t.runQueue = s.runQueue)
    (section_ : t.lockSection.chosen = s.lockSection.chosen) : t.AllStaged := by
  refine ⟨fun w bound => ?_, fun w member => ?_⟩
  · obtain ⟨stage, staged⟩ := all.1 w (created ▸ bound)
    exact ⟨stage, staged.of_same (congrFun waiters w) (by rw [queue]) (by rw [section_])⟩
  · rw [created]
    exact all.2 w (queue ▸ member)

theorem AllStaged.of_one (all : s.AllStaged) (stage : EventStage) (next : t.Staged w stage)
    (waiters : ∀ w', w' ≠ w → t.waiters w' = s.waiters w')
    (created : t.created = s.created) (bound : w < s.created)
    (queue : ∀ w', w' ≠ w → t.runQueue.count w' = s.runQueue.count w')
    (section_ : ∀ w', w' ≠ w →
      (t.lockSection.chosen = some w' ↔ s.lockSection.chosen = some w')) : t.AllStaged := by
  refine ⟨fun w' bound' => ?_, fun w' member => ?_⟩
  · by_cases same : w' = w
    · exact ⟨stage, same ▸ next⟩
    · obtain ⟨stage', staged⟩ := all.1 w' (created ▸ bound')
      exact ⟨stage', staged.of_same (waiters w' same) (queue w' same) (section_ w' same)⟩
  · rw [created]
    by_cases same : w' = w
    · exact same ▸ bound
    · exact all.2 w' (List.count_pos_iff.mp (queue w' same ▸ List.count_pos_iff.mpr member))

@[simp] theorem setWaiter_self {waiter : EventWaiter} :
    (s.setWaiter w waiter).waiters w = waiter := by
  simp [setWaiter]

theorem setWaiter_of_ne {waiter : EventWaiter} {w' : Nat} (other : w' ≠ w) :
    (s.setWaiter w waiter).waiters w' = s.waiters w' := by
  simp [setWaiter, Function.update_of_ne other]

/-! ## Its stages -/

theorem tryWaitOne_eq {ω : Type} (e : EventImpl ω) : e.tryWaitOne =
    if e.counter > 0 then (true, { e with counter := e.counter - 1 }) else (false, e) := by
  unfold EventImpl.tryWaitOne EventImpl.fetchAdd
  split
  · rename_i token
    simp only [if_pos token, Int.sub_eq_add_neg]
  · rfl

theorem tryWaitOne_waitAwakes {ω : Type} (e : EventImpl ω) : e.tryWaitOne.2.waitAwakes = e.waitAwakes := by
  rw [tryWaitOne_eq]
  split <;> rfl

theorem awaitSuspend_of_token {handler : Nat} {timed : Bool} (token : s.counter > 0) :
    s.awaitSuspend handler timed =
      { s with toEventImpl := { s.toEventImpl with counter := s.counter - 1 }
               tokens := s.tokens + 1 } := by
  simp [awaitSuspend, tryWaitOne_eq, token]

theorem awaitSuspend_of_none {handler : Nat} {timed : Bool} (none : ¬ s.counter > 0) :
    s.awaitSuspend handler timed =
      { s.setWaiter s.created { coro := some handler, timer := timed } with
          toEventImpl := s.toEventImpl.addWaitList s.created
          created := s.created + 1 } := by
  simp [awaitSuspend, tryWaitOne_eq, none]

theorem notify_of_pending {call : SignalCall} (value : (s.waiters w).value = true) :
    s.notify call w =
      { s.setWaiter w { s.waiters w with value := false, signaled := true } with
          lockSection := .notifying { call with woken := call.woken ++ [w] } w
          wakes := s.wakes ++ [w] } := by
  simp [notify, StateEvent.claim, value]

theorem notify_of_claimed {call : SignalCall} (value : (s.waiters w).value = false) :
    s.notify call w = { s with lockSection := .popping call } := by
  simp [notify, StateEvent.claim, value]

theorem timeout_of_pending (value : (s.waiters w).value = true) :
    s.timeout w =
      s.setWaiter w { s.waiters w with value := false, expiry := .claimed, timedOut := true } := by
  simp [timeout, StateEvent.claim, value]

theorem timeout_of_claimed (value : (s.waiters w).value = false) : s.timeout w = s := by
  simp [timeout, StateEvent.claim, value]

theorem finishNotify_of_coro {call : SignalCall} {handler : Nat}
    (coro : (s.waiters w).coro = some handler) : s.finishNotify call w =
      let s := { s.setWaiter w { s.waiters w with
        toStateEvent := (s.waiters w).notified
        scheduled := (s.waiters w).scheduled + 1 } with runQueue := s.runQueue ++ [w] }
      if call.all then { s with lockSection := .popping call } else s.complete call := by
  have kept : ((s.setWaiter w { s.waiters w with
      toStateEvent := (s.waiters w).notified }).waiters w).coro = some handler := by
    simp [StateEvent.notified, coro]
  unfold finishNotify
  rw [schedule, if_pos (Option.isSome_of_eq_some kept)]
  simp [setWaiter]

theorem finishTimeout_of_coro {handler : Nat} (coro : (s.waiters w).coro = some handler) :
    s.finishTimeout w =
      { s.setWaiter w { s.waiters w with
          toStateEvent := (s.waiters w).expired
          expiry := .idle
          scheduled := (s.waiters w).scheduled + 1 } with runQueue := s.runQueue ++ [w] } := by
  have kept : ((s.setWaiter w { s.waiters w with
      toStateEvent := (s.waiters w).expired, expiry := .idle }).waiters w).coro = some handler := by
    simp [StateEvent.expired, coro]
  unfold finishTimeout
  rw [schedule, if_pos (Option.isSome_of_eq_some kept)]
  simp [setWaiter]

theorem resume_of_coro {handler : Nat} (coro : (s.waiters w).coro = some handler) :
    s.resume w =
      { s.setWaiter w { s.waiters w with
          coro := none, results := (s.waiters w).results ++ [(s.waiters w).event] } with
        runQueue := s.runQueue.erase w } := by
  simp [resume, coro, setWaiter]

theorem AllStaged.awaitSuspend (all : s.AllStaged) (free : s.lockSection = .free)
    (handler : Nat) (timed : Bool) : (s.awaitSuspend handler timed).AllStaged := by
  by_cases token : s.counter > 0
  · rw [awaitSuspend_of_token token]
    exact all.of_quiet rfl rfl rfl rfl
  · rw [awaitSuspend_of_none token]
    refine ⟨fun w bound => ?_, fun w member => Nat.lt_succ_of_lt (all.2 w member)⟩
    by_cases fresh : w = s.created
    · subst fresh
      refine ⟨.pending, ⟨handler, timed, ?_⟩, ?_, by simp [setWaiter, free, SignalSection.chosen]⟩
      · simp [setWaiter, EventStage.waiter]
      · refine List.count_eq_zero.mpr fun member => ?_
        exact Nat.lt_irrefl _ (all.2 _ member)
    · have older : w < s.created := Nat.lt_of_le_of_ne (Nat.le_of_lt_succ bound) fresh
      obtain ⟨stage, staged⟩ := all.1 w older
      exact ⟨stage, staged.of_same (setWaiter_of_ne fresh) rfl Iff.rfl⟩

theorem AllStaged.notify {call : SignalCall} (all : s.AllStaged) (bound : w < s.created)
    (offering : s.lockSection = .offering call w) : (s.notify call w).AllStaged := by
  cases value : (s.waiters w).value with
  | true =>
      obtain ⟨stage, staged⟩ := all.1 w bound
      cases staged.pending_of_value value
      obtain ⟨handler, timed, shape⟩ := staged.shape
      rw [notify_of_pending value]
      refine all.of_one (w := w) .chosen ⟨⟨handler, timed, ?_⟩, staged.queued, ?_⟩ ?_ rfl bound
        (fun _ _ => rfl) ?_
      · simp [shape, EventStage.waiter]
      · simp [SignalSection.chosen]
      · exact fun w' other => setWaiter_of_ne other
      · intro w' other
        simp [SignalSection.chosen, offering, other.symm]
  | false =>
      rw [notify_of_claimed value]
      exact all.of_quiet rfl rfl rfl (by simp [offering, SignalSection.chosen])

theorem AllStaged.finishNotify {call : SignalCall} (all : s.AllStaged) (bound : w < s.created)
    (notifying : s.lockSection = .notifying call w) : (s.finishNotify call w).AllStaged := by
  obtain ⟨stage, staged⟩ := all.1 w bound
  obtain rfl := staged.chosen.mp (by simp [notifying, SignalSection.chosen])
  obtain ⟨handler, timed, shape⟩ := staged.shape
  have coro : (s.waiters w).coro = some handler := by simp [shape, EventStage.waiter]
  rw [finishNotify_of_coro coro]
  have unqueued := staged.queued
  suffices kept : ∀ t : Event, t.waiters = Function.update s.waiters w
      (EventStage.woken.waiter handler timed) → t.created = s.created →
      t.runQueue = s.runQueue ++ [w] → t.lockSection.chosen = none → t.AllStaged by
    have after : Function.update s.waiters w { s.waiters w with
        toStateEvent := (s.waiters w).notified
        scheduled := (s.waiters w).scheduled + 1 } =
        Function.update s.waiters w (EventStage.woken.waiter handler timed) := by
      simp [shape, EventStage.waiter, StateEvent.notified]
    dsimp only
    split
    · exact kept _ after rfl rfl rfl
    · exact kept _ after rfl rfl rfl
  intro t waiters created queue chosen
  refine all.of_one (w := w) .woken ⟨⟨handler, timed, by simp [waiters]⟩, ?_, by simp [chosen]⟩
    ?_ created bound ?_ ?_
  · simp_all [EventStage.queued]
  · intro w' other
    simp [waiters, Function.update_of_ne other]
  · intro w' other
    simp [queue, List.count_append, other.symm]
  · intro w' other
    rw [chosen, notifying]
    simp [SignalSection.chosen, other.symm]

theorem AllStaged.timeout (all : s.AllStaged) (bound : w < s.created) :
    (s.timeout w).AllStaged := by
  cases value : (s.waiters w).value with
  | true =>
      obtain ⟨stage, staged⟩ := all.1 w bound
      cases staged.pending_of_value value
      obtain ⟨handler, timed, shape⟩ := staged.shape
      rw [timeout_of_pending value]
      refine all.of_one (w := w) .claimed ⟨⟨handler, timed, ?_⟩, staged.queued,
        staged.chosen.trans (by simp)⟩
        (fun w' other => setWaiter_of_ne other) rfl bound (fun _ _ => rfl) (fun _ _ => Iff.rfl)
      simp [shape, EventStage.waiter]
  | false => rwa [timeout_of_claimed value]

theorem unlink_eq (s : Event) (w : Nat) : s.unlink w =
    { s.setWaiter w { s.waiters w with expiry := .unlinked } with
        toEventImpl := if (s.waiters w).event then s.toEventImpl.removeWaitList w
          else s.toEventImpl } := by
  unfold unlink
  dsimp only
  rw [setWaiter_self]
  split <;> rfl

theorem AllStaged.unlink (all : s.AllStaged) (bound : w < s.created)
    (claimed : (s.waiters w).expiry = .claimed) : (s.unlink w).AllStaged := by
  obtain ⟨stage, staged⟩ := all.1 w bound
  cases staged.claimed_of_expiry claimed
  obtain ⟨handler, timed, shape⟩ := staged.shape
  rw [unlink_eq]
  refine all.of_one (w := w) .unlinked ⟨⟨handler, timed, ?_⟩, staged.queued,
    staged.chosen.trans (by simp)⟩
    (fun w' other => setWaiter_of_ne other) rfl bound (fun _ _ => rfl) (fun _ _ => Iff.rfl)
  simp [shape, EventStage.waiter]

theorem AllStaged.finishTimeout (all : s.AllStaged) (bound : w < s.created)
    (unlinked : (s.waiters w).expiry = .unlinked) : (s.finishTimeout w).AllStaged := by
  obtain ⟨stage, staged⟩ := all.1 w bound
  cases staged.unlinked_of_expiry unlinked
  obtain ⟨handler, timed, shape⟩ := staged.shape
  have coro : (s.waiters w).coro = some handler := by simp [shape, EventStage.waiter]
  rw [finishTimeout_of_coro coro]
  refine all.of_one (w := w) .expired ⟨⟨handler, timed, ?_⟩, ?_,
    staged.chosen.trans (by simp)⟩
    (fun w' other => setWaiter_of_ne other) rfl bound ?_ (fun _ _ => Iff.rfl)
  · simp [shape, EventStage.waiter, StateEvent.expired]
  · have := staged.queued
    simp_all [EventStage.queued]
  · intro w' other
    simp [List.count_append, other.symm]

theorem AllStaged.resume (all : s.AllStaged) (member : w ∈ s.runQueue) :
    (s.resume w).AllStaged := by
  have bound := all.2 w member
  obtain ⟨stage, staged⟩ := all.1 w bound
  obtain ⟨handler, timed, shape⟩ := staged.shape
  obtain ⟨next, advanced, coro, single, unqueued, kept⟩ : ∃ next : EventStage,
      { s.waiters w with coro := none, results := (s.waiters w).results ++ [(s.waiters w).event] } =
        next.waiter handler timed ∧ (s.waiters w).coro = some handler ∧
      stage.queued = 1 ∧ next.queued = 0 ∧ (next = .chosen ↔ stage = .chosen) := by
    rcases staged.of_queued member with rfl | rfl
    · exact ⟨.satisfied, by simp [shape, EventStage.waiter], by simp [shape, EventStage.waiter],
        rfl, rfl, by simp⟩
    · exact ⟨.abandoned, by simp [shape, EventStage.waiter], by simp [shape, EventStage.waiter],
        rfl, rfl, by simp⟩
  rw [resume_of_coro coro]
  refine all.of_one (w := w) next ⟨⟨handler, timed, ?_⟩, ?_, staged.chosen.trans kept.symm⟩
    (fun w' other => setWaiter_of_ne other) rfl bound ?_ (fun _ _ => Iff.rfl)
  · simpa using advanced
  · rw [unqueued]
    simp [staged.queued, single]
  · intro w' other
    simp [List.count_erase_of_ne other]

theorem destroy_eq (s : Event) (w : Nat) : s.destroy w =
    { s with toEventImpl := if (s.waiters w).event then s.toEventImpl.removeWaitList w
               else s.toEventImpl } := by
  unfold destroy
  split <;> rfl

end Event

end Librf
