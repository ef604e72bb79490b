import Librf.Future.Soundness

/-!
# No co_await before its result

`is_ready` holds for every future of a coroutine, so an entry that is queued after the body has
started wakes the coroutine in `_coro` whether there is a result or not. The order in which this
cannot happen is that the first reason to queue the state is the start of its body. `co_yield` sets
the tag and queues the state too, before the future is completed.
-/

namespace Librf.Life

variable {α ε : Type*} {u : FutureSetup} {s t : Life α ε}

def Pristine (s : Life α ε) : Prop :=
  s.state.isInitor = .initial ∧ s.queue = [] ∧ s.state.coro = none

/-- A co_await suspends on an untouched future, or on one that has completed; an exception outside
of the tag must still be there, with nobody else about to take it. `go` is given an untouched future
or one that has a value. No `co_yield` comes while somebody is suspended on the future, and no
co_await between a `co_yield` and the completion. -/
def ResultFirst (s : Life α ε) : LifeAction α ε → Prop
  | .test _ => s.state.hasValue ≠ .none → s.outcome.isSome
  | .suspend _ _ => (s.state.hasValue ≠ .none ∧ s.outcome.isSome) ∨ Pristine s ∨
      (s.state.exception.isSome ∧ ∀ c, s.place c ≠ .suspended ∧ s.place c ≠ .arrived)
  | .go _ => Pristine s ∨ s.state.hasValue ≠ .none ∨ s.outcome.isSome
  | .yieldValue _ => ∀ c, s.place c ≠ .suspended
  | _ => True

structure Supplied (u : FutureSetup) (s : Life α ε) : Prop where
  unqueued : s.state.isInitor ≠ .initial → s.state.hasValue = .none → s.outcome = none →
    s.queue = []
  start_once : s.state.isInitor = .initial → s.queue.length ≤ 1
  nobody_yet : s.state.isInitor = .initial → s.queue = [] → ∀ c, s.place c ≠ .suspended
  empty : s.body = .initial → s.state.hasValue = .none
  ended : s.body = .returned ∨ s.body = .failed → s.outcome.isSome
  arrived : s.state.hasValue = .none → ∀ c, s.place c = .arrived →
    s.outcome.isSome ∧ s.state.exception.isSome
  suspended : s.state.hasValue = .none → s.outcome.isSome → ∀ c, s.place c = .suspended →
    s.state.exception.isSome
  alone : s.state.hasValue = .none → ∀ c c', s.place c = .suspended ∨ s.place c = .arrived →
    s.place c' = .suspended ∨ s.place c' = .arrived → c = c'
  -- only a `co_yield` has set the tag
  yielded : s.state.hasValue ≠ .none → s.outcome = none →
    ∀ c, s.place c ≠ .suspended ∧ s.place c ≠ .arrived
  failed : s.state.exception.isSome → s.outcome.isSome
  tagged : u.kind ≠ .unit → s.state.hasValue = .none → s.outcome = none
  answered : ∀ reading ∈ s.readings, reading ≠ .notReady

theorem Supplied.initial {b : Nat} (own : u.own = some b) :
    Supplied u (Life.initial u : Life α ε) := by
  constructor <;>
    simp [Life.initial, own, FutureState.promiseInitialSuspend, Life.readings]

theorem Supplied.of_quiet (h : Supplied u s)
    (suspended : ∀ c, t.place c = .suspended → s.place c = .suspended)
    (arrived : ∀ c, t.place c = .arrived →
      s.place c = .arrived ∨ s.state.hasValue ≠ .none ∧ s.outcome.isSome)
    (isInitor : t.state.isInitor = s.state.isInitor) (hasValue : t.state.hasValue = s.state.hasValue)
    (exception : t.state.exception = s.state.exception) (queue : t.queue = s.queue)
    (outcome : t.outcome = s.outcome) (body : t.body = s.body)
    (readings : t.readings = s.readings) : Supplied u t := by
  have arrived_before : s.state.hasValue = .none → ∀ c, t.place c = .arrived →
      s.place c = .arrived := by
    intro tag c here
    exact (arrived c here).resolve_right fun ready => ready.1 tag
  have inside : s.state.hasValue = .none → ∀ c, t.place c = .suspended ∨ t.place c = .arrived →
      s.place c = .suspended ∨ s.place c = .arrived := by
    intro tag c busy
    exact busy.imp (suspended c) (arrived_before tag c)
  constructor
  case unqueued => simpa only [isInitor, hasValue, outcome, queue] using h.unqueued
  case start_once => simpa only [isInitor, queue] using h.start_once
  case nobody_yet =>
    intro initial empty c waiting
    exact h.nobody_yet (isInitor ▸ initial) (queue ▸ empty) c (suspended c waiting)
  case empty => simpa only [body, hasValue] using h.empty
  case ended => simpa only [body, outcome] using h.ended
  case arrived =>
    intro tag c here
    rw [outcome, exception]
    rw [hasValue] at tag
    exact h.arrived tag c (arrived_before tag c here)
  case suspended =>
    intro tag done c waiting
    rw [exception]
    exact h.suspended (hasValue ▸ tag) (outcome ▸ done) c (suspended c waiting)
  case alone =>
    intro tag c c' left right
    rw [hasValue] at tag
    exact h.alone tag c c' (inside tag c left) (inside tag c' right)
  case yielded =>
    intro tag open_ c
    rw [hasValue] at tag
    rw [outcome] at open_
    have quiet := h.yielded tag open_ c
    refine ⟨fun waiting => quiet.1 (suspended c waiting), fun here => ?_⟩
    rcases arrived c here with before | ⟨-, done⟩
    · exact quiet.2 before
    · simp [open_] at done
  case failed => simpa only [exception, outcome] using h.failed
  case tagged => simpa only [hasValue, outcome] using h.tagged
  case answered => simpa only [readings] using h.answered

theorem Supplied.not_initial (sound : Sound u s) (h : Supplied u s)
    (result : s.state.hasValue ≠ .none ∨ s.outcome.isSome) : s.state.isInitor ≠ .initial := by
  intro initial
  have body := sound.initor initial
  rcases result with value | done
  · exact value (h.empty body)
  · simp [sound.unfinished (Or.inl body)] at done

theorem Supplied.go (sound : Sound u s) (h : Supplied u s) {sch : Nat}
    (allowed : ResultFirst s (.go sch)) : Supplied u (s.start sch) := by
  exact { h with
    unqueued := by
      intro started tag open_
      rcases allowed with ⟨initial, -⟩ | value | done
      · exact absurd initial started
      · exact absurd tag value
      · simp [show s.outcome = none from open_] at done
    start_once := by
      intro initial
      rcases allowed with ⟨-, queue, -⟩ | result
      · simp only [start, notify, queue, List.nil_append, scheduled]
        split <;> simp
      · exact absurd (show s.state.isInitor = .initial from initial) (h.not_initial sound result)
    nobody_yet := by
      intro initial empty
      have initial' : s.state.isInitor = .initial := initial
      simp [start, notify, FutureState.hasHandlerSkipLock, initial', scheduled] at empty }

theorem Supplied.suspend (sound : Sound u s) (h : Supplied u s)
    (future : s.state.isFuture = true) {c sch : Nat}
    (allowed : ResultFirst s (.suspend c sch)) : Supplied u (s.suspendAwait u c sch) := by
  obtain ⟨-, isInitor, hasValue, exception, -, -⟩ := s.state.futureAwaitSuspend_frame u.own c sch
  have calls := s.state.futureAwaitSuspend_calls u.own c sch
  have ready : s.state.isReady = true := by simp [FutureState.isReady, future]
  rw [if_pos ready] at calls
  have queue : (s.suspendAwait u c sch).queue = s.queue ++ [sch] := by
    simp [suspendAwait, record, move, notify, calls, scheduled]
  have place_of_ne : ∀ c', c' ≠ c → (s.suspendAwait u c sch).place c' = s.place c' :=
    fun c' other => suspendAwait_place_of_ne other
  have place_self : (s.suspendAwait u c sch).place c = .suspended := suspendAwait_place_self
  have hasValue' : (s.suspendAwait u c sch).state.hasValue = s.state.hasValue := hasValue
  have exception' : (s.suspendAwait u c sch).state.exception = s.state.exception := exception
  -- nobody else is in the middle of a co_await when there is no value yet
  have nobody : s.state.hasValue = .none → ∀ c', s.place c' ≠ .suspended ∧ s.place c' ≠ .arrived := by
    intro tag c'
    rcases allowed with ⟨value, -⟩ | ⟨initial, queue, -⟩ | ⟨-, nobody⟩
    · exact absurd tag value
    · refine ⟨h.nobody_yet initial queue c', fun here => ?_⟩
      have done := (h.arrived tag c' here).1
      simp [sound.unfinished (Or.inl (sound.initor initial))] at done
    · exact nobody c'
  constructor
  case unqueued =>
    intro started tag open_
    rcases allowed with ⟨value, -⟩ | ⟨initial, -⟩ | ⟨taken, -⟩
    · exact absurd (hasValue.symm.trans tag) value
    · exact absurd (isInitor.trans initial) started
    · have done := h.failed taken
      simp [show s.outcome = none from open_] at done
  case start_once =>
    intro initial
    have initial' : s.state.isInitor = .initial := isInitor.symm.trans initial
    rcases allowed with ⟨value, -⟩ | ⟨-, empty, -⟩ | ⟨taken, -⟩
    · exact absurd initial' (h.not_initial sound (Or.inl value))
    · simp [queue, empty]
    · exact absurd initial' (h.not_initial sound (Or.inr (h.failed taken)))
  case nobody_yet => simp [queue]
  case empty => exact fun body => hasValue'.trans (h.empty body)
  case ended => exact h.ended
  case arrived =>
    intro tag c' here
    rw [hasValue'] at tag
    rcases eq_or_ne c' c with rfl | other
    · simp [place_self] at here
    · rw [place_of_ne c' other] at here
      exact absurd here (nobody tag c').2
  case suspended =>
    intro tag done c' _
    rw [exception']
    rw [hasValue'] at tag
    rcases allowed with ⟨value, -⟩ | ⟨initial, -⟩ | ⟨taken, -⟩
    · exact absurd tag value
    · exact absurd initial (h.not_initial sound (Or.inr done))
    · exact taken
  case alone =>
    intro tag c₁ c₂ left right
    rw [hasValue'] at tag
    have only : ∀ c', (s.suspendAwait u c sch).place c' = .suspended ∨
        (s.suspendAwait u c sch).place c' = .arrived → c' = c := by
      intro c' busy
      by_contra other
      rw [place_of_ne c' other] at busy
      exact busy.elim (nobody tag c').1 (nobody tag c').2
    exact (only c₁ left).trans (only c₂ right).symm
  case yielded =>
    intro tag open_
    rw [hasValue'] at tag
    have open_ : s.outcome = none := open_
    rcases allowed with ⟨-, done⟩ | ⟨initial, -⟩ | ⟨taken, -⟩
    · simp [open_] at done
    · exact absurd (h.empty (sound.initor initial)) tag
    · have done := h.failed taken
      simp [open_] at done
  case failed => exact fun taken => h.failed (exception' ▸ taken)
  case tagged => exact fun kind tag => h.tagged kind (hasValue' ▸ tag)
  case answered =>
    simpa [suspendAwait, record, move, notify, Life.readings, LifeEvent.reading?] using h.answered

theorem Supplied.wake (h : Supplied u s) (started : s.state.isInitor ≠ .initial) {c sch : Nat}
    (waiting : s.place c = .suspended)
    (done : s.state.hasValue = .none → s.outcome.isSome) : Supplied u (s.wakeAwaiter c sch) := by
  have busy : ∀ c', (s.wakeAwaiter c sch).place c' = .suspended ∨
      (s.wakeAwaiter c sch).place c' = .arrived →
        s.place c' = .suspended ∨ s.place c' = .arrived := by
    intro c' here
    rcases eq_or_ne c' c with rfl | different
    · exact Or.inl waiting
    · rwa [wakeAwaiter_place_of_ne different] at here
  exact { h with
    unqueued := by
      intro _ tag open_
      have outcome := done tag
      simp [show s.outcome = none from open_] at outcome
    start_once := fun initial => absurd initial started
    nobody_yet := fun initial => absurd initial started
    arrived := by
      intro tag c' here
      rcases eq_or_ne c' c with rfl | different
      · exact ⟨done tag, h.suspended tag (done tag) c' waiting⟩
      · rw [wakeAwaiter_place_of_ne different] at here
        exact h.arrived tag c' here
    suspended := by
      intro tag _ c' here
      rcases eq_or_ne c' c with rfl | different
      · simp [wakeAwaiter_place_self] at here
      · rw [wakeAwaiter_place_of_ne different] at here
        exact h.suspended tag (done tag) c' here
    alone := fun tag c₁ c₂ left right => h.alone tag c₁ c₂ (busy c₁ left) (busy c₂ right)
    yielded := fun tag open_ => absurd waiting (h.yielded tag open_ c).1
    answered := by
      simpa [wakeAwaiter, move, record, Life.readings, LifeEvent.reading?] using h.answered }

theorem Supplied.resume (sound : Sound u s) (h : Supplied u s) {sch : Nat}
    (queued : sch ∈ s.queue) (taken : Taken u s sch t) : Supplied u t := by
  have drained : s.state.isInitor ≠ .initial → s.state.hasValue = .none → s.outcome = none →
      s.queue.erase sch = [] := by
    intro started tag open_
    simp [h.unqueued started tag open_]
  cases taken with
  | start initial =>
      have body := sound.initor initial
      have outcome := sound.unfinished (Or.inl body)
      have single : s.queue.erase sch = [] := by
        have length := h.start_once initial
        have removed := List.length_erase_of_mem queued
        exact List.eq_nil_of_length_eq_zero (by omega)
      exact { h with
        unqueued := fun _ _ _ => single
        start_once := by simp
        nobody_yet := by simp
        empty := by simp
        ended := by simp
        suspended := by simp [outcome]
        yielded := fun tag => absurd (h.empty body) tag }
  | goOn b started holder own yielded =>
      exact { h with
        unqueued := drained
        start_once := fun initial => absurd initial started
        nobody_yet := fun initial => absurd initial started
        empty := by simp
        ended := by simp }
  | wake c started holder other =>
      apply h.wake started ((sound.owner c holder).resolve_right other)
      intro tag
      rw [← Option.ne_none_iff_isSome]
      intro open_
      simp [h.unqueued started tag open_] at queued
  | destroy final empty =>
      exact { h with
        unqueued := fun _ => drained (by simp [final])
        start_once := by simp
        nobody_yet := by simp
        empty := by simp
        ended := by simp }
  | nothing started empty =>
      exact { h with
        unqueued := drained
        start_once := fun initial => absurd initial started
        nobody_yet := fun initial => absurd initial started }

theorem Supplied.reading (h : Supplied u s) {c : Nat} (here : s.place c = .arrived) :
    (s.state.futureAwaitResume u.kind).1 ≠ .notReady := by
  rcases eq_or_ne s.state.hasValue .none with tag | tag
  · obtain ⟨done, taken⟩ := h.arrived tag c here
    have kind : u.kind = .unit := by
      by_contra other
      simp [h.tagged other tag] at done
    obtain ⟨e, exception⟩ := Option.isSome_iff_exists.mp taken
    simp [FutureState.futureAwaitResume, kind, exception]
  · cases kind : u.kind <;> cases stored : s.state.hasValue <;>
      cases exception : s.state.exception <;> simp_all [FutureState.futureAwaitResume]

theorem futureAwaitResume_exception (st : FutureState α ε) (kind : Kind)
    (taken : (st.futureAwaitResume kind).2.exception.isSome) : st.exception.isSome := by
  unfold FutureState.futureAwaitResume at taken
  split at taken
  · split at taken <;> simp_all
  all_goals simp_all

theorem Supplied.read (h : Supplied u s) {c : Nat} (here : s.place c = .arrived) :
    Supplied u (s.readResult u c) := by
  obtain ⟨-, -, -, hasValue, -, isInitor⟩ := s.state.futureAwaitResume_frame u.kind
  have place_of_ne : ∀ c', c' ≠ c → (s.readResult u c).place c' = s.place c' := by
    intro c' other
    simp [readResult, record, move, Function.update_of_ne other]
  have place_self : (s.readResult u c).place c = .away := by simp [readResult, record, move]
  have hasValue' : (s.readResult u c).state.hasValue = s.state.hasValue := hasValue
  -- with an exception outside of the tag, nobody else is in a co_await
  have nobody : s.state.hasValue = .none → ∀ c', ¬ ((s.readResult u c).place c' = .suspended ∨
      (s.readResult u c).place c' = .arrived) := by
    intro tag c' busy
    rcases eq_or_ne c' c with rfl | other
    · simp [place_self] at busy
    · rw [place_of_ne c' other] at busy
      exact other (h.alone tag c' c busy (Or.inr here))
  constructor
  case unqueued => exact fun started tag => h.unqueued (isInitor ▸ started) (hasValue' ▸ tag)
  case start_once => exact fun initial => h.start_once (isInitor.symm.trans initial)
  case nobody_yet =>
    intro initial empty c' waiting
    have other : c' ≠ c := by
      rintro rfl
      simp [place_self] at waiting
    rw [place_of_ne c' other] at waiting
    exact h.nobody_yet (isInitor.symm.trans initial) empty c' waiting
  case empty => exact fun body => hasValue'.trans (h.empty body)
  case ended => exact h.ended
  case arrived => exact fun tag c' busy => absurd (Or.inr busy) (nobody (hasValue' ▸ tag) c')
  case suspended => exact fun tag _ c' busy => absurd (Or.inl busy) (nobody (hasValue' ▸ tag) c')
  case alone => exact fun tag c' _ busy => absurd busy (nobody (hasValue' ▸ tag) c')
  case yielded =>
    intro tag open_ c'
    have quiet := h.yielded (hasValue' ▸ tag) open_ c'
    rcases eq_or_ne c' c with rfl | other
    · simp [place_self]
    · rwa [place_of_ne c' other]
  case failed => exact fun taken => h.failed (futureAwaitResume_exception s.state u.kind taken)
  case tagged => exact fun kind tag => h.tagged kind (hasValue' ▸ tag)
  case answered =>
    intro reading member
    simp only [readResult, record, move, Life.readings, List.filterMap_append,
      List.mem_append] at member
    rcases member with before | new
    · exact h.answered reading before
    · simp only [List.filterMap_cons, LifeEvent.reading?, List.filterMap_nil,
        List.mem_singleton] at new
      exact new ▸ h.reading here

theorem Supplied.complete {b : Nat} (own : u.own = some b) (sound : Sound u s) (h : Supplied u s)
    {o : Outcome α ε} (enabled : s.enabled u (.complete o) = true) :
    Supplied u (s.completeWith u o) := by
  have state : (s.completeWith u o).state = s.state.assign u.kind o := completeWith_state
  have started : s.state.isInitor ≠ .initial := by
    intro initial
    have body := sound.initor initial
    rcases completes o enabled with ⟨none, -⟩ | ⟨running, -⟩ | returned
    · simp [own] at none
    · simp [body] at running
    · simp [body] at returned
  -- only an exception of `state_t<void>` leaves the tag as it was
  have untagged : (s.completeWith u o).state.hasValue = .none → u.kind = .unit ∧
      s.state.hasValue = .none ∧ (s.completeWith u o).state.exception.isSome := by
    rw [state]
    cases o <;> cases kind : u.kind <;>
      simp [FutureState.assign, FutureState.setValueInternal, FutureState.setExceptionInternal]
  have notInitial : (s.completeWith u o).state.isInitor ≠ .initial := by
    rw [state, FutureState.assign_isInitor]
    exact started
  have ended : (s.completeWith u o).body ≠ .initial := by
    change bodyAfter u o s.body ≠ .initial
    cases o <;> simp [bodyAfter, own]
  constructor
  case unqueued => exact fun _ _ open_ => by simp [completeWith, record, notify] at open_
  case start_once => exact fun initial => absurd initial notInitial
  case nobody_yet => exact fun initial => absurd initial notInitial
  case empty => exact fun initial => absurd initial ended
  case ended => exact fun _ => rfl
  case arrived => exact fun tag _ _ => ⟨rfl, (untagged tag).2.2⟩
  case suspended => exact fun tag _ _ _ => (untagged tag).2.2
  case alone => exact fun tag => h.alone (untagged tag).2.1
  case yielded => exact fun _ open_ => by simp [completeWith, record, notify] at open_
  case failed => exact fun _ => rfl
  case tagged => exact fun kind tag => absurd (untagged tag).1 kind
  case answered =>
    simpa [completeWith, record, notify, Life.readings, LifeEvent.reading?] using h.answered

theorem Supplied.yield (sound : Sound u s) (h : Supplied u s) {c : Nat}
    (running : s.body = .running) (v : α) (nobody : ∀ c', s.place c' ≠ .suspended) :
    Supplied u (s.yieldWith u v c) := by
  have started : s.state.isInitor ≠ .initial := by
    intro initial
    simp [sound.initor initial] at running
  have tag : (s.yieldWith u v c).state.hasValue = .value := by
    rw [yieldWith_state]
    cases u.kind <;> rfl
  have notInitial : (s.yieldWith u v c).state.isInitor ≠ .initial := by
    rw [yieldWith_state, FutureState.assign_isInitor]
    exact started
  constructor
  case unqueued => simp [tag]
  case start_once => exact fun initial => absurd initial notInitial
  case nobody_yet => exact fun initial => absurd initial notInitial
  case empty => simp [yieldWith]
  case ended => simp [yieldWith]
  case arrived => simp [tag]
  case suspended => simp [tag]
  case alone => simp [tag]
  case yielded =>
    intro _ open_ c'
    have open_ : s.outcome = none := open_
    refine ⟨nobody c', fun here => ?_⟩
    rcases eq_or_ne s.state.hasValue .none with before | before
    · have done := (h.arrived before c' here).1
      simp [open_] at done
    · exact (h.yielded before open_ c').2 here
  case failed =>
    intro taken
    apply h.failed
    rw [yieldWith_state] at taken
    cases kind : u.kind <;>
      simp only [kind, FutureState.assign, FutureState.setValueInternal] at taken <;>
      first
        | exact taken
        | (split at taken <;> simp_all)
  case tagged => simp [tag]
  case answered =>
    simpa [yieldWith, notify, Life.readings] using h.answered

theorem Supplied.finalSuspend (h : Supplied u s) (ended : s.body = .returned ∨ s.body = .failed)
    {updated : FutureState α ε × List Call}
    (final : s.state.promiseFinalSuspend u.root = .ok updated) :
    Supplied u { s.notify updated with body := .final } := by
  have state := FutureState.promiseFinalSuspend_state final
  have done := h.ended ended
  constructor
  case unqueued => exact fun _ _ open_ => by simp [show s.outcome = none from open_] at done
  case start_once => simp [notify, state]
  case nobody_yet => simp [notify, state]
  case empty => simp
  case ended => simp
  case arrived => simpa [notify, state] using h.arrived
  case suspended => simpa [notify, state] using h.suspended
  case alone => simpa [notify, state] using h.alone
  case yielded => simpa [notify, state] using h.yielded
  case failed => simpa [notify, state] using h.failed
  case tagged => simpa [notify, state] using h.tagged
  case answered => simpa [notify, Life.readings] using h.answered

theorem Supplied.step {b : Nat} (own : u.own = some b) {action : LifeAction α ε}
    (sound : Sound u s) (h : Supplied u s) (allowed : ResultFirst s action)
    (action_ : Life.step u s action = some t) : Supplied u t := by
  cases effect_of_step action_ with
  | go sch => exact h.go sound allowed
  | transform c sch away free =>
      refine h.of_quiet (fun c' => (move_suspended_iff (by simp [away]) (by simp) c').mp) ?_ rfl rfl
        rfl rfl rfl rfl rfl
      intro c' here
      rcases eq_or_ne c' c with rfl | other
      · simp [beginAwait, move] at here
      · exact Or.inl (by simpa [beginAwait, move, Function.update_of_ne other] using here)
  | test c inside =>
      refine h.of_quiet
        (fun c' => (move_suspended_iff (by simp [inside]) (by split <;> simp) c').mp) ?_ rfl rfl
        rfl rfl rfl rfl ?_
      · intro c' here
        rcases eq_or_ne c' c with rfl | other
        · right
          have tag : s.state.hasValue ≠ .none := by
            intro tag
            simp [testReady, record, move, FutureState.futureAwaitReady, tag] at here
          exact ⟨tag, allowed tag⟩
        · exact Or.inl (by simpa [testReady, record, move, Function.update_of_ne other] using here)
      · simp [testReady, record, move, Life.readings, LifeEvent.reading?]
  | suspend c sch inside => exact h.suspend sound (by simp [sound.future, own]) allowed
  | resume sch queued => exact h.resume sound queued (taken u s sch)
  | read c inside => exact h.read inside
  | complete o enabled => exact h.complete own sound enabled
  | yieldValue v b' own' runs =>
      simp only [bodyRuns, Bool.and_eq_true, beq_iff_eq] at runs
      exact h.yield sound runs.1 v allowed
  | finalSuspend updated ended suspended => exact h.finalSuspend ended suspended

/-- Where nothing is queued before a result except the start of the body, whoever comes to
`await_resume` finds a completed future. -/
theorem resumed_with_result {α ε : Type*} (u : FutureSetup) (b : Nat) (own : u.own = some b)
    (s : Life α ε) (reachable : (system α ε u).ReachableBy ResultFirst s) :
    (∀ c, s.place c = .arrived → s.outcome.isSome) ∧
      ∀ reading ∈ s.readings, reading ≠ .notReady := by
  have h : Supplied u s := Transition.System.Inductive.holds
    ⟨Supplied.initial own, fun s _ t reached h allowed action =>
      h.step own (sound reached.reachable) allowed action⟩ reachable
  refine ⟨fun c here => ?_, h.answered⟩
  rcases eq_or_ne s.state.hasValue .none with tag | tag
  · exact (h.arrived tag c here).1
  · rw [← Option.ne_none_iff_isSome]
    exact fun open_ => (h.yielded tag open_ c).2 here

/-- One future is started by its co_await; another yields, completes and is awaited then. -/
theorem resumed_with_result_started_by_await :
    (∃ s : Life Nat Nat, s.outcome = some (.value 7) ∧ s.place 1 = .arrived ∧
      (s.place 1 = .arrived → s.outcome.isSome)) ∧
    ∃ s : Life Nat Nat, s.hasYielded = true ∧ s.outcome = some (.value 7) ∧
      s.place 1 = .arrived ∧ (s.place 1 = .arrived → s.outcome.isSome) := by
  let u : FutureSetup := { kind := .object, own := some 9, root := none }
  have start : (system Nat Nat u).ReachableBy ResultFirst (Life.initial u) := .init
  constructor
  · have suspended := ((start.next (.transform 1 0) rfl trivial).next (.test 1) rfl
      (absurd rfl)).next (.suspend 1 0) rfl (Or.inr (Or.inl ⟨rfl, rfl, rfl⟩))
    have finished := ((suspended.next (.resume 0) rfl trivial).next (.complete (.value 7)) rfl
      trivial).next (.resume 0) rfl trivial
    exact ⟨_, rfl, rfl, (resumed_with_result u 9 rfl _ finished).1 1⟩
  · have yielded := ((start.next (.go 0) rfl (Or.inl ⟨rfl, rfl, rfl⟩)).next (.resume 0) rfl
      trivial).next (.yieldValue 5) rfl fun c waiting => by cases waiting
    have completed := (yielded.next (.resume 0) rfl trivial).next (.complete (.value 7)) rfl trivial
    have finished := (completed.next (.transform 1 0) rfl trivial).next (.test 1) rfl fun _ => rfl
    exact ⟨_, rfl, rfl, rfl, (resumed_with_result u 9 rfl _ finished).1 1⟩

/-- A coroutine awaits a future that was started by `go` and has not finished: it is woken at once
and reads an error. -/
theorem resumed_without_result : ∃ s : Life Nat Nat,
    (system Nat Nat { kind := .object, own := some 9, root := none }).Reachable s ∧
      s.outcome = none ∧ s.hasYielded = false ∧ s.body = .running ∧ s.readings = [.notReady] := by
  obtain ⟨s, reachable, test⟩ := Transition.System.reachable_of_replay
    (M := system Nat Nat { kind := .object, own := some 9, root := none })
    [.go 0, .resume 0, .transform 1 0, .test 1, .suspend 1 0, .resume 0, .read 1]
    (fun s => s.outcome == none && s.hasYielded == false && s.body == .running &&
      s.readings == [.notReady]) (by decide)
  simp only [Bool.and_eq_true, beq_iff_eq] at test
  exact ⟨s, reachable, test.1.1.1, test.1.1.2, test.1.2, test.2⟩

end Librf.Life
