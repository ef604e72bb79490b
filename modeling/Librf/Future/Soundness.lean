import Librf.Future.Life

/-!
# What holds in every run of a future

The handle in `_coro` belongs to a coroutine that is suspended on the future or to the body that
has yielded, and nothing happens to a state before it has a scheduler.
-/

namespace Librf.Life

variable {α ε : Type*} {u : FutureSetup} {s t : Life α ε}

structure Sound (u : FutureSetup) (s : Life α ε) : Prop where
  owner : ∀ c, s.state.coro = some c →
    s.place c = .suspended ∨ (u.own = some c ∧ s.body = .yielded)
  future : s.state.isFuture = u.own.isSome
  own_busy : ∀ c, u.own = some c → s.place c ≠ .away → s.body = .running
  awaitable : u.own = none → s.body = .absent
  initor : s.state.isInitor = .initial → s.body = .initial
  finished : s.state.isInitor = .final → s.body = .final
  unfinished : s.body = .initial ∨ s.body = .running ∨ s.body = .yielded → s.outcome = none
  balance : ∀ c, s.wakeups c + (if s.place c = .suspended then 1 else 0) = s.suspensions c
  untouched : s.state.scheduler = none → (∀ c, s.place c = .away) ∧
    (s.body = .absent ∨ s.body = .initial) ∧ s.state.coro = none ∧ s.queue = []

theorem Sound.initial : Sound u (Life.initial u : Life α ε) := by
  cases own : u.own <;>
    constructor <;> simp [Life.initial, own, FutureState.promiseInitialSuspend]

theorem Sound.go (h : Sound u s) (sch : Nat) : Sound u (s.start sch) where
  owner := h.owner
  future := h.future
  own_busy := h.own_busy
  awaitable := h.awaitable
  initor := h.initor
  finished := h.finished
  unfinished := h.unfinished
  balance := h.balance
  untouched := by simp [start, notify]

theorem Sound.transform (h : Sound u s) {c sch : Nat} (away : s.place c = .away)
    (running : u.own = some c → s.body = .running) : Sound u (s.beginAwait c sch) := by
  have suspended_iff : ∀ c', (s.move c .transformed).place c' = .suspended ↔
      s.place c' = .suspended := move_suspended_iff (by simp [away]) (by simp)
  exact { h with
    owner := fun c' taken => (h.owner c' taken).imp_left (suspended_iff c').mpr
    own_busy := by
      intro c' own busy
      rcases eq_or_ne c' c with rfl | other
      · exact running own
      · exact h.own_busy c' own (by simpa [beginAwait, move, Function.update_of_ne other] using busy)
    balance := by
      intro c'
      have same : (s.beginAwait c sch).place c' = .suspended ↔ s.place c' = .suspended :=
        suspended_iff c'
      rw [if_congr same rfl rfl]
      exact h.balance c'
    untouched := by simp [beginAwait] }

theorem Sound.test (h : Sound u s) {c : Nat} (inside : s.place c = .transformed) :
    Sound u (s.testReady c) := by
  have suspended_iff : ∀ c', (s.testReady c).place c' = .suspended ↔ s.place c' = .suspended :=
    move_suspended_iff (by simp [inside]) (by split <;> simp)
  exact { h with
    owner := fun c' taken => (h.owner c' taken).imp_left (suspended_iff c').mpr
    own_busy := by
      intro c' own busy
      rcases eq_or_ne c' c with rfl | other
      · exact h.own_busy c' own (by simp [inside])
      · exact h.own_busy c' own
          (by simpa [testReady, record, move, Function.update_of_ne other] using busy)
    balance := by
      intro c'
      rw [if_congr (suspended_iff c') rfl rfl]
      exact h.balance c'
    untouched := by
      intro unscheduled
      have away := (h.untouched unscheduled).1 c
      simp [inside] at away }

theorem Sound.suspend (h : Sound u s) {c sch : Nat} (inside : s.place c = .unready) :
    Sound u (s.suspendAwait u c sch) := by
  have place_self : (s.suspendAwait u c sch).place c = .suspended := suspendAwait_place_self
  have place_of_ne : ∀ c', c' ≠ c → (s.suspendAwait u c sch).place c' = s.place c' :=
    fun c' other => suspendAwait_place_of_ne other
  have isInitor : (s.suspendAwait u c sch).state.isInitor = s.state.isInitor :=
    (s.state.futureAwaitSuspend_frame u.own c sch).2.1
  constructor
  case owner =>
    intro c' taken
    cases before : s.state.coro with
    | none =>
        rw [suspendAwait_coro, before, Option.none_or, Option.some.injEq] at taken
        exact Or.inl (taken ▸ place_self)
    | some holder =>
        rw [suspendAwait_coro, before, Option.some_or, Option.some.injEq] at taken
        subst taken
        refine (h.owner holder before).imp_left fun waiting => ?_
        rwa [place_of_ne holder (by rintro rfl; simp [inside] at waiting)]
  case future => exact (s.state.futureAwaitSuspend_frame u.own c sch).2.2.2.2.1.trans h.future
  case own_busy =>
    intro c' own busy
    rcases eq_or_ne c' c with rfl | other
    · exact h.own_busy c' own (by simp [inside])
    · exact h.own_busy c' own (by rwa [place_of_ne c' other] at busy)
  case awaitable => exact h.awaitable
  case initor => exact fun same => h.initor (isInitor ▸ same)
  case finished => exact fun same => h.finished (isInitor ▸ same)
  case unfinished => exact h.unfinished
  case balance =>
    intro c'
    have before := h.balance c'
    rcases eq_or_ne c' c with rfl | other
    · rw [place_self]
      simpa [inside, suspendAwait, record, move, notify] using before
    · rw [place_of_ne c' other]
      simpa [suspendAwait, record, move, notify, Function.update_of_ne other] using before
  case untouched =>
    intro unscheduled
    have before := (s.state.futureAwaitSuspend_frame u.own c sch).1 unscheduled
    have away := (h.untouched before).1 c
    simp [inside] at away

theorem Sound.read (h : Sound u s) {c : Nat} (inside : s.place c = .arrived) :
    Sound u (s.readResult u c) := by
  obtain ⟨scheduler, coro, -, -, isFuture, isInitor⟩ := s.state.futureAwaitResume_frame u.kind
  have suspended_iff : ∀ c', (s.readResult u c).place c' = .suspended ↔ s.place c' = .suspended :=
    move_suspended_iff (by simp [inside]) (by simp)
  constructor
  case owner =>
    exact fun c' taken => (h.owner c' (coro.symm.trans taken)).imp_left (suspended_iff c').mpr
  case future => exact isFuture.trans h.future
  case own_busy =>
    intro c' own busy
    rcases eq_or_ne c' c with rfl | other
    · exact h.own_busy c' own (by simp [inside])
    · exact h.own_busy c' own
        (by simpa [readResult, record, move, Function.update_of_ne other] using busy)
  case awaitable => exact h.awaitable
  case initor => exact fun same => h.initor (isInitor.symm.trans same)
  case finished => exact fun same => h.finished (isInitor.symm.trans same)
  case unfinished => exact h.unfinished
  case balance =>
    intro c'
    rw [if_congr (suspended_iff c') rfl rfl]
    exact h.balance c'
  case untouched =>
    intro unscheduled
    have away := (h.untouched (scheduler.symm.trans unscheduled)).1 c
    simp [inside] at away

theorem Sound.wake (h : Sound u s) (started : s.state.isInitor ≠ .initial)
    (scheduled : s.state.scheduler ≠ none) {c sch : Nat} (waiting : s.place c = .suspended) :
    Sound u (s.wakeAwaiter c sch) :=
  { h with
    owner := by simp [wakeAwaiter, move, record]
    own_busy := by
      intro c' own busy
      rcases eq_or_ne c' c with rfl | different
      · exact h.own_busy c' own (by simp [waiting])
      · rw [wakeAwaiter_place_of_ne different] at busy
        exact h.own_busy c' own busy
    initor := fun same => absurd same started
    balance := by
      intro c'
      have before := h.balance c'
      rcases eq_or_ne c' c with rfl | different
      · simpa [wakeAwaiter, move, record, waiting] using before
      · simpa [wakeAwaiter, move, record, Function.update_of_ne different] using before
    untouched := fun unscheduled => absurd unscheduled scheduled }

theorem Sound.resume (h : Sound u s) {sch : Nat} (queued : sch ∈ s.queue)
    (taken : Taken u s sch t) : Sound u t := by
  have scheduled : s.state.scheduler ≠ none := by
    intro unscheduled
    simp [(h.untouched unscheduled).2.2.2] at queued
  cases taken with
  | start initial =>
      have body := h.initor initial
      exact { h with
        owner := fun c' taken => (h.owner c' taken).imp_right fun own => by simp [body] at own
        own_busy := fun _ _ _ => rfl
        awaitable := fun own => by simp [h.awaitable own] at body
        initor := by simp
        finished := by simp
        unfinished := fun _ => h.unfinished (Or.inl body)
        untouched := fun unscheduled => absurd unscheduled scheduled }
  | goOn b started holder own yielded =>
      exact { h with
        owner := by simp
        own_busy := fun _ _ _ => rfl
        awaitable := by simp [own]
        initor := fun same => absurd same started
        finished := fun same => by simp [h.finished same] at yielded
        unfinished := fun _ => h.unfinished (Or.inr (Or.inr yielded))
        untouched := fun unscheduled => absurd unscheduled scheduled }
  | wake c started holder other =>
      exact h.wake started scheduled ((h.owner c holder).resolve_right other)
  | destroy final empty =>
      have body := h.finished final
      exact { h with
        owner := by simp [empty]
        own_busy := fun c own busy => by simp [h.own_busy c own busy] at body
        awaitable := fun own => by simp [h.awaitable own] at body
        initor := by simp
        finished := by simp
        unfinished := by simp
        untouched := fun unscheduled => absurd unscheduled scheduled }
  | nothing started empty =>
      exact { h with untouched := fun unscheduled => absurd unscheduled scheduled }

theorem completes (o : Outcome α ε) (enabled : s.enabled u (.complete o) = true) :
    (u.own = none ∧ s.outcome = none) ∨
      (s.body = .running ∧ ∀ c, u.own = some c → s.place c = .away) ∨ s.body = .returned := by
  cases own : u.own with
  | none =>
      refine Or.inl ⟨rfl, ?_⟩
      cases o <;> simpa [Life.enabled, own] using enabled
  | some b =>
      apply Or.inr ?_
      cases o with
      | value v =>
          simp only [Life.enabled, own, bodyRuns, Option.isSome_some, if_true, Option.all_some,
            Bool.and_eq_true, beq_iff_eq] at enabled
          exact Or.inl ⟨enabled.1, fun c same => by cases same; exact enabled.2⟩
      | exception e =>
          simp only [Life.enabled, own, bodyRuns, Option.isSome_some, if_true, Option.all_some,
            Bool.and_eq_true, beq_iff_eq, Bool.or_eq_true] at enabled
          exact enabled.imp_left fun runs =>
            ⟨runs.1, fun c same => by cases same; exact runs.2⟩

theorem Sound.complete (h : Sound u s) {o : Outcome α ε}
    (enabled : s.enabled u (.complete o) = true) : Sound u (s.completeWith u o) := by
  have body : (s.completeWith u o).body = bodyAfter u o s.body := rfl
  have handler : (s.completeWith u o).state.coro = s.state.coro := by simp
  have initor : (s.completeWith u o).state.isInitor = s.state.isInitor := by simp
  have when := completes o enabled
  constructor
  case owner =>
    intro c taken
    rcases h.owner c (handler ▸ taken) with waits | ⟨own, yielded⟩
    · exact .inl waits
    · rcases when with ⟨none, _⟩ | ⟨running, _⟩ | returned
      · simp [none] at own
      · simp [yielded] at running
      · simp [yielded] at returned
  case future => simpa using h.future
  case own_busy =>
    intro c own busy
    rcases when with ⟨none, _⟩ | ⟨_, away⟩ | returned
    · simp [none] at own
    · exact absurd (away c own) busy
    · simp [h.own_busy c own busy] at returned
  case awaitable =>
    intro own
    rw [body, bodyAfter]
    · exact h.awaitable own
    · exact own
  case initor =>
    intro initial
    have before := h.initor (initor ▸ initial)
    rcases when with ⟨none, _⟩ | ⟨running, _⟩ | returned
    · simp [h.awaitable none] at before
    · simp [before] at running
    · simp [before] at returned
  case finished =>
    intro final
    have before := h.finished (initor ▸ final)
    rcases when with ⟨none, _⟩ | ⟨running, _⟩ | returned
    · simp [h.awaitable none] at before
    · simp [before] at running
    · simp [before] at returned
  case unfinished =>
    rw [body]
    unfold bodyAfter
    cases own : u.own with
    | none => simp [h.awaitable own]
    | some b => cases o <;> simp
  case balance => exact h.balance
  case untouched =>
    intro unscheduled
    rw [completeWith_state, FutureState.assign_scheduler] at unscheduled
    obtain ⟨away, body', empty, queue⟩ := h.untouched unscheduled
    rcases when with ⟨none, _⟩ | ⟨running, _⟩ | returned
    · have idle : s.state.isInitor = .none := by
        cases tag : s.state.isInitor with
        | none => rfl
        | initial => simpa [h.awaitable none] using h.initor tag
        | final => simpa [h.awaitable none] using h.finished tag
      have calls : scheduled (s.state.complete u.kind o u.root).2 = [] := by
        rw [FutureState.complete_calls]
        split <;> simp [FutureState.hasHandlerSkipLock, empty, idle, scheduled]
      refine ⟨away, Or.inl ?_, handler.trans empty, ?_⟩
      · rw [body, bodyAfter]
        · exact h.awaitable none
        · exact none
      · simp [completeWith, record, notify, calls, queue]
    · simp [running] at body'
    · simp [returned] at body'

theorem Sound.yield (h : Sound u s) {c : Nat} (own : u.own = some c)
    (runs : s.bodyRuns u = true) (v : α) : Sound u (s.yieldWith u v c) := by
  simp only [bodyRuns, own, Option.all_some, Bool.and_eq_true, beq_iff_eq] at runs
  obtain ⟨running, away⟩ := runs
  have scheduled : s.state.scheduler ≠ none := by
    intro unscheduled
    simpa [running] using (h.untouched unscheduled).2.1
  constructor
  case owner =>
    intro c' taken
    rw [yieldWith_state, FutureState.assign_coro] at taken
    cases before : s.state.coro with
    | none =>
        simp only [before, Option.none_or, Option.some.injEq] at taken
        exact Or.inr ⟨taken ▸ own, rfl⟩
    | some holder =>
        simp only [before, Option.some_or, Option.some.injEq] at taken
        exact Or.inl ((h.owner c' (taken ▸ before)).resolve_right fun yielded => by
          simp [yielded.2] at running)
  case future => simpa [yieldWith_state] using h.future
  case own_busy =>
    intro c' own' busy
    rw [own, Option.some.injEq] at own'
    exact absurd (own' ▸ away) busy
  case awaitable => simp [own]
  case initor =>
    intro initial
    rw [yieldWith_state, FutureState.assign_isInitor] at initial
    simp [h.initor initial] at running
  case finished =>
    intro final
    rw [yieldWith_state, FutureState.assign_isInitor] at final
    simp [h.finished final] at running
  case unfinished => exact fun _ => h.unfinished (Or.inr (Or.inl running))
  case balance => exact h.balance
  case untouched =>
    intro unscheduled
    rw [yieldWith_state, FutureState.assign_scheduler] at unscheduled
    exact absurd unscheduled scheduled

theorem Sound.finalSuspend (h : Sound u s) (ended : s.body = .returned ∨ s.body = .failed)
    {updated : FutureState α ε × List Call}
    (final : s.state.promiseFinalSuspend u.root = .ok updated) :
    Sound u { s.notify updated with body := .final } := by
  have state := FutureState.promiseFinalSuspend_state final
  have scheduled : s.state.scheduler ≠ none := by
    intro unscheduled
    have early := (h.untouched unscheduled).2.1
    rcases ended with returned | failed <;> simp_all
  constructor
  case owner =>
    intro c taken
    have before : s.state.coro = some c := by simpa [notify, state] using taken
    refine (h.owner c before).imp_right fun own => ?_
    rcases ended with returned | failed <;> simp_all
  case future => simpa [notify, state] using h.future
  case own_busy =>
    intro c own busy
    have running := h.own_busy c own busy
    rcases ended with returned | failed <;> simp_all
  case awaitable =>
    intro own
    have absent := h.awaitable own
    rcases ended with returned | failed <;> simp_all
  case initor => simp [notify, state]
  case finished => simp
  case unfinished => simp
  case balance => exact h.balance
  case untouched =>
    intro unscheduled
    exact absurd (by simpa [notify, state] using unscheduled) scheduled

theorem Sound.step {action : LifeAction α ε} (h : Sound u s)
    (action_ : Life.step u s action = some t) : Sound u t := by
  cases effect_of_step action_ with
  | go sch => exact h.go sch
  | transform c sch away free => exact h.transform away free
  | test c inside => exact h.test inside
  | suspend c sch inside => exact h.suspend inside
  | resume sch queued => exact h.resume queued (taken u s sch)
  | read c inside => exact h.read inside
  | complete o enabled => exact h.complete enabled
  | yieldValue v b own runs => exact h.yield own runs v
  | finalSuspend updated ended suspended => exact h.finalSuspend ended suspended

theorem sound (reachable : (system α ε u).Reachable s) : Sound u s :=
  Transition.System.Inductive.holds
    ⟨Sound.initial, fun _ _ _ _ h _ action => h.step action⟩ reachable

theorem Sound.taken_place (h : Sound u s) {sch : Nat} (taken : Taken u s sch t) (c : Nat) :
    t.place c = s.place c ∨ s.place c = .suspended ∧ t.place c = .arrived := by
  cases taken with
  | wake holder started coro other =>
      rcases eq_or_ne c holder with rfl | different
      · exact Or.inr ⟨(h.owner c coro).resolve_right other, wakeAwaiter_place_self⟩
      · exact Or.inl (wakeAwaiter_place_of_ne different)
  | _ => exact Or.inl rfl

theorem Taken.contents {sch : Nat} (taken : Taken u s sch t) :
    t.state.hasValue = s.state.hasValue ∧ t.state.exception = s.state.exception ∧
      t.outcome = s.outcome ∧ t.begun = s.begun := by
  cases taken <;> exact ⟨rfl, rfl, rfl, rfl⟩

end Librf.Life
