import Librf.Future.Soundness

/-!
# Copies of one future

A state has one slot for the handle of an awaiting coroutine. As long as nobody finds it taken,
every awaiting coroutine is woken.
-/

namespace Librf.Life

variable {α ε : Type*} {u : FutureSetup} {s t : Life α ε}

/-- Every co_await that suspends finds the slot `_coro` empty, and the future ready if it has
completed before. -/
def SlotFree (s : Life α ε) : LifeAction α ε → Prop
  | .suspend _ _ => s.state.coro = none ∧ (s.outcome.isSome → s.state.isReady)
  | _ => True

structure Remembered (s : Life α ε) : Prop where
  held : ∀ c, s.place c = .suspended → s.state.coro = some c
  pending : s.outcome.isSome → s.state.coro.isSome → s.queue ≠ []

theorem Remembered.initial : Remembered (Life.initial u : Life α ε) := by
  cases own : u.own <;> constructor <;>
    simp [Life.initial, own, FutureState.promiseInitialSuspend]

theorem Remembered.of_quiet (h : Remembered s)
    (places : ∀ c, t.place c = .suspended → s.place c = .suspended)
    (coro : t.state.coro = s.state.coro) (outcome : t.outcome.isSome → s.outcome.isSome)
    (queue : ∃ calls, t.queue = s.queue ++ calls) : Remembered t where
  held c waiting := coro.trans (h.held c (places c waiting))
  pending done taken := by
    obtain ⟨calls, longer⟩ := queue
    have before := h.pending (outcome done) (coro ▸ taken)
    simp [longer, before]

theorem Remembered.suspend (h : Remembered s) {c sch : Nat} (free : s.state.coro = none)
    (ready : s.outcome.isSome → s.state.isReady) : Remembered (s.suspendAwait u c sch) where
  held := by
    intro c' waiting
    rw [suspendAwait_coro, free, Option.none_or]
    by_contra other
    rw [suspendAwait_place_of_ne (by rintro rfl; exact other rfl)] at waiting
    simp [h.held c' waiting] at free
  pending := by
    intro done _
    have calls := s.state.futureAwaitSuspend_calls u.own c sch
    rw [if_pos (ready done)] at calls
    simp [suspendAwait, record, move, notify, calls, scheduled]

theorem Remembered.resume (sound : Sound u s) (h : Remembered s) {sch : Nat}
    (taken : Taken u s sch t) : Remembered t := by
  have only {c : Nat} (holder : s.state.coro = some c) (c' : Nat)
      (waiting : s.place c' = .suspended) : c' = c := by
    have same := h.held c' waiting
    rw [holder, Option.some.injEq] at same
    exact same.symm
  cases taken with
  | start initial =>
      have outcome := sound.unfinished (Or.inl (sound.initor initial))
      exact ⟨h.held, by simp [outcome]⟩
  | goOn b started holder own yielded =>
      refine ⟨fun c waiting => ?_, by simp⟩
      obtain rfl := only holder c waiting
      have running := sound.own_busy c own (by rw [show s.place c = .suspended from waiting]; simp)
      simp [yielded] at running
  | wake c started holder other =>
      refine ⟨fun c' waiting => ?_, by simp [wakeAwaiter, move, record]⟩
      rcases eq_or_ne c' c with rfl | different
      · simp [wakeAwaiter_place_self] at waiting
      · rw [wakeAwaiter_place_of_ne different] at waiting
        exact absurd (only holder c' waiting) different
  | destroy final empty => exact ⟨h.held, by simp [empty]⟩
  | nothing started empty => exact ⟨h.held, by simp [empty]⟩

theorem Remembered.complete (sound : Sound u s) (h : Remembered s) (o : Outcome α ε) :
    Remembered (s.completeWith u o) := by
  have handler : (s.completeWith u o).state.coro = s.state.coro := by simp
  refine ⟨fun c waiting => handler.trans (h.held c waiting), fun _ taken => ?_⟩
  rw [handler] at taken
  obtain ⟨sch, found⟩ : ∃ sch, s.state.scheduler = some sch := by
    rw [← Option.isSome_iff_exists, Option.isSome_iff_ne_none]
    intro unscheduled
    simp [(sound.untouched unscheduled).2.2.1] at taken
  have calls : (s.state.complete u.kind o u.root).2 = [.addGenerator sch] := by
    rw [FutureState.complete_calls]
    simp [FutureState.getScheduler, FutureState.hasHandlerSkipLock, found, taken]
  simp [completeWith, record, notify, calls, scheduled]

theorem Remembered.yield (sound : Sound u s) (h : Remembered s) {c : Nat}
    (running : s.body = .running) (v : α) : Remembered (s.yieldWith u v c) := by
  have outcome := sound.unfinished (Or.inr (Or.inl running))
  constructor
  · intro c' waiting
    have taken := h.held c' waiting
    simp [yieldWith_state, taken]
  · simp [yieldWith, notify, outcome]

theorem Remembered.step {action : LifeAction α ε} (sound : Sound u s) (h : Remembered s)
    (allowed : SlotFree s action) (action_ : Life.step u s action = some t) : Remembered t := by
  cases effect_of_step action_ with
  | go sch => exact h.of_quiet (fun _ waiting => waiting) rfl id ⟨_, rfl⟩
  | transform c sch away free =>
      exact h.of_quiet (fun c' => (move_suspended_iff (by simp [away]) (by simp) c').mp) rfl id
        ⟨[], by simp [beginAwait, move]⟩
  | test c inside =>
      exact h.of_quiet (fun c' => (move_suspended_iff (by simp [inside]) (by split <;> simp) c').mp)
        rfl id ⟨[], by simp [testReady, record, move]⟩
  | suspend c sch inside => exact h.suspend allowed.1 allowed.2
  | resume sch queued => exact h.resume sound (taken u s sch)
  | read c inside =>
      exact h.of_quiet (fun c' => (move_suspended_iff (by simp [inside]) (by simp) c').mp)
        (s.state.futureAwaitResume_frame u.kind).2.1 id ⟨[], by simp [readResult, record, move]⟩
  | complete o enabled => exact h.complete sound o
  | yieldValue v b own runs =>
      simp only [bodyRuns, Bool.and_eq_true, beq_iff_eq] at runs
      exact h.yield sound runs.1 v
  | finalSuspend updated ended suspended =>
      have coro : updated.1.coro = s.state.coro := by
        rw [FutureState.promiseFinalSuspend_state suspended]
      exact h.of_quiet (fun _ waiting => waiting) coro id ⟨_, rfl⟩

theorem awaiters_woken {α ε : Type*} (u : FutureSetup) (s : Life α ε)
    (reachable : (system α ε u).ReachableBy SlotFree s) (completed : s.outcome.isSome)
    (drained : s.queue = []) (c : Nat) :
    s.place c ≠ .suspended ∧ s.wakeups c = s.suspensions c := by
  have h : Remembered s := Transition.System.Inductive.holds
    ⟨Remembered.initial, fun s _ t reached h allowed action =>
      h.step (sound reached.reachable) allowed action⟩ reachable
  have awake : s.place c ≠ .suspended := by
    intro waiting
    exact h.pending completed (by simp [h.held c waiting]) drained
  exact ⟨awake, by simpa [awake] using (sound reachable.reachable).balance c⟩

theorem awaiters_woken_one_by_one : ∃ s : Life Nat Nat, s.outcome = some (.value 7) ∧
    s.suspensions 1 = 1 ∧ s.place 1 ≠ .suspended ∧ s.wakeups 1 = s.suspensions 1 := by
  let u : FutureSetup := { kind := .object, own := none, root := none }
  have start : (system Nat Nat u).ReachableBy SlotFree (Life.initial u) := .init
  have suspended := ((start.next (.transform 1 0) rfl trivial).next (.test 1) rfl
    trivial).next (.suspend 1 0) rfl ⟨rfl, by simp [testReady, beginAwait, Life.initial, record, move, u]⟩
  have finished := (suspended.next (.complete (.value 7)) rfl trivial).next (.resume 0) rfl trivial
  exact ⟨_, rfl, rfl, awaiters_woken u _ finished rfl rfl 1⟩

/-- The second coroutine that suspends finds the slot taken: its handle is dropped. -/
theorem second_awaiter_forgotten : ∃ s : Life Nat Nat,
    (system Nat Nat { kind := .object, own := none, root := none }).Reachable s ∧
      s.outcome = some (.value 7) ∧ s.queue = [] ∧ s.place 2 = .suspended ∧ s.wakeups 2 = 0 := by
  obtain ⟨s, reachable, test⟩ := Transition.System.reachable_of_replay
    (M := system Nat Nat { kind := .object, own := none, root := none })
    [.transform 1 0, .test 1, .suspend 1 0, .transform 2 0, .test 2, .suspend 2 0,
      .complete (.value 7), .resume 0, .read 1]
    (fun s => s.outcome == some (.value 7) && s.queue == [] && s.place 2 == .suspended &&
      s.wakeups 2 == 0) (by decide)
  simp only [Bool.and_eq_true, beq_iff_eq] at test
  exact ⟨s, reachable, test.1.1.1, test.1.1.2, test.1.2, test.2⟩

end Librf.Life
