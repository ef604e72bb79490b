import Librf.Future.Soundness

/-!
# `state_t<void>` beside `state_t<T>`

The two run through the same schedule of one completion and one co_await. They agree as long as
readiness is not asked for after an exception was set: `state_t<void>` keeps its exception outside
of the tag.
-/

namespace Librf

def FutureSetup.void (u : FutureSetup) : FutureSetup := { u with kind := .unit }

namespace Life

variable {α ε : Type*} {u : FutureSetup} {c : Nat}

/-- The schedule has one co_await, by `c`, and one completion. -/
def admitted (u : FutureSetup) (c : Nat) (s : Life α ε) : LifeAction α ε → Bool
  | .go _ => u.own.isSome
  | .transform c' _ => c' == c && s.begun.isEmpty
  | .complete _ => s.outcome.isNone
  | .yieldValue _ => false
  | _ => true

def advance (u : FutureSetup) (c : Nat) (s : Life α ε) (action : LifeAction α ε) : Life α ε :=
  if s.admitted u c action then (step u s action).getD s else s

def runSchedule (u : FutureSetup) (c : Nat) (schedule : List (LifeAction α ε)) : Life α ε :=
  schedule.foldl (advance u c) (initial u)

def eraseReading : Reading α ε → Reading α ε
  | .returned _ => .returned none
  | reading => reading

def eraseEvent : LifeEvent α ε → LifeEvent α ε
  | .read c reading => .read c (eraseReading reading)
  | event => event

/-- What is seen of the future: the answers of the ready test, whether a suspension and a
completion queued the state, the wake-ups, and the outcome of the co_await without its value. -/
def observed (s : Life α ε) : List (LifeEvent α ε) := s.log.map eraseEvent

/-- The ready test, or the suspension on an `awaitable_t`, after an exception was set. -/
def AsksTooLate (u : FutureSetup) (s : Life α ε) : LifeAction α ε → Prop
  | .test c' => s.place c' = .transformed ∧ ∃ e, s.outcome = some (.exception e)
  | .suspend c' _ => s.place c' = .unready ∧ u.own = none ∧ ∃ e, s.outcome = some (.exception e)
  | _ => False

def refill (t : Life α ε) (hasValue : ResultType) (value : Option α) (exception : Option ε)
    (log : List (LifeEvent α ε)) : Life α ε :=
  { t with state := { t.state with hasValue, value, exception }
           log }

/-- How the contents of a `state_t<void>` correspond to those of the `state_t<T>` of `t`. -/
def Contents (c : Nat) (t : Life α ε) (hasValue : ResultType) (exception : Option ε) : Prop :=
  match t.outcome with
  | none => t.state.hasValue = .none ∧ hasValue = .none ∧ exception = none
  | some (.value _) => t.state.hasValue = .value ∧ hasValue = .value ∧ exception = none
  | some (.exception e) => t.state.hasValue = .exception ∧ hasValue = .none ∧
      (t.begun = [] ∨ t.place c ≠ .away → t.state.exception = some e ∧ exception = some e)

structure Alike (u : FutureSetup) (c : Nat) (t w : Life α ε) : Prop where
  twin : ∃ hasValue value exception log, w = t.refill hasValue value exception log ∧
    log.map eraseEvent = t.log.map eraseEvent ∧ Contents c t hasValue exception
  others : ∀ c', c' ≠ c → t.place c' = .away
  fresh : t.begun = [] → t.place c = .away
  sound : Sound u t

theorem Alike.initial : Alike u c (Life.initial u : Life α ε) (Life.initial u.void) := by
  refine ⟨⟨.none, none, none, [], ?_⟩, ?_, ?_, Sound.initial⟩ <;> cases own : u.own <;>
    simp [Life.initial, FutureSetup.void, own, refill, Contents,
      FutureState.promiseInitialSuspend]

section Refill

variable (u : FutureSetup) (t : Life α ε) {hasValue : ResultType} {value : Option α}
  {exception : Option ε} {log : List (LifeEvent α ε)}

theorem enabled_refill (action : LifeAction α ε) :
    (t.refill hasValue value exception log).enabled u.void action = t.enabled u action := by
  cases action with
  | complete o => cases o <;> rfl
  | _ => rfl

theorem admitted_refill (action : LifeAction α ε) :
    (t.refill hasValue value exception log).admitted u.void c action = t.admitted u c action := by
  cases action <;> rfl

theorem testReady_refill (agree : t.state.futureAwaitReady = (hasValue != .none)) :
    (t.refill hasValue value exception log).testReady c = (t.testReady c).refill hasValue value
      exception (log ++ [.tested c t.state.futureAwaitReady]) := by
  have same : (t.refill hasValue value exception log).state.futureAwaitReady =
      t.state.futureAwaitReady := agree.symm
  simp only [testReady, same]
  rfl

theorem suspendAwait_refill {sch : Nat}
    (agree : t.state.isReady = (hasValue != .none || t.state.isFuture)) :
    (t.refill hasValue value exception log).suspendAwait u.void c sch =
      (t.suspendAwait u c sch).refill hasValue value exception
        (log ++ [.suspended c t.state.isReady]) := by
  have ready : (t.refill hasValue value exception log).state.isReady = t.state.isReady := agree.symm
  have calls := t.state.futureAwaitSuspend_calls u.own c sch
  have calls' := (t.refill hasValue value exception log).state.futureAwaitSuspend_calls u.own c sch
  rw [ready] at calls'
  have state : ((t.refill hasValue value exception log).state.futureAwaitSuspend u.own c
      (some sch)).1 = { (t.state.futureAwaitSuspend u.own c (some sch)).1 with
        hasValue, value, exception } := by
    by_cases same : u.own = some c <;> cases taken : t.state.coro <;>
      simp [FutureState.futureAwaitSuspend, refill, same, taken]
  simp only [suspendAwait, FutureSetup.void, notify, calls, calls', state]
  cases t.state.isReady <;> rfl

theorem takeFromQueue_refill (hasValue : ResultType) (value : Option α) (exception : Option ε)
    (log : List (LifeEvent α ε)) (sch : Nat) :
    ∃ events, (t.takeFromQueue u sch).log = t.log ++ events ∧
      (t.refill hasValue value exception log).takeFromQueue u.void sch =
        (t.takeFromQueue u sch).refill hasValue value exception (log ++ events) ∧
      events.map eraseEvent = events := by
  by_cases initial : t.state.isInitor = .initial
  · exact ⟨[], by simp [takeFromQueue, FutureState.resume, initial, continueWith],
      by simp [takeFromQueue, FutureState.resume, initial, continueWith, refill], rfl⟩
  · cases coro : t.state.coro with
    | none =>
        by_cases final : t.state.isInitor = .final <;>
          exact ⟨[], by simp [takeFromQueue, FutureState.resume, initial, coro, final, continueWith],
            by simp [takeFromQueue, FutureState.resume, initial, coro, final, continueWith, refill],
            rfl⟩
    | some holder =>
        by_cases yielded : u.own = some holder ∧ t.body = .yielded
        · exact ⟨[], by simp [takeFromQueue, FutureState.resume, initial, coro, continueWith, yielded],
            by simp [takeFromQueue, FutureState.resume, initial, coro, continueWith, yielded, refill,
              FutureSetup.void], rfl⟩
        · exact ⟨[.woken holder],
            by simp [takeFromQueue, FutureState.resume, initial, coro, continueWith, yielded, move,
              record],
            by simp [takeFromQueue, FutureState.resume, initial, coro, continueWith, yielded, refill,
              FutureSetup.void, move, record], rfl⟩

end Refill

section RefillCompletion

variable (u : FutureSetup) (t : Life α ε) (hasValue : ResultType) (value : Option α)
  (exception : Option ε) (log : List (LifeEvent α ε))

theorem completeWith_refill (o : Outcome α ε) :
    ∃ event, eraseEvent event = event ∧ (t.completeWith u o).log = t.log ++ [event] ∧
      (t.refill hasValue value exception log).completeWith u.void o =
        (t.completeWith u o).refill
          (match o with | .value _ => .value | .exception _ => hasValue) value
          (match o with | .value _ => exception | .exception e => some e) (log ++ [event]) := by
  have calls : ((t.refill hasValue value exception log).state.complete .unit o u.root).2 =
      (t.state.complete u.kind o u.root).2 := by
    rw [FutureState.complete_calls, FutureState.complete_calls]
    rfl
  refine ⟨.completed !(scheduled (t.state.complete u.kind o u.root).2).isEmpty, rfl, rfl, ?_⟩
  simp only [completeWith, notify, FutureSetup.void, calls, FutureState.complete_state]
  have body : bodyAfter { u with kind := .unit } o t.body = bodyAfter u o t.body := rfl
  cases o <;> cases kind : u.kind <;>
    simp [refill, record, FutureState.assign, FutureState.setValueInternal,
      FutureState.setExceptionInternal, body]

theorem readResult_refill :
    (t.refill hasValue value exception log).readResult u.void c =
      (t.readResult u c).refill hasValue value none (log ++ [.read c
        ((t.refill hasValue value exception log).state.futureAwaitResume .unit).1]) := by
  obtain ⟨scheduler, coro, parent, -, isFuture, isInitor⟩ := t.state.futureAwaitResume_frame u.kind
  have state : ((t.refill hasValue value exception log).state.futureAwaitResume .unit).2 =
      { t.state with hasValue, value, exception := none } := by
    cases exception <;> simp [refill, FutureState.futureAwaitResume]
  simp only [readResult, FutureSetup.void, state]
  simp [refill, record, move, scheduler, coro, parent, isFuture, isInitor]

theorem finalSuspend_refill :
    (t.refill hasValue value exception log).state.promiseFinalSuspend u.root =
      (t.state.promiseFinalSuspend u.root).map fun updated =>
        ({ updated.1 with hasValue, value, exception }, updated.2) := by
  have same : (t.refill hasValue value exception log).state.getScheduler u.root =
      t.state.getScheduler u.root := rfl
  rw [FutureState.promiseFinalSuspend_eq, FutureState.promiseFinalSuspend_eq, same]
  cases t.state.getScheduler u.root <;> rfl

end RefillCompletion

theorem Contents.same_tag {t : Life α ε} {hasValue : ResultType} {exception : Option ε}
    (contents : Contents c t hasValue exception) (noException : ∀ e, t.outcome ≠ some (.exception e)) :
    (hasValue != .none) = (t.state.hasValue != .none) := by
  unfold Contents at contents
  split at contents
  · simp [contents.1, contents.2.1]
  · simp [contents.1, contents.2.1]
  · rename_i e outcome
    exact absurd outcome (noException e)

theorem Contents.same_reading {t : Life α ε} {hasValue : ResultType} {value : Option α}
    {exception : Option ε} {log : List (LifeEvent α ε)} (contents : Contents c t hasValue exception)
    (kind : u.kind ≠ .unit) (here : t.place c = .arrived) :
    eraseReading ((t.refill hasValue value exception log).state.futureAwaitResume .unit).1 =
      eraseReading (t.state.futureAwaitResume u.kind).1 := by
  unfold Contents at contents
  split at contents
  · obtain ⟨tag, rfl, rfl⟩ := contents
    cases shape : u.kind <;> simp_all [FutureState.futureAwaitResume, refill, eraseReading]
  · obtain ⟨tag, rfl, rfl⟩ := contents
    cases shape : u.kind <;> simp_all [FutureState.futureAwaitResume, refill, eraseReading]
  · obtain ⟨tag, rfl, unread⟩ := contents
    obtain ⟨exception', rfl⟩ := unread (Or.inr (by simp [here]))
    cases shape : u.kind <;> simp_all [FutureState.futureAwaitResume, refill, eraseReading]

theorem Contents.of_same {t t' : Life α ε} {hasValue : ResultType} {exception : Option ε}
    (contents : Contents c t hasValue exception) (outcome : t'.outcome = t.outcome)
    (tag : t'.state.hasValue = t.state.hasValue) (kept : t'.state.exception = t.state.exception)
    (unread : t'.begun = [] ∨ t'.place c ≠ .away → t.begun = [] ∨ t.place c ≠ .away) :
    Contents c t' hasValue exception := by
  unfold Contents at contents ⊢
  rw [outcome, tag, kept]
  cases done : t.outcome with
  | none => simpa only [done] using contents
  | some o =>
      cases o with
      | value v => simpa only [done] using contents
      | exception e =>
          simp only [done] at contents
          exact ⟨contents.1, contents.2.1, fun still => contents.2.2 (unread still)⟩

section Steps

variable {t w : Life α ε}

theorem Alike.of_place (h : Alike u c t w) {c' : Nat} {place : Place} (inside : t.place c' = place)
    (busy : place ≠ .away) : c' = c := by
  by_contra other
  exact busy (inside.symm.trans (h.others c' other))

theorem Alike.begun (h : Alike u c t w) (busy : t.place c ≠ .away) : t.begun ≠ [] := by
  intro none
  exact busy (h.fresh none)

theorem Alike.go (h : Alike u c t w) (sch : Nat) : Alike u c (t.start sch) (w.start sch) := by
  obtain ⟨hasValue, value, exception, log, rfl, same, contents⟩ := h.twin
  exact ⟨⟨hasValue, value, exception, log, rfl, same, contents⟩, h.others, h.fresh, h.sound.go sch⟩

theorem Alike.transform (h : Alike u c t w) {sch : Nat} (first : t.begun = [])
    (free : u.own = some c → t.body = .running) :
    Alike u c (t.beginAwait c sch) (w.beginAwait c sch) := by
  obtain ⟨hasValue, value, exception, log, rfl, same, contents⟩ := h.twin
  refine ⟨⟨hasValue, value, exception, log, rfl, same, ?_⟩, ?_, ?_,
    h.sound.transform (h.fresh first) free⟩
  · exact contents.of_same rfl rfl rfl fun _ => .inl first
  · intro c' other
    simpa [beginAwait, move, Function.update_of_ne other] using h.others c' other
  · simp [beginAwait]

theorem Alike.test (h : Alike u c t w) (inside : t.place c = .transformed)
    (early : ∀ e, t.outcome ≠ some (.exception e)) : Alike u c (t.testReady c) (w.testReady c) := by
  obtain ⟨hasValue, value, exception, log, rfl, same, contents⟩ := h.twin
  have begun := h.begun (by simp [inside])
  refine ⟨⟨hasValue, value, exception, _, testReady_refill t (contents.same_tag early).symm, ?_, ?_⟩,
    ?_, ?_, h.sound.test inside⟩
  · simp [testReady, record, move, same, eraseEvent]
  · exact contents.of_same rfl rfl rfl fun _ => .inr (by simp [inside])
  · intro c' other
    simpa [testReady, record, move, Function.update_of_ne other] using h.others c' other
  · exact fun none => absurd none begun

theorem Alike.suspend (h : Alike u c t w) {sch : Nat} (inside : t.place c = .unready)
    (early : u.own = none → ∀ e, t.outcome ≠ some (.exception e)) :
    Alike u c (t.suspendAwait u c sch) (w.suspendAwait u.void c sch) := by
  obtain ⟨hasValue, value, exception, log, rfl, same, contents⟩ := h.twin
  have begun := h.begun (by simp [inside])
  obtain ⟨-, -, tag, kept, -, -⟩ := t.state.futureAwaitSuspend_frame u.own c sch
  have agree : t.state.isReady = (hasValue != .none || t.state.isFuture) := by
    rw [FutureState.isReady]
    cases own : u.own with
    | some b => simp [h.sound.future, own]
    | none => rw [contents.same_tag (early own)]
  refine ⟨⟨hasValue, value, exception, _, suspendAwait_refill u t agree, ?_, ?_⟩, ?_, ?_,
    h.sound.suspend inside⟩
  · have calls := t.state.futureAwaitSuspend_calls u.own c sch
    cases ready : t.state.isReady <;>
      simp [suspendAwait, record, move, notify, same, eraseEvent, calls, ready, scheduled]
  · exact contents.of_same rfl tag kept fun _ => .inr (by simp [inside])
  · intro c' other
    rw [suspendAwait_place_of_ne other]
    exact h.others c' other
  · exact fun none => absurd none begun

theorem Alike.resume (h : Alike u c t w) {sch : Nat} (queued : sch ∈ t.queue) :
    Alike u c (t.takeFromQueue u sch) (w.takeFromQueue u.void sch) := by
  obtain ⟨hasValue, value, exception, log, rfl, same, contents⟩ := h.twin
  obtain ⟨events, log', twin, erased⟩ := takeFromQueue_refill u t hasValue value exception log sch
  obtain ⟨tag, kept, outcome, begun⟩ := (taken u t sch).contents
  have place := h.sound.taken_place (taken u t sch)
  refine ⟨⟨hasValue, value, exception, _, twin, ?_, ?_⟩, ?_, ?_, h.sound.resume queued (taken u t sch)⟩
  · simp [log', same]
  · apply contents.of_same outcome tag kept
    rw [begun]
    apply Or.imp_right
    intro busy
    cases place c with
    | inl same => rwa [← same]
    | inr woken => simp [woken.1]
  · intro c' other
    cases place c' with
    | inl same => exact same.trans (h.others c' other)
    | inr woken => exact absurd (h.of_place woken.1 (by simp)) other
  · intro none
    have away := h.fresh (begun.symm.trans none)
    cases place c with
    | inl same => exact same.trans away
    | inr woken => simp [away] at woken

theorem Alike.read (kind : u.kind ≠ .unit) (h : Alike u c t w) (inside : t.place c = .arrived) :
    Alike u c (t.readResult u c) (w.readResult u.void c) := by
  obtain ⟨hasValue, value, exception, log, rfl, same, contents⟩ := h.twin
  have begun := h.begun (by simp [inside])
  obtain ⟨-, -, -, tag, -, -⟩ := t.state.futureAwaitResume_frame u.kind
  refine ⟨⟨hasValue, value, none, _, readResult_refill u t hasValue value exception log, ?_, ?_⟩,
    ?_, ?_, h.sound.read inside⟩
  · simp [readResult, record, move, same, eraseEvent, contents.same_reading kind inside]
  · unfold Contents at contents ⊢
    dsimp only [readResult, record, move] at contents ⊢
    rw [tag]
    split at contents <;> simp_all
  · intro c' other
    simpa [readResult, record, move, Function.update_of_ne other] using h.others c' other
  · exact fun none => absurd none begun

theorem Alike.complete (kind : u.kind ≠ .unit) (h : Alike u c t w) {o : Outcome α ε}
    (pending : t.outcome = none) (enabled : t.enabled u (.complete o) = true) :
    Alike u c (t.completeWith u o) (w.completeWith u.void o) := by
  obtain ⟨hasValue, value, exception, log, rfl, same, contents⟩ := h.twin
  obtain ⟨event, erased, log', twin⟩ := completeWith_refill u t hasValue value exception log o
  have state : (t.completeWith u o).state = t.state.assign u.kind o := completeWith_state
  have done : (t.completeWith u o).outcome = some o := rfl
  refine ⟨⟨_, value, _, _, twin, ?_, ?_⟩, h.others, h.fresh, h.sound.complete enabled⟩
  · simp [log', same, erased]
  · unfold Contents at contents ⊢
    rw [pending] at contents
    rw [done, state]
    cases o <;> cases shape : u.kind <;>
      simp_all [FutureState.assign, FutureState.setValueInternal, FutureState.setExceptionInternal]

theorem Alike.finalSuspend (h : Alike u c t w) {updated : FutureState α ε × List Call}
    (ended : t.body = .returned ∨ t.body = .failed)
    (suspended : t.state.promiseFinalSuspend u.root = .ok updated) :
    ∃ w', w.perform u.void .finalSuspend = .ok w' ∧
      Alike u c { t.notify updated with body := .final } w' := by
  obtain ⟨hasValue, value, exception, log, rfl, same, contents⟩ := h.twin
  have twin := finalSuspend_refill u t hasValue value exception log
  rw [suspended] at twin
  have state := FutureState.promiseFinalSuspend_state suspended
  refine ⟨Life.refill { t.notify updated with body := .final } hasValue value exception log, ?_,
    ⟨hasValue, value, exception, log, rfl, same, ?_⟩, h.others, h.fresh,
    h.sound.finalSuspend ended suspended⟩
  · simp only [Life.perform, FutureSetup.void, twin]
    rfl
  · have tag : updated.1.hasValue = t.state.hasValue := by rw [state]
    have kept : updated.1.exception = t.state.exception := by rw [state]
    exact contents.of_same rfl tag kept fun still => still

end Steps

theorem Alike.perform {t w : Life α ε} (kind : u.kind ≠ .unit) (h : Alike u c t w)
    {action : LifeAction α ε} (admitted : t.admitted u c action = true)
    (enabled : t.enabled u action = true) (safe : ¬ AsksTooLate u t action) {t' : Life α ε}
    (performed : t.perform u action = .ok t') :
    ∃ w', w.perform u.void action = .ok w' ∧ Alike u c t' w' := by
  cases effect_of_perform enabled performed with
  | go sch => exact ⟨_, rfl, h.go sch⟩
  | transform c' sch away free =>
      simp only [Life.admitted, Bool.and_eq_true, beq_iff_eq, List.isEmpty_iff] at admitted
      obtain ⟨rfl, first⟩ := admitted
      exact ⟨_, rfl, h.transform first free⟩
  | test c' inside =>
      obtain rfl := h.of_place inside (by simp)
      exact ⟨_, rfl, h.test inside fun e outcome => safe ⟨inside, e, outcome⟩⟩
  | suspend c' sch inside =>
      obtain rfl := h.of_place inside (by simp)
      exact ⟨_, rfl, h.suspend inside fun own e outcome => safe ⟨inside, own, e, outcome⟩⟩
  | resume sch queued => exact ⟨_, rfl, h.resume queued⟩
  | read c' inside =>
      obtain rfl := h.of_place inside (by simp)
      exact ⟨_, rfl, h.read kind inside⟩
  | complete o enabled =>
      simp only [Life.admitted, Option.isNone_iff_eq_none] at admitted
      exact ⟨_, rfl, h.complete kind admitted enabled⟩
  | yieldValue v b own runs => cases admitted
  | finalSuspend updated ended suspended => exact h.finalSuspend ended suspended

theorem perform_error {s : Life α ε} {action : LifeAction α ε} {fault : Fault}
    (performed : s.perform u action = .error fault) : action = .finalSuspend := by
  cases action <;> first | rfl | cases performed

theorem Alike.advance {t w : Life α ε} (kind : u.kind ≠ .unit) (h : Alike u c t w)
    {action : LifeAction α ε} (safe : ¬ AsksTooLate u t action) :
    Alike u c (t.advance u c action) (w.advance u.void c action) := by
  obtain ⟨hasValue, value, exception, log, rfl, -, -⟩ := h.twin
  unfold Life.advance
  rw [admitted_refill]
  split
  · rename_i admitted
    unfold Life.step
    rw [enabled_refill]
    split
    · rename_i enabled
      cases performed : t.perform u action with
      | ok t' =>
          obtain ⟨w', performed', after⟩ := h.perform kind admitted enabled safe performed
          rw [performed']
          exact after
      | error fault =>
          obtain rfl := perform_error performed
          have twin := finalSuspend_refill u t hasValue value exception log
          cases final : t.state.promiseFinalSuspend u.root with
          | ok updated => simp [Life.perform, final, bind, Except.bind] at performed
          | error fault =>
              rw [final] at twin
              have performed' : (t.refill hasValue value exception log).perform u.void
                  .finalSuspend = .error fault := by
                simp only [Life.perform, FutureSetup.void, twin]
                rfl
              rw [performed']
              exact h
    · exact h
  · exact h

theorem Alike.observed {t w : Life α ε} (h : Alike u c t w) : t.observed = w.observed := by
  obtain ⟨hasValue, value, exception, log, rfl, same, -⟩ := h.twin
  exact same.symm

theorem Alike.diverge {t w : Life α ε} (h : Alike u c t w) {action : LifeAction α ε}
    (late : AsksTooLate u t action) :
    ∃ x y, x ≠ y ∧ (t.advance u c action).observed = t.observed ++ [x] ∧
      (w.advance u.void c action).observed = t.observed ++ [y] := by
  obtain ⟨hasValue, value, exception, log, rfl, same, contents⟩ := h.twin
  cases action with
  | test c' =>
      obtain ⟨inside, e, outcome⟩ := late
      simp only [Contents, outcome] at contents
      refine ⟨.tested c' true, .tested c' false, by simp, ?_, ?_⟩
      · simp [Life.advance, Life.admitted, Life.step, Life.enabled, Life.perform, inside,
          Except.toOption, testReady, record, move, Life.observed, eraseEvent,
          FutureState.futureAwaitReady, contents.1]
      · simp [Life.advance, Life.admitted, Life.step, Life.enabled, Life.perform, inside,
          Except.toOption, testReady, record, move, Life.observed, eraseEvent,
          FutureState.futureAwaitReady, refill, same, contents.2.1]
  | suspend c' sch =>
      obtain ⟨inside, own, e, outcome⟩ := late
      simp only [Contents, outcome] at contents
      have future : t.state.isFuture = false := by simp [h.sound.future, own]
      have calls := t.state.futureAwaitSuspend_calls u.own c' sch
      have calls' := (t.refill hasValue value exception log).state.futureAwaitSuspend_calls
        u.own c' sch
      have ready : t.state.isReady = true := by simp [FutureState.isReady, contents.1]
      have ready' : (t.refill hasValue value exception log).state.isReady = false := by
        simp [FutureState.isReady, refill, contents.2.1, future]
      rw [ready] at calls
      rw [ready'] at calls'
      refine ⟨.suspended c' true, .suspended c' false, by simp, ?_, ?_⟩
      · simp [Life.advance, Life.admitted, Life.step, Life.enabled, Life.perform, inside,
          Except.toOption, suspendAwait, record, move, notify, Life.observed, eraseEvent, calls,
          scheduled]
      · have place : (t.refill hasValue value exception log).place c' = .unready := inside
        have before : (t.refill hasValue value exception log).log.map eraseEvent =
            t.log.map eraseEvent := same
        simp [Life.advance, Life.admitted, Life.step, Life.enabled, Life.perform, place,
          Except.toOption, suspendAwait, record, move, notify, Life.observed, eraseEvent,
          FutureSetup.void, calls', scheduled, before]
  | _ => exact late.elim

theorem Effect.log {s t : Life α ε} {action : LifeAction α ε} (effect : Effect u s action t) :
    ∃ events, t.log = s.log ++ events := by
  cases effect with
  | go sch => exact ⟨[], by simp [start, notify]⟩
  | transform c' sch away free => exact ⟨[], by simp [beginAwait, move]⟩
  | resume sch queued =>
      obtain ⟨events, log, -⟩ := takeFromQueue_refill u s .none none none [] sch
      exact ⟨events, log⟩
  | yieldValue v b own runs => exact ⟨[], by simp [yieldWith, notify]⟩
  | finalSuspend updated ended suspended => exact ⟨[], by simp [notify]⟩
  | _ => exact ⟨_, rfl⟩

theorem advance_observed (s : Life α ε) (schedule : List (LifeAction α ε)) :
    ∃ events, (schedule.foldl (advance u c) s).observed = s.observed ++ events := by
  induction schedule generalizing s with
  | nil => exact ⟨[], by simp⟩
  | cons action rest ih =>
      obtain ⟨later, tail⟩ := ih (s.advance u c action)
      have here : ∃ events, (s.advance u c action).log = s.log ++ events := by
        unfold Life.advance Life.step
        split
        · split
          · rename_i enabled
            cases performed : s.perform u action with
            | ok t => exact (effect_of_perform enabled performed).log
            | error fault => exact ⟨[], by simp [Except.toOption]⟩
          · exact ⟨[], by simp⟩
        · exact ⟨[], by simp⟩
      obtain ⟨events, log⟩ := here
      refine ⟨events.map eraseEvent ++ later, ?_⟩
      rw [List.foldl_cons, tail]
      simp [Life.observed, log]

theorem agree_iff {t w : Life α ε} (kind : u.kind ≠ .unit) (h : Alike u c t w)
    (schedule : List (LifeAction α ε)) :
    (schedule.foldl (advance u c) t).observed = (schedule.foldl (advance u.void c) w).observed ↔
      ∀ before action after, schedule = before ++ action :: after →
        ¬ AsksTooLate u (before.foldl (advance u c) t) action := by
  induction schedule generalizing t w with
  | nil => simpa using h.observed
  | cons action rest ih =>
      rcases Classical.em (AsksTooLate u t action) with late | safe
      · obtain ⟨x, y, different, left, right⟩ := h.diverge late
        obtain ⟨left', leftTail⟩ := advance_observed (u := u) (c := c) (t.advance u c action) rest
        obtain ⟨right', rightTail⟩ :=
          advance_observed (u := u.void) (c := c) (w.advance u.void c action) rest
        constructor
        · intro agree
          rw [List.foldl_cons, List.foldl_cons, leftTail, rightTail, left, right,
            List.append_assoc, List.append_assoc, List.append_cancel_left_eq] at agree
          simp only [List.singleton_append, List.cons.injEq] at agree
          exact absurd agree.1 different
        · exact fun never => absurd late (never [] action rest rfl)
      · rw [List.foldl_cons, List.foldl_cons, ih (h.advance kind safe)]
        constructor
        · intro never before other after split
          cases before with
          | nil =>
              simp only [List.nil_append, List.cons.injEq] at split
              exact split.1 ▸ safe
          | cons first others =>
              simp only [List.cons_append, List.cons.injEq] at split
              obtain ⟨rfl, rfl⟩ := split
              exact never others other after rfl
        · intro never before other after split
          exact never (action :: before) other after (by rw [split, List.cons_append])

/-- The two kinds of state behave alike on exactly those schedules that do not ask for readiness
after an exception was set. -/
theorem void_agrees_iff {α ε : Type*} (u : FutureSetup) (kind : u.kind ≠ .unit) (c : Nat)
    (schedule : List (LifeAction α ε)) :
    (runSchedule u c schedule).observed = (runSchedule u.void c schedule).observed ↔
      ∀ before action after, schedule = before ++ action :: after →
        ¬ AsksTooLate u (runSchedule u c before) action :=
  agree_iff kind Alike.initial schedule

theorem void_agrees_iff_value :
    let u : FutureSetup := { kind := .object, own := none, root := none }
    let schedule : List (LifeAction Nat Nat) :=
      [.transform 1 0, .test 1, .complete (.value 7), .suspend 1 0, .resume 0, .read 1]
    (runSchedule u 1 schedule).observed = (runSchedule u.void 1 schedule).observed ↔
      ∀ before action after, schedule = before ++ action :: after →
        ¬ AsksTooLate u (runSchedule u 1 before) action :=
  void_agrees_iff _ (by decide) 1 _

/-- A coroutine that awaits an `awaitable_t<void>` whose exception was set before is never queued,
while one that awaits an `awaitable_t<T>` reads the exception. -/
theorem void_awaiter_stranded :
    let u : FutureSetup := { kind := .object, own := none, root := none }
    let schedule : List (LifeAction Nat Nat) :=
      [.complete (.exception 5), .transform 1 0, .test 1, .suspend 1 0, .resume 0, .read 1]
    (runSchedule u 1 schedule).observed ≠ (runSchedule u.void 1 schedule).observed ∧
      (runSchedule u 1 schedule).readings = [.threw 5] ∧
      (runSchedule u.void 1 schedule).place 1 = .suspended ∧
      (runSchedule u.void 1 schedule).queue = [] := by
  decide

end Life

end Librf
