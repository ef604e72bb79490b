import Librf.Future.Life

/-!
# One completion and one co_await

A completion and the steps of one awaiting coroutine come in any order.
-/

namespace Librf

def Outcome.reading {α ε : Type*} : Outcome α ε → Reading α ε
  | .value v => .returned (some v)
  | .exception e => .threw e

namespace Life

variable {α ε : Type*} {u : FutureSetup} {s t : Life α ε}

/-! ## A single awaiting coroutine -/

/-- How far the only co_await is, and whether it has suspended. -/
inductive Phase
  | fresh
  | transformed
  | unready
  | suspended
  | arrived (slept : Bool)
  | done (slept : Bool)
  deriving DecidableEq, Repr

namespace Phase

def place : Phase → Place
  | fresh => .away
  | transformed => .transformed
  | unready => .unready
  | suspended => .suspended
  | arrived _ => .arrived
  | done _ => .away

def slept : Phase → Bool
  | suspended => true
  | arrived slept => slept
  | done slept => slept
  | _ => false

def isDone : Phase → Bool
  | done _ => true
  | _ => false

def past : Phase → Bool
  | arrived _ => true
  | done _ => true
  | _ => false

end Phase

/-- The steps of a single co_await of an `awaitable_t`'s future, by coroutine `c` of scheduler
`sch`, and of whoever completes it. -/
def SingleAwait (c sch : Nat) (s : Life α ε) : LifeAction α ε → Prop
  | .go _ => False
  | .transform c' sch' => c' = c ∧ sch' = sch ∧ s.begun = []
  | .suspend _ sch' => sch' = sch
  | _ => True

def Stored (s : Life α ε) (unread : Bool) : Prop :=
  match s.outcome with
  | none => s.state.hasValue = .none
  | some (.value v) => s.state.hasValue = .value ∧ (unread → s.state.value = some v)
  | some (.exception e) => s.state.hasValue = .exception ∧ (unread → s.state.exception = some e)

structure Solo (c sch : Nat) (s : Life α ε) (phase : Phase) : Prop where
  places : s.place = Function.update (fun _ => .away) c phase.place
  begun : s.begun = [] ↔ phase = .fresh
  awaitable : s.state.isFuture = false
  idle : s.state.isInitor = .none
  scheduler : s.state.scheduler = if phase = .fresh then none else some sch
  parentless : phase = .fresh → s.state.parent = none
  handler : s.state.coro = if phase = .suspended then some c else none
  stored : Stored s (!phase.isDone)
  settled : phase.past → s.outcome.isSome
  queue : s.queue = if phase = .suspended ∧ s.outcome.isSome then [sch] else []
  enqueued : s.enqueued = if phase.slept ∧ s.outcome.isSome then [sch] else []
  suspensions : s.suspensions c = if phase.slept then 1 else 0
  readings : s.readings = if phase.isDone then s.outcome.toList.map Outcome.reading else []
  body : s.body = .absent

theorem Solo.place_self {c sch : Nat} {phase : Phase} (h : Solo c sch s phase) :
    s.place c = phase.place := by
  rw [h.places, Function.update_self]

theorem Solo.eq_of_place {c c' sch : Nat} {phase : Phase} (h : Solo c sch s phase) {place : Place}
    (inside : s.place c' = place) (busy : place ≠ .away) : c' = c := by
  by_contra other
  rw [h.places, Function.update_of_ne other] at inside
  exact busy inside.symm

theorem Stored.ready {unread : Bool} (stored : Stored s unread) :
    s.state.futureAwaitReady = s.outcome.isSome := by
  unfold Stored at stored
  unfold FutureState.futureAwaitReady
  split at stored <;> simp_all

theorem Solo.transform {c sch : Nat} {phase : Phase} (h : Solo c sch s phase)
    (first : s.begun = []) : Solo c sch (s.beginAwait c sch) .transformed := by
  obtain rfl := h.begun.mp first
  exact { h with
    places := by simp [beginAwait, move, h.places, Phase.place]
    begun := by simp [beginAwait]
    scheduler := by simp [beginAwait]
    parentless := by simp
    handler := by simpa [beginAwait] using h.handler
    settled := by simp [Phase.past]
    queue := by simpa [beginAwait, move] using h.queue
    enqueued := by simpa [beginAwait, move, Phase.slept] using h.enqueued
    suspensions := by simpa [beginAwait, move, Phase.slept] using h.suspensions
    readings := by simpa [beginAwait, move, Phase.isDone, Life.readings] using h.readings }

theorem Solo.test {c sch : Nat} (h : Solo c sch s .transformed) :
    ∃ phase, Solo c sch (s.testReady c) phase := by
  have moved : ∀ place, Function.update s.place c place = Function.update (fun _ => .away) c place := by
    intro place
    rw [h.places, Function.update_idem]
  cases ready : s.outcome.isSome with
  | true =>
      refine ⟨.arrived false, ?_⟩
      have passed : s.state.futureAwaitReady = true := h.stored.ready.trans ready
      exact { h with
        places := by simp [testReady, passed, record, move, moved, Phase.place]
        begun := by simpa [testReady, record, move] using h.begun
        parentless := by simp
        settled := fun _ => ready
        readings := by
          simpa [testReady, record, move, Life.readings, LifeEvent.reading?, Phase.isDone]
            using h.readings }
  | false =>
      refine ⟨.unready, ?_⟩
      have failed : s.state.futureAwaitReady = false := h.stored.ready.trans ready
      exact { h with
        places := by simp [testReady, failed, record, move, moved, Phase.place]
        begun := by simpa [testReady, record, move] using h.begun
        parentless := by simp
        settled := by simp [Phase.past]
        readings := by
          simpa [testReady, record, move, Life.readings, LifeEvent.reading?, Phase.isDone]
            using h.readings }

theorem Solo.suspend {c sch : Nat} (awaitable : u.own = none) (h : Solo c sch s .unready) :
    Solo c sch (s.suspendAwait u c sch) .suspended := by
  have empty : s.state.coro = none := by simpa using h.handler
  have ready : s.state.isReady = s.outcome.isSome := by
    rw [FutureState.isReady, h.awaitable, Bool.or_false]
    exact h.stored.ready
  have outcome : (s.suspendAwait u c sch).outcome = s.outcome := rfl
  have updated : s.state.futureAwaitSuspend u.own c (some sch) =
      ({ s.state with parent := some c, scheduler := some sch, coro := some c },
        if s.outcome.isSome then [.addGenerator sch] else []) := by
    rw [← ready]
    simp [FutureState.futureAwaitSuspend, awaitable, empty, FutureState.isReady]
  constructor
  case places =>
    simp [suspendAwait, record, move, notify, h.places, Phase.place]
  case begun => simpa [suspendAwait, record, move, notify] using h.begun
  case awaitable => simpa [suspendAwait, record, move, notify, updated] using h.awaitable
  case idle => simpa [suspendAwait, record, move, notify, updated] using h.idle
  case scheduler => simp [suspendAwait, record, move, notify, updated]
  case parentless => simp
  case handler => simp [suspendAwait, record, move, notify, updated]
  case stored => simpa [suspendAwait, record, move, notify, updated, Stored, Phase.isDone] using h.stored
  case settled => simp [Phase.past]
  case queue =>
    rw [outcome]
    cases done : s.outcome.isSome <;>
      simpa [suspendAwait, record, move, notify, updated, done, scheduled] using h.queue
  case enqueued =>
    rw [outcome]
    cases done : s.outcome.isSome <;>
      simpa [suspendAwait, record, move, notify, updated, done, scheduled, Phase.slept] using h.enqueued
  case suspensions =>
    simpa [suspendAwait, record, move, notify, Phase.slept] using h.suspensions
  case readings =>
    simpa [suspendAwait, record, move, notify, Life.readings, LifeEvent.reading?, Phase.isDone]
      using h.readings
  case body => simpa [suspendAwait, record, move, notify] using h.body

theorem Solo.resume {c sch : Nat} {phase : Phase} (awaitable : u.own = none)
    (h : Solo c sch s phase) {sch' : Nat} (queued : sch' ∈ s.queue) (taken : Taken u s sch' t) :
    Solo c sch t (.arrived true) := by
  obtain ⟨⟨rfl, done⟩, rfl⟩ : (phase = .suspended ∧ s.outcome.isSome) ∧ sch' = sch := by
    rw [h.queue] at queued
    split at queued
    · exact ⟨‹_›, List.mem_singleton.mp queued⟩
    · cases queued
  have handler : s.state.coro = some c := by simpa using h.handler
  cases taken with
  | start initial => simp [h.idle] at initial
  | goOn b started holder own yielded => simp [awaitable] at own
  | wake c' started holder other =>
      obtain rfl : c = c' := by simpa [handler] using holder
      exact { h with
        places := by simp [wakeAwaiter, move, record, h.places, Phase.place]
        begun := by simpa [wakeAwaiter, move, record] using h.begun
        parentless := by simp
        handler := by rfl
        settled := fun _ => done
        queue := by simp [wakeAwaiter, move, record, h.queue, done]
        enqueued := by simpa [wakeAwaiter, move, record, Phase.slept] using h.enqueued
        suspensions := by simpa [wakeAwaiter, move, record, Phase.slept] using h.suspensions
        readings := by
          simpa [wakeAwaiter, move, record, Life.readings, LifeEvent.reading?, Phase.isDone]
            using h.readings }
  | destroy final empty => simp [h.idle] at final
  | nothing started empty => simp [handler] at empty

theorem Stored.reading {s : Life α ε} (stored : Stored s true) (kind : u.kind ≠ .unit)
    {o : Outcome α ε} (outcome : s.outcome = some o) :
    (s.state.futureAwaitResume u.kind).1 = o.reading := by
  unfold Stored at stored
  cases o with
  | value v =>
      simp only [outcome] at stored
      cases shape : u.kind <;>
        simp_all [FutureState.futureAwaitResume, Outcome.reading]
  | exception e =>
      simp only [outcome] at stored
      cases shape : u.kind <;>
        simp_all [FutureState.futureAwaitResume, Outcome.reading]

theorem Stored.after_reading {s : Life α ε} {unread : Bool} (stored : Stored s unread)
    (kind : u.kind ≠ .unit) {t : Life α ε} (outcome : t.outcome = s.outcome)
    (state : t.state = (s.state.futureAwaitResume u.kind).2) : Stored t false := by
  unfold Stored at *
  rw [outcome, state]
  split at stored <;> cases shape : u.kind <;>
    simp_all [FutureState.futureAwaitResume]

theorem Solo.read {c sch : Nat} {slept : Bool} (kind : u.kind ≠ .unit)
    (h : Solo c sch s (.arrived slept)) : Solo c sch (s.readResult u c) (.done slept) := by
  obtain ⟨scheduler, coro, parent, -, isFuture, isInitor⟩ := s.state.futureAwaitResume_frame u.kind
  obtain ⟨o, outcome⟩ := Option.isSome_iff_exists.mp (h.settled rfl)
  have nothing : s.readings = [] := by simpa [Phase.isDone] using h.readings
  constructor
  case places => simp [readResult, move, record, h.places, Phase.place]
  case begun => simpa [readResult, move, record] using h.begun
  case awaitable => exact isFuture.trans h.awaitable
  case idle => exact isInitor.trans h.idle
  case scheduler => exact scheduler.trans h.scheduler
  case parentless => simp
  case handler => exact coro.trans h.handler
  case stored => exact h.stored.after_reading kind rfl rfl
  case settled => exact fun _ => h.settled rfl
  case queue => simpa [readResult, move, record] using h.queue
  case enqueued => exact h.enqueued
  case suspensions => exact h.suspensions
  case readings =>
    have reading := h.stored.reading kind outcome
    simp only [Life.readings] at nothing
    simp [readResult, move, record, Life.readings, LifeEvent.reading?, Phase.isDone, outcome,
      reading, nothing]
  case body => exact h.body

theorem stored_assign (kind : u.kind ≠ .unit) (o : Outcome α ε) (st : FutureState α ε)
    {t : Life α ε} (outcome : t.outcome = some o)
    (hasValue : t.state.hasValue = (st.assign u.kind o).hasValue)
    (value : t.state.value = (st.assign u.kind o).value)
    (exception : t.state.exception = (st.assign u.kind o).exception) (unread : Bool) :
    Stored t unread := by
  unfold Stored
  rw [outcome]
  cases o <;> cases shape : u.kind <;>
    simp_all [FutureState.assign, FutureState.setValueInternal, FutureState.setExceptionInternal]

theorem Solo.complete {c sch : Nat} {phase : Phase} (awaitable : u.own = none)
    (kind : u.kind ≠ .unit) (h : Solo c sch s phase) (open_ : s.outcome = none) (o : Outcome α ε) :
    Solo c sch (s.completeWith u o) phase := by
  have state : (s.completeWith u o).state = s.state.assign u.kind o := completeWith_state
  have waiting : phase.past = false := by
    by_contra past
    have settled := h.settled (by simpa using past)
    simp [open_] at settled
  have calls : scheduled (s.state.complete u.kind o u.root).2 =
      if phase = .suspended then [sch] else [] := by
    have getScheduler : s.state.getScheduler u.root = if phase = .fresh then none else some sch := by
      rw [FutureState.getScheduler, h.scheduler]
      split
      · rename_i fresh
        simp [h.parentless fresh]
      · rfl
    have handler : s.state.hasHandlerSkipLock = decide (phase = .suspended) := by
      rw [FutureState.hasHandlerSkipLock, h.handler, h.idle]
      split <;> simp [*]
    rw [FutureState.complete_calls, getScheduler, handler]
    cases phase <;> simp [scheduled]
  have notDone : phase.isDone = false := by
    cases phase <;> simp_all [Phase.past, Phase.isDone]
  constructor
  case places => exact h.places
  case begun => exact h.begun
  case awaitable => simpa [state] using h.awaitable
  case idle => simpa [state] using h.idle
  case scheduler => simpa [state] using h.scheduler
  case parentless => simpa [state] using h.parentless
  case handler => simpa [state] using h.handler
  case stored =>
    exact stored_assign kind o s.state rfl (congrArg _ state) (congrArg _ state) (congrArg _ state) _
  case settled => exact fun _ => rfl
  case queue =>
    have empty : s.queue = [] := by simpa [open_] using h.queue
    simp [completeWith, record, notify, calls, empty]
  case enqueued =>
    have none_yet : s.enqueued = [] := by simpa [open_] using h.enqueued
    cases phase <;> simp_all [completeWith, record, notify, Phase.slept, Phase.past]
  case suspensions => exact h.suspensions
  case readings =>
    have nothing : s.readings = [] := by simpa [notDone] using h.readings
    simp only [Life.readings] at nothing
    simp [completeWith, record, notify, Life.readings, LifeEvent.reading?, nothing, notDone]
  case body => simpa [completeWith, record, notify, bodyAfter, awaitable] using h.body

theorem Solo.initial {c sch : Nat} (awaitable : u.own = none) :
    Solo c sch (Life.initial u : Life α ε) .fresh := by
  have start : (Life.initial u : Life α ε) = { state := { isFuture := false }, body := .absent } := by
    simp [Life.initial, awaitable]
  rw [start]
  constructor <;> simp [Stored, Phase.place, Phase.slept, Phase.isDone, Phase.past, Life.readings]

theorem Solo.step {c sch : Nat} {phase : Phase} {action : LifeAction α ε} (awaitable : u.own = none)
    (kind : u.kind ≠ .unit) (h : Solo c sch s phase) (allowed : SingleAwait c sch s action)
    (action_ : Life.step u s action = some t) : ∃ phase, Solo c sch t phase := by
  cases effect_of_step action_ with
  | go sch' => exact allowed.elim
  | transform c' sch' away free =>
      obtain ⟨rfl, rfl, first⟩ := allowed
      exact ⟨_, h.transform first⟩
  | test c' inside =>
      obtain rfl := h.eq_of_place inside (by simp)
      obtain rfl : phase = .transformed := by
        cases phase <;> simp_all [h.place_self, Phase.place]
      exact h.test
  | suspend c' sch' inside =>
      obtain rfl := h.eq_of_place inside (by simp)
      obtain rfl : phase = .unready := by
        cases phase <;> simp_all [h.place_self, Phase.place]
      obtain rfl : sch' = sch := allowed
      exact ⟨_, h.suspend awaitable⟩
  | resume sch' queued => exact ⟨_, h.resume awaitable queued (taken u s sch')⟩
  | read c' inside =>
      obtain rfl := h.eq_of_place inside (by simp)
      cases phase with
      | arrived slept => exact ⟨_, h.read kind⟩
      | _ => simp [h.place_self, Phase.place] at inside
  | complete o enabled =>
      have open_ : s.outcome = none := by
        cases o <;> simpa [Life.enabled, awaitable] using enabled
      exact ⟨_, h.complete awaitable kind open_ o⟩
  | yieldValue v b own runs => simp [awaitable] at own
  | finalSuspend updated ended suspended => simp [h.body] at ended

end Life

end Librf
