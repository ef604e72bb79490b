import Mathlib.Logic.Function.Basic
import Librf.Base.Transition
import Librf.Future.State

/-!
# The life of one future

One state seen from outside: the run-queue entries that refer to it, the coroutines that co_await
copies of its future, and, when it belongs to a coroutine, the body of that coroutine. Each step is
one call of a member function; steps of different threads come in any order.
-/

namespace Librf

inductive Place
  | away
  | transformed
  | unready
  | suspended
  | arrived
  deriving DecidableEq, Repr

inductive Body
  | absent
  | initial
  | running
  | yielded
  | returned
  | failed
  | final
  | destroyed
  deriving DecidableEq, Repr

inductive LifeAction (α ε : Type*)
  | go (sch : Nat)
  -- `await_transform`: `set_scheduler` with the scheduler of `c`
  | transform (c sch : Nat)
  | test (c : Nat)
  | suspend (c sch : Nat)
  -- `sch` takes the state out of its run queue
  | resume (sch : Nat)
  | read (c : Nat)
  | complete (o : Outcome α ε)
  | yieldValue (v : α)
  | finalSuspend
  deriving DecidableEq, Repr

inductive LifeEvent (α ε : Type*)
  | tested (c : Nat) (ready : Bool)
  | suspended (c : Nat) (queued : Bool)
  | completed (queued : Bool)
  | woken (c : Nat)
  | read (c : Nat) (reading : Reading α ε)
  deriving DecidableEq, Repr

def LifeEvent.reading? {α ε : Type*} : LifeEvent α ε → Option (Reading α ε)
  | .read _ reading => some reading
  | _ => none

/-- What stays the same over a life: the class template, the coroutine the state belongs to (none
for an `awaitable_t`), and the scheduler of the root above the awaiting coroutines. -/
structure FutureSetup where
  kind : Kind
  own : Option Nat
  root : Option Nat

structure Life (α ε : Type*) where
  state : FutureState α ε
  body : Body
  place : Nat → Place := fun _ => .away
  queue : List Nat := []
  -- history
  enqueued : List Nat := []
  begun : List Nat := []
  suspensions : Nat → Nat := fun _ => 0
  wakeups : Nat → Nat := fun _ => 0
  outcome : Option (Outcome α ε) := none
  hasYielded : Bool := false
  log : List (LifeEvent α ε) := []

namespace Life

variable {α ε : Type*}

def scheduled (calls : List Call) : List Nat :=
  calls.filterMap fun
    | .addGenerator sch => some sch
    | .delFinal _ => none

def readings (s : Life α ε) : List (Reading α ε) := s.log.filterMap LifeEvent.reading?

def notify (s : Life α ε) (updated : FutureState α ε × List Call) : Life α ε :=
  { s with state := updated.1
           queue := s.queue ++ scheduled updated.2
           enqueued := s.enqueued ++ scheduled updated.2 }

def move (s : Life α ε) (c : Nat) (place : Place) : Life α ε :=
  { s with place := Function.update s.place c place }

def record (s : Life α ε) (event : LifeEvent α ε) : Life α ε := { s with log := s.log ++ [event] }

def bodyRuns (u : FutureSetup) (s : Life α ε) : Bool :=
  s.body == .running && u.own.all fun c => s.place c == .away

def enabled (u : FutureSetup) (s : Life α ε) : LifeAction α ε → Bool
  | .go _ => true
  | .transform c _ => s.place c == .away && (u.own != some c || s.body == .running)
  | .test c => s.place c == .transformed
  | .suspend c _ => s.place c == .unready
  | .resume sch => s.queue.contains sch
  | .read c => s.place c == .arrived
  | .complete (.value _) => if u.own.isSome then bodyRuns u s else s.outcome.isNone
  -- the destructor of a local may throw after `co_return`
  | .complete (.exception _) =>
      if u.own.isSome then bodyRuns u s || s.body == .returned else s.outcome.isNone
  | .yieldValue _ => u.own.isSome && bodyRuns u s
  | .finalSuspend => s.body == .returned || s.body == .failed

def start (s : Life α ε) (sch : Nat) : Life α ε :=
  let st := { s.state with scheduler := some sch }
  s.notify (st, if st.hasHandlerSkipLock then [.addGenerator sch] else [])

def beginAwait (s : Life α ε) (c sch : Nat) : Life α ε :=
  { s.move c .transformed with
      state := { s.state with scheduler := some sch }
      begun := s.begun ++ [c] }

def testReady (s : Life α ε) (c : Nat) : Life α ε :=
  let ready := s.state.futureAwaitReady
  (s.move c (if ready then .arrived else .unready)).record (.tested c ready)

def suspendAwait (u : FutureSetup) (s : Life α ε) (c sch : Nat) : Life α ε :=
  let updated := s.state.futureAwaitSuspend u.own c (some sch)
  let s := ((s.notify updated).move c .suspended).record (.suspended c !(scheduled updated.2).isEmpty)
  { s with suspensions := Function.update s.suspensions c (s.suspensions c + 1) }

def continueWith (u : FutureSetup) (s : Life α ε) : Resumption → Life α ε
  | .start => { s with body := .running }
  | .wake c =>
      if u.own = some c ∧ s.body = .yielded then { s with body := .running }
      else { (s.move c .arrived).record (.woken c) with
               wakeups := Function.update s.wakeups c (s.wakeups c + 1) }
  | .destroy => { s with body := .destroyed }
  | .nothing => s

def takeFromQueue (u : FutureSetup) (s : Life α ε) (sch : Nat) : Life α ε :=
  let resumed := s.state.resume
  continueWith u { s with queue := s.queue.erase sch, state := resumed.2 } resumed.1

def readResult (u : FutureSetup) (s : Life α ε) (c : Nat) : Life α ε :=
  let result := s.state.futureAwaitResume u.kind
  { (s.move c .away).record (.read c result.1) with state := result.2 }

def bodyAfter (u : FutureSetup) (o : Outcome α ε) (body : Body) : Body :=
  match u.own, o with
  | none, _ => body
  | some _, .value _ => .returned
  | some _, .exception _ => .failed

def completeWith (u : FutureSetup) (s : Life α ε) (o : Outcome α ε) : Life α ε :=
  let updated := s.state.complete u.kind o u.root
  { (s.notify updated).record (.completed !(scheduled updated.2).isEmpty) with
      outcome := some o
      body := bodyAfter u o s.body }

def yieldWith (u : FutureSetup) (s : Life α ε) (v : α) (c : Nat) : Life α ε :=
  { s.notify (s.state.promiseYieldValue u.kind v c u.root) with
      body := .yielded
      hasYielded := true }

def perform (u : FutureSetup) (s : Life α ε) : LifeAction α ε → Except Fault (Life α ε)
  | .go sch => .ok (s.start sch)
  | .transform c sch => .ok (s.beginAwait c sch)
  | .test c => .ok (s.testReady c)
  | .suspend c sch => .ok (s.suspendAwait u c sch)
  | .resume sch => .ok (s.takeFromQueue u sch)
  | .read c => .ok (s.readResult u c)
  | .complete o => .ok (s.completeWith u o)
  | .yieldValue v => .ok (u.own.elim s (s.yieldWith u v))
  | .finalSuspend => do
      let updated ← s.state.promiseFinalSuspend u.root
      .ok { s.notify updated with body := .final }

def step (u : FutureSetup) (s : Life α ε) (action : LifeAction α ε) : Option (Life α ε) :=
  if s.enabled u action then (s.perform u action).toOption else none

def initial (u : FutureSetup) : Life α ε :=
  match u.own with
  | some _ => { state := FutureState.promiseInitialSuspend { isFuture := true }, body := .initial }
  | none => { state := { isFuture := false }, body := .absent }

def system (α ε : Type*) (u : FutureSetup) : Transition.System (Life α ε) (LifeAction α ε) where
  init := initial u
  step := step u

variable {u : FutureSetup} {s t : Life α ε}

def wakeAwaiter (s : Life α ε) (c sch : Nat) : Life α ε :=
  { (Life.move { s with queue := s.queue.erase sch, state := { s.state with coro := none } }
      c .arrived).record (.woken c) with
    wakeups := Function.update s.wakeups c (s.wakeups c + 1) }

inductive Taken (u : FutureSetup) (s : Life α ε) (sch : Nat) : Life α ε → Prop
  | start (initial : s.state.isInitor = .initial) : Taken u s sch
      { s with queue := s.queue.erase sch
               state := { s.state with isInitor := .none }
               body := .running }
  | goOn (b : Nat) (started : s.state.isInitor ≠ .initial) (holder : s.state.coro = some b)
      (own : u.own = some b) (yielded : s.body = .yielded) : Taken u s sch
      { s with queue := s.queue.erase sch
               state := { s.state with coro := none }
               body := .running }
  | wake (c : Nat) (started : s.state.isInitor ≠ .initial) (holder : s.state.coro = some c)
      (other : ¬ (u.own = some c ∧ s.body = .yielded)) : Taken u s sch (s.wakeAwaiter c sch)
  | destroy (final : s.state.isInitor = .final) (empty : s.state.coro = none) : Taken u s sch
      { s with queue := s.queue.erase sch
               state := { s.state with isInitor := .none }
               body := .destroyed }
  | nothing (started : s.state.isInitor ≠ .initial) (empty : s.state.coro = none) :
      Taken u s sch { s with queue := s.queue.erase sch }

theorem taken (u : FutureSetup) (s : Life α ε) (sch : Nat) :
    Taken u s sch (s.takeFromQueue u sch) := by
  have after (resumption : Resumption) (state : FutureState α ε)
      (resumed : s.state.resume = (resumption, state)) : s.takeFromQueue u sch =
        continueWith u { s with queue := s.queue.erase sch, state := state } resumption := by
    rw [takeFromQueue, resumed]
  by_cases initial : s.state.isInitor = .initial
  · rw [after _ _ (by simp only [FutureState.resume, if_pos initial]; rfl)]
    exact .start initial
  · cases holder : s.state.coro with
    | some c =>
        rw [after _ _ (by simp only [FutureState.resume, if_neg initial, holder]; rfl)]
        by_cases yielded : u.own = some c ∧ s.body = .yielded
        · simp only [continueWith, if_pos yielded]
          exact .goOn c initial holder yielded.1 yielded.2
        · simp only [continueWith, if_neg yielded]
          exact .wake c initial holder yielded
    | none =>
        by_cases final : s.state.isInitor = .final
        · rw [after .destroy { s.state with isInitor := .none }
            (by simp [FutureState.resume, final, holder])]
          exact .destroy final holder
        · rw [after .nothing s.state (by simp [FutureState.resume, initial, final, holder])]
          exact .nothing initial holder

theorem wakeAwaiter_place_self {c sch : Nat} : (s.wakeAwaiter c sch).place c = .arrived := by
  simp [wakeAwaiter, move, record]

theorem wakeAwaiter_place_of_ne {c c' sch : Nat} (other : c' ≠ c) :
    (s.wakeAwaiter c sch).place c' = s.place c' := by
  simp [wakeAwaiter, move, record, Function.update_of_ne other]

inductive Effect (u : FutureSetup) (s : Life α ε) : LifeAction α ε → Life α ε → Prop
  | go (sch : Nat) : Effect u s (.go sch) (s.start sch)
  | transform (c sch : Nat) (away : s.place c = .away)
      (free : u.own = some c → s.body = .running) : Effect u s (.transform c sch) (s.beginAwait c sch)
  | test (c : Nat) (inside : s.place c = .transformed) : Effect u s (.test c) (s.testReady c)
  | suspend (c sch : Nat) (inside : s.place c = .unready) :
      Effect u s (.suspend c sch) (s.suspendAwait u c sch)
  | resume (sch : Nat) (queued : sch ∈ s.queue) : Effect u s (.resume sch) (s.takeFromQueue u sch)
  | read (c : Nat) (inside : s.place c = .arrived) : Effect u s (.read c) (s.readResult u c)
  | complete (o : Outcome α ε) (enabled : s.enabled u (.complete o) = true) :
      Effect u s (.complete o) (s.completeWith u o)
  | yieldValue (v : α) (b : Nat) (own : u.own = some b) (runs : s.bodyRuns u = true) :
      Effect u s (.yieldValue v) (s.yieldWith u v b)
  | finalSuspend (updated : FutureState α ε × List Call)
      (ended : s.body = .returned ∨ s.body = .failed)
      (suspended : s.state.promiseFinalSuspend u.root = .ok updated) :
      Effect u s .finalSuspend { s.notify updated with body := .final }

theorem effect_of_perform {action : LifeAction α ε} (enabled : s.enabled u action = true)
    (performed : s.perform u action = .ok t) : Effect u s action t := by
  cases action with
  | go sch =>
      cases performed
      exact .go sch
  | transform c sch =>
      cases performed
      simp only [Life.enabled, Bool.and_eq_true, beq_iff_eq, Bool.or_eq_true, bne_iff_ne] at enabled
      exact .transform c sch enabled.1 fun own => enabled.2.resolve_left fun other => other own
  | test c =>
      cases performed
      exact .test c (by simpa [Life.enabled] using enabled)
  | suspend c sch =>
      cases performed
      exact .suspend c sch (by simpa [Life.enabled] using enabled)
  | resume sch =>
      cases performed
      exact .resume sch (by simpa [Life.enabled] using enabled)
  | read c =>
      cases performed
      exact .read c (by simpa [Life.enabled] using enabled)
  | complete o =>
      cases performed
      exact .complete o enabled
  | yieldValue v =>
      cases own : u.own with
      | none => simp [Life.enabled, own] at enabled
      | some b =>
          simp only [Life.perform, own, Option.elim_some, Except.ok.injEq] at performed
          subst performed
          exact .yieldValue v b own (by simpa [Life.enabled, own] using enabled)
  | finalSuspend =>
      have ended : s.body = .returned ∨ s.body = .failed := by
        simpa [Life.enabled] using enabled
      cases suspended : s.state.promiseFinalSuspend u.root with
      | error fault => simp [Life.perform, suspended, bind, Except.bind] at performed
      | ok updated =>
          simp only [Life.perform, suspended, bind, Except.bind, Except.ok.injEq] at performed
          subst performed
          exact .finalSuspend updated ended suspended

theorem effect_of_step {action : LifeAction α ε} (action_ : step u s action = some t) :
    Effect u s action t := by
  unfold step at action_
  split at action_
  · rename_i enabled
    cases performed : s.perform u action with
    | error fault => simp [performed, Except.toOption] at action_
    | ok after =>
        simp only [performed, Except.toOption, Option.some.injEq] at action_
        subst action_
        exact effect_of_perform enabled performed
  · cases action_

@[simp] theorem completeWith_state {o : Outcome α ε} :
    (s.completeWith u o).state = s.state.assign u.kind o :=
  FutureState.complete_state u.kind o s.state u.root

theorem yieldWith_state {v : α} {c : Nat} : (s.yieldWith u v c).state =
    FutureState.assign u.kind (.value v) { s.state with coro := s.state.coro.or (some c) } :=
  FutureState.promiseYieldValue_state u.kind v c s.state u.root

theorem suspendAwait_place_self {c sch : Nat} : (s.suspendAwait u c sch).place c = .suspended := by
  simp [suspendAwait, record, move]

theorem suspendAwait_place_of_ne {c c' sch : Nat} (other : c' ≠ c) :
    (s.suspendAwait u c sch).place c' = s.place c' := by
  simp [suspendAwait, record, move, notify, Function.update_of_ne other]

theorem suspendAwait_coro {c sch : Nat} :
    (s.suspendAwait u c sch).state.coro = s.state.coro.or (some c) :=
  (s.state.futureAwaitSuspend_frame u.own c sch).2.2.2.2.2

theorem move_suspended_iff {c : Nat} {place : Place} (before : s.place c ≠ .suspended)
    (after : place ≠ .suspended) (c' : Nat) :
    (s.move c place).place c' = .suspended ↔ s.place c' = .suspended := by
  rcases eq_or_ne c' c with rfl | other
  · simp [move, before, after]
  · simp [move, Function.update_of_ne other]

end Life

end Librf
