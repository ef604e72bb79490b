import Mathlib.Logic.Function.Basic
import Librf.Base.CountedTable
import Librf.Base.Transition
import Librf.Future.State

/-!
# Coroutines, their states and the schedulers that run them

A coroutine, its handle and its promise's state share one number. Each scheduler has a thread that
runs at most one frame at a time; states may be created, started, completed and notified by any
thread, and `via` lets a frame go on in the thread of another scheduler. States are kept forever
here.
-/

namespace Librf

inductive StateClass
  -- of a `promise_t` or of an `awaitable_t`, as its `_is_future` says
  | future (kind : Kind)
  -- the `state_t<void>` of a `yield_awaitor` or a `switch_scheduler_awaitor`
  | passing
  | generator
  -- of a wait for an event, a mutex, a channel or a `when`
  | waiter
  deriving DecidableEq, Repr

inductive Progress
  -- no coroutine
  | absent
  | initial
  | running
  -- in `co_await` of the future of `m`, behind `await_transform`
  | transformed (m : Nat)
  -- behind an `await_ready` that has returned false
  | unready (m : Nat)
  | awaiting (m : Nat)
  | yielded
  -- behind `co_return`; the locals are being destroyed
  | returned
  -- behind `unhandled_exception`
  | failed
  | final
  | destroyed
  deriving DecidableEq, Repr

/-- What the body of a coroutine does next. -/
inductive BodyAction (α ε : Type*)
  | transform (m : Nat)
  | test
  | suspend
  -- `co_await yield()`
  | pause
  -- A wait for an event, a mutex, a channel or a `when`
  | park
  | via (sch : Nat)
  -- `co_yield`
  | yieldValue (v : α)
  -- `co_return`, or an exception leaves the body
  | finish (o : Outcome α ε)
  | finalSuspend
  deriving DecidableEq, Repr

inductive RuntimeAction (α ε : Type*)
  | newCoroutine (kind : Kind)
  | newGenerator
  | newAwaitable (kind : Kind)
  | go (sch n : Nat)
  | complete (n : Nat) (o : Outcome α ε)
  -- `add_generator` for the state of a wait
  | notify (w : Nat)
  -- `run_one_batch` swaps its vectors
  | swap (sch : Nat)
  -- `run_one_batch` resumes the next state
  | resume (sch : Nat)
  | body (sch : Nat) (action : BodyAction α ε)
  deriving DecidableEq, Repr

structure Scheduler where
  runingStates : List Nat := []
  -- what `run_one_batch` has still to resume of it
  cachedStates : List Nat := []
  readyTask : List Nat := []
  -- the frame that its thread runs
  busy : Option Nat := none
  deriving DecidableEq, Repr

abbrev Schedulers := Nat → Scheduler

namespace Schedulers

def modify (x : Schedulers) (sch : Nat) (f : Scheduler → Scheduler) : Schedulers :=
  Function.update x sch (f (x sch))

def addGenerator (x : Schedulers) (sch n : Nat) : Schedulers :=
  x.modify sch fun y => { y with runingStates := y.runingStates ++ [n] }

def delFinal (x : Schedulers) (sch n : Nat) : Schedulers :=
  x.modify sch fun y => { y with readyTask := y.readyTask.filter (· != n) }

def emplace (x : Schedulers) (sch n : Nat) : Schedulers :=
  x.modify sch fun y =>
    { y with readyTask := if n ∈ y.readyTask then y.readyTask else y.readyTask ++ [n] }

/-- `del_switch` of `old`, followed by `add_switch` if it has found a task. -/
def moveTask (x : Schedulers) (old sch n : Nat) : Schedulers :=
  if n ∈ (x old).readyTask then (x.delFinal old n).emplace sch n else x

def setBusy (x : Schedulers) (sch : Nat) (busy : Option Nat) : Schedulers :=
  x.modify sch fun y => { y with busy }

/-- A call from state `n`. -/
def call (n : Nat) (x : Schedulers) : Call → Schedulers
  | .addGenerator sch => x.addGenerator sch n
  | .delFinal sch => x.delFinal sch n

end Schedulers

structure Runtime (α ε : Type*) where
  classes : Nat → StateClass := fun _ => .waiter
  states : Nat → FutureState α ε := fun _ => { isFuture := false }
  progress : Nat → Progress := fun _ => .absent
  schedulers : Schedulers := fun _ => {}
  created : Nat := 0
  -- history
  goes : Nat → List Nat := fun _ => []
  -- the coroutines that have called `co_await` on a state
  awaits : Nat → List Nat := fun _ => []
  -- the schedulers that `via` has moved a state to
  moves : Nat → List Nat := fun _ => []
  -- how often a state has resumed a coroutine that awaited it
  wakeups : Nat → Nat := fun _ => 0
  destroyed : Nat → Nat := fun _ => 0
  -- by root: the scheduler that `go` or `via` has put the chain on last
  switched : Nat → Option Nat := fun _ => none

namespace Runtime

variable {α ε : Type*}

def setState (s : Runtime α ε) (n : Nat) (st : FutureState α ε) : Runtime α ε :=
  { s with states := Function.update s.states n st }

def setProgress (s : Runtime α ε) (p : Nat) (progress : Progress) : Runtime α ε :=
  { s with progress := Function.update s.progress p progress }

def setBusy (s : Runtime α ε) (sch : Nat) (busy : Option Nat) : Runtime α ε :=
  { s with schedulers := s.schedulers.setBusy sch busy }

/-- A member function of state `n` that calls into schedulers. -/
def update (s : Runtime α ε) (n : Nat) (updated : FutureState α ε × List Call) : Runtime α ε :=
  { s.setState n updated.1 with
    schedulers := updated.2.foldl (Schedulers.call n) s.schedulers }

def getRoot (s : Runtime α ε) (n : Nat) : Option Nat :=
  CountedTable.rootFrom FutureState.parent
    (fun m => if m < s.created then some (s.states m) else none) (s.created + 1) n

def rootScheduler (s : Runtime α ε) (n : Nat) : Option Nat :=
  (s.getRoot n).bind fun r => (s.states r).scheduler

def getScheduler (s : Runtime α ε) (n : Nat) : Option Nat :=
  (s.states n).getScheduler (s.rootScheduler n)

def hasHandler (s : Runtime α ε) (n : Nat) : Bool :=
  match s.classes n with
  | .future _ | .passing => (s.states n).hasHandlerSkipLock
  | .generator | .waiter => (s.states n).coro.isSome

def newTask (s : Runtime α ε) (sch n : Nat) : Runtime α ε :=
  let s := s.setState n { s.states n with scheduler := some sch }
  let schedulers := s.schedulers.emplace sch n
  { s with
    schedulers := if s.hasHandler n then schedulers.addGenerator sch n else schedulers
    goes := Function.update s.goes n (s.goes n ++ [sch])
    switched := Function.update s.switched n (some sch) }

/-- `switch_scheduler_await_suspend`; `fuel` bounds the chain of parents. -/
def switchScheduler (sch : Nat) : Nat → Nat → Runtime α ε → Bool × Runtime α ε
  | 0, _, s => (false, s)
  | fuel + 1, n, s =>
      let st := s.states n
      if st.scheduler = some sch then (false, s)
      else
        let s := { s.setState n { st with scheduler := some sch } with
          schedulers := match st.scheduler with
            | some old => s.schedulers.moveTask old sch n
            | none => s.schedulers
          moves := Function.update s.moves n (s.moves n ++ [sch]) }
        (true, match st.parent with
          | some p => (switchScheduler sch fuel p s).2
          | none => s)

/-! ## Bodies -/

def kind (s : Runtime α ε) (n : Nat) : Kind :=
  match s.classes n with
  | .future kind => kind
  | _ => .unit

def readResult (s : Runtime α ε) (m : Nat) : Runtime α ε :=
  s.setState m ((s.states m).futureAwaitResume (s.kind m)).2

def beginAwait (s : Runtime α ε) (p m : Nat) : Runtime α ε :=
  { (s.setState m { s.states m with scheduler := s.getScheduler p }).setProgress p
      (.transformed m) with
    awaits := Function.update s.awaits m (s.awaits m ++ [p]) }

def testReady (s : Runtime α ε) (p m : Nat) : Runtime α ε :=
  if (s.states m).futureAwaitReady then (s.readResult m).setProgress p .running
  else s.setProgress p (.unready m)

def suspendAwait (s : Runtime α ε) (sch p m : Nat) : Runtime α ε :=
  let updated := (s.states m).futureAwaitSuspend (some m) p (s.getScheduler p)
  ((s.update m updated).setProgress p (.awaiting m)).setBusy sch none

/-- `await_suspend` with a new state that has its value. -/
def pause (s : Runtime α ε) (sch p : Nat) : Runtime α ε :=
  let st : FutureState α ε := { isFuture := false, hasValue := .value }
  let n := s.created
  let s := { s with classes := Function.update s.classes n .passing, created := n + 1 }
  ((s.update n (st.futureAwaitSuspend (some n) p (s.getScheduler p))).setProgress p
    (.awaiting n)).setBusy sch none

def park (s : Runtime α ε) (sch p : Nat) : Runtime α ε :=
  let st : FutureState α ε :=
    { isFuture := false, scheduler := s.getScheduler p, coro := some p }
  let w := s.created
  let s := { s with classes := Function.update s.classes w .waiter, created := w + 1 }
  ((s.setState w st).setProgress p (.awaiting w)).setBusy sch none

def recordSwitch (s : Runtime α ε) (p target : Nat) : Runtime α ε :=
  match s.getRoot p with
  | some r => { s with switched := Function.update s.switched r (some target) }
  | none => s

def via (s : Runtime α ε) (sch p target : Nat) : Runtime α ε :=
  let moved := switchScheduler target (s.created + 1) p (s.recordSwitch p target)
  if moved.1 then moved.2.pause sch p else moved.2

def yieldValue (s : Runtime α ε) (sch p : Nat) (v : α) : Runtime α ε :=
  match s.classes p with
  | .generator =>
      let s := (s.setProgress p .yielded).setBusy sch none
      -- `state_generator_t::resume` goes on
      { s with schedulers := match (s.states p).scheduler with
          | some own => s.schedulers.addGenerator own p
          | none => s.schedulers }
  | _ =>
      ((s.update p ((s.states p).promiseYieldValue (s.kind p) v p (s.rootScheduler p))).setProgress
        p .yielded).setBusy sch none

def afterFinish : Outcome α ε → Progress
  | .value _ => .returned
  | .exception _ => .failed

def canFinish (s : Runtime α ε) (p : Nat) : Outcome α ε → Bool
  | .value _ => s.progress p == .running
  -- The destructor of a local may throw after `co_return`. An exception of a generator terminates.
  | .exception _ =>
      s.classes p != .generator && (s.progress p == .running || s.progress p == .returned)

def finish (s : Runtime α ε) (p : Nat) (o : Outcome α ε) : Runtime α ε :=
  match s.classes p with
  | .generator => s.setProgress p (afterFinish o)
  | _ => (s.update p ((s.states p).complete (s.kind p) o (s.rootScheduler p))).setProgress p
      (afterFinish o)

def destroy (s : Runtime α ε) (n : Nat) : Runtime α ε :=
  { s.setProgress n .destroyed with
    destroyed := Function.update s.destroyed n (s.destroyed n + 1) }

def finalSuspend (s : Runtime α ε) (sch p : Nat) : Except Fault (Runtime α ε) :=
  match s.classes p with
  | .generator =>
      let st := s.states p
      let s := ((s.setState p { st with coro := none }).setBusy sch none).destroy p
      .ok { s with schedulers := match st.scheduler with
          | some own => s.schedulers.delFinal own p
          | none => s.schedulers }
  | _ => do
      let updated ← (s.states p).promiseFinalSuspend (s.rootScheduler p)
      .ok (((s.update p updated).setProgress p .final).setBusy sch none)

/-- The next step of the body of `p`, which the thread of `sch` runs. -/
def body (s : Runtime α ε) (sch p : Nat) : BodyAction α ε → Option (Runtime α ε)
  | .transform m =>
      match s.progress p, s.classes p, s.classes m with
      | .running, .future _, .future _ => some (s.beginAwait p m)
      | _, _, _ => none
  | .test => match s.progress p with
      | .transformed m => some (s.testReady p m)
      | _ => none
  | .suspend => match s.progress p with
      | .unready m => some (s.suspendAwait sch p m)
      | _ => none
  | .pause => match s.progress p, s.classes p with
      | .running, .future _ => some (s.pause sch p)
      | _, _ => none
  | .park => match s.progress p, s.classes p with
      | .running, .future _ => some (s.park sch p)
      | _, _ => none
  | .via target => match s.progress p, s.classes p with
      | .running, .future _ => some (s.via sch p target)
      | _, _ => none
  | .yieldValue v => match s.progress p with
      | .running => some (s.yieldValue sch p v)
      | _ => none
  | .finish o => if s.canFinish p o then some (s.finish p o) else none
  | .finalSuspend => match s.progress p with
      | .returned | .failed => (s.finalSuspend sch p).toOption
      | _ => none

/-! ## Schedulers' loops -/

def arrive (s : Runtime α ε) (p : Nat) : Runtime α ε :=
  match s.progress p with
  | .awaiting m => (s.readResult m).setProgress p .running
  | _ => s.setProgress p .running

/-- `handler.resume()` for the handle of `p`, which state `n` has given up. -/
def wake (s : Runtime α ε) (sch n p : Nat) : Runtime α ε :=
  let s := (s.arrive p).setBusy sch (some p)
  if p = n then s else { s with wakeups := Function.update s.wakeups n (s.wakeups n + 1) }

def continueWith (s : Runtime α ε) (sch n : Nat) : Resumption → Runtime α ε
  | .start => (s.setProgress n .running).setBusy sch (some n)
  | .wake p => s.wake sch n p
  | .destroy => s.destroy n
  | .nothing => s

/-- What `resume` of state `n` does with a handle. -/
def resumption (s : Runtime α ε) (n : Nat) : Resumption :=
  match s.classes n with
  | .future _ | .passing => (s.states n).resume.1
  | .generator | .waiter => match (s.states n).coro with
      | some p => .wake p
      | none => .nothing

def resume (s : Runtime α ε) (sch n : Nat) : Runtime α ε :=
  let st := s.states n
  let resumption := s.resumption n
  let s := match s.classes n with
    | .future _ | .passing => s.setState n st.resume.2
    | .generator => s
    | .waiter => { s.setState n { st with coro := none } with
        schedulers := match st.coro, st.scheduler with
          | some _, some own => s.schedulers.delFinal own n
          | _, _ => s.schedulers }
  s.continueWith sch n resumption

def advance (s : Runtime α ε) (sch : Nat) (rest : List Nat) : Runtime α ε :=
  { s with schedulers := s.schedulers.modify sch fun x => { x with cachedStates := rest } }

def swap (s : Runtime α ε) (sch : Nat) : Runtime α ε :=
  { s with schedulers := s.schedulers.modify sch fun x =>
      { x with cachedStates := x.runingStates, runingStates := [] } }

def add (s : Runtime α ε) (cls : StateClass) (st : FutureState α ε) (progress : Progress) :
    Runtime α ε :=
  { (s.setState s.created st).setProgress s.created progress with
    classes := Function.update s.classes s.created cls
    created := s.created + 1 }

def step (s : Runtime α ε) : RuntimeAction α ε → Option (Runtime α ε)
  | .newCoroutine kind => some
      (s.add (.future kind) (FutureState.promiseInitialSuspend { isFuture := true }) .initial)
  | .newGenerator => some
      (s.add .generator { isFuture := false, coro := some s.created } .initial)
  | .newAwaitable kind => some (s.add (.future kind) { isFuture := false } .absent)
  | .go sch n => match s.classes n with
      | .future _ | .generator => if n < s.created then some (s.newTask sch n) else none
      | _ => none
  | .complete n o => match s.classes n with
      | .future kind =>
          if (s.states n).isFuture then none
          else some (s.update n ((s.states n).complete kind o (s.rootScheduler n)))
      | _ => none
  | .notify w => match s.classes w with
      | .waiter => (s.states w).scheduler.map fun sch =>
          { s with schedulers := s.schedulers.addGenerator sch w }
      | _ => none
  | .swap sch =>
      if (s.schedulers sch).cachedStates = [] ∧ (s.schedulers sch).busy = none then
        some (s.swap sch)
      else none
  | .resume sch => match (s.schedulers sch).busy, (s.schedulers sch).cachedStates with
      | none, n :: rest => some ((s.advance sch rest).resume sch n)
      | _, _ => none
  | .body sch action => (s.schedulers sch).busy.bind fun p => s.body sch p action

def system (α ε : Type*) : Transition.System (Runtime α ε) (RuntimeAction α ε) where
  init := {}
  step := step

end Runtime

end Librf
