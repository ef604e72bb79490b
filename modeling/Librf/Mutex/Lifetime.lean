import Librf.Base.CountedTable
import Librf.Future.State
import Librf.Mutex.Model

/-!
# Coroutines, their states and the mutexes they lock

A state object is in the table as long as a task entry, a promise, a future object or an entry of a
run queue refers to it. The waiters of a mutex refer to their root by address only. A coroutine
that calls `co_await` on a new coroutine becomes its parent; the root of a chain is started by `go`.
-/

namespace Librf

structure CountedState (α ε : Type*) where
  state : FutureState α ε
  -- the entry in `_ready_task`
  task : Bool
  promise : Bool
  futures : Nat
  -- entries in `_runing_states`
  queued : Nat
  -- entries in `_cached_states`
  cached : Nat := 0

namespace CountedState

variable {α ε : Type*}

def references (c : CountedState α ε) : Nat :=
  c.task.toNat + c.promise.toNat + c.futures + c.queued + c.cached

def notify (c : CountedState α ε) (updated : FutureState α ε × List Call) : CountedState α ε :=
  { c with
    state := updated.1
    queued := c.queued + updated.2.countP fun
      | .addGenerator _ => true
      | .delFinal _ => false
    task := c.task && updated.2.all fun
      | .addGenerator _ => true
      | .delFinal _ => false }

end CountedState

inductive Frame
  | absent
  | initial
  | running
  | awaiting (child : Nat)
  | locked (m w : Nat)
  | returned
  | final
  | destroyed
  deriving DecidableEq, Repr

inductive LifetimeAction (α ε : Type*)
  | go (sch : Nat)
  -- `co_await` on a new coroutine
  | call (n : Nat)
  -- A scheduler resumes state `n`
  | resume (n : Nat)
  -- an entry of `n` goes with `_cached_states.clear()`
  | drop (n : Nat)
  -- A future object of `n` is destroyed
  | discard (n : Nat)
  | complete (n : Nat) (kind : Kind) (o : Outcome α ε)
  | finalSuspend (n : Nat)
  | lock (n m : Nat) (timed : Bool)
  | offer (m : Nat)
  -- A scheduler resumes waiter `w`
  | wake (m w : Nat)
  -- any other step on mutex `m`
  | mutex (m : Nat) (action : MutexAction)
  deriving DecidableEq, Repr

structure Lifetime (α ε : Type*) where
  table : Nat → Option (CountedState α ε) := fun _ => none
  frames : Nat → Frame := fun _ => .absent
  created : Nat := 0
  mutexes : Nat → Mutex := fun _ => {}

namespace Lifetime

variable {α ε : Type*}

def put (s : Lifetime α ε) (n : Nat) (c : CountedState α ε) : Lifetime α ε :=
  { s with table := CountedTable.put CountedState.references s.table n c }

def setFrame (s : Lifetime α ε) (n : Nat) (frame : Frame) : Lifetime α ε :=
  { s with frames := Function.update s.frames n frame }

def setMutex (s : Lifetime α ε) (m : Nat) (mutex : Mutex) : Lifetime α ε :=
  { s with mutexes := Function.update s.mutexes m mutex }

/-- `get_root`; `none` if it reads a state that is gone. -/
def getRoot (s : Lifetime α ε) (n : Nat) : Option Nat :=
  CountedTable.rootFrom (fun c => c.state.parent) s.table (n + 1) n

def rootScheduler (s : Lifetime α ε) (n : Nat) : Option Nat :=
  (s.getRoot n).bind fun r => (s.table r).bind fun c => c.state.scheduler

/-- `new_task` -/
def go (s : Lifetime α ε) (sch : Nat) : Lifetime α ε :=
  let st : FutureState α ε :=
    { FutureState.promiseInitialSuspend { isFuture := true } with scheduler := some sch }
  let c : CountedState α ε :=
    { state := st, task := true, promise := true, futures := 1, queued := 0 }
  { (s.put s.created (c.notify (st, if st.hasHandlerSkipLock then [.addGenerator sch] else []))).setFrame
        s.created .initial with
      created := s.created + 1 }

/-- `await_transform`, `await_ready` and `await_suspend` of the future of a new coroutine. -/
def call (s : Lifetime α ε) (n : Nat) (c : CountedState α ε) : Lifetime α ε :=
  let sch := c.state.getScheduler (s.rootScheduler n)
  let child : FutureState α ε :=
    { FutureState.promiseInitialSuspend { isFuture := true } with scheduler := sch }
  let entry : CountedState α ε :=
    { state := child, task := false, promise := true, futures := 1, queued := 0 }
  { ((s.put s.created (entry.notify
        (child.futureAwaitSuspend (some s.created) n sch))).setFrame s.created .initial).setFrame
          n (.awaiting s.created) with
      created := s.created + 1 }

def continueWith (s : Lifetime α ε) (n : Nat) (c : CountedState α ε) : Resumption → Lifetime α ε
  | .start => (s.put n c).setFrame n .running
  | .wake handler => (s.put n c).setFrame handler .running
  | .destroy => (s.put n { c with promise := false }).setFrame n .destroyed
  | .nothing => s.put n c

def resume (s : Lifetime α ε) (n : Nat) (c : CountedState α ε) : Lifetime α ε :=
  let resumed := c.state.resume
  s.continueWith n
    { c with state := resumed.2, queued := c.queued - 1, cached := c.cached + 1 } resumed.1

def lockFrame (n m : Nat) (mutex : Mutex) (s : Lifetime α ε) : Frame :=
  match mutex.lockSection with
  | .suspending w => .locked m w
  | _ => s.frames n

def onMutexOnly : MutexAction → Bool
  | .lock .. | .offer _ | .resume _ => false
  | _ => true

def step (s : Lifetime α ε) : LifetimeAction α ε → Option (Lifetime α ε)
  | .go sch => some (s.go sch)
  | .call n => if s.frames n = .running then (s.table n).map (s.call n) else none
  | .resume n => (s.table n).bind fun c => if 0 < c.queued then some (s.resume n c) else none
  | .drop n => (s.table n).bind fun c =>
      if 0 < c.cached then some (s.put n { c with cached := c.cached - 1 }) else none
  -- the future object of a co_await lives in the frame of the parent
  | .discard n => (s.table n).bind fun c =>
      if 0 < c.futures ∧ c.state.parent.all (fun p => s.frames p != .awaiting n) then
        some (s.put n { c with futures := c.futures - 1 })
      else none
  | .complete n kind o =>
      if s.frames n = .running then
        (s.table n).map fun c =>
          (s.put n (c.notify (c.state.complete kind o (s.rootScheduler n)))).setFrame n .returned
      else none
  | .finalSuspend n =>
      if s.frames n = .returned then
        (s.table n).bind fun c =>
          match c.state.promiseFinalSuspend (s.rootScheduler n) with
          | .ok updated => some ((s.put n (c.notify updated)).setFrame n .final)
          | .error _ => none
      else none
  | .lock n m timed =>
      if s.frames n = .running then
        (s.getRoot n).bind fun r => ((s.mutexes m).step (.lock n r timed)).map fun mutex =>
          (s.setMutex m mutex).setFrame n (lockFrame n m mutex s)
      else none
  | .offer m => match (s.mutexes m).waitAwakes with
      | [] => none
      | w :: _ => (s.getRoot ((s.mutexes m).waiters w).root).bind fun r =>
          ((s.mutexes m).step (.offer r)).map (s.setMutex m)
  | .wake m w => ((s.mutexes m).step (.resume w)).map fun mutex =>
      match ((s.mutexes m).waiters w).coro with
      | some handler => (s.setMutex m mutex).setFrame handler .running
      | none => s.setMutex m mutex
  | .mutex m action =>
      if onMutexOnly action then ((s.mutexes m).step action).map (s.setMutex m) else none

def system (α ε : Type*) : Transition.System (Lifetime α ε) (LifetimeAction α ε) where
  init := {}
  step := step

end Lifetime

end Librf
