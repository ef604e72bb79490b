import Librf.Event.All
import Librf.IntrusiveLinkQueue.Model

/-!
# `_wait_awakes`

Many events, the awaiters of `wait`, `wait_for`, `wait_all` and `wait_all_for`, and their
destructors. A destructor and `on_timeout` decide that a state has to leave a queue before they
have the lock of its event.
-/

namespace Librf

inductive EventEntry
  | waiter (w : Nat)
  -- the proxy for the position `idx` of the `wait_all` number `j`
  | proxy (j idx : Nat)
  deriving DecidableEq, Repr

/-- `size` is what `_wait_awakes.size()` would be without a wrap-around. -/
structure CountedEvent extends EventImpl EventEntry where
  size : Int := 0
  deriving DecidableEq, Repr

namespace CountedEvent

def tryWaitOne (e : CountedEvent) : Bool × CountedEvent :=
  let tried := e.toEventImpl.tryWaitOne
  (tried.1, { e with toEventImpl := tried.2 })

def addWaitList (e : CountedEvent) (entry : EventEntry) : CountedEvent :=
  { toEventImpl := e.toEventImpl.addWaitList entry, size := e.size + 1 }

/-- `erase` counts down whether or not the state is linked. -/
def removeWaitList (e : CountedEvent) (entry : EventEntry) : CountedEvent :=
  { toEventImpl := e.toEventImpl.removeWaitList entry, size := e.size - 1 }

def tryPop (e : CountedEvent) : Option EventEntry × CountedEvent :=
  match e.waitAwakes with
  | [] => (none, e)
  | entry :: rest => (some entry, { e with waitAwakes := rest, size := e.size - 1 })

end CountedEvent

inductive WaitSection
  | free
  -- at the head of the loop of `signal` or `signal_all`
  | popping (all : Bool)
  -- before `on_notify`
  | offering (all : Bool) (entry : EventEntry)
  deriving DecidableEq, Repr

def WaitSection.hand : WaitSection → Option EventEntry
  | .offering _ entry => some entry
  | _ => none

inductive AwaiterLife
  | living
  -- `~awaiter` has found an event, and waits for its lock
  | destroying
  | gone
  deriving DecidableEq, Repr

/-- An `awaiter` and its `state_event_t`. What is gone is read as it was left. -/
structure WaitAwaiter extends EventWaiter where
  target : Nat
  life : AwaiterLife := .living
  deriving DecidableEq, Repr

structure JoinAwaiter extends StateEventAll where
  targets : List Nat
  -- the loop of `await_suspend2` has been run
  enlisted : Bool := false
  -- the positions that the loop of `on_timeout` has still to visit, with `_lock` held
  sweeping : Option (List Nat) := none
  life : AwaiterLife := .living
  deriving DecidableEq, Repr

inductive QueueCall
  | awaitReady (e : Nat)
  | awaitSuspend (e handler : Nat) (timed : Bool)
  -- `await_suspend2` of `wait_all`, as far as its timer, and its loop
  | waitAll (targets : List Nat) (handler : Nat) (timed : Bool)
  | enlist (j : Nat)
  | signal (e : Nat) (all : Bool)
  | pop (e : Nat)
  | notify (e : Nat)
  | leave (e : Nat)
  -- `on_timeout` of a `state_event_t`
  | timeout (w : Nat)
  | removeWaitList (w : Nat)
  | finishTimeout (w : Nat)
  -- `on_timeout` of a `state_event_all_t`
  | timeoutAll (j : Nat)
  | sweep (j : Nat)
  | resume (w : Nat)
  | resumeAll (j : Nat)
  -- `~awaiter`
  | destroy (w : Nat)
  | finishDestroy (w : Nat)
  | destroyAll (j : Nat)
  deriving DecidableEq, Repr

namespace EventWaiter

def schedule (a : EventWaiter) : EventWaiter :=
  if a.coro.isSome then { a with scheduled := a.scheduled + 1 } else a

/-- `on_notify` after its compare-exchange. -/
def accept (a : EventWaiter) (state : StateEvent) : EventWaiter :=
  { a with toStateEvent := state.notified, signaled := true }.schedule

def finishTimeout (a : EventWaiter) : EventWaiter :=
  { a with toStateEvent := a.expired, expiry := .idle }.schedule

def resume (a : EventWaiter) : EventWaiter :=
  { a with coro := none, results := a.results ++ [a.event] }

end EventWaiter

structure WaitQueues where
  events : Nat → CountedEvent
  sections : Nat → WaitSection := fun _ => .free
  waits : Nat → WaitAwaiter := fun _ => { coro := none, timer := false, target := 0 }
  waiting : Nat := 0
  joins : Nat → JoinAwaiter :=
    fun _ => { values := [], counter := 0, coro := none, timer := false, targets := [] }
  joining : Nat := 0

namespace WaitQueues

def setEvent (s : WaitQueues) (e : Nat) (event : CountedEvent) : WaitQueues :=
  { s with events := Function.update s.events e event }

def enter (s : WaitQueues) (e : Nat) (section_ : WaitSection) : WaitQueues :=
  { s with sections := Function.update s.sections e section_ }

def setWait (s : WaitQueues) (w : Nat) (a : WaitAwaiter) : WaitQueues :=
  { s with waits := Function.update s.waits w a }

def setJoin (s : WaitQueues) (j : Nat) (a : JoinAwaiter) : WaitQueues :=
  { s with joins := Function.update s.joins j a }

def awaitSuspend (s : WaitQueues) (e handler : Nat) (timed : Bool) : WaitQueues :=
  let tried := (s.events e).tryWaitOne
  if tried.1 then s.setEvent e tried.2
  else { (s.setEvent e (tried.2.addWaitList (.waiter s.waiting))).setWait s.waiting
          { coro := some handler, timer := timed, target := e } with waiting := s.waiting + 1 }

def waitAll (s : WaitQueues) (targets : List Nat) (handler : Nat) (timed : Bool) : WaitQueues :=
  { s.setJoin s.joining
      { toStateEventAll := .create targets.length handler timed, targets } with
    joining := s.joining + 1 }

/-- The loop of `await_suspend2`, with all locks held, from the position `idx` on. -/
def enlistFrom (j : Nat) : List Nat → Nat → (Nat → CountedEvent) → StateEventAll →
    (Nat → CountedEvent) × StateEventAll
  | [], _, events, st => (events, st)
  | e :: rest, idx, events, st =>
      let tried := (events e).tryWaitOne
      if tried.1 then
        enlistFrom j rest (idx + 1) (Function.update events e tried.2) (st.supply idx e)
      else
        enlistFrom j rest (idx + 1)
          (Function.update events e (tried.2.addWaitList (.proxy j idx))) (st.enroll idx e)

/-- Without a missing event the awaiter gives its reference to the state back at once; the `_lock`
in the state is released after that. -/
def enlist (s : WaitQueues) (j : Nat) : WaitQueues :=
  let a := s.joins j
  let enlisted := enlistFrom j a.targets 0 s.events a.toStateEventAll
  { s with events := enlisted.1 }.setJoin j { a with
    toStateEventAll := enlisted.2
    enlisted := true
    life := if enlisted.2.counter = 0 then .gone else a.life }

/-- The loop of `signal` ends with a state that accepts, that of `signal_all` goes on. -/
def answered (s : WaitQueues) (e : Nat) (all accepts : Bool) : WaitQueues :=
  s.enter e (if accepts && !all then .free else .popping all)

/-- The `_lock` that `on_notify` of a proxy takes. -/
def unlocked (s : WaitQueues) : EventEntry → Bool
  | .waiter _ => true
  | .proxy j _ => (s.joins j).sweeping.isNone

def notify (s : WaitQueues) (e : Nat) (all : Bool) : EventEntry → WaitQueues
  | .waiter w => match (s.waits w).claim with
      | some state =>
          (s.setWait w { s.waits w with
            toEventWaiter := (s.waits w).accept state }).answered e all true
      | none => s.answered e all false
  | .proxy j idx =>
      let notified := (s.joins j).onNotify idx
      (s.setJoin j { s.joins j with toStateEventAll := notified.2 }).answered e all notified.1

def leave (s : WaitQueues) (e : Nat) (all : Bool) : WaitQueues :=
  (if all then s
    else s.setEvent e { s.events e with counter := (s.events e).counter + 1 }).enter e .free

def timeout (s : WaitQueues) (w : Nat) : WaitQueues :=
  match (s.waits w).claim with
  | some state => s.setWait w { s.waits w with
      toStateEvent := state, expiry := .claimed, timedOut := true }
  | none => s

/-- `on_timeout` takes its state out of the queue of the event that the awaiter still names. -/
def unlink (s : WaitQueues) (w : Nat) : WaitQueues :=
  let a := s.waits w
  let s' := s.setWait w { a with expiry := .unlinked }
  if a.event then s'.setEvent a.target ((s.events a.target).removeWaitList (.waiter w)) else s'

def finishTimeout (s : WaitQueues) (w : Nat) : WaitQueues :=
  s.setWait w { s.waits w with toEventWaiter := (s.waits w).finishTimeout }

def timeoutAll (s : WaitQueues) (j : Nat) : WaitQueues :=
  match (s.joins j).expire with
  | none => s.setJoin j { s.joins j with timer := false }
  | some state => s.setJoin j { s.joins j with
      toStateEventAll := state, sweeping := some (List.range state.values.length) }

/-- A turn of the loop of `on_timeout`; `remove_wait_list` waits for the lock of the event. -/
def sweep (s : WaitQueues) (j : Nat) : Option WaitQueues :=
  match (s.joins j).sweeping with
  | none => none
  | some [] => some (s.setJoin j { s.joins j with
      toStateEventAll := (s.joins j).schedule, sweeping := none })
  | some (idx :: rest) =>
      let forgotten := (s.joins j).forget idx
      let s' := s.setJoin j { s.joins j with
        toStateEventAll := forgotten.2, sweeping := some rest }
      match forgotten.1 with
      | none => some s'
      | some e =>
          if s.sections e = .free then
            some (s'.setEvent e ((s.events e).removeWaitList (.proxy j idx)))
          else none

/-- `~awaiter` as far as `remove_wait_list`. -/
def destroy (s : WaitQueues) (w : Nat) : WaitQueues :=
  s.setWait w { s.waits w with life := if (s.waits w).event then .destroying else .gone }

def finishDestroy (s : WaitQueues) (w : Nat) : WaitQueues :=
  let a := s.waits w
  (s.setEvent a.target ((s.events a.target).removeWaitList (.waiter w))).setWait w
    { a with life := .gone }

def step (s : WaitQueues) : QueueCall → Option WaitQueues
  | .awaitReady e =>
      if s.sections e = .free then some (s.setEvent e (s.events e).tryWaitOne.2) else none
  | .awaitSuspend e handler timed =>
      if s.sections e = .free then some (s.awaitSuspend e handler timed) else none
  | .waitAll targets handler timed =>
      if targets ≠ [] then some (s.waitAll targets handler timed) else none
  | .enlist j =>
      if j < s.joining ∧ (s.joins j).enlisted = false ∧ (s.joins j).sweeping = none ∧
          ∀ e ∈ (s.joins j).targets, s.sections e = .free then
        some (s.enlist j)
      else none
  | .signal e all => if s.sections e = .free then some (s.enter e (.popping all)) else none
  | .pop e => match s.sections e, (s.events e).tryPop with
      | .popping all, (some entry, popped) =>
          some ((s.setEvent e popped).enter e (.offering all entry))
      | _, _ => none
  | .notify e => match s.sections e with
      | .offering all entry =>
          if s.unlocked entry then some (s.notify e all entry) else none
      | _ => none
  | .leave e => match s.sections e, (s.events e).tryPop with
      | .popping all, (none, _) => some (s.leave e all)
      | _, _ => none
  | .timeout w => if w < s.waiting ∧ (s.waits w).timer = true then some (s.timeout w) else none
  | .removeWaitList w =>
      if w < s.waiting ∧ (s.waits w).expiry = .claimed ∧
          s.sections (s.waits w).target = .free then
        some (s.unlink w)
      else none
  | .finishTimeout w =>
      if w < s.waiting ∧ (s.waits w).expiry = .unlinked then some (s.finishTimeout w) else none
  | .timeoutAll j =>
      if j < s.joining ∧ (s.joins j).timer = true ∧ (s.joins j).sweeping = none then
        some (s.timeoutAll j)
      else none
  | .sweep j => if j < s.joining then s.sweep j else none
  | .resume w =>
      if w < s.waiting ∧ (s.waits w).life = .living ∧ (s.waits w).coro.isSome ∧
          0 < (s.waits w).scheduled then
        some (s.setWait w { s.waits w with toEventWaiter := (s.waits w).resume })
      else none
  | .resumeAll j =>
      if j < s.joining ∧ (s.joins j).life = .living ∧ (s.joins j).coro.isSome ∧
          0 < (s.joins j).scheduled then
        some (s.setJoin j { s.joins j with coro := none })
      else none
  | .destroy w =>
      if w < s.waiting ∧ (s.waits w).life = .living then some (s.destroy w) else none
  | .finishDestroy w =>
      if w < s.waiting ∧ (s.waits w).life = .destroying ∧
          s.sections (s.waits w).target = .free then
        some (s.finishDestroy w)
      else none
  | .destroyAll j =>
      if j < s.joining ∧ (s.joins j).enlisted = true ∧ (s.joins j).life = .living then
        some (s.setJoin j { s.joins j with life := .gone })
      else none

def system (counters : Nat → Int) : Transition.System WaitQueues QueueCall where
  init := { events := fun e => { counter := counters e } }
  step := step

end WaitQueues

end Librf
