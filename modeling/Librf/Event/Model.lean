import Mathlib.Logic.Function.Basic
import Librf.Base.Transition

/-!
# `event_t`

`event_v2_impl`, the `state_event_t` of each suspended coroutine, and the calls that are in
progress. What is done under `_lock` without a compare-exchange is one step. The loops of `signal`
and `signal_all` are cut at their compare-exchange, because `on_timeout` makes its own without the
lock.
-/

namespace Librf

/-- `ω` is what stands for a `state_event_base_t`. -/
structure EventImpl (ω : Type) where
  counter : Int
  waitAwakes : List ω := []
  deriving DecidableEq, Repr

namespace EventImpl

variable {ω : Type}

def fetchAdd (e : EventImpl ω) (n : Int) : Int × EventImpl ω :=
  (e.counter, { e with counter := e.counter + n })

def tryWaitOne (e : EventImpl ω) : Bool × EventImpl ω :=
  if e.counter > 0 then
    let taken := e.fetchAdd (-1)
    if taken.1 > 0 then (true, taken.2) else (false, (taken.2.fetchAdd 1).2)
  else (false, e)

def addWaitList (e : EventImpl ω) (w : ω) : EventImpl ω :=
  { e with waitAwakes := e.waitAwakes ++ [w] }

def removeWaitList [DecidableEq ω] (e : EventImpl ω) (w : ω) : EventImpl ω :=
  { e with waitAwakes := e.waitAwakes.erase w }

end EventImpl

structure StateEvent where
  coro : Option Nat
  -- `_value` still holds the address of the awaiter's `_event`
  value : Bool := true
  -- the awaiter's `_event` is not null
  event : Bool := true
  -- `_thandler` is set
  timer : Bool
  deriving DecidableEq, Repr

namespace StateEvent

/-- The compare-exchange of `on_notify` and `on_timeout`, if it succeeds. -/
def claim (st : StateEvent) : Option StateEvent :=
  if st.value then some { st with value := false } else none

def notified (st : StateEvent) : StateEvent := { st with event := true, timer := false }

def expired (st : StateEvent) : StateEvent := { st with event := false, timer := false }

end StateEvent

/-- How far `on_timeout` is after its compare-exchange. -/
inductive Expiry
  | idle
  | claimed
  -- `remove_wait_list` has returned
  | unlinked
  deriving DecidableEq, Repr

structure EventWaiter extends StateEvent where
  expiry : Expiry := .idle
  -- history
  signaled : Bool := false
  timedOut : Bool := false
  scheduled : Nat := 0
  results : List Bool := []
  deriving DecidableEq, Repr

/-- A call of `signal` or `signal_all`: the counter and the pending waiters it has found, and the
waiters it has woken. -/
structure SignalCall where
  all : Bool
  before : Int
  pending : List Nat
  woken : List Nat := []
  deriving DecidableEq, Repr

inductive SignalSection
  | free
  -- at the head of the loop
  | popping (call : SignalCall)
  -- before the compare-exchange of `on_notify`
  | offering (call : SignalCall) (w : Nat)
  -- after a successful compare-exchange
  | notifying (call : SignalCall) (w : Nat)
  deriving DecidableEq, Repr

inductive EventAction
  | awaitReady
  -- `await_suspend2`, with a timer or without
  | awaitSuspend (handler : Nat) (timed : Bool)
  | signal
  | signalAll
  | pop
  | notify
  | finishNotify
  | leave
  | timeout (w : Nat)
  | removeWaitList (w : Nat)
  | finishTimeout (w : Nat)
  -- A scheduler takes the state of `w` out of its run queue
  | resume (w : Nat)
  -- the destructor of the awaiter
  | destroy (w : Nat)
  deriving DecidableEq, Repr

structure Event extends EventImpl Nat where
  lockSection : SignalSection := .free
  waiters : Nat → EventWaiter := fun _ => { coro := none, timer := false }
  -- waiters are numbered in the order in which they suspend
  created : Nat := 0
  -- the run queues of all schedulers
  runQueue : List Nat := []
  -- history
  tokens : Nat := 0
  wakes : List Nat := []
  -- completed calls, with the counter they have left
  calls : List (SignalCall × Int) := []

namespace Event

def setWaiter (s : Event) (w : Nat) (waiter : EventWaiter) : Event :=
  { s with waiters := Function.update s.waiters w waiter }

def pending (s : Event) : List Nat := (List.range s.created).filter fun w => (s.waiters w).value

def awaitReady (s : Event) : Event :=
  let tried := s.tryWaitOne
  { s with toEventImpl := tried.2, tokens := if tried.1 then s.tokens + 1 else s.tokens }

def awaitSuspend (s : Event) (handler : Nat) (timed : Bool) : Event :=
  let tried := s.tryWaitOne
  if tried.1 then { s with toEventImpl := tried.2, tokens := s.tokens + 1 }
  else { s.setWaiter s.created { coro := some handler, timer := timed } with
           toEventImpl := tried.2.addWaitList s.created
           created := s.created + 1 }

def beginSignal (s : Event) (all : Bool) : Event :=
  { s with lockSection := .popping { all, before := s.counter, pending := s.pending } }

/-- The compare-exchange of `on_notify`. -/
def notify (s : Event) (call : SignalCall) (w : Nat) : Event :=
  match (s.waiters w).claim with
  | some state =>
      { s.setWaiter w { s.waiters w with toStateEvent := state, signaled := true } with
          lockSection := .notifying { call with woken := call.woken ++ [w] } w
          wakes := s.wakes ++ [w] }
  | none => { s with lockSection := .popping call }

/-- `add_generator`, which is called only if the waiter has a handle. -/
def schedule (s : Event) (w : Nat) : Event :=
  if (s.waiters w).coro.isSome then
    { s.setWaiter w { s.waiters w with scheduled := (s.waiters w).scheduled + 1 } with
        runQueue := s.runQueue ++ [w] }
  else s

def complete (s : Event) (call : SignalCall) : Event :=
  { s with lockSection := .free, calls := s.calls ++ [(call, s.counter)] }

/-- `signal` returns after its first successful `on_notify`, `signal_all` goes on. -/
def finishNotify (s : Event) (call : SignalCall) (w : Nat) : Event :=
  let s := (s.setWaiter w { s.waiters w with toStateEvent := (s.waiters w).notified }).schedule w
  if call.all then { s with lockSection := .popping call } else s.complete call

def leave (s : Event) (call : SignalCall) : Event :=
  if call.all then s.complete call
  else { s with toEventImpl := (s.fetchAdd 1).2 }.complete call

def timeout (s : Event) (w : Nat) : Event :=
  match (s.waiters w).claim with
  | some state =>
      s.setWaiter w { s.waiters w with
        toStateEvent := state, expiry := .claimed, timedOut := true }
  | none => s

/-- `on_timeout` takes its waiter out of the queue of the event that the awaiter still names. -/
def unlink (s : Event) (w : Nat) : Event :=
  let s := s.setWaiter w { s.waiters w with expiry := .unlinked }
  if (s.waiters w).event then { s with toEventImpl := s.toEventImpl.removeWaitList w } else s

def finishTimeout (s : Event) (w : Nat) : Event :=
  (s.setWaiter w { s.waiters w with
    toStateEvent := (s.waiters w).expired, expiry := .idle }).schedule w

/-- `state_base_t::resume`; the coroutine goes on with `await_resume`. -/
def resume (s : Event) (w : Nat) : Event :=
  let s := { s with runQueue := s.runQueue.erase w }
  if (s.waiters w).coro.isSome then
    s.setWaiter w { s.waiters w with
      coro := none, results := (s.waiters w).results ++ [(s.waiters w).event] }
  else s

def destroy (s : Event) (w : Nat) : Event :=
  if (s.waiters w).event then { s with toEventImpl := s.toEventImpl.removeWaitList w } else s

def step (s : Event) : EventAction → Option Event
  | .awaitReady => if s.lockSection = .free then some s.awaitReady else none
  | .awaitSuspend handler timed =>
      if s.lockSection = .free then some (s.awaitSuspend handler timed) else none
  | .signal => if s.lockSection = .free then some (s.beginSignal false) else none
  | .signalAll => if s.lockSection = .free then some (s.beginSignal true) else none
  | .pop => match s.lockSection, s.waitAwakes with
      | .popping call, w :: rest =>
          some { s with waitAwakes := rest, lockSection := .offering call w }
      | _, _ => none
  | .notify => match s.lockSection with
      | .offering call w => some (s.notify call w)
      | _ => none
  | .finishNotify => match s.lockSection with
      | .notifying call w => some (s.finishNotify call w)
      | _ => none
  | .leave => match s.lockSection, s.waitAwakes with
      | .popping call, [] => some (s.leave call)
      | _, _ => none
  | .timeout w =>
      if w < s.created ∧ (s.waiters w).timer = true then some (s.timeout w) else none
  | .removeWaitList w =>
      if w < s.created ∧ (s.waiters w).expiry = .claimed ∧ s.lockSection = .free then
        some (s.unlink w)
      else none
  | .finishTimeout w =>
      if w < s.created ∧ (s.waiters w).expiry = .unlinked then some (s.finishTimeout w) else none
  | .resume w => if w ∈ s.runQueue then some (s.resume w) else none
  | .destroy w =>
      if w < s.created ∧ (s.waiters w).results ≠ [] ∧ s.lockSection = .free then
        some (s.destroy w)
      else none

def initial (initially : Bool) : Event := { counter := if initially then 1 else 0 }

def system (initially : Bool) : Transition.System Event EventAction where
  init := initial initially
  step := step

end Event

end Librf
