import Mathlib.Data.List.Count
import Librf.Event.All

/-!
# `wait_all`

One coroutine in a `wait_all` over a list of events, among other waiters of the same events. Each
`on_notify` and `on_timeout` of its state is one step; the signals of different events, and the
time-out, come between the pops and the notifications of one another.

`await_suspend2` gives its reference to the state back before `~batch_lock_t` releases the `_lock`
in that state. Without a timer nothing else keeps the state then.
-/

namespace Librf

inductive JoinEntry
  -- the proxy for the position `idx`
  | proxy (idx : Nat)
  -- some other waiter
  | other (w : Nat)
  deriving DecidableEq, Repr

inductive JoinSection
  | free
  -- at the head of the loop of `signal` or `signal_all`
  | popping (all : Bool)
  -- before `on_notify`
  | offering (all : Bool) (entry : JoinEntry)
  deriving DecidableEq, Repr

inductive JoiningAction
  | waitAll (handler : Nat) (timed : Bool)
  -- another waiter takes a token or joins the queue, or it leaves the queue
  | wait (e w : Nat)
  | leaveQueue (e w : Nat)
  | signal (e : Nat) (all : Bool)
  | pop (e : Nat)
  -- `answer` is what `on_notify` of another waiter returns
  | notify (e : Nat) (answer : Bool)
  | leave (e : Nat)
  | timeout
  | resume
  deriving DecidableEq, Repr

structure Joining where
  listed : List Nat
  events : Nat → EventImpl JoinEntry
  sections : Nat → JoinSection := fun _ => .free
  state : Option StateEventAll := none
  -- `await_suspend2` has returned true
  suspended : Bool := false
  -- `await_suspend2` has given up the last reference; `state` is what it was
  deleted : Bool := false
  -- the `_lock` of a deleted state has been written
  corrupted : Bool := false
  -- history: what `await_resume` has returned
  results : List Bool := []

namespace StateEventAll

def sweep : List Nat → (Nat → EventImpl JoinEntry) → StateEventAll →
    (Nat → EventImpl JoinEntry) × StateEventAll
  | [], events, st => (events, st)
  | idx :: rest, events, st =>
      let forgotten := st.forget idx
      match forgotten.1 with
      | none => sweep rest events forgotten.2
      | some e => sweep rest
          (Function.update events e ((events e).removeWaitList (.proxy idx))) forgotten.2

end StateEventAll

namespace Joining

def setEvent (s : Joining) (e : Nat) (event : EventImpl JoinEntry) : Joining :=
  { s with events := Function.update s.events e event }

def enter (s : Joining) (e : Nat) (section_ : JoinSection) : Joining :=
  { s with sections := Function.update s.sections e section_ }

/-- `~batch_lock_t`; the `_lock` of the state is the last one. -/
def unlockLocks (s : Joining) : Joining := { s with corrupted := s.corrupted || s.deleted }

/-- `await_ready` and `await_suspend2`; a coroutine that does not suspend goes on at once. -/
def waitAll (s : Joining) (handler : Nat) (timed : Bool) : Joining :=
  if s.listed = [] then { s with results := s.results ++ [true] }
  else
    let created := StateEventAll.create s.listed.length handler timed
    let enlisted := created.enlist .proxy s.listed 0 s.events
    let s := { s with events := enlisted.1, state := some enlisted.2 }
    -- The callback of a timer has a reference of its own.
    let s := if enlisted.2.counter = 0 then
        { s with results := s.results ++ [true], deleted := !timed }
      else { s with suspended := true }
    s.unlockLocks

def wait (s : Joining) (e w : Nat) : Joining :=
  let tried := (s.events e).tryWaitOne
  if tried.1 then s.setEvent e tried.2 else s.setEvent e (tried.2.addWaitList (.other w))

/-- The loop of `signal` ends with a waiter that accepts, that of `signal_all` goes on. -/
def notify (s : Joining) (st : StateEventAll) (e : Nat) (all : Bool) (answer : Bool) :
    JoinEntry → Joining
  | .proxy idx =>
      let notified := st.onNotify idx
      { s with state := some notified.2 }.enter e
        (if notified.1 && !all then .free else .popping all)
  | .other _ => s.enter e (if answer && !all then .free else .popping all)

def leave (s : Joining) (e : Nat) (all : Bool) : Joining :=
  (if all then s else s.setEvent e ((s.events e).fetchAdd 1).2).enter e .free

def timeout (s : Joining) (st : StateEventAll) : Joining :=
  match st.expire with
  | none => { s with state := some { st with timer := false } }
  | some state =>
      let swept := state.sweep (List.range state.values.length) s.events
      { s with events := swept.1, state := some swept.2.schedule }

def resume (s : Joining) (st : StateEventAll) : Joining :=
  { s with state := some { st with coro := none }, results := s.results ++ [st.result] }

def step (s : Joining) : JoiningAction → Option Joining
  | .waitAll handler timed =>
      if s.state = none ∧ s.results = [] ∧ ∀ e ∈ s.listed, s.sections e = .free then
        some (s.waitAll handler timed)
      else none
  | .wait e w => if s.sections e = .free then some (s.wait e w) else none
  | .leaveQueue e w =>
      if s.sections e = .free then
        some (s.setEvent e ((s.events e).removeWaitList (.other w)))
      else none
  | .signal e all => if s.sections e = .free then some (s.enter e (.popping all)) else none
  | .pop e => match s.sections e, (s.events e).waitAwakes with
      | .popping all, entry :: rest => some
          ((s.setEvent e { s.events e with waitAwakes := rest }).enter e (.offering all entry))
      | _, _ => none
  | .notify e answer => match s.sections e, s.state with
      | .offering all entry, some st => some (s.notify st e all answer entry)
      | .offering all (.other _), none =>
          some (s.enter e (if answer && !all then .free else .popping all))
      | _, _ => none
  | .leave e => match s.sections e, (s.events e).waitAwakes with
      | .popping all, [] => some (s.leave e all)
      | _, _ => none
  | .timeout => match s.state with
      | some st => if st.timer then some (s.timeout st) else none
      | none => none
  | .resume => match s.state with
      | some st => if st.coro.isSome ∧ 0 < st.scheduled then some (s.resume st) else none
      | none => none

def system (listed : List Nat) (counters : Nat → Int) :
    Transition.System Joining JoiningAction where
  init := { listed, events := fun e => { counter := counters e } }
  step := step

end Joining

end Librf
