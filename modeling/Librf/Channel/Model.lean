import Mathlib.Logic.Function.Basic
import Librf.RingQueue
import Librf.Base.Transition
import Librf.Base.Pairing

/-!
# `channel_impl_v2` and its awaiters

Every attempt runs under `_lock` and is one step. Awaiters are named by numbers; an awaiter is
described together with the `state_channel_t` it creates when it is queued.
-/

namespace Librf

inductive Waiter
  | reader (r : Nat)
  | writer (w : Nat)
  deriving DecidableEq, Repr

/-- A `read_awaiter` or `write_awaiter`: whether `_channel` is still set, the object `_value`, and
the fields of its state. -/
structure Awaiter (α : Type*) where
  channel : Bool := true
  value : Option α := none
  scheduler : Option Nat := none
  coro : Option Nat := none

structure Channel (useOption : Bool) (α : Type*) where
  maxCounter : Nat
  values : RingQueue useOption 32 α
  readAwakes : List Nat
  writeAwakes : List Nat
  readers : Nat → Awaiter α
  writers : Nat → Awaiter α
  -- the states handed to `add_generator`, oldest first
  notified : List Waiter

namespace Channel

variable {useOption : Bool} {α : Type*}

def new (useOption : Bool) (cacheSize : Nat) (vals : Nat → α) :
    Except Fault (Channel useOption α) := do
  let values ← RingQueue.new useOption 32 α cacheSize
  .ok { maxCounter := cacheSize, values, readAwakes := [], writeAwakes := [],
        readers := fun _ => {}, writers := fun w => { value := some (vals w) }, notified := [] }

def setReader (c : Channel useOption α) (r : Nat) (a : Awaiter α) : Channel useOption α :=
  { c with readers := Function.update c.readers r a }

def setWriter (c : Channel useOption α) (w : Nat) (a : Awaiter α) : Channel useOption α :=
  { c with writers := Function.update c.writers w a }

def onNotify (c : Channel useOption α) (who : Waiter) (a : Awaiter α) :
    Except Fault (Channel useOption α) :=
  if a.scheduler.isNone then .error .assertion
  else if a.coro.isSome then .ok { c with notified := c.notified ++ [who] }
  else .ok c

def awakeOneReader (c : Channel useOption α) : Except Fault (Channel useOption α) :=
  match c.readAwakes with
  | [] => .ok c
  | state :: rest =>
      if c.values.empty then .error .assertion
      else do
        let reader := c.readers state
        let popped ← c.values.tryPop reader.value
        let c := { c with readAwakes := rest, values := popped.state }
        (c.setReader state { reader with value := popped.value }).onNotify (.reader state) reader

def awakeOneReaderWith (c : Channel useOption α) (val : Option α) :
    Except Fault (Attempt (Channel useOption α) (Option α)) :=
  match c.readAwakes with
  | [] => .ok ⟨false, val, c⟩
  | state :: rest => do
      let reader := c.readers state
      let c := { c with readAwakes := rest }
      let c ← (c.setReader state { reader with value := val }).onNotify (.reader state) reader
      .ok ⟨true, none, c⟩

def awakeOneWriter (c : Channel useOption α) : Except Fault (Channel useOption α) :=
  match c.writeAwakes with
  | [] => .ok c
  | state :: rest => do
      let writer := c.writers state
      let pushed ← c.values.tryPush writer.value
      if pushed.accepted then
        let c := { c with writeAwakes := rest, values := pushed.state }
        (c.setWriter state { writer with value := pushed.value }).onNotify (.writer state) writer
      else .error .assertion

def awakeOneWriterTo (c : Channel useOption α) (val : Option α) :
    Except Fault (Attempt (Channel useOption α) (Option α)) :=
  match c.writeAwakes with
  | [] => .ok ⟨false, val, c⟩
  | state :: rest => do
      let writer := c.writers state
      let c := { c with writeAwakes := rest }
      let c ← (c.setWriter state { writer with value := none }).onNotify (.writer state) writer
      .ok ⟨true, writer.value, c⟩

def tryReadNolock (c : Channel useOption α) (val : Option α) :
    Except Fault (Attempt (Channel useOption α) (Option α)) := do
  let popped ← c.values.tryPop val
  if popped.accepted then
    let c ← awakeOneWriter { c with values := popped.state }
    .ok ⟨true, popped.value, c⟩
  else c.awakeOneWriterTo val

def tryWriteNolock (c : Channel useOption α) (val : Option α) :
    Except Fault (Attempt (Channel useOption α) (Option α)) := do
  let pushed ← c.values.tryPush val
  if pushed.accepted then
    let c ← awakeOneReader { c with values := pushed.state }
    .ok ⟨true, pushed.value, c⟩
  else c.awakeOneReaderWith val

/-- An attempt of read awaiter `r` on its own `_value`, by `await_ready` or by the destructor's
loop. An accepted attempt clears `_channel`. -/
def attemptRead (c : Channel useOption α) (r : Nat) :
    Except Fault (Attempt (Channel useOption α) Unit) := do
  let attempt ← c.tryReadNolock (c.readers r).value
  let reader := attempt.state.readers r
  .ok ⟨attempt.accepted, (), attempt.state.setReader r
    { reader with value := attempt.value, channel := reader.channel && !attempt.accepted }⟩

def attemptWrite (c : Channel useOption α) (w : Nat) :
    Except Fault (Attempt (Channel useOption α) Unit) := do
  let attempt ← c.tryWriteNolock (c.writers w).value
  let writer := attempt.state.writers w
  .ok ⟨attempt.accepted, (), attempt.state.setWriter w
    { writer with value := attempt.value, channel := writer.channel && !attempt.accepted }⟩

/-- `read_awaiter::await_suspend`: a refused attempt queues the awaiter under the same lock. The
result `accepted` is false when the coroutine stays suspended. -/
def suspendRead (c : Channel useOption α) (r handler sch : Nat) :
    Except Fault (Attempt (Channel useOption α) Unit) := do
  let attempt ← c.attemptRead r
  if attempt.accepted then .ok attempt
  else
    let reader := attempt.state.readers r
    let c := attempt.state.setReader r
      { reader with scheduler := some sch, coro := some handler, channel := false }
    .ok ⟨false, (), { c with readAwakes := c.readAwakes ++ [r] }⟩

def suspendWrite (c : Channel useOption α) (w handler sch : Nat) :
    Except Fault (Attempt (Channel useOption α) Unit) := do
  let attempt ← c.attemptWrite w
  if attempt.accepted then .ok attempt
  else
    let writer := attempt.state.writers w
    let c := attempt.state.setWriter w
      { writer with scheduler := some sch, coro := some handler, channel := false }
    .ok ⟨false, (), { c with writeAwakes := c.writeAwakes ++ [w] }⟩

/-- `read_awaiter::await_resume`, after `state_channel_t::resume` has cleared the handle. -/
def resumeRead (c : Channel useOption α) (r : Nat) :
    Except Fault (Attempt (Channel useOption α) (Option α)) := do
  let reader := c.readers r
  let taken ← RingQueue.takeSlot useOption reader.value
  .ok ⟨true, taken, c.setReader r { reader with value := none, coro := none }⟩

/-- `state_channel_t::resume` of a write awaiter; its `await_resume` returns nothing. -/
def resumeWrite (c : Channel useOption α) (w : Nat) : Channel useOption α :=
  c.setWriter w { c.writers w with coro := none }

end Channel

/-! ## Runs -/

inductive ChannelAction
  | tryRead (r : Nat)
  | suspendRead (r handler sch : Nat)
  | tryWrite (w : Nat)
  | suspendWrite (w handler sch : Nat)
  | resumeRead (r : Nat)
  | resumeWrite (w : Nat)
  deriving DecidableEq, Repr

/-- A channel with the history of its use: the accepted reads and writes in the order of
acceptance, those of them that were queued, and what `await_resume` returned. -/
structure ChannelRun (useOption : Bool) (α : Type*) where
  channel : Channel useOption α
  reads : List Nat := []
  writes : List Nat := []
  queuedReads : List Nat := []
  queuedWrites : List Nat := []
  results : Nat → Option α := fun _ => none

namespace ChannelRun

variable {useOption : Bool} {α : Type*}

/-- An awaiter attempts as long as its `_channel` is set. It is resumed at once when it was
accepted without being queued, and otherwise out of the run queue of its scheduler. -/
def enabled (s : ChannelRun useOption α) : ChannelAction → Bool
  | .tryRead r | .suspendRead r _ _ => (s.channel.readers r).channel
  | .tryWrite w | .suspendWrite w _ _ => (s.channel.writers w).channel
  | .resumeRead r =>
      !(s.channel.readers r).channel && (s.results r).isNone &&
        ((s.channel.readers r).coro.isNone || s.channel.notified.contains (.reader r))
  | .resumeWrite w =>
      (s.channel.writers w).coro.isSome && s.channel.notified.contains (.writer w)

def perform (s : ChannelRun useOption α) : ChannelAction → Except Fault (ChannelRun useOption α)
  | .tryRead r => do
      let attempt ← s.channel.attemptRead r
      .ok { s with channel := attempt.state
                   reads := if attempt.accepted then s.reads ++ [r] else s.reads }
  | .suspendRead r handler sch => do
      let attempt ← s.channel.suspendRead r handler sch
      .ok { s with channel := attempt.state
                   reads := s.reads ++ [r]
                   queuedReads := if attempt.accepted then s.queuedReads else s.queuedReads ++ [r] }
  | .tryWrite w => do
      let attempt ← s.channel.attemptWrite w
      .ok { s with channel := attempt.state
                   writes := if attempt.accepted then s.writes ++ [w] else s.writes }
  | .suspendWrite w handler sch => do
      let attempt ← s.channel.suspendWrite w handler sch
      .ok { s with channel := attempt.state
                   writes := s.writes ++ [w]
                   queuedWrites :=
                     if attempt.accepted then s.queuedWrites else s.queuedWrites ++ [w] }
  | .resumeRead r => do
      let resumed ← s.channel.resumeRead r
      .ok { s with channel := resumed.state
                   results := Function.update s.results r resumed.value }
  | .resumeWrite w => .ok { s with channel := s.channel.resumeWrite w }

def step (s : ChannelRun useOption α) (action : ChannelAction) : Option (ChannelRun useOption α) :=
  if s.enabled action then (s.perform action).toOption else none

def system (c : Channel useOption α) : Transition.System (ChannelRun useOption α) ChannelAction where
  init := { channel := c }
  step := step

def received (s : ChannelRun useOption α) (r : Nat) : Option α :=
  (s.results r).or (s.channel.readers r).value

def pairing (s : ChannelRun useOption α) : Pairing Nat Nat := ⟨s.reads, s.writes⟩

end ChannelRun

end Librf
