import Librf.Event.Model

/-!
# `state_event_all_t`

What a `wait_all` over a list of events keeps: one sub-state for each event, and the number of events
that have not supplied a token.
-/

namespace Librf

structure SubState where
  -- there is a proxy, and it has not been notified
  first : Bool := false
  second : Option Nat := none
  deriving DecidableEq, Repr

structure StateEventAll where
  values : List SubState
  counter : Int
  coro : Option Nat
  -- `_thandler` is set
  timer : Bool
  -- `*_result`
  result : Bool := false
  -- history
  scheduled : Nat := 0
  -- the positions whose event has supplied a token
  supplied : List Nat := []
  expired : Bool := false
  deriving DecidableEq, Repr

namespace StateEventAll

def create (count : Nat) (handler : Nat) (timed : Bool) : StateEventAll :=
  { values := List.replicate count {}, counter := count, coro := some handler, timer := timed }

def supply (st : StateEventAll) (idx e : Nat) : StateEventAll :=
  { st with
      counter := st.counter - 1
      values := st.values.modify idx fun sub => { sub with second := some e }
      supplied := st.supplied ++ [idx] }

def enroll (st : StateEventAll) (idx e : Nat) : StateEventAll :=
  { st with values := st.values.modify idx fun _ => { first := true, second := some e } }

/-- `add_generator`, which is called only if the state has a handle. -/
def schedule (st : StateEventAll) : StateEventAll :=
  if st.coro.isSome then { st with scheduled := st.scheduled + 1 } else st

def notified (st : StateEventAll) (idx : Nat) : StateEventAll :=
  { st with
      values := st.values.modify idx fun sub => { sub with first := false }
      counter := st.counter - 1
      supplied := st.supplied ++ [idx] }

def onNotify (st : StateEventAll) (idx : Nat) : Bool × StateEventAll :=
  if st.counter ≤ 0 then (false, st)
  else
    let st := st.notified idx
    if st.counter = 0 then
      (true, schedule { st with result := st.values.all fun sub => sub.second.isSome, timer := false })
    else (true, st)

/-- `on_timeout` before its loop; it returns at once when nothing is missing. -/
def expire (st : StateEventAll) : Option StateEventAll :=
  if st.counter ≤ 0 then none
  else some { st with counter := 0, result := false, timer := false, expired := true }

/-- A turn of the loop of `on_timeout`: the event whose queue the proxy has to leave. -/
def forget (st : StateEventAll) (idx : Nat) : Option Nat × StateEventAll :=
  match st.values[idx]? with
  | some { first := true, second } =>
      (second, { st with values := st.values.modify idx fun sub => { sub with second := none } })
  | _ => (none, st)

/-- The loop of `await_suspend2`, with all locks held, from the position `idx` on. -/
def enlist {ω : Type} (proxy : Nat → ω) : List Nat → Nat → (Nat → EventImpl ω) → StateEventAll →
    (Nat → EventImpl ω) × StateEventAll
  | [], _, events, st => (events, st)
  | e :: rest, idx, events, st =>
      let tried := (events e).tryWaitOne
      if tried.1 then
        enlist proxy rest (idx + 1) (Function.update events e tried.2) (st.supply idx e)
      else
        enlist proxy rest (idx + 1) (Function.update events e (tried.2.addWaitList (proxy idx)))
          (st.enroll idx e)

end StateEventAll

end Librf
