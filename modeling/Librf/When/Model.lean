import Mathlib.Logic.Function.Basic
import Librf.Base.Transition
import Librf.Future.State

/-!
# `when_all` and `when_any`

One connector coroutine per child, the state `state_when_t` they share, and the coroutine that
awaits it. Every load, store and locked section is a step of its own.
-/

namespace Librf

inductive WhenKind
  | all
  | any
  deriving DecidableEq, Repr

structure WhenState where
  counter : Int
  scheduler : Option Nat := none
  coro : Option Nat := none
  deriving DecidableEq, Repr

namespace WhenState

def awaitReady (st : WhenState) : Bool := st.counter == 0

/-- `on_notify_one`: the new state, the result, and the scheduler whose run queue gets the state.
The assertion `_scheduler != nullptr` is `notifyAssertion`. -/
def onNotifyOne (st : WhenState) : WhenState × Bool × Option Nat :=
  let after := { st with counter := st.counter - 1 }
  if st.counter = 1 then (after, true, if st.coro.isSome then st.scheduler else none)
  else (after, false, none)

def notifyAssertion (st : WhenState) : Prop := st.counter = 1 → st.scheduler.isSome

end WhenState

/-- `*_values` of the `when_future_t`: the tuple or vector of `when_all`, the pair of `when_any`. -/
structure WhenValues (α : Type*) where
  values : Nat → Option α := fun _ => none
  first : Int := -1
  second : Option α := none

inductive Connector (α : Type*)
  | awaiting
  | returned (v : α)
  -- it has won the compare-exchange of `when_any`
  | claimed (v : α)
  | stored
  | notified
  | beaten
  | failed
  deriving DecidableEq, Repr

inductive WhenPlace
  | away
  | transformed
  | unready
  -- `on_await_suspend` has stored `_scheduler` and not yet `_coro`
  | halfway
  | suspended
  | arrived
  deriving DecidableEq, Repr

inductive WhenAction (α ε : Type*)
  | finish (i : Nat) (o : Outcome α ε)
  | advance (i : Nat)
  | transform (sch : Nat)
  | test
  | storeScheduler (sch : Nat)
  | storeCoro (handler : Nat)
  | resume
  deriving DecidableEq, Repr

structure When (α ε : Type*) where
  kind : WhenKind
  size : Nat
  state : WhenState
  values : WhenValues α := {}
  connectors : Nat → Connector α := fun _ => .awaiting
  -- the connectors' own states
  promises : Nat → FutureState Unit ε := fun _ => { isFuture := true }
  place : WhenPlace := .away
  queue : List Nat := []
  -- history
  outcomes : Nat → Option (Outcome α ε) := fun _ => none
  -- the counter came to 0 between the ready test and the store of the handle
  missed : Bool := false

namespace When

variable {α ε : Type*}

/-- The counter of `when_all` is the number of children, that of `when_any` is 1 if there are any. -/
def initial (α ε : Type*) (kind : WhenKind) (size : Nat) : When α ε :=
  { kind, size
    state := { counter := match kind with
                 | .all => size
                 | .any => if size = 0 then 0 else 1 } }

def setConnector (w : When α ε) (i : Nat) (connector : Connector α) : When α ε :=
  { w with connectors := Function.update w.connectors i connector }

/-- The coroutine ends: `return_void` or `unhandled_exception` of the connector's promise. -/
def settle (w : When α ε) (i : Nat) (o : Outcome Unit ε) : When α ε :=
  { w with promises := Function.update w.promises i ((w.promises i).complete .unit o none).1 }

def notifyOne (w : When α ε) : When α ε :=
  let notified := w.state.onNotifyOne
  { w with state := notified.1
           queue := w.queue ++ notified.2.2.toList
           missed := w.missed || notified.2.1 && (w.place == .unready || w.place == .halfway) }

def finishChild (w : When α ε) (i : Nat) (o : Outcome α ε) : When α ε :=
  let w := { w with outcomes := Function.update w.outcomes i (some o) }
  match o with
  | .value v => w.setConnector i (.returned v)
  | .exception e => (w.setConnector i .failed).settle i (.exception e)

def advanceConnector (w : When α ε) (i : Nat) : Option (When α ε) :=
  match w.kind, w.connectors i with
  | .all, .returned v =>
      some { w.setConnector i .stored with
        values := { w.values with values := Function.update w.values.values i (some v) } }
  | .any, .returned v =>
      if w.values.first = -1 then
        some { w.setConnector i (.claimed v) with values := { w.values with first := i } }
      else some ((w.setConnector i .beaten).settle i (.value ()))
  | .any, .claimed v =>
      some { w.setConnector i .stored with values := { w.values with second := some v } }
  | _, .stored => some ((w.notifyOne.setConnector i .notified).settle i (.value ()))
  | _, _ => none

def step (w : When α ε) : WhenAction α ε → Option (When α ε)
  | .finish i o => match w.connectors i with
      | .awaiting => if i < w.size then some (w.finishChild i o) else none
      | _ => none
  | .advance i => w.advanceConnector i
  | .transform sch =>
      if w.place = .away then
        some { w with place := .transformed, state := { w.state with scheduler := some sch } }
      else none
  | .test =>
      if w.place = .transformed then
        some { w with place := if w.state.awaitReady then .arrived else .unready }
      else none
  | .storeScheduler sch =>
      if w.place = .unready then
        some { w with place := .halfway, state := { w.state with scheduler := some sch } }
      else none
  | .storeCoro handler =>
      if w.place = .halfway then
        some { w with place := .suspended, state := { w.state with coro := some handler } }
      else none
  | .resume => match w.queue with
      | [] => none
      | _ :: rest =>
          let w := { w with queue := rest }
          if w.state.coro.isSome then
            some { w with place := .arrived, state := { w.state with coro := none } }
          else some w

def system (α ε : Type*) (kind : WhenKind) (size : Nat) :
    Transition.System (When α ε) (WhenAction α ε) where
  init := initial α ε kind size
  step := step

/-! ## What each operation does -/

variable {w t : When α ε}

inductive Connects (w : When α ε) (i : Nat) : When α ε → Prop
  | storeElement (v : α) (all : w.kind = .all) (returned : w.connectors i = .returned v) :
      Connects w i { w.setConnector i .stored with
        values := { w.values with values := Function.update w.values.values i (some v) } }
  | claim (v : α) (any : w.kind = .any) (returned : w.connectors i = .returned v)
      (first : w.values.first = -1) :
      Connects w i { w.setConnector i (.claimed v) with values := { w.values with first := i } }
  | beaten (v : α) (any : w.kind = .any) (returned : w.connectors i = .returned v)
      (taken : w.values.first ≠ -1) :
      Connects w i ((w.setConnector i .beaten).settle i (.value ()))
  | storeSecond (v : α) (any : w.kind = .any) (claimed : w.connectors i = .claimed v) :
      Connects w i { w.setConnector i .stored with values := { w.values with second := some v } }
  | notify (stored : w.connectors i = .stored) :
      Connects w i ((w.notifyOne.setConnector i .notified).settle i (.value ()))

theorem connects_of_advance {i : Nat} (action : w.advanceConnector i = some t) :
    w.Connects i t := by
  unfold advanceConnector at action
  split at action
  · rename_i v all returned
    cases action
    exact .storeElement v all returned
  · rename_i v any returned
    split at action
    · rename_i first
      cases action
      exact .claim v any returned first
    · rename_i taken
      cases action
      exact .beaten v any returned taken
  · rename_i v any claimed
    cases action
    exact .storeSecond v any claimed
  · rename_i stored
    cases action
    exact .notify stored
  · cases action

inductive Effect (w : When α ε) : WhenAction α ε → When α ε → Prop
  | finish {i : Nat} {o : Outcome α ε} (awaiting : w.connectors i = .awaiting)
      (inside : i < w.size) : Effect w (.finish i o) (w.finishChild i o)
  | advance {i : Nat} {t : When α ε} (connects : w.Connects i t) : Effect w (.advance i) t
  | transform {sch : Nat} (away : w.place = .away) : Effect w (.transform sch)
      { w with place := .transformed, state := { w.state with scheduler := some sch } }
  | test (transformed : w.place = .transformed) : Effect w .test
      { w with place := if w.state.awaitReady then .arrived else .unready }
  | storeScheduler {sch : Nat} (unready : w.place = .unready) : Effect w (.storeScheduler sch)
      { w with place := .halfway, state := { w.state with scheduler := some sch } }
  | storeCoro {handler : Nat} (halfway : w.place = .halfway) : Effect w (.storeCoro handler)
      { w with place := .suspended, state := { w.state with coro := some handler } }
  | resume {sch : Nat} {rest : List Nat} (queue : w.queue = sch :: rest)
      (coro : w.state.coro.isSome = true) : Effect w .resume
      { w with queue := rest, place := .arrived, state := { w.state with coro := none } }
  | discard {sch : Nat} {rest : List Nat} (queue : w.queue = sch :: rest)
      (coro : ¬ w.state.coro.isSome = true) : Effect w .resume { w with queue := rest }

theorem effect_of_step {action : WhenAction α ε} (action_ : w.step action = some t) :
    w.Effect action t := by
  cases action with
  | finish i o =>
      simp only [step] at action_
      split at action_
      · rename_i awaiting
        simp only [Option.ite_none_right_eq_some, Option.some.injEq] at action_
        obtain ⟨inside, rfl⟩ := action_
        exact .finish awaiting inside
      · cases action_
  | advance i => exact .advance (connects_of_advance action_)
  | transform sch =>
      simp only [step, Option.ite_none_right_eq_some, Option.some.injEq] at action_
      obtain ⟨away, rfl⟩ := action_
      exact .transform away
  | test =>
      simp only [step, Option.ite_none_right_eq_some, Option.some.injEq] at action_
      obtain ⟨transformed, rfl⟩ := action_
      exact .test transformed
  | storeScheduler sch =>
      simp only [step, Option.ite_none_right_eq_some, Option.some.injEq] at action_
      obtain ⟨unready, rfl⟩ := action_
      exact .storeScheduler unready
  | storeCoro handler =>
      simp only [step, Option.ite_none_right_eq_some, Option.some.injEq] at action_
      obtain ⟨halfway, rfl⟩ := action_
      exact .storeCoro halfway
  | resume =>
      simp only [step] at action_
      split at action_
      · cases action_
      · rename_i queue
        split at action_
        · rename_i coro
          cases action_
          exact .resume queue coro
        · rename_i coro
          cases action_
          exact .discard queue coro

end When

end Librf
