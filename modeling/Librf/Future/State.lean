import Librf.RingQueue

/-!
# `state_future_t` and `state_t`

Schedulers, coroutine handles and the states they belong to are numbers: a coroutine, its handle
and its promise's state share one. `_initor` is always the handle of the state's own coroutine, so
`_is_initor` alone is kept. Each member function that takes `_mtx` is one function here; its calls
into a scheduler are returned beside the new state.
-/

namespace Librf

inductive Kind
  | object
  | reference
  | unit
  deriving DecidableEq, Repr

inductive ResultType
  | none
  | value
  | exception
  deriving DecidableEq, Repr

inductive InitorType
  | none
  | initial
  | final
  deriving DecidableEq, Repr

/-- Calls of `scheduler_t`'s member functions with the state as argument. -/
inductive Call
  | addGenerator (sch : Nat)
  | delFinal (sch : Nat)
  deriving DecidableEq, Repr

inductive Outcome (α ε : Type*)
  | value (v : α)
  | exception (e : ε)
  deriving DecidableEq, Repr

/-- What `future_await_resume` does. A moved-from value and the `void` result are `none`. -/
inductive Reading (α ε : Type*)
  | returned (v : Option α)
  | threw (e : ε)
  | notReady
  | nullRethrow
  deriving DecidableEq, Repr

/-- Which handle `resume` takes and what for. -/
inductive Resumption
  | start
  | wake (handler : Nat)
  | destroy
  | nothing
  deriving DecidableEq, Repr

structure FutureState (α ε : Type*) where
  scheduler : Option Nat := none
  coro : Option Nat := none
  parent : Option Nat := none
  hasValue : ResultType := .none
  isFuture : Bool
  isInitor : InitorType := .none
  value : Option α := none
  exception : Option ε := none
  deriving DecidableEq, Repr

namespace FutureState

variable {α ε : Type*}

/-- `root` is the scheduler of the root above `_parent`. -/
def getScheduler (st : FutureState α ε) (root : Option Nat) : Option Nat :=
  st.scheduler.or (if st.parent.isSome then root else none)

def isReady (st : FutureState α ε) : Bool := st.hasValue != .none || st.isFuture

def hasHandlerSkipLock (st : FutureState α ε) : Bool := st.coro.isSome || st.isInitor != .none

def futureAwaitReady (st : FutureState α ε) : Bool := st.hasValue != .none

/-- The co_await of coroutine `handler`, which runs on `sch`; `this` is the state's own coroutine,
if it has one. -/
def futureAwaitSuspend (st : FutureState α ε) (this : Option Nat) (handler : Nat)
    (sch : Option Nat) : FutureState α ε × List Call :=
  let st := if this = some handler then st else { st with parent := some handler, scheduler := sch }
  let st := if st.coro.isNone then { st with coro := some handler } else st
  match sch with
  | some s => (st, if st.isReady then [.addGenerator s] else [])
  | none => (st, [])

def futureAwaitResume (kind : Kind) (st : FutureState α ε) : Reading α ε × FutureState α ε :=
  match kind, st.hasValue with
  | .unit, tag =>
      match st.exception with
      | some e => (.threw e, { st with exception := none })
      | none => (if tag = .none then .notReady else .returned none, st)
  | _, .none => (.notReady, st)
  | _, .exception =>
      (st.exception.elim .nullRethrow .threw, { st with exception := none })
  | .object, .value => (.returned st.value, { st with value := none })
  | .reference, .value => (.returned st.value, st)

def setValueInternal (kind : Kind) (v : α) (st : FutureState α ε) : FutureState α ε :=
  match kind with
  | .unit => { st with hasValue := .value }
  | _ => { st with
      hasValue := .value
      value := some v
      exception := if st.hasValue = .exception then none else st.exception }

/-- Of the three, only `state_t<void>` keeps its exception outside of the tag. -/
def setExceptionInternal (kind : Kind) (e : ε) (st : FutureState α ε) : FutureState α ε :=
  match kind with
  | .unit => { st with exception := some e }
  | _ => { st with
      hasValue := .exception
      exception := some e
      value := if st.hasValue = .value then none else st.value }

/-- `set_value` and `set_exception` without their notification. -/
def assign (kind : Kind) (o : Outcome α ε) (st : FutureState α ε) : FutureState α ε :=
  match o with
  | .value v => st.setValueInternal kind v
  | .exception e => st.setExceptionInternal kind e

def complete (kind : Kind) (o : Outcome α ε) (st : FutureState α ε) (root : Option Nat) :
    FutureState α ε × List Call :=
  let st := st.assign kind o
  match st.getScheduler root with
  | some sch => (st, if st.hasHandlerSkipLock then [.addGenerator sch] else [.delFinal sch])
  | none => (st, [])

/-- `handler` is not done when it yields. -/
def promiseYieldValue (kind : Kind) (v : α) (handler : Nat) (st : FutureState α ε)
    (root : Option Nat) : FutureState α ε × List Call :=
  let st := if st.coro.isNone then { st with coro := some handler } else st
  let st := st.setValueInternal kind v
  match st.getScheduler root with
  | some sch => (st, [.addGenerator sch])
  | none => (st, [])

def promiseInitialSuspend (st : FutureState α ε) : FutureState α ε := { st with isInitor := .initial }

def promiseFinalSuspend (st : FutureState α ε) (root : Option Nat) :
    Except Fault (FutureState α ε × List Call) :=
  let st := { st with isInitor := .final }
  match st.getScheduler root with
  | some sch =>
      .ok (st, (if st.hasHandlerSkipLock then [.addGenerator sch] else []) ++ [.delFinal sch])
  | none => .error .assertion

def resume (st : FutureState α ε) : Resumption × FutureState α ε :=
  if st.isInitor = .initial then (.start, { st with isInitor := .none })
  else match st.coro with
    | some handler => (.wake handler, { st with coro := none })
    | none =>
        if st.isInitor = .final then (.destroy, { st with isInitor := .none })
        else (.nothing, st)

/-! ## Frames -/

theorem futureAwaitResume_frame (st : FutureState α ε) (kind : Kind) :
    let after := (st.futureAwaitResume kind).2
    after.scheduler = st.scheduler ∧ after.coro = st.coro ∧ after.parent = st.parent ∧
      after.hasValue = st.hasValue ∧ after.isFuture = st.isFuture ∧
      after.isInitor = st.isInitor := by
  unfold futureAwaitResume
  split
  · split <;> exact ⟨rfl, rfl, rfl, rfl, rfl, rfl⟩
  all_goals exact ⟨rfl, rfl, rfl, rfl, rfl, rfl⟩

theorem futureAwaitSuspend_frame (st : FutureState α ε) (this : Option Nat) (c sch : Nat) :
    let after := (st.futureAwaitSuspend this c (some sch)).1
    (after.scheduler = none → st.scheduler = none) ∧ after.isInitor = st.isInitor ∧
      after.hasValue = st.hasValue ∧ after.exception = st.exception ∧
      after.isFuture = st.isFuture ∧ after.coro = st.coro.or (some c) := by
  by_cases same : this = some c <;> cases taken : st.coro <;>
    simp [futureAwaitSuspend, same, taken]

theorem futureAwaitSuspend_calls (st : FutureState α ε) (this : Option Nat) (c sch : Nat) :
    (st.futureAwaitSuspend this c (some sch)).2 =
      if st.isReady then [.addGenerator sch] else [] := by
  by_cases same : this = some c <;> cases taken : st.coro <;>
    simp [futureAwaitSuspend, same, taken, isReady]

section Assign

variable (kind : Kind) (o : Outcome α ε) (st : FutureState α ε) (root : Option Nat)

@[simp] theorem assign_scheduler : (st.assign kind o).scheduler = st.scheduler := by
  cases o <;> cases kind <;> rfl

@[simp] theorem assign_coro : (st.assign kind o).coro = st.coro := by
  cases o <;> cases kind <;> rfl

@[simp] theorem assign_parent : (st.assign kind o).parent = st.parent := by
  cases o <;> cases kind <;> rfl

@[simp] theorem assign_isFuture : (st.assign kind o).isFuture = st.isFuture := by
  cases o <;> cases kind <;> rfl

@[simp] theorem assign_isInitor : (st.assign kind o).isInitor = st.isInitor := by
  cases o <;> cases kind <;> rfl

theorem complete_state : (st.complete kind o root).1 = st.assign kind o := by
  unfold complete
  dsimp only
  split <;> rfl

theorem complete_calls : (st.complete kind o root).2 = match st.getScheduler root with
    | some sch => if st.hasHandlerSkipLock then [.addGenerator sch] else [.delFinal sch]
    | none => [] := by
  have same : (st.assign kind o).getScheduler root = st.getScheduler root := by
    simp [getScheduler]
  have handler : (st.assign kind o).hasHandlerSkipLock = st.hasHandlerSkipLock := by
    simp [hasHandlerSkipLock]
  simp only [complete, same, handler]
  split <;> rfl

end Assign

theorem promiseYieldValue_state (kind : Kind) (v : α) (handler : Nat) (st : FutureState α ε)
    (root : Option Nat) : (st.promiseYieldValue kind v handler root).1 =
      assign kind (.value v) { st with coro := st.coro.or (some handler) } := by
  have slot : (if st.coro.isNone then { st with coro := some handler } else st) =
      { st with coro := st.coro.or (some handler) } := by
    obtain ⟨_, coro, _, _, _, _, _, _⟩ := st
    cases coro <;> rfl
  simp only [promiseYieldValue, slot]
  split <;> rfl

theorem promiseYieldValue_calls (kind : Kind) (v : α) (handler : Nat) (st : FutureState α ε)
    (root : Option Nat) : (st.promiseYieldValue kind v handler root).2 =
      match st.getScheduler root with
      | some sch => [.addGenerator sch]
      | none => [] := by
  obtain ⟨scheduler, coro, parent, _, _, _, _, _⟩ := st
  cases scheduler <;> cases parent <;> cases root <;> cases coro <;> cases kind <;> rfl

theorem promiseFinalSuspend_eq (st : FutureState α ε) (root : Option Nat) :
    st.promiseFinalSuspend root = match st.getScheduler root with
      | some sch => .ok ({ st with isInitor := .final }, [.addGenerator sch, .delFinal sch])
      | none => .error .assertion := by
  have same : ({ st with isInitor := .final } : FutureState α ε).getScheduler root =
      st.getScheduler root := rfl
  simp only [promiseFinalSuspend, same, hasHandlerSkipLock]
  cases st.getScheduler root <;> simp

theorem promiseFinalSuspend_state {st : FutureState α ε} {root : Option Nat}
    {updated : FutureState α ε × List Call} (suspended : st.promiseFinalSuspend root = .ok updated) :
    updated.1 = { st with isInitor := .final } := by
  rw [promiseFinalSuspend_eq] at suspended
  split at suspended
  · cases suspended
    rfl
  · cases suspended

end FutureState

end Librf
