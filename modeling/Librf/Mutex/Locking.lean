import Librf.Mutex.Waiters
import Librf.Runtime.Roots

/-!
# The keys of mutexes

Coroutines on any schedulers lock any mutexes. The key of each `co_await` is the root of the
awaiting coroutine; an awaiter, a guard and a waiter keep the root that the lock was asked for with.
Other calls of a mutex may come from anywhere and with any address. Which of the waits that have
ended is resumed when is left open.
-/

namespace Librf

/-- What `await_resume` makes of a lock. -/
inductive LockKind
  -- `mutex_t::awaiter`, a guard
  | guard
  -- `mutex_t::manual_awaiter`
  | manual
  -- `mutex_t::timeout_awaiter`
  | timed
  deriving DecidableEq, Repr

structure LockAwaiter where
  mutex : Nat
  root : Nat
  kind : LockKind
  deriving DecidableEq, Repr

/-- A `batch_unlock_t`, or the `_MutexAwaitAssembleT` of a coroutine, for one of its mutexes. -/
structure UnlockOwner where
  mutex : Nat
  owner : Nat
  -- history: the coroutine that has asked for the root
  coroutine : Nat
  deriving DecidableEq, Repr

inductive KeyUse
  | lock
  | tryLock
  | unlock
  -- `unlock(_owner)`
  | release
  -- `unlock` gives the mutex to a waiter
  | handOff
  deriving DecidableEq, Repr

structure UsedKey where
  use : KeyUse
  mutex : Nat
  coroutine : Nat
  key : Nat
  deriving DecidableEq, Repr

inductive LockingAction (α ε : Type*)
  | run (action : RuntimeAction α ε)
  -- a `co_await` of the coroutine that the thread of `sch` runs
  | lock (sch m : Nat) (kind : LockKind)
  | awaitResume (sch : Nat)
  | tryLock (sch m : Nat)
  | unlock (sch m : Nat)
  -- `librf_root_state()`
  | rootState (sch m : Nat)
  -- A guard's destructor or `unlock`, or `_Unlock_ref`
  | release (owner : UnlockOwner)
  | handOff (m : Nat)
  | mutex (m : Nat) (action : MutexAction)
  deriving DecidableEq, Repr

structure Locking (α ε : Type*) where
  runtime : Runtime α ε := {}
  mutexes : Nat → Mutex := fun _ => {}
  -- in the frame of a coroutine that is in `co_await` of a lock
  awaiters : Nat → Option LockAwaiter := fun _ => none
  owners : List UnlockOwner := []
  -- history: by mutex and waiter
  coroutines : Nat → Nat → Nat := fun _ _ => 0
  used : List UsedKey := []

namespace Locking

variable {α ε : Type*}

def setMutex (s : Locking α ε) (m : Nat) (mutex : Mutex) : Locking α ε :=
  { s with mutexes := Function.update s.mutexes m mutex }

def recordUse (s : Locking α ε) (use : KeyUse) (mutex coroutine key : Nat) : Locking α ε :=
  { s with used := s.used ++ [{ use, mutex, coroutine, key }] }

/-- The coroutine that the thread of `sch` runs, if it is not in a `co_await`, and its root. -/
def caller (s : Locking α ε) (sch : Nat) : Option (Nat × Nat) :=
  (s.runtime.schedulers sch).busy.bind fun p =>
    match s.runtime.progress p, s.runtime.classes p, s.awaiters p with
    | .running, .future _, none => (s.runtime.getRoot p).map fun root => (p, root)
    | _, _, _ => none

/-- `await_suspend2`, up to `add_wait_list_lockless` if the coroutine waits. -/
def lock (s : Locking α ε) (sch m : Nat) (kind : LockKind) (p root : Nat) :
    Option (Locking α ε) :=
  ((s.mutexes m).step (.lock p root (kind == .timed))).bind fun mutex =>
    let s := { (s.setMutex m mutex).recordUse .lock m p root with
      awaiters := Function.update s.awaiters p (some { mutex := m, root, kind }) }
    match mutex.lockSection with
    | .suspending w => (s.runtime.step (.body sch .park)).map fun runtime =>
        { s with
          runtime
          coroutines := Function.update s.coroutines m (Function.update (s.coroutines m) w p) }
    | _ => some s

def awaitResume (s : Locking α ε) (p : Nat) : Option (Locking α ε) :=
  (s.awaiters p).map fun awaiter =>
    let s := { s with awaiters := Function.update s.awaiters p none }
    match awaiter.kind with
    | .guard => { s with owners := s.owners ++
        [{ mutex := awaiter.mutex, owner := awaiter.root, coroutine := p }] }
    | .manual | .timed => s

def call (s : Locking α ε) (use : KeyUse) (m p key : Nat) (action : MutexAction) :
    Option (Locking α ε) :=
  ((s.mutexes m).step action).map fun mutex => (s.setMutex m mutex).recordUse use m p key

def tryLock (s : Locking α ε) (m p root : Nat) : Option (Locking α ε) :=
  s.call .tryLock m p root (.tryLock root)

def unlock (s : Locking α ε) (m p root : Nat) : Option (Locking α ε) :=
  s.call .unlock m p root (.unlock root)

def release (s : Locking α ε) (owner : UnlockOwner) : Option (Locking α ε) :=
  s.call .release owner.mutex owner.coroutine owner.owner (.unlock owner.owner)

/-- `unlock` takes waiter `w` from `_wait_awakes` and makes its root the owner. -/
def handOff (s : Locking α ε) (m w : Nat) : Option (Locking α ε) :=
  (s.runtime.getRoot ((s.mutexes m).waiters w).root).bind fun root =>
    s.call .handOff m (s.coroutines m w) root (.offer root)

def step (s : Locking α ε) : LockingAction α ε → Option (Locking α ε)
  | .run (.body sch action) =>
      -- In `co_await` of a lock, `await_resume` comes first.
      if (s.runtime.schedulers sch).busy.bind s.awaiters = none then
        (s.runtime.step (.body sch action)).map fun runtime => { s with runtime }
      else none
  | .run action => (s.runtime.step action).map fun runtime => { s with runtime }
  | .lock sch m kind => (s.caller sch).bind fun asked => s.lock sch m kind asked.1 asked.2
  | .awaitResume sch => (s.runtime.schedulers sch).busy.bind s.awaitResume
  | .tryLock sch m => (s.caller sch).bind fun asked => s.tryLock m asked.1 asked.2
  | .unlock sch m => (s.caller sch).bind fun asked => s.unlock m asked.1 asked.2
  | .rootState sch m => (s.caller sch).map fun asked => { s with owners := s.owners ++
      [{ mutex := m, owner := asked.2, coroutine := asked.1 }] }
  | .release owner => if owner ∈ s.owners then s.release owner else none
  | .handOff m => match (s.mutexes m).waitAwakes with
      | w :: _ => s.handOff m w
      | [] => none
  | .mutex _ (.lock ..) | .mutex _ (.offer _) => none
  | .mutex m action => ((s.mutexes m).step action).map fun mutex => s.setMutex m mutex

def system (α ε : Type*) : Transition.System (Locking α ε) (LockingAction α ε) where
  init := {}
  step := step

/-- Each coroutine of a `future_t` is started by `go` once or awaited once before it was started. -/
def Chained (s : Locking α ε) : LockingAction α ε → Prop
  | .run action => s.runtime.Chained action
  | _ => True

instance (s : Locking α ε) (action : LockingAction α ε) : Decidable (Chained s action) :=
  match action with
  | .run action => inferInstanceAs (Decidable (s.runtime.Chained action))
  | .lock _ _ _ | .awaitResume _ | .tryLock _ _ | .unlock _ _ | .rootState _ _ | .release _
  | .handOff _ | .mutex _ _ => isTrue trivial

/-! ## What each operation does -/

variable {s t : Locking α ε} {sch m n p key root r : Nat} {kind : LockKind}

theorem caller_cases (asked : s.caller sch = some (p, root)) :
    (s.runtime.schedulers sch).busy = some p ∧ s.runtime.progress p = .running ∧
      (∃ kind, s.runtime.classes p = .future kind) ∧ s.awaiters p = none ∧
      s.runtime.getRoot p = some root := by
  unfold caller at asked
  cases busy : (s.runtime.schedulers sch).busy with
  | none => simp [busy] at asked
  | some q =>
      simp only [busy, Option.bind_some] at asked
      split at asked
      · rename_i kind running class_ idle
        obtain ⟨root', known, same⟩ := Option.map_eq_some_iff.1 asked
        cases same
        exact ⟨rfl, running, ⟨kind, class_⟩, idle, known⟩
      · cases asked

theorem caller_started (asked : s.caller sch = some (p, root)) : s.runtime.Started p := by
  obtain ⟨-, running, class_, -⟩ := caller_cases asked
  exact ⟨⟨class_, by simp [running]⟩, by simp [running]⟩

end Locking

namespace Mutex

variable {s t : Mutex} {handler root : Nat} {timed : Bool}

theorem created_of_step {action : MutexAction} (action_ : s.step action = some t) :
    t.created = s.created ∨ ∃ handler root timed, action = .lock handler root timed := by
  cases effect_of_step action_ with
  | lock handler root timed => exact .inr ⟨handler, root, timed, rfl⟩
  | notify w root offering =>
      left
      cases value : (s.waiters w).value with
      | true => rw [notify_of_pending value]; rfl
      | false => rw [notify_of_claimed value]
  | finishNotify w notifying => exact .inl (schedule_created _ w)
  | timeout w older timer queued =>
      left
      cases value : (s.waiters w).value with
      | true => rw [timeout_of_pending value]; rfl
      | false => rw [timeout_of_claimed value]
  | finishTimeout w older expiring => exact .inl (schedule_created _ w)
  | resume w member =>
      left
      unfold Mutex.resume
      dsimp only
      split <;> rfl
  | _ => exact .inl rfl

theorem lock_cases (action_ : s.step (.lock handler root timed) = some t) :
    s.lockSection = .free ∧ ((s.owner = none ∨ s.owner = some root) ∧
        t = { s.record (.locked root) with owner := some root, counter := s.counter + 1 } ∨
      (∃ r, s.owner = some r ∧ r ≠ root) ∧ t = s.suspend handler root timed) := by
  cases effect_of_step action_ with
  | lock _ _ _ free =>
      cases tried : (s.tryLockLockless root).1 with
      | true =>
          obtain ⟨owner, after⟩ := tryLockLockless_locked tried
          exact ⟨free, .inl ⟨owner, by rw [lock_of_locked tried, after]; rfl⟩⟩
      | false => exact ⟨free, .inr ⟨(tryLockLockless_refused tried).2, lock_of_refused tried⟩⟩

end Mutex

end Librf
