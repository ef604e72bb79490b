import Mathlib.Logic.Function.Basic
import Librf.Base.Transition

/-!
# `mutex_t`

`mutex_v2_impl`, the `state_mutex_t` of each suspended coroutine, and the calls that are in
progress. An owner is an address: that of a root state, or one a thread has chosen. A call that
does all of its work under `_lock` is one step; the loop of `unlock` is cut at its compare-exchange,
because `on_timeout` runs without the lock.
-/

namespace Librf

structure MutexImpl where
  owner : Option Nat := none
  counter : Int := 0
  waitAwakes : List Nat := []
  deriving DecidableEq, Repr

namespace MutexImpl

def tryLockLockless (m : MutexImpl) (sch : Nat) : Bool × MutexImpl :=
  match m.owner with
  | none => (true, { m with owner := some sch, counter := m.counter + 1 })
  | some owner =>
      if owner = sch then (true, { m with counter := m.counter + 1 }) else (false, m)

/-- `unlock` before its loop: the result of the call, and whether the loop is entered. -/
def unlock (m : MutexImpl) (sch : Nat) : Bool × Bool × MutexImpl :=
  if m.owner = some sch then
    if m.counter = 1 then (true, true, { m with owner := none, counter := m.counter - 1 })
    else (true, false, { m with counter := m.counter - 1 })
  else (false, false, m)

def addWaitListLockless (m : MutexImpl) (w : Nat) : MutexImpl :=
  { m with waitAwakes := m.waitAwakes ++ [w] }

/-- A turn of the loop, up to `on_notify`. -/
def transfer (m : MutexImpl) (root : Nat) : MutexImpl :=
  { m with owner := some root, counter := m.counter + 1 }

def revert (m : MutexImpl) : MutexImpl := { m with owner := none, counter := m.counter - 1 }

end MutexImpl

structure StateMutex where
  root : Nat
  coro : Option Nat
  -- `_value` still holds the address of the awaiter's `_mutex`
  value : Bool := true
  -- the awaiter's `_mutex` is not null
  mutex : Bool := true
  -- `_thandler` is set
  timer : Bool
  deriving DecidableEq, Repr

namespace StateMutex

/-- The compare-exchange of `on_notify` and `on_timeout`, if it succeeds. -/
def claim (st : StateMutex) : Option StateMutex :=
  if st.value then some { st with value := false } else none

def notified (st : StateMutex) : StateMutex := { st with mutex := true, timer := false }

def expired (st : StateMutex) : StateMutex := { st with mutex := false, timer := false }

end StateMutex

inductive LockSection
  | free
  -- `await_suspend2` of waiter `w` before `add_wait_list_lockless`
  | suspending (w : Nat)
  -- `unlock` at the head of its loop
  | releasing
  -- `unlock` before the compare-exchange of `on_notify`
  | offering (w root : Nat)
  -- `unlock` after a successful compare-exchange
  | notifying (w : Nat)
  deriving DecidableEq, Repr

inductive MutexAction
  | owner
  | tryLock (sch : Nat)
  -- `await_suspend2`, with a timer or without
  | lock (handler root : Nat) (timed : Bool)
  | enqueue
  | unlock (sch : Nat)
  -- `root` is the answer of `get_root`
  | offer (root : Nat)
  | notify
  | finishNotify
  | leave
  | timeout (w : Nat)
  | finishTimeout (w : Nat)
  -- A scheduler takes the state of `w` out of its run queue
  | resume (w : Nat)
  deriving DecidableEq, Repr

inductive MutexEvent
  | owner (answer : Option Nat)
  | tried (sch : Nat) (locked : Bool)
  | locked (root : Nat)
  | suspended (w : Nat)
  | unlocked (sch : Nat) (done : Bool)
  | handed (w root : Nat)
  | timedOut (w : Nat)
  | awaited (w : Nat) (locked : Bool)
  deriving DecidableEq, Repr

def MutexEvent.grants (r : Nat) : MutexEvent → Bool
  | .tried sch true => sch == r
  | .locked root => root == r
  | .handed _ root => root == r
  | _ => false

def MutexEvent.handed? : MutexEvent → Option Nat
  | .handed w _ => some w
  | _ => none

structure MutexWaiter extends StateMutex where
  -- `on_timeout` has succeeded and not yet returned
  expiring : Bool := false
  -- history
  handedTo : Option Nat := none
  timedOut : Bool := false
  scheduled : Nat := 0
  results : List Bool := []
  deriving DecidableEq, Repr

structure Mutex extends MutexImpl where
  lockSection : LockSection := .free
  waiters : Nat → MutexWaiter := fun _ => { root := 0, coro := none, timer := false }
  -- waiters are numbered in the order in which they suspend
  created : Nat := 0
  -- the run queues of all schedulers
  runQueue : List Nat := []
  -- history
  -- hand-offs whose waiter has not been resumed, with their owner
  outstanding : List (Nat × Nat) := []
  log : List MutexEvent := []

namespace Mutex

def record (s : Mutex) (event : MutexEvent) : Mutex := { s with log := s.log ++ [event] }

def setWaiter (s : Mutex) (w : Nat) (waiter : MutexWaiter) : Mutex :=
  { s with waiters := Function.update s.waiters w waiter }

def grants (s : Mutex) (r : Nat) : Nat := s.log.countP (MutexEvent.grants r)

def unlocks (s : Mutex) (r : Nat) : Nat := s.log.count (.unlocked r true)

def unreceived (s : Mutex) (r : Nat) : Nat := s.outstanding.countP fun handOff => handOff.2 == r

def handedOver (s : Mutex) : List Nat := s.log.filterMap MutexEvent.handed?

def suspend (s : Mutex) (handler root : Nat) (timed : Bool) : Mutex :=
  { (s.setWaiter s.created { root, coro := some handler, timer := timed }).record
        (.suspended s.created) with
      lockSection := .suspending s.created
      created := s.created + 1 }

def tryLock (s : Mutex) (sch : Nat) : Mutex :=
  let tried := s.tryLockLockless sch
  { s.record (.tried sch tried.1) with toMutexImpl := tried.2 }

def lock (s : Mutex) (handler root : Nat) (timed : Bool) : Mutex :=
  let tried := s.tryLockLockless root
  if tried.1 then { s.record (.locked root) with toMutexImpl := tried.2 }
  else s.suspend handler root timed

def beginUnlock (s : Mutex) (sch : Nat) : Mutex :=
  let unlocked := s.toMutexImpl.unlock sch
  { s.record (.unlocked sch unlocked.1) with
      toMutexImpl := unlocked.2.2
      lockSection := if unlocked.2.1 then .releasing else .free }

/-- The compare-exchange of `on_notify`, and the way back if it fails. -/
def notify (s : Mutex) (w root : Nat) : Mutex :=
  match (s.waiters w).claim with
  | some state =>
      { (s.setWaiter w { s.waiters w with toStateMutex := state, handedTo := some root }).record
            (.handed w root) with
          lockSection := .notifying w
          outstanding := s.outstanding ++ [(w, root)] }
  | none => { s with toMutexImpl := s.revert, lockSection := .releasing }

/-- `add_generator`, which is called only if the waiter has a handle. -/
def schedule (s : Mutex) (w : Nat) : Mutex :=
  if (s.waiters w).coro.isSome then
    { s.setWaiter w { s.waiters w with scheduled := (s.waiters w).scheduled + 1 } with
        runQueue := s.runQueue ++ [w] }
  else s

def finishNotify (s : Mutex) (w : Nat) : Mutex :=
  { (s.setWaiter w { s.waiters w with toStateMutex := (s.waiters w).notified }).schedule w with
      lockSection := .free }

def timeout (s : Mutex) (w : Nat) : Mutex :=
  match (s.waiters w).claim with
  | some state =>
      (s.setWaiter w { s.waiters w with
        toStateMutex := state, expiring := true, timedOut := true }).record (.timedOut w)
  | none => s

def finishTimeout (s : Mutex) (w : Nat) : Mutex :=
  (s.setWaiter w { s.waiters w with
    toStateMutex := (s.waiters w).expired, expiring := false }).schedule w

/-- `state_mutex_t::resume`; the coroutine goes on with `await_resume`. -/
def resume (s : Mutex) (w : Nat) : Mutex :=
  let s := { s with runQueue := s.runQueue.erase w }
  if (s.waiters w).coro.isSome then
    let result := (s.waiters w).mutex
    { (s.setWaiter w { s.waiters w with
          coro := none, results := (s.waiters w).results ++ [result] }).record
            (.awaited w result) with
        outstanding := s.outstanding.filter fun handOff => handOff.1 != w }
  else s

def step (s : Mutex) : MutexAction → Option Mutex
  | .owner => if s.lockSection = .free then some (s.record (.owner s.owner)) else none
  | .tryLock sch => if s.lockSection = .free then some (s.tryLock sch) else none
  | .lock handler root timed =>
      if s.lockSection = .free then some (s.lock handler root timed) else none
  | .enqueue => match s.lockSection with
      | .suspending w =>
          some { s with toMutexImpl := s.addWaitListLockless w, lockSection := .free }
      | _ => none
  | .unlock sch => if s.lockSection = .free then some (s.beginUnlock sch) else none
  | .offer root => match s.lockSection, s.waitAwakes with
      | .releasing, w :: rest =>
          some { s with
            toMutexImpl := { s.transfer root with waitAwakes := rest }
            lockSection := .offering w root }
      | _, _ => none
  | .notify => match s.lockSection with
      | .offering w root => some (s.notify w root)
      | _ => none
  | .finishNotify => match s.lockSection with
      | .notifying w => some (s.finishNotify w)
      | _ => none
  | .leave => match s.lockSection, s.waitAwakes with
      | .releasing, [] => some { s with lockSection := .free }
      | _, _ => none
  -- The timers of a scheduler run on its own thread, and so does `await_suspend2` of `w`.
  | .timeout w =>
      if w < s.created ∧ (s.waiters w).timer = true ∧ s.lockSection ≠ .suspending w then
        some (s.timeout w)
      else none
  | .finishTimeout w =>
      if w < s.created ∧ (s.waiters w).expiring = true then some (s.finishTimeout w) else none
  | .resume w => if w ∈ s.runQueue then some (s.resume w) else none

def system : Transition.System Mutex MutexAction where
  init := {}
  step := step

/-! ## What each operation does -/

variable {s t : Mutex} {w root : Nat}

inductive Effect (s : Mutex) : MutexAction → Mutex → Prop
  | owner (free : s.lockSection = .free) : Effect s .owner (s.record (.owner s.owner))
  | tryLock (sch : Nat) (free : s.lockSection = .free) : Effect s (.tryLock sch) (s.tryLock sch)
  | lock (handler root : Nat) (timed : Bool) (free : s.lockSection = .free) :
      Effect s (.lock handler root timed) (s.lock handler root timed)
  | enqueue (w : Nat) (suspending : s.lockSection = .suspending w) :
      Effect s .enqueue { s with toMutexImpl := s.addWaitListLockless w, lockSection := .free }
  | unlock (sch : Nat) (free : s.lockSection = .free) : Effect s (.unlock sch) (s.beginUnlock sch)
  | offer (w root : Nat) (rest : List Nat) (releasing : s.lockSection = .releasing)
      (queue : s.waitAwakes = w :: rest) :
      Effect s (.offer root) { s with
        toMutexImpl := { s.transfer root with waitAwakes := rest }
        lockSection := .offering w root }
  | notify (w root : Nat) (offering : s.lockSection = .offering w root) :
      Effect s .notify (s.notify w root)
  | finishNotify (w : Nat) (notifying : s.lockSection = .notifying w) :
      Effect s .finishNotify (s.finishNotify w)
  | leave (releasing : s.lockSection = .releasing) (queue : s.waitAwakes = []) :
      Effect s .leave { s with lockSection := .free }
  | timeout (w : Nat) (older : w < s.created) (timer : (s.waiters w).timer = true)
      (queued : s.lockSection ≠ .suspending w) : Effect s (.timeout w) (s.timeout w)
  | finishTimeout (w : Nat) (older : w < s.created) (expiring : (s.waiters w).expiring = true) :
      Effect s (.finishTimeout w) (s.finishTimeout w)
  | resume (w : Nat) (member : w ∈ s.runQueue) : Effect s (.resume w) (s.resume w)

theorem effect_of_step {action : MutexAction} (action_ : step s action = some t) :
    s.Effect action t := by
  cases action with
  | owner =>
      simp only [step, Option.ite_none_right_eq_some, Option.some.injEq] at action_
      obtain ⟨free, rfl⟩ := action_
      exact .owner free
  | tryLock sch =>
      simp only [step, Option.ite_none_right_eq_some, Option.some.injEq] at action_
      obtain ⟨free, rfl⟩ := action_
      exact .tryLock sch free
  | lock handler root timed =>
      simp only [step, Option.ite_none_right_eq_some, Option.some.injEq] at action_
      obtain ⟨free, rfl⟩ := action_
      exact .lock handler root timed free
  | enqueue =>
      simp only [step] at action_
      split at action_
      · rename_i w suspending
        cases action_
        exact .enqueue w suspending
      · cases action_
  | unlock sch =>
      simp only [step, Option.ite_none_right_eq_some, Option.some.injEq] at action_
      obtain ⟨free, rfl⟩ := action_
      exact .unlock sch free
  | offer root =>
      simp only [step] at action_
      split at action_
      · rename_i w rest releasing queue
        cases action_
        exact .offer w root rest releasing queue
      · cases action_
  | notify =>
      simp only [step] at action_
      split at action_
      · rename_i w root offering
        cases action_
        exact .notify w root offering
      · cases action_
  | finishNotify =>
      simp only [step] at action_
      split at action_
      · rename_i w notifying
        cases action_
        exact .finishNotify w notifying
      · cases action_
  | leave =>
      simp only [step] at action_
      split at action_
      · rename_i releasing queue
        cases action_
        exact .leave releasing queue
      · cases action_
  | timeout w =>
      simp only [step, Option.ite_none_right_eq_some, Option.some.injEq] at action_
      obtain ⟨⟨older, timer, queued⟩, rfl⟩ := action_
      exact .timeout w older timer queued
  | finishTimeout w =>
      simp only [step, Option.ite_none_right_eq_some, Option.some.injEq] at action_
      obtain ⟨⟨older, expiring⟩, rfl⟩ := action_
      exact .finishTimeout w older expiring
  | resume w =>
      simp only [step, Option.ite_none_right_eq_some, Option.some.injEq] at action_
      obtain ⟨member, rfl⟩ := action_
      exact .resume w member

theorem tryLockLockless_refused {m : MutexImpl} {r : Nat}
    (refused : (m.tryLockLockless r).1 = false) :
    (m.tryLockLockless r).2 = m ∧ ∃ r', m.owner = some r' ∧ r' ≠ r := by
  unfold MutexImpl.tryLockLockless at refused ⊢
  cases owner : m.owner with
  | none => simp [owner] at refused
  | some r' =>
      by_cases same : r' = r
      · simp [owner, same] at refused
      · simp [same]

theorem tryLockLockless_locked {m : MutexImpl} {r : Nat}
    (locked : (m.tryLockLockless r).1 = true) :
    (m.owner = none ∨ m.owner = some r) ∧
      (m.tryLockLockless r).2 = { m with owner := some r, counter := m.counter + 1 } := by
  unfold MutexImpl.tryLockLockless at locked ⊢
  cases owner : m.owner with
  | none => simp
  | some r' =>
      by_cases same : r' = r
      · simp [same]
      · simp [owner, same] at locked

theorem lock_of_locked {handler : Nat} {timed : Bool}
    (locked : (s.tryLockLockless root).1 = true) :
    s.lock handler root timed =
      { s.record (.locked root) with toMutexImpl := (s.tryLockLockless root).2 } := by
  simp [lock, locked]

theorem lock_of_refused {handler : Nat} {timed : Bool}
    (refused : (s.tryLockLockless root).1 = false) :
    s.lock handler root timed = s.suspend handler root timed := by
  simp [lock, refused]

theorem beginUnlock_of_last {sch : Nat} (holds : s.owner = some sch) (last : s.counter = 1) :
    s.beginUnlock sch =
      { s.record (.unlocked sch true) with owner := none, counter := 0, lockSection := .releasing } := by
  simp [beginUnlock, MutexImpl.unlock, holds, last, record]

theorem beginUnlock_of_recursive {sch : Nat} (holds : s.owner = some sch) (more : s.counter ≠ 1) :
    s.beginUnlock sch =
      { s.record (.unlocked sch true) with counter := s.counter - 1, lockSection := .free } := by
  simp [beginUnlock, MutexImpl.unlock, holds, more, record]

theorem beginUnlock_of_other {sch : Nat} (other : s.owner ≠ some sch) :
    s.beginUnlock sch = { s.record (.unlocked sch false) with lockSection := .free } := by
  simp [beginUnlock, MutexImpl.unlock, other, record]

theorem notify_of_pending (pending : (s.waiters w).value = true) :
    s.notify w root =
      { (s.setWaiter w { s.waiters w with value := false, handedTo := some root }).record
            (.handed w root) with
          lockSection := .notifying w
          outstanding := s.outstanding ++ [(w, root)] } := by
  simp [notify, StateMutex.claim, pending]

theorem notify_of_claimed (claimed : (s.waiters w).value = false) :
    s.notify w root = { s with toMutexImpl := s.revert, lockSection := .releasing } := by
  simp [notify, StateMutex.claim, claimed]

theorem timeout_of_pending (pending : (s.waiters w).value = true) :
    s.timeout w =
      (s.setWaiter w { s.waiters w with
        value := false, expiring := true, timedOut := true }).record (.timedOut w) := by
  simp [timeout, StateMutex.claim, pending]

theorem timeout_of_claimed (claimed : (s.waiters w).value = false) : s.timeout w = s := by
  simp [timeout, StateMutex.claim, claimed]

@[simp] theorem schedule_toMutexImpl (s : Mutex) (w : Nat) :
    (s.schedule w).toMutexImpl = s.toMutexImpl := by
  unfold schedule
  split <;> rfl

@[simp] theorem schedule_log (s : Mutex) (w : Nat) : (s.schedule w).log = s.log := by
  unfold schedule
  split <;> rfl

@[simp] theorem schedule_lockSection (s : Mutex) (w : Nat) :
    (s.schedule w).lockSection = s.lockSection := by
  unfold schedule
  split <;> rfl

end Mutex

end Librf
