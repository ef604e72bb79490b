import Librf.Mutex.Model

/-!
# The owner and the recursion count

Between two locked sections the counter is the owner's grants less its unlocks, and every other
address has as many unlocks as grants.
-/

namespace Librf

def MutexEvent.weight (r : Nat) : MutexEvent → Int
  | .tried sch true => if sch = r then 1 else 0
  | .locked root => if root = r then 1 else 0
  | .handed _ root => if root = r then 1 else 0
  | .unlocked sch true => if sch = r then -1 else 0
  | _ => 0

namespace Mutex

variable {s t : Mutex}

def balance (s : Mutex) (r : Nat) : Int := s.grants r - s.unlocks r

theorem grants_of_logged (event : MutexEvent) (logged : t.log = s.log ++ [event]) (r : Nat) :
    t.grants r = s.grants r + (event.grants r).toNat := by
  cases granted : event.grants r <;> simp [grants, logged, granted]

theorem unlocks_of_logged (event : MutexEvent) (logged : t.log = s.log ++ [event]) (r : Nat) :
    t.unlocks r = s.unlocks r + if event = .unlocked r true then 1 else 0 := by
  by_cases same : event = .unlocked r true <;> simp [unlocks, logged, same]

theorem balance_of_logged (event : MutexEvent) (logged : t.log = s.log ++ [event]) (r : Nat) :
    t.balance r = s.balance r + event.weight r := by
  have counted : (event.grants r).toNat - (if event = .unlocked r true then 1 else 0 : Int) =
      event.weight r := by
    cases event with
    | tried sch locked => cases locked <;> by_cases same : sch = r <;>
        simp [MutexEvent.grants, MutexEvent.weight, same]
    | locked root => by_cases same : root = r <;> simp [MutexEvent.grants, MutexEvent.weight, same]
    | handed w root => by_cases same : root = r <;>
        simp [MutexEvent.grants, MutexEvent.weight, same]
    | unlocked sch done => cases done <;> by_cases same : sch = r <;>
        simp [MutexEvent.grants, MutexEvent.weight, same]
    | _ => simp [MutexEvent.grants, MutexEvent.weight]
  have unlocked : ((if event = .unlocked r true then 1 else 0 : Nat) : Int) =
      if event = .unlocked r true then 1 else 0 := by
    split <;> rfl
  rw [balance, grants_of_logged event logged, unlocks_of_logged event logged, ← counted, balance]
  push_cast
  omega

theorem balance_of_same (logged : t.log = s.log) (r : Nat) : t.balance r = s.balance r := by
  rw [balance, balance, grants, grants, unlocks, unlocks, logged]

structure Idle (s : Mutex) : Prop where
  owner : s.owner = none
  counter : s.counter = 0
  balance : ∀ r, s.balance r = 0

structure HeldBy (s : Mutex) (r : Nat) : Prop where
  owner : s.owner = some r
  positive : 0 < s.counter
  balance : s.balance r = s.counter
  others : ∀ r', r' ≠ r → s.balance r' = 0

def Settled (s : Mutex) : Prop := s.Idle ∨ ∃ r, s.HeldBy r

def Owned (s : Mutex) : Prop :=
  match s.lockSection with
  | .releasing => s.Idle
  | .offering _ root => s.owner = some root ∧ s.counter = 1 ∧ ∀ r, s.balance r = 0
  | _ => s.Settled

theorem Idle.of_quiet (idle : s.Idle) (owner : t.owner = s.owner) (counter : t.counter = s.counter)
    (balance : ∀ r, t.balance r = s.balance r) : t.Idle :=
  ⟨owner.trans idle.owner, counter.trans idle.counter, fun r => (balance r).trans (idle.balance r)⟩

theorem Settled.of_quiet (settled : s.Settled) (owner : t.owner = s.owner)
    (counter : t.counter = s.counter) (balance : ∀ r, t.balance r = s.balance r) : t.Settled := by
  cases settled with
  | inl idle => exact .inl (idle.of_quiet owner counter balance)
  | inr held =>
      obtain ⟨r, held⟩ := held
      refine .inr ⟨r, owner.trans held.owner, counter ▸ held.positive, ?_, fun r' other => ?_⟩
      · rw [balance, counter, held.balance]
      · rw [balance, held.others r' other]

theorem Owned.of_quiet (owned : s.Owned) (section_ : t.lockSection = s.lockSection)
    (owner : t.owner = s.owner) (counter : t.counter = s.counter)
    (balance : ∀ r, t.balance r = s.balance r) : t.Owned := by
  unfold Owned at owned ⊢
  rw [section_]
  split at owned
  · exact Idle.of_quiet owned owner counter balance
  · obtain ⟨held, one, settled⟩ := owned
    exact ⟨owner.trans held, counter.trans one, fun r => (balance r).trans (settled r)⟩
  · exact Settled.of_quiet owned owner counter balance

theorem Settled.owned (settled : t.Settled) (free : t.lockSection = .free) : t.Owned := by
  unfold Owned
  rw [free]
  exact settled

theorem Settled.grant {r : Nat} (settled : s.Settled) (locked : (s.tryLockLockless r).1 = true)
    (impl : t.toMutexImpl = (s.tryLockLockless r).2)
    (balance : ∀ r', t.balance r' = s.balance r' + if r = r' then 1 else 0) : t.HeldBy r := by
  obtain ⟨before, after⟩ := tryLockLockless_locked locked
  rw [after] at impl
  have owner : t.owner = some r := congrArg MutexImpl.owner impl
  have counter : t.counter = s.counter + 1 := congrArg MutexImpl.counter impl
  cases settled with
  | inl idle =>
      refine ⟨owner, ?_, ?_, fun r' other => ?_⟩
      · rw [counter, idle.counter]; decide
      · rw [balance, idle.balance, counter, idle.counter, if_pos rfl]
      · rw [balance, idle.balance, if_neg other.symm, Int.add_zero]
  | inr held =>
      obtain ⟨holder, held⟩ := held
      have same : holder = r := by
        cases before with
        | inl none => simp [held.owner] at none
        | inr some => simpa [held.owner] using some
      subst same
      refine ⟨owner, ?_, ?_, fun r' other => ?_⟩
      · rw [counter]; exact Int.lt_add_one_of_le (Int.le_of_lt held.positive)
      · rw [balance, held.balance, counter, if_pos rfl]
      · rw [balance, held.others r' other, if_neg other.symm, Int.add_zero]

theorem Owned.tryLock (owned : s.Owned) (free : s.lockSection = .free) (sch : Nat) :
    (s.tryLock sch).Owned := by
  have settled : s.Settled := by simpa only [Owned, free] using owned
  refine Settled.owned ?_ free
  cases tried : (s.tryLockLockless sch).1 with
  | true =>
      refine .inr ⟨sch, settled.grant tried rfl fun r => ?_⟩
      exact balance_of_logged (.tried sch true) (by rw [← tried]; rfl) r
  | false =>
      have same := (tryLockLockless_refused tried).1
      refine settled.of_quiet ?_ ?_ fun r => ?_
      · exact congrArg MutexImpl.owner same
      · exact congrArg MutexImpl.counter same
      · have logged : (s.tryLock sch).log = s.log ++ [.tried sch false] := by
          rw [← tried]; rfl
        exact (balance_of_logged _ logged r).trans (Int.add_zero _)

theorem Owned.lock (owned : s.Owned) (free : s.lockSection = .free) (handler root : Nat)
    (timed : Bool) : (s.lock handler root timed).Owned := by
  have settled : s.Settled := by simpa only [Owned, free] using owned
  cases tried : (s.tryLockLockless root).1 with
  | true =>
      rw [lock_of_locked tried]
      refine Settled.owned (.inr ⟨root, settled.grant tried rfl fun r => ?_⟩) free
      exact balance_of_logged (.locked root) rfl r
  | false =>
      rw [lock_of_refused tried]
      refine settled.of_quiet rfl rfl fun r => ?_
      exact (balance_of_logged _ rfl r).trans (Int.add_zero _)

theorem Settled.holder {r : Nat} (settled : s.Settled) (holds : s.owner = some r) : s.HeldBy r := by
  cases settled with
  | inl idle => simp [idle.owner] at holds
  | inr held =>
      obtain ⟨holder, held⟩ := held
      have same : holder = r := by simpa [held.owner] using holds
      exact same ▸ held

theorem Owned.unlock (owned : s.Owned) (free : s.lockSection = .free) (sch : Nat) :
    (s.beginUnlock sch).Owned := by
  have settled : s.Settled := by simpa only [Owned, free] using owned
  by_cases holds : s.owner = some sch
  · have held := settled.holder holds
    have balance (counter : Option Nat × Int × LockSection) (r : Nat) :
        Mutex.balance { s.record (.unlocked sch true) with
          owner := counter.1, counter := counter.2.1, lockSection := counter.2.2 } r =
        s.balance r + if sch = r then -1 else 0 := balance_of_logged (.unlocked sch true) rfl r
    by_cases last : s.counter = 1
    · rw [beginUnlock_of_last holds last]
      show Idle _
      refine ⟨rfl, rfl, fun r => ?_⟩
      rw [balance ⟨_, _, _⟩]
      rcases eq_or_ne sch r with rfl | other
      · rw [held.balance, last, if_pos rfl]; rfl
      · rw [held.others r other.symm, if_neg other]; rfl
    · rw [beginUnlock_of_recursive holds last]
      refine Settled.owned (.inr ⟨sch, holds, ?_, ?_, fun r other => ?_⟩) rfl
      · have := held.positive
        show 0 < s.counter - 1
        omega
      · rw [balance ⟨_, _, _⟩, held.balance, if_pos rfl]; rfl
      · rw [balance ⟨_, _, _⟩, held.others r other, if_neg other.symm]; rfl
  · rw [beginUnlock_of_other holds]
    refine Settled.owned (settled.of_quiet rfl rfl fun r => ?_) rfl
    exact (balance_of_logged _ rfl r).trans (Int.add_zero _)

theorem Owned.notify {w root : Nat} (owned : s.Owned) (offering : s.lockSection = .offering w root) :
    (s.notify w root).Owned := by
  simp only [Owned, offering] at owned
  obtain ⟨owner, counter, balance⟩ := owned
  cases pending : (s.waiters w).value with
  | true =>
      have granted (r : Nat) :
          (s.notify w root).balance r = s.balance r + if root = r then 1 else 0 := by
        rw [notify_of_pending pending]
        exact balance_of_logged (.handed w root) rfl r
      rw [notify_of_pending pending] at granted ⊢
      refine .inr ⟨root, owner, ?_, ?_, fun r other => ?_⟩
      · exact lt_of_lt_of_eq Int.one_pos counter.symm
      · rw [granted, balance, if_pos rfl]
        exact counter.symm
      · rw [granted, balance, if_neg other.symm]
        rfl
  | false =>
      rw [notify_of_claimed pending]
      exact ⟨rfl, by simp [MutexImpl.revert, counter], balance⟩

theorem Owned.step {action : MutexAction} (owned : s.Owned) (action_ : step s action = some t) :
    t.Owned := by
  cases effect_of_step action_ with
  | owner free =>
      exact owned.of_quiet rfl rfl rfl fun r => (balance_of_logged _ rfl r).trans (Int.add_zero _)
  | tryLock sch free => exact owned.tryLock free sch
  | lock handler root timed free => exact owned.lock free handler root timed
  | enqueue w suspending =>
      simp only [Owned, suspending] at owned
      exact Settled.of_quiet owned rfl rfl fun _ => rfl
  | unlock sch free => exact owned.unlock free sch
  | offer w root rest releasing queue =>
      simp only [Owned, releasing] at owned
      exact ⟨rfl, by simp [MutexImpl.transfer, owned.counter], owned.balance⟩
  | notify w root offering => exact owned.notify offering
  | finishNotify w notifying =>
      simp only [Owned, notifying] at owned
      have impl : (s.finishNotify w).toMutexImpl = s.toMutexImpl := schedule_toMutexImpl _ w
      apply Settled.of_quiet owned
      · exact congrArg MutexImpl.owner impl
      · exact congrArg MutexImpl.counter impl
      · exact balance_of_same (schedule_log _ w)
  | leave releasing queue =>
      simp only [Owned, releasing] at owned
      exact .inl (Idle.of_quiet owned rfl rfl fun _ => rfl)
  | timeout w older timer queued =>
      cases pending : (s.waiters w).value with
      | true =>
          rw [timeout_of_pending pending]
          exact owned.of_quiet rfl rfl rfl fun r => (balance_of_logged _ rfl r).trans (Int.add_zero _)
      | false => rwa [timeout_of_claimed pending]
  | finishTimeout w older expiring =>
      have impl : (s.finishTimeout w).toMutexImpl = s.toMutexImpl := schedule_toMutexImpl _ w
      apply owned.of_quiet
      · exact schedule_lockSection _ w
      · exact congrArg MutexImpl.owner impl
      · exact congrArg MutexImpl.counter impl
      · exact balance_of_same (schedule_log _ w)
  | resume w member =>
      unfold Mutex.resume
      dsimp only
      split
      · exact owned.of_quiet rfl rfl rfl fun r => (balance_of_logged _ rfl r).trans (Int.add_zero _)
      · exact owned.of_quiet rfl rfl rfl fun _ => rfl

theorem owned {allowed : Mutex → MutexAction → Prop} (reachable : system.ReachableBy allowed s) :
    s.Owned :=
  Transition.System.Inductive.holds (M := system) (I := Owned)
    ⟨.inl ⟨rfl, rfl, fun _ => rfl⟩, fun _ _ _ _ owned _ action => owned.step action⟩ reachable

structure ExactCount (s : Mutex) : Prop where
  unowned_iff : s.owner = none ↔ s.counter = 0
  nonnegative : 0 ≤ s.counter
  count : ∀ r, s.owner = some r → s.counter = s.grants r - s.unlocks r
  holder : ∀ r, s.grants r ≠ s.unlocks r → s.owner = some r
  exclusive : ∀ r r', s.unlocks r < s.grants r → s.unlocks r' < s.grants r' → r = r'

theorem Idle.exactCount (idle : s.Idle) : s.ExactCount := by
  have equal (r : Nat) : s.grants r = s.unlocks r := by
    have := idle.balance r
    unfold Mutex.balance at this
    omega
  refine ⟨by simp [idle.owner, idle.counter], Int.le_of_eq idle.counter.symm, ?_, ?_, ?_⟩
  · intro r owner
    simp [idle.owner] at owner
  · intro r unequal
    exact absurd (equal r) unequal
  · intro r _ more
    exact absurd (equal r) (Nat.ne_of_gt more)

theorem HeldBy.exactCount {r : Nat} (held : s.HeldBy r) : s.ExactCount := by
  have positive := held.positive
  have holder (r' : Nat) (unequal : s.grants r' ≠ s.unlocks r') : r' = r := by
    by_contra other
    have := held.others r' other
    unfold Mutex.balance at this
    omega
  refine ⟨?_, Int.le_of_lt positive, ?_, ?_, ?_⟩
  · simp [held.owner, Int.ne_of_gt positive]
  · intro r' owner
    have same : r = r' := by simpa [held.owner] using owner
    exact same ▸ held.balance.symm
  · intro r' unequal
    rw [holder r' unequal, held.owner]
  · intro r₁ r₂ more more'
    rw [holder r₁ (Nat.ne_of_gt more), holder r₂ (Nat.ne_of_gt more')]

/-- In a free section owner and counter are exact; whoever finds the waiter of its hand-off timed
out goes back to an unowned mutex with no grant more; and an unlock by another is refused. -/
theorem ownership_exact (reachable : system.Reachable s) :
    (s.lockSection = .free → s.ExactCount) ∧
    (s.lockSection = .releasing → s.owner = none ∧ s.counter = 0) ∧
    (∀ w root, s.lockSection = .offering w root → (s.waiters w).value = false →
      ∃ t, step s .notify = some t ∧ t.lockSection = .releasing ∧ t.owner = none ∧
        t.counter = 0 ∧ t.log = s.log) ∧
    ∀ r, s.lockSection = .free → s.owner ≠ some r →
      step s (.unlock r) = some (s.record (.unlocked r false)) := by
  have owned := owned reachable
  refine ⟨?_, ?_, ?_, ?_⟩
  · intro free
    have settled : s.Settled := by simpa only [Owned, free] using owned
    cases settled with
    | inl idle => exact idle.exactCount
    | inr held => exact held.choose_spec.exactCount
  · intro releasing
    simp only [Owned, releasing] at owned
    exact ⟨owned.owner, owned.counter⟩
  · intro w root offering claimed
    simp only [Owned, offering] at owned
    refine ⟨s.notify w root, by simp only [step, offering], ?_⟩
    rw [notify_of_claimed claimed]
    refine ⟨rfl, rfl, ?_, rfl⟩
    simp [MutexImpl.revert, owned.2.1]
  · intro r free other
    simp only [step, free, if_true, beginUnlock_of_other other]
    rw [← free]
    rfl

theorem ownership_exact_timed_out :
    ∃ s : Mutex, system.Reachable s ∧ s.lockSection = .free ∧ (s.waiters 0).timedOut = true ∧
      s.ExactCount := by
  let start : system.Reachable system.init := .init
  let run := start.next (.tryLock 5) rfl trivial |>.next (.lock 1 2 true) rfl trivial
    |>.next .enqueue rfl trivial |>.next (.unlock 5) rfl trivial |>.next (.offer 2) rfl trivial
    |>.next (.timeout 0) rfl trivial |>.next .notify rfl trivial |>.next .leave rfl trivial
  exact ⟨_, run, rfl, rfl, (ownership_exact run).1 rfl⟩

end Mutex

end Librf
