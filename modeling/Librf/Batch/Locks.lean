import Librf.Batch.Holds
import Librf.Mutex.Model

/-!
# The locks a batch is made of

`spinlock` and `mutex_v2_impl`, both as one kind of lock: who holds it how often, and who waits in
its queue.
-/

namespace Librf.Batch

structure LockModel (κ : Type) where
  free : κ
  holds : κ → Nat → Nat
  queue : κ → List Nat
  tryLock : κ → Nat → Bool × κ
  -- how a caller that finds the lock taken joins the queue, where there is one
  suspend : κ → Nat → Option κ
  -- the lock afterwards, and the waiter it has been handed to
  unlock : κ → Nat → κ × Option Nat
  free_holds : ∀ p, holds free p = 0
  free_queue : queue free = []
  exclusive : ∀ k p q, 0 < holds k p → 0 < holds k q → p = q
  tryLock_holds : ∀ k p, (tryLock k p).1 = true → holds (tryLock k p).2 = raise (holds k) p
  tryLock_queue : ∀ k p, queue (tryLock k p).2 = queue k
  tryLock_refused : ∀ k p, (tryLock k p).1 = false →
    (tryLock k p).2 = k ∧ ∃ q, 0 < holds k q
  suspend_holds : ∀ k p k', suspend k p = some k' → holds k' = holds k
  suspend_queue : ∀ k p k', suspend k p = some k' → queue k' = queue k ++ [p]
  unlock_holds : ∀ k p, 0 < holds k p → holds (unlock k p).1 =
    (unlock k p).2.elim (lower (holds k) p) (raise (lower (holds k) p))
  unlock_queue : ∀ k p, queue k = (unlock k p).2.toList ++ queue (unlock k p).1

/-- A call of `p`, and the waiter to which it hands over a lock. A call of `_Lock_ref` that finds the
lock taken does not return. -/
def LockModel.run {ι κ : Type} [DecidableEq ι] (M : LockModel κ) (locks : List ι) (s : ι → κ)
    (p : Nat) : (o : LockOp) → Bool → Option (Ending o.answer × (ι → κ) × Option Nat)
  | .lockRef i, false => locks[i]?.bind fun l =>
      let tried := M.tryLock (s l) p
      if tried.1 then some (.returned (), Function.update s l tried.2, none) else none
  | .tryLockRef i, false => locks[i]?.map fun l =>
      let tried := M.tryLock (s l) p
      (.returned tried.1, Function.update s l tried.2, none)
  | .unlockRef i, false => locks[i]?.map fun l =>
      let unlocked := M.unlock (s l) p
      (.returned (), Function.update s l unlocked.1, unlocked.2)
  | .yield, false => some (.returned (), s, none)
  | .unlockRef _, true => none
  | .lockRef _, true | .tryLockRef _, true | .yield, true => some (.raised, s, none)

/-! ## `spinlock` -/

structure Spinlock where
  -- `lck` is `LOCKED_VALUE` exactly if some thread has it
  ownerThreadId : Option Nat := none
  deriving DecidableEq, Repr

namespace Spinlock

def tryLock (k : Spinlock) (thread : Nat) : Bool × Spinlock :=
  match k.ownerThreadId with
  | none => (true, { ownerThreadId := some thread })
  | some _ => (false, k)

def unlock (_ : Spinlock) : Spinlock := { ownerThreadId := none }

def holds (k : Spinlock) (thread : Nat) : Nat := if k.ownerThreadId = some thread then 1 else 0

theorem exclusive {k : Spinlock} {p q : Nat} (first : 0 < k.holds p) (second : 0 < k.holds q) :
    p = q := by
  unfold holds at first second
  split at first
  · rename_i mine
    split at second
    · rename_i yours
      exact Option.some.inj (mine.symm.trans yours)
    · exact absurd second (Nat.lt_irrefl 0)
  · exact absurd first (Nat.lt_irrefl 0)

theorem holds_of_owner (p : Nat) : holds { ownerThreadId := some p } = raise (fun _ => 0) p := by
  funext q
  by_cases same : q = p
  · simp [holds, raise, same]
  · simp [holds, raise, Function.update_of_ne same, Ne.symm same]

theorem holds_of_free : holds { ownerThreadId := none } = fun _ => 0 := rfl

end Spinlock

def spinlock : LockModel Spinlock where
  free := {}
  holds := Spinlock.holds
  queue _ := []
  tryLock := Spinlock.tryLock
  suspend _ _ := none
  unlock k _ := (k.unlock, none)
  free_holds _ := rfl
  free_queue := rfl
  exclusive _ _ _ := Spinlock.exclusive
  tryLock_holds := by
    rintro ⟨_ | owner⟩ p locked
    · exact Spinlock.holds_of_owner p
    · cases locked
  tryLock_queue _ _ := rfl
  tryLock_refused := by
    rintro ⟨_ | owner⟩ p refused
    · cases refused
    · exact ⟨rfl, owner, by simp [Spinlock.holds]⟩
  suspend_holds _ _ _ h := by cases h
  suspend_queue _ _ _ h := by cases h
  unlock_holds := by
    rintro ⟨_ | owner⟩ p held
    · exact absurd held (Nat.lt_irrefl 0)
    · have mine : 0 < Spinlock.holds { ownerThreadId := some owner } owner := by
        simp [Spinlock.holds]
      obtain rfl := Spinlock.exclusive mine held
      show (fun _ => 0) = lower (Spinlock.holds { ownerThreadId := some owner }) owner
      rw [Spinlock.holds_of_owner, lower_raise]
  unlock_queue _ _ := rfl

/-! ## `mutex_v2_impl` -/

/-- The first turn of the loop of `unlock`, when `on_notify` succeeds. A waiter is named by its
root. -/
def handOver (m : MutexImpl) : MutexImpl × Option Nat :=
  match m.waitAwakes with
  | [] => (m, none)
  | w :: rest => ({ m with waitAwakes := rest }.transfer w, some w)

def release (m : MutexImpl) (sch : Nat) : MutexImpl × Option Nat :=
  let unlocked := m.unlock sch
  if unlocked.2.1 then handOver unlocked.2.2 else (unlocked.2.2, none)

theorem release_of_other {m : MutexImpl} {sch : Nat} (other : m.owner ≠ some sch) :
    release m sch = (m, none) := by
  simp [release, MutexImpl.unlock, other]

theorem release_of_nested {m : MutexImpl} {sch : Nat} (owner : m.owner = some sch)
    (nested : m.counter ≠ 1) : release m sch = ({ m with counter := m.counter - 1 }, none) := by
  simp [release, MutexImpl.unlock, owner, nested]

theorem release_of_last {m : MutexImpl} {sch : Nat} (owner : m.owner = some sch)
    (last : m.counter = 1) : release m sch = handOver { m with owner := none, counter := 0 } := by
  simp [release, MutexImpl.unlock, owner, last]

structure OwnedMutex extends MutexImpl where
  unowned : owner = none → counter = 0
  owned : owner ≠ none → 0 < counter

namespace OwnedMutex

variable {m : OwnedMutex} {p q : Nat}

def tryLock (m : OwnedMutex) (sch : Nat) : Bool × OwnedMutex :=
  ((m.tryLockLockless sch).1,
    { toMutexImpl := (m.tryLockLockless sch).2
      unowned := by
        have unowned := m.unowned
        unfold MutexImpl.tryLockLockless
        split
        · simp
        · split <;> simp_all
      owned := by
        have unowned := m.unowned
        have owned := m.owned
        unfold MutexImpl.tryLockLockless
        split
        · simp_all
        · split
          · have := owned (by simp_all)
            intro _
            show 0 < m.counter + 1
            omega
          · exact owned })

def addWaitListLockless (m : OwnedMutex) (w : Nat) : OwnedMutex :=
  { m with toMutexImpl := m.toMutexImpl.addWaitListLockless w }

def holds (m : OwnedMutex) (sch : Nat) : Nat := if m.owner = some sch then m.counter.toNat else 0

def unlock (m : OwnedMutex) (sch : Nat) : OwnedMutex × Option Nat :=
  ({ toMutexImpl := (release m.toMutexImpl sch).1
     unowned := by
       by_cases owner : m.owner = some sch
       · by_cases last : m.counter = 1
         · rw [release_of_last owner last]
           unfold handOver
           split <;> simp [MutexImpl.transfer]
         · rw [release_of_nested owner last]
           simp [owner]
       · rw [release_of_other owner]
         exact m.unowned
     owned := by
       by_cases owner : m.owner = some sch
       · by_cases last : m.counter = 1
         · rw [release_of_last owner last]
           unfold handOver
           split <;> simp [MutexImpl.transfer]
         · rw [release_of_nested owner last]
           have := m.owned (by simp [owner])
           intro _
           show 0 < m.counter - 1
           omega
       · rw [release_of_other owner]
         exact m.owned },
    (release m.toMutexImpl sch).2)

theorem owner_of_holds (held : 0 < m.holds p) : m.owner = some p := by
  by_contra other
  simp [holds, other] at held

theorem holds_self (owner : m.owner = some p) : m.holds p = m.counter.toNat := by
  simp [holds, owner]

theorem holds_other (owner : m.owner = some p) (other : q ≠ p) : m.holds q = 0 := by
  simp [holds, owner, Ne.symm other]

theorem holds_of_free (owner : m.owner = none) : m.holds = fun _ => 0 := by
  funext q
  simp [holds, owner]

theorem holds_eq {count : Nat} (owner : m.owner = some p) (counter : m.counter = count) :
    m.holds = Function.update (fun _ => 0) p count := by
  funext q
  by_cases same : q = p
  · subst same
    simp [holds_self owner, counter]
  · simp [holds_other owner same, Function.update_of_ne same]

theorem exists_counter (m : OwnedMutex) : ∃ count : Nat, m.counter = count := by
  refine ⟨m.counter.toNat, (Int.toNat_of_nonneg ?_).symm⟩
  by_cases owner : m.owner = none
  · exact Int.le_of_eq (m.unowned owner).symm
  · exact Int.le_of_lt (m.owned owner)

theorem tryLock_holds (locked : (m.tryLock p).1 = true) :
    (m.tryLock p).2.holds = raise m.holds p := by
  cases owner : m.owner with
  | none =>
      have now : (m.tryLock p).2.owner = some p := by
        simp [tryLock, MutexImpl.tryLockLockless, owner]
      have counted : (m.tryLock p).2.counter = (1 : Nat) := by
        simp [tryLock, MutexImpl.tryLockLockless, owner, m.unowned owner]
      rw [holds_eq now counted, holds_of_free owner]
      rfl
  | some q =>
      have mine : q = p := by
        by_contra other
        simp [tryLock, MutexImpl.tryLockLockless, owner, other] at locked
      subst mine
      obtain ⟨count, counter⟩ := m.exists_counter
      have now : (m.tryLock q).2.owner = some q := by
        simp [tryLock, MutexImpl.tryLockLockless, owner]
      have counted : (m.tryLock q).2.counter = (count + 1 : Nat) := by
        simp [tryLock, MutexImpl.tryLockLockless, owner, counter]
      rw [holds_eq now counted, holds_eq owner counter]
      simp [raise]

theorem tryLock_queue : (m.tryLock p).2.waitAwakes = m.waitAwakes := by
  show (m.tryLockLockless p).2.waitAwakes = m.waitAwakes
  unfold MutexImpl.tryLockLockless
  split
  · rfl
  · split <;> rfl

theorem tryLock_refused (refused : (m.tryLock p).1 = false) :
    (m.tryLock p).2 = m ∧ ∃ q, 0 < m.holds q := by
  cases owner : m.owner with
  | none => simp [tryLock, MutexImpl.tryLockLockless, owner] at refused
  | some q =>
      have other : q ≠ p := by
        rintro rfl
        simp [tryLock, MutexImpl.tryLockLockless, owner] at refused
      constructor
      · simp [tryLock, MutexImpl.tryLockLockless, owner, other]
      · refine ⟨q, ?_⟩
        have positive := m.owned (by simp [owner])
        rw [holds_self owner]
        omega

theorem unlock_holds (held : 0 < m.holds p) : (m.unlock p).1.holds =
    (m.unlock p).2.elim (lower m.holds p) (raise (lower m.holds p)) := by
  have owner := owner_of_holds held
  obtain ⟨count, counter⟩ := m.exists_counter
  by_cases last : m.counter = 1
  · have released := release_of_last owner last
    have nobody : lower m.holds p = fun _ => 0 := by
      rw [holds_eq owner last]
      simp [lower]
    rw [nobody]
    cases queue : m.waitAwakes with
    | nil =>
        simp only [handOver, queue] at released
        have now : (m.unlock p).1.owner = none := by simp [unlock, released]
        have handed : (m.unlock p).2 = none := by simp [unlock, released]
        rw [holds_of_free now, handed]
        rfl
    | cons w rest =>
        simp only [handOver, queue, MutexImpl.transfer] at released
        have now : (m.unlock p).1.owner = some w := by simp [unlock, released]
        have counted : (m.unlock p).1.counter = (1 : Nat) := by simp [unlock, released]
        have handed : (m.unlock p).2 = some w := by simp [unlock, released]
        rw [holds_eq now counted, handed]
        rfl
  · have released := release_of_nested owner last
    have now : (m.unlock p).1.owner = some p := by simp [unlock, released, owner]
    have positive := m.owned (by simp [owner])
    have counted : (m.unlock p).1.counter = (count - 1 : Nat) := by
      simp only [unlock, released, counter]
      omega
    have handed : (m.unlock p).2 = none := by simp [unlock, released]
    rw [holds_eq now counted, handed, holds_eq owner counter]
    simp [lower]

theorem unlock_queue :
    m.waitAwakes = (m.unlock p).2.toList ++ (m.unlock p).1.waitAwakes := by
  show m.waitAwakes = (release m.toMutexImpl p).2.toList ++ (release m.toMutexImpl p).1.waitAwakes
  by_cases owner : m.owner = some p
  · by_cases last : m.counter = 1
    · rw [release_of_last owner last]
      unfold handOver
      split
      · rfl
      · rename_i w rest queue
        exact queue
    · rw [release_of_nested owner last]
      rfl
  · rw [release_of_other owner]
    rfl

theorem unlock_of_other (unheld : m.holds p = 0) : m.unlock p = (m, none) := by
  have other : m.owner ≠ some p := by
    intro owner
    have positive := m.owned (by simp [owner])
    rw [holds_self owner] at unheld
    omega
  simp only [unlock, release_of_other other]

end OwnedMutex

def mutex : LockModel OwnedMutex where
  free := { unowned := fun _ => rfl, owned := fun owned => absurd rfl owned }
  holds := OwnedMutex.holds
  queue m := m.waitAwakes
  tryLock := OwnedMutex.tryLock
  suspend m p := some (m.addWaitListLockless p)
  unlock := OwnedMutex.unlock
  free_holds _ := rfl
  free_queue := rfl
  exclusive m p q mine yours :=
    Option.some.inj ((OwnedMutex.owner_of_holds mine).symm.trans (OwnedMutex.owner_of_holds yours))
  tryLock_holds _ _ := OwnedMutex.tryLock_holds
  tryLock_queue _ _ := OwnedMutex.tryLock_queue
  tryLock_refused _ _ := OwnedMutex.tryLock_refused
  suspend_holds m p k' same := by
    cases same
    rfl
  suspend_queue m p k' same := by
    cases same
    rfl
  unlock_holds _ _ := OwnedMutex.unlock_holds
  unlock_queue _ _ := OwnedMutex.unlock_queue

end Librf.Batch
