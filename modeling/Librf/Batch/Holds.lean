import Mathlib.Algebra.GroupWithZero.Nat
import Mathlib.Algebra.Group.Pi.Basic
import Mathlib.Data.List.Count
import Mathlib.Logic.Function.Basic
import Librf.Batch.Algorithm

/-!
# What a caller holds

Each part of the algorithm either takes every position it was asked for or gives back what it has
taken. When it waits for a lock, it holds nothing of its list.
-/

namespace Librf.Batch

variable {ι : Type} [DecidableEq ι]

/-- How often each lock is listed at the `count` positions from `first` on. -/
def listed (locks : List ι) (first count : Nat) (l : ι) : Nat :=
  ((locks.drop first).take count).count l

def raise (hold : ι → Nat) (l : ι) : ι → Nat := Function.update hold l (hold l + 1)

def lower (hold : ι → Nat) (l : ι) : ι → Nat := Function.update hold l (hold l - 1)

/-- The hold counts of one caller, whatever its environment does. `base` is what it holds when it
calls. -/
def holding (locks : List ι) (base : ι → Nat) : Program.Environment LockOp.answer (ι → Nat) where
  requires hold
    | .lockRef i => i < locks.length ∧ hold = base
    | .tryLockRef i => i < locks.length
    | .unlockRef i => ∃ l, locks[i]? = some l ∧ base l < hold l
    | .yield => True
  effect hold
    | .lockRef i, .returned _, after => ∃ l, locks[i]? = some l ∧ after = raise hold l
    | .tryLockRef i, .returned true, after => ∃ l, locks[i]? = some l ∧ after = raise hold l
    | .unlockRef i, .returned _, after => ∃ l, locks[i]? = some l ∧ after = lower hold l
    | .unlockRef _, .raised, _ => False
    | _, _, after => after = hold

variable {locks : List ι} {base hold : ι → Nat}

/-! ## Ranges of positions -/

theorem raise_add (kept hold : ι → Nat) (l : ι) : raise (kept + hold) l = kept + raise hold l := by
  funext k
  by_cases same : k = l
  · subst same
    simp [raise, Nat.add_assoc]
  · simp [raise, Function.update_of_ne same]

theorem lower_raise (hold : ι → Nat) (l : ι) : lower (raise hold l) l = hold := by
  simp [raise, lower]

@[simp] theorem listed_zero (first : Nat) : listed locks first 0 = 0 := by
  funext l
  simp [listed]

theorem listed_succ {first : Nat} {l : ι} (at_ : locks[first]? = some l) (count : Nat) :
    listed locks first (count + 1) = raise (listed locks (first + 1) count) l := by
  funext k
  obtain ⟨bound, here⟩ := List.getElem?_eq_some_iff.mp at_
  simp only [listed, List.drop_eq_getElem_cons bound, List.take_succ_cons, List.count_cons, here,
    raise]
  by_cases same : k = l
  · simp [same]
  · simp [Function.update_of_ne same, Ne.symm same, listed]

theorem listed_append (first a b : Nat) :
    listed locks first a + listed locks (first + a) b = listed locks first (a + b) := by
  funext l
  rw [listed, List.take_add, List.count_append, List.drop_drop]
  rfl

theorem listed_cons (first count : Nat) :
    listed locks first (count + 1) = listed locks (first + 1) count + listed locks first 1 := by
  rw [Nat.add_comm count 1, ← listed_append, add_comm]

theorem listed_one {i : Nat} {l : ι} (at_ : locks[i]? = some l) :
    listed locks i 1 = raise 0 l := by
  rw [listed_succ at_ 0, listed_zero]

theorem raise_listed {i : Nat} {l : ι} (at_ : locks[i]? = some l) (kept : ι → Nat) :
    raise kept l = kept + listed locks i 1 := by
  rw [listed_one at_, ← raise_add, add_zero]

theorem listed_all (l : ι) : listed locks 0 locks.length l = locks.count l := by
  simp [listed]

omit [DecidableEq ι] in
theorem exists_at {i : Nat} (bound : i < locks.length) : ∃ l, locks[i]? = some l :=
  ⟨locks[i], List.getElem?_eq_getElem bound⟩

/-! ## The calls -/

theorem meets_lockRef {i : Nat} {post : Ending Unit → (ι → Nat) → Prop} (bound : i < locks.length)
    (locked : post (.returned ()) (base + listed locks i 1)) (threw : post .raised base) :
    (lockRef i).Meets (holding locks base) post base := by
  refine Program.meets_perform ⟨bound, rfl⟩ fun result after effect => ?_
  cases result with
  | returned value =>
      obtain ⟨l, at_, rfl⟩ := effect
      rwa [raise_listed at_]
  | raised =>
      obtain rfl : after = base := effect
      exact threw

theorem meets_tryLockRef {i : Nat} {post : Ending Bool → (ι → Nat) → Prop}
    (bound : i < locks.length) (locked : post (.returned true) (hold + listed locks i 1))
    (refused : post (.returned false) hold) (threw : post .raised hold) :
    (tryLockRef i).Meets (holding locks base) post hold := by
  refine Program.meets_perform bound fun result after effect => ?_
  cases result with
  | returned value =>
      cases value with
      | true =>
          obtain ⟨l, at_, rfl⟩ := effect
          rwa [raise_listed at_]
      | false =>
          obtain rfl : after = hold := effect
          exact refused
  | raised =>
      obtain rfl : after = hold := effect
      exact threw

theorem meets_unlockRef {i : Nat} {post : Ending Unit → (ι → Nat) → Prop}
    (bound : i < locks.length) (above : ∀ l, base l ≤ hold l)
    (unlocked : post (.returned ()) hold) :
    (unlockRef i).Meets (holding locks base) post (hold + listed locks i 1) := by
  obtain ⟨l, at_⟩ := exists_at bound
  rw [← raise_listed at_]
  refine Program.meets_perform ⟨l, at_, ?_⟩ fun result after effect => ?_
  · simpa [raise] using Nat.lt_succ_of_le (above l)
  · cases result with
    | returned value =>
        obtain ⟨l', at_', rfl⟩ := effect
        obtain rfl : l = l' := Option.some.inj (at_.symm.trans at_')
        rwa [lower_raise]
    | raised => exact False.elim effect

theorem meets_yield {post : Ending Unit → (ι → Nat) → Prop} (returned : post (.returned ()) hold)
    (threw : post .raised hold) : yield.Meets (holding locks base) post hold := by
  refine Program.meets_perform trivial fun result after effect => ?_
  cases result with
  | returned value =>
      obtain rfl : after = hold := effect
      exact returned
  | raised =>
      obtain rfl : after = hold := effect
      exact threw

/-! ## The parts of the algorithm -/

theorem meets_unlockLocks {post : Ending Unit → (ι → Nat) → Prop} (first count : Nat)
    (bound : first + count ≤ locks.length) (above : ∀ l, base l ≤ hold l)
    (unlocked : post (.returned ()) hold) :
    (unlockLocks first count).Meets (holding locks base) post
      (hold + listed locks first count) := by
  induction count generalizing first with
  | zero =>
      rw [listed_zero, add_zero]
      exact unlocked
  | succ count ih =>
      rw [listed_cons, ← add_assoc]
      apply Program.meets_bind
      apply meets_unlockRef (by omega)
      · exact fun l => Nat.le_trans (above l) (Nat.le_add_right _ _)
      · exact ih (first + 1) (by omega)

theorem meets_unlockAndThrow {α : Type} {post : Ending α → (ι → Nat) → Prop} (first count : Nat)
    (bound : first + count ≤ locks.length) (above : ∀ l, base l ≤ hold l)
    (threw : post .raised hold) :
    (unlockAndThrow first count).Meets (holding locks base) post
      (hold + listed locks first count) := by
  apply Program.meets_bind
  apply meets_unlockLocks first count bound above
  exact threw

theorem meets_tryLockFrom {post : Ending (Option Nat) → (ι → Nat) → Prop} (first taken rest : Nat)
    (bound : first + taken + rest ≤ locks.length) (above : ∀ l, base l ≤ hold l)
    (locked : post (.returned none) (hold + listed locks first (taken + rest)))
    (refused : ∀ failed, first ≤ failed → failed < first + taken + rest →
      post (.returned (some failed)) hold)
    (threw : post .raised hold) :
    (tryLockFrom first taken rest).Meets (holding locks base) post
      (hold + listed locks first taken) := by
  induction rest generalizing taken with
  | zero => exact locked
  | succ rest ih =>
      apply Program.meets_bind
      apply Program.meets_tryCatch
      apply meets_tryLockRef (by omega)
      · show Program.Meets _ _ (tryLockFrom first (taken + 1) rest) _
        rw [add_assoc, listed_append]
        apply ih
        · omega
        · rwa [Nat.add_right_comm]
        · intro failed least most
          exact refused failed least (by omega)
      · apply Program.meets_bind
        apply meets_unlockLocks first taken (by omega) above
        exact refused (first + taken) (by omega) (by omega)
      · apply meets_unlockAndThrow first taken (by omega) above
        exact threw

theorem meets_tryLockRange {post : Ending (Option Nat) → (ι → Nat) → Prop} (first count : Nat)
    (bound : first + count ≤ locks.length) (above : ∀ l, base l ≤ hold l)
    (locked : post (.returned none) (hold + listed locks first count))
    (refused : ∀ failed, failed < locks.length → post (.returned (some failed)) hold)
    (threw : post .raised hold) :
    (tryLockRange first count).Meets (holding locks base) post hold := by
  have meets := meets_tryLockFrom first 0 count bound above
    (by rwa [Nat.zero_add]) (fun failed _ most => refused failed (by omega)) threw
  rwa [listed_zero, add_zero] at meets

theorem meets_backOut {post : Ending (Option Nat) → (ι → Nat) → Prop} {start hardLock failed : Nat}
    (bound : hardLock < locks.length) (within : start ≤ hardLock)
    (refused : post (.returned (some failed)) base) (threw : post .raised base) :
    (backOut start hardLock failed).Meets (holding locks base) post
      (base + listed locks start (hardLock + 1 - start)) := by
  apply Program.meets_bind
  apply meets_unlockLocks start _ (by omega) fun l => Nat.le_refl _
  apply Program.meets_bind
  exact meets_yield refused threw

theorem meets_lockAttempt {post : Ending (Option Nat) → (ι → Nat) → Prop} {hardLock : Nat}
    (bound : hardLock < locks.length)
    (locked : post (.returned none) (base + listed locks 0 locks.length))
    (refused : ∀ failed, failed < locks.length → post (.returned (some failed)) base)
    (threw : post .raised base) :
    (lockAttempt locks.length hardLock).Meets (holding locks base) post base := by
  have above : ∀ first count, ∀ l, base l ≤ (base + listed locks first count) l :=
    fun _ _ _ => Nat.le_add_right _ _
  have whole : base + listed locks 0 (hardLock + 1) = base + listed locks hardLock 1 +
      listed locks 0 hardLock := by
    rw [← listed_append 0 hardLock 1, Nat.zero_add, add_assoc, add_comm (listed locks hardLock 1)]
  have upper : listed locks 0 (hardLock + 1) +
      listed locks (hardLock + 1) (locks.length - (hardLock + 1)) = listed locks 0 locks.length := by
    have appended : _ = listed locks 0 _ :=
      listed_append 0 (hardLock + 1) (locks.length - (hardLock + 1))
    rwa [Nat.zero_add, Nat.add_sub_cancel' bound] at appended
  apply Program.meets_bind
  apply meets_lockRef bound ?_ threw
  apply Program.meets_bind
  apply Program.meets_tryCatch
  apply meets_tryLockRange 0 hardLock (by omega) (above hardLock 1)
  · show Program.Meets _ _ _ _
    rw [← whole]
    apply Program.meets_bind
    apply Program.meets_tryCatch
    apply meets_tryLockRange (hardLock + 1) _ (by omega) (above 0 (hardLock + 1))
    · rw [add_assoc, upper]
      exact locked
    · intro failed less
      exact meets_backOut bound (Nat.zero_le _) (refused failed less) threw
    · exact meets_unlockAndThrow 0 (hardLock + 1) (by omega) (fun _ => Nat.le_refl _) threw
  · intro failed less
    have backed := meets_backOut bound (Nat.le_refl _) (refused failed less) threw
    rwa [Nat.add_sub_cancel_left] at backed
  · exact meets_unlockAndThrow hardLock 1 (by omega) (fun _ => Nat.le_refl _) threw

theorem meets_lockAttemptSmall2 {post : Ending Bool → (ι → Nat) → Prop} {idx0 idx1 : Nat}
    (bound0 : idx0 < locks.length) (bound1 : idx1 < locks.length)
    (locked : post (.returned false) (base + listed locks idx0 1 + listed locks idx1 1))
    (refused : post (.returned true) base) (threw : post .raised base) :
    (lockAttemptSmall2 idx0 idx1).Meets (holding locks base) post base := by
  apply Program.meets_bind
  apply meets_lockRef bound0 ?_ threw
  apply Program.meets_bind
  apply Program.meets_tryCatch
  apply meets_tryLockRef bound1
  · exact locked
  · apply Program.meets_bind
    apply meets_unlockRef bound0 fun _ => Nat.le_refl _
    apply Program.meets_bind
    exact meets_yield refused threw
  · apply Program.meets_bind
    apply meets_unlockRef bound0 fun _ => Nat.le_refl _
    exact threw

/-! ## Every turn of `_Lock_range` -/

def Taken (locks : List ι) (base : ι → Nat) : Ending Unit → (ι → Nat) → Prop
  | .returned _, hold => hold = base + listed locks 0 locks.length
  | .raised, hold => hold = base

def Retrying (locks : List ι) (base : ι → Nat) : Retry → (ι → Nat) → Prop
  | .nonmember2, hold => hold = base ∧ locks.length = 2
  | .nonmember3 hardLock, hold => hold = base ∧ hardLock < locks.length

abbrev Turning (locks : List ι) (base : ι → Nat) : Ending (Retry ⊕ Unit) → (ι → Nat) → Prop :=
  Program.Turns (Retrying locks base) (Taken locks base)

theorem meets_lockNonmember2 (two : locks.length = 2) :
    lockNonmember2.Meets (holding locks base) (Turning locks base) base := by
  have both : listed locks 0 1 + listed locks 1 1 = listed locks 0 locks.length := by
    rw [two]
    exact listed_append 0 1 1
  apply Program.meets_bind
  apply meets_lockAttemptSmall2 (by omega) (by omega)
  · show base + listed locks 0 1 + listed locks 1 1 = base + listed locks 0 locks.length
    rw [add_assoc, both]
  · apply Program.meets_bind
    apply meets_lockAttemptSmall2 (by omega) (by omega)
    · show base + listed locks 1 1 + listed locks 0 1 = base + listed locks 0 locks.length
      rw [add_assoc, add_comm (listed locks 1 1), both]
    · exact ⟨rfl, two⟩
    · rfl
  · rfl

theorem meets_lockNonmember3 {hardLock : Nat} (bound : hardLock < locks.length) :
    (lockNonmember3 locks.length hardLock).Meets (holding locks base) (Turning locks base) base := by
  apply Program.meets_bind
  apply meets_lockAttempt bound
  · rfl
  · exact fun failed less => ⟨rfl, less⟩
  · rfl

theorem meets_retry (label : Retry) (hold : ι → Nat) (retrying : Retrying locks base label hold) :
    (retry locks.length label).Meets (holding locks base) (Turning locks base) hold := by
  cases label with
  | nonmember2 =>
      obtain ⟨rfl, two⟩ := retrying
      exact meets_lockNonmember2 two
  | nonmember3 hardLock =>
      obtain ⟨rfl, bound⟩ := retrying
      exact meets_lockNonmember3 bound

theorem meets_lockRange :
    (lockRange locks.length).Meets (holding locks base) (Turning locks base) base := by
  unfold lockRange
  split
  · rename_i empty
    show base = base + listed locks 0 locks.length
    rw [empty, listed_zero, add_zero]
  · rename_i one
    apply Program.meets_bind
    apply meets_lockRef (by omega)
    · show base + listed locks 0 1 = base + listed locks 0 locks.length
      rw [one]
    · rfl
  · rename_i two
    exact ⟨rfl, two⟩
  · rename_i many
    exact ⟨rfl, by omega⟩

/-! ## Releases without a lock -/

/-- A caller of `mutex_v2_impl::unlock`, which does nothing to a mutex of someone else. -/
def releasing (locks : List ι) : Program.Environment LockOp.answer (ι → Nat) where
  requires _
    | .unlockRef i => i < locks.length
    | _ => False
  effect hold
    | .unlockRef i, .returned _, after => ∃ l, locks[i]? = some l ∧ after = lower hold l
    | _, _, _ => False

theorem lower_sub (hold gone : ι → Nat) (l : ι) : lower hold l - gone = hold - raise gone l := by
  funext k
  by_cases same : k = l
  · subst same
    simp only [Pi.sub_apply, lower, raise, Function.update_self]
    omega
  · simp [lower, raise, Function.update_of_ne same]

theorem meets_releasing {post : Ending Unit → (ι → Nat) → Prop} (first count : Nat)
    (bound : first + count ≤ locks.length)
    (released : post (.returned ()) (hold - listed locks first count)) :
    (unlockLocks first count).Meets (releasing locks) post hold := by
  induction count generalizing first hold with
  | zero =>
      have nothing : hold - listed locks first 0 = hold := by
        funext l
        simp
      exact nothing ▸ released
  | succ count ih =>
      apply Program.meets_bind
      refine Program.meets_perform (show first < locks.length by omega) fun result after effect => ?_
      cases result with
      | returned value =>
          obtain ⟨l, at_, rfl⟩ := effect
          apply ih (first + 1) (by omega)
          rwa [lower_sub, ← listed_succ at_]
      | raised => exact False.elim effect

end Librf.Batch
