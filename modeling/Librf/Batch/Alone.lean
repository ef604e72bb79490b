import Mathlib.Data.List.Nodup
import Librf.Batch.Holds

/-!
# A batch of spinlocks that nobody else wants

Every call has one answer: `_Try_lock_ref` fails for the locks that the caller has taken itself.
-/

namespace Librf.Batch

open Program

variable {ι : Type} [DecidableEq ι] {locks : List ι} {hold : ι → Nat}

def alone (locks : List ι) (hold : ι → Nat) : (o : LockOp) → Ending o.answer × (ι → Nat)
  | .lockRef i => (.returned (), locks[i]?.elim hold (raise hold))
  | .tryLockRef i => match locks[i]? with
      | some l => if hold l = 0 then (.returned true, raise hold l) else (.returned false, hold)
      | none => (.returned false, hold)
  | .unlockRef i => (.returned (), locks[i]?.elim hold (lower hold))
  | .yield => (.returned (), hold)

theorem returns_lockRef {i : Nat} {l : ι} (at_ : locks[i]? = some l) :
    Returns (alone locks) (lockRef i) hold () (raise hold l) :=
  returns_perform (by simp [alone, at_])

theorem returns_tryLockRef {i : Nat} {l : ι} (at_ : locks[i]? = some l) (free : hold l = 0) :
    Returns (alone locks) (tryLockRef i) hold true (raise hold l) :=
  returns_perform (by simp [alone, at_, free])

omit [DecidableEq ι] in
theorem ne_of_nodup (nodup : locks.Nodup) {i j : Nat} {l l' : ι} (different : i ≠ j)
    (at_ : locks[i]? = some l) (at' : locks[j]? = some l') : l' ≠ l := by
  rintro rfl
  obtain ⟨bound, here⟩ := List.getElem?_eq_some_iff.1 at_
  obtain ⟨bound', here'⟩ := List.getElem?_eq_some_iff.1 at'
  exact different (nodup.getElem_inj_iff.1 (here.trans here'.symm))

theorem returns_tryLockFrom (nodup : locks.Nodup) (first taken rest : Nat)
    (bound : first + taken + rest ≤ locks.length)
    (free : ∀ i l, first + taken ≤ i → locks[i]? = some l → hold l = 0) :
    ∃ after, Returns (alone locks) (tryLockFrom first taken rest) hold none after := by
  induction rest generalizing taken hold with
  | zero => exact ⟨hold, returns_pure⟩
  | succ rest ih =>
      obtain ⟨l, at_⟩ : ∃ l, locks[first + taken]? = some l := exists_at (by omega)
      have locked := returns_tryLockRef at_ (free _ l (Nat.le_refl _) at_)
      have others (i : Nat) (l' : ι) (later : first + (taken + 1) ≤ i) (at' : locks[i]? = some l') :
          raise hold l l' = 0 := by
        have different : l' ≠ l := ne_of_nodup nodup (by omega) at_ at'
        rw [raise, Function.update_of_ne different]
        exact free i l' (by omega) at'
      obtain ⟨after, returns⟩ := ih (taken + 1) (by omega) others
      exact ⟨after, returns_bind (returns_tryCatch locked) returns⟩

theorem returns_lockAttempt (nodup : locks.Nodup) (bound : 0 < locks.length) :
    ∃ after, Returns (alone locks) (lockAttempt locks.length 0) 0 none after := by
  obtain ⟨l, at_⟩ := exists_at bound
  have others (i : Nat) (l' : ι) (later : 1 + 0 ≤ i) (at' : locks[i]? = some l') :
      raise (0 : ι → Nat) l l' = 0 := by
    have different : l' ≠ l := ne_of_nodup nodup (by omega) at_ at'
    rw [raise, Function.update_of_ne different]
    rfl
  obtain ⟨after, upper⟩ := returns_tryLockFrom nodup 1 0 (locks.length - 1) (by omega) others
  refine ⟨after, returns_bind (returns_lockRef at_) ?_⟩
  refine returns_bind (returns_tryCatch returns_pure) ?_
  exact returns_bind (returns_tryCatch upper) returns_pure

theorem returns_lockAttemptSmall2 (nodup : locks.Nodup) (two : locks.length = 2) :
    ∃ after, Returns (alone locks) (lockAttemptSmall2 0 1) 0 false after := by
  obtain ⟨l, at_⟩ : ∃ l, locks[0]? = some l := exists_at (by omega)
  obtain ⟨l', at'⟩ : ∃ l, locks[1]? = some l := exists_at (by omega)
  have different : l' ≠ l := ne_of_nodup nodup (by omega) at_ at'
  have free : raise (0 : ι → Nat) l l' = 0 := by
    rw [raise, Function.update_of_ne different]
    rfl
  have locked := returns_tryLockRef at' free
  exact ⟨_, returns_bind (returns_lockRef at_) (returns_bind (returns_tryCatch locked) returns_pure)⟩

def Succeeds (locks : List ι) (turn : LockProgram (Retry ⊕ Unit)) (hold : ι → Nat) : Prop :=
  ∃ after, Returns (alone locks) turn hold (.inr ()) after

theorem succeeds_lockRange (nodup : locks.Nodup) : Succeeds locks (lockRange locks.length) 0 ∨
    ∃ label, lockRange locks.length = pure (.inl label) ∧
      Succeeds locks (retry locks.length label) 0 := by
  unfold lockRange
  split
  · exact .inl ⟨0, returns_pure⟩
  · obtain ⟨l, at_⟩ : ∃ l, locks[0]? = some l := exists_at (by omega)
    exact .inl ⟨_, returns_bind (returns_lockRef at_) returns_pure⟩
  · rename_i two
    obtain ⟨after, locked⟩ := returns_lockAttemptSmall2 nodup two
    exact .inr ⟨.nonmember2, rfl, after, returns_bind locked returns_pure⟩
  · rename_i many
    obtain ⟨after, locked⟩ := returns_lockAttempt nodup (by omega)
    refine .inr ⟨.nonmember3 0, rfl, after, ?_⟩
    exact returns_bind locked returns_pure

theorem calls_unlockLocks (first count : Nat) :
    ((unlockLocks first count).exec (alone locks) hold).calls = count := by
  induction count generalizing first hold with
  | zero => rfl
  | succ count ih => exact congrArg (· + 1) (ih (first + 1))

/-! ## What the algorithm throws by itself -/

theorem quiet_unlockLocks (first count : Nat) : (unlockLocks first count).Quiet := by
  induction count generalizing first with
  | zero => exact quiet_pure
  | succ count ih => exact quiet_bind quiet_perform fun _ => ih (first + 1)

theorem quiet_tryLockFrom (first taken rest : Nat) : (tryLockFrom first taken rest).Quiet := by
  induction rest generalizing taken with
  | zero => exact quiet_pure
  | succ rest ih =>
      refine quiet_bind (quiet_tryCatch quiet_perform) fun locked => ?_
      cases locked with
      | true => exact ih (taken + 1)
      | false => exact quiet_bind (quiet_unlockLocks _ _) fun _ => quiet_pure

theorem quiet_backOut (start hardLock failed : Nat) : (backOut start hardLock failed).Quiet :=
  quiet_bind (quiet_unlockLocks _ _) fun _ => quiet_bind quiet_perform fun _ => quiet_pure

theorem quiet_lockAttempt (size hardLock : Nat) : (lockAttempt size hardLock).Quiet := by
  refine quiet_bind quiet_perform fun _ => ?_
  refine quiet_bind (quiet_tryCatch (quiet_tryLockFrom _ _ _)) fun lower => ?_
  cases lower with
  | some failed => exact quiet_backOut _ _ _
  | none =>
      refine quiet_bind (quiet_tryCatch (quiet_tryLockFrom _ _ _)) fun upper => ?_
      cases upper with
      | some failed => exact quiet_backOut _ _ _
      | none => exact quiet_pure

theorem quiet_lockAttemptSmall2 (idx0 idx1 : Nat) : (lockAttemptSmall2 idx0 idx1).Quiet := by
  refine quiet_bind quiet_perform fun _ => quiet_bind (quiet_tryCatch quiet_perform) fun locked => ?_
  cases locked with
  | true => exact quiet_pure
  | false => exact quiet_bind quiet_perform fun _ => quiet_bind quiet_perform fun _ => quiet_pure

theorem quiet_retry (size : Nat) (label : Retry) : (retry size label).Quiet := by
  cases label with
  | nonmember2 =>
      refine quiet_bind (quiet_lockAttemptSmall2 0 1) fun again => ?_
      cases again with
      | false => exact quiet_pure
      | true =>
          refine quiet_bind (quiet_lockAttemptSmall2 1 0) fun again => ?_
          cases again <;> exact quiet_pure
  | nonmember3 hardLock =>
      refine quiet_bind (quiet_lockAttempt size hardLock) fun failed => ?_
      cases failed <;> exact quiet_pure

theorem quiet_lockRange (size : Nat) : (lockRange size).Quiet := by
  unfold lockRange
  split
  · exact quiet_pure
  · exact quiet_bind quiet_perform fun _ => quiet_pure
  · exact quiet_pure
  · exact quiet_pure

/-! ## Locks that are not listed -/

theorem eq_zero_of_meets {α : Type} {post : Ending α → (ι → Nat) → Prop} {program : LockProgram α}
    {l : ι} (unlisted : l ∉ locks) (last : ∀ result hold, post result hold → hold l = 0)
    (meets : program.Meets (holding locks 0) post hold) : hold l = 0 := by
  induction program generalizing hold with
  | halt result => exact last result hold meets
  | call o next ih =>
      cases o with
      | lockRef i => exact congrFun meets.1.2 l
      | tryLockRef i => exact ih (.returned false) (meets.2 _ _ rfl)
      | yield => exact ih (.returned ()) (meets.2 _ _ rfl)
      | unlockRef i =>
          obtain ⟨l', at_, held⟩ := meets.1
          have other : l ≠ l' := by
            rintro rfl
            exact unlisted (List.mem_of_getElem? at_)
          have lowered := ih (.returned ()) (meets.2 _ _ ⟨l', at_, rfl⟩)
          rwa [lower, Function.update_of_ne other] at lowered

end Librf.Batch
