import Librf.Base.Program

/-!
# Taking a batch of locks

`without_deadlock_assemble.inl` as programs over the calls of a lock assembly. A range of positions
is given by its first position and its length. `-1` is `none`.
-/

namespace Librf.Batch

inductive LockOp
  | lockRef (i : Nat)
  | tryLockRef (i : Nat)
  | unlockRef (i : Nat)
  | yield
  deriving DecidableEq, Repr

@[reducible] def LockOp.answer : LockOp → Type
  | tryLockRef _ => Bool
  | _ => Unit

abbrev LockProgram (α : Type) := Program LockOp.answer α

def lockRef (i : Nat) : LockProgram Unit := Program.perform (.lockRef i : LockOp)

def tryLockRef (i : Nat) : LockProgram Bool := Program.perform (.tryLockRef i : LockOp)

def unlockRef (i : Nat) : LockProgram Unit := Program.perform (.unlockRef i : LockOp)

def yield : LockProgram Unit := Program.perform (.yield : LockOp)

def unlockLocks (first : Nat) : Nat → LockProgram Unit
  | 0 => pure ()
  | rest + 1 => do
      unlockRef first
      unlockLocks (first + 1) rest

def unlockAndThrow {α : Type} (first count : Nat) : LockProgram α := do
  unlockLocks first count
  Program.throw

/-- The loop of `_Try_lock_range`, at its position `_Next = first + taken`. -/
def tryLockFrom (first taken : Nat) : Nat → LockProgram (Option Nat)
  | 0 => pure none
  | rest + 1 => do
      let result ← (tryLockRef (first + taken)).tryCatch (unlockAndThrow first taken)
      if result then tryLockFrom first (taken + 1) rest
      else do
        unlockLocks first taken
        pure (some (first + taken))

def tryLockRange (first count : Nat) : LockProgram (Option Nat) := tryLockFrom first 0 count

/-- The end of `_Lock_attempt` when some lock was not to be had. -/
def backOut (start hardLock failed : Nat) : LockProgram (Option Nat) := do
  unlockLocks start (hardLock + 1 - start)
  yield
  pure (some failed)

def lockAttempt (size hardLock : Nat) : LockProgram (Option Nat) := do
  lockRef hardLock
  match ← (tryLockRange 0 hardLock).tryCatch (unlockAndThrow hardLock 1) with
  | some failed => backOut hardLock hardLock failed
  | none =>
      match ← (tryLockRange (hardLock + 1) (size - (hardLock + 1))).tryCatch
          (unlockAndThrow 0 (hardLock + 1)) with
      | some failed => backOut 0 hardLock failed
      | none => pure none

def lockAttemptSmall2 (idx0 idx1 : Nat) : LockProgram Bool := do
  lockRef idx0
  let result ← (tryLockRef idx1).tryCatch do
    unlockRef idx0
    Program.throw
  if result then pure false
  else do
    unlockRef idx0
    yield
    pure true

inductive Retry
  | nonmember2
  | nonmember3 (hardLock : Nat)
  deriving DecidableEq, Repr

/-- A turn of `for (;;)`. -/
def lockNonmember2 : LockProgram (Retry ⊕ Unit) := do
  if ← lockAttemptSmall2 0 1 then
    if ← lockAttemptSmall2 1 0 then pure (.inl .nonmember2) else pure (.inr ())
  else pure (.inr ())

/-- A turn of `while (_Hard_lock != -1)`. -/
def lockNonmember3 (size hardLock : Nat) : LockProgram (Retry ⊕ Unit) := do
  match ← lockAttempt size hardLock with
  | some failed => pure (.inl (.nonmember3 failed))
  | none => pure (.inr ())

def retry (size : Nat) : Retry → LockProgram (Retry ⊕ Unit)
  | .nonmember2 => lockNonmember2
  | .nonmember3 hardLock => lockNonmember3 size hardLock

def lockRange (size : Nat) : LockProgram (Retry ⊕ Unit) :=
  match size with
  | 0 => pure (.inr ())
  | 1 => do
      lockRef 0
      pure (.inr ())
  | 2 => pure (.inl .nonmember2)
  | _ + 3 => pure (.inl (.nonmember3 0))

structure BatchUnlock where
  owner : Option Nat
  size : Nat
  deriving DecidableEq, Repr

namespace BatchUnlock

def unlock (guard : BatchUnlock) : LockProgram BatchUnlock :=
  if guard.owner.isSome then do
    unlockLocks 0 guard.size
    pure { guard with owner := none }
  else pure guard

def destroy (guard : BatchUnlock) : LockProgram Unit :=
  if guard.owner.isSome then unlockLocks 0 guard.size else pure ()

end BatchUnlock

/-- `mutex_t::lock` after `_Lock_range`. The guard has its owner from before; it is moved into the
result, or the exception destroys it. -/
def mutexLock (owner size : Nat) : Ending Unit → LockProgram BatchUnlock
  | .returned _ => pure { owner := some owner, size }
  | .raised => do
      BatchUnlock.destroy { owner := some owner, size }
      Program.throw

end Librf.Batch
