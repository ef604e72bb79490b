import Librf.Base.Totals
import Librf.Mutex.Ownership

/-!
# `batch_unlock_t`

Guards over any number of mutexes. A guard belongs to one thread; each of its calls of `unlock` is
a step, and the mutexes go on with steps of their own in between.
-/

namespace Librf

/-- A lock of `mutex` that `owner` has been given. -/
structure Grant where
  mutex : Nat
  owner : Nat
  deriving DecidableEq, Repr

/-- `one` is `batch_unlock_t<mutex_t>`; `many` is the template, with the number of its arguments. -/
inductive Guard
  | one (mutex owner : Option Nat)
  | many (arity : Nat) (mutexes : List Nat) (owner : Option Nat)
  deriving DecidableEq, Repr

namespace Guard

def default : Guard := .one none none

/-- `adopt_lock` with one mutex; `await_resume` of `lock()` ends so. -/
def adoptOne (sch : Nat) (mtx : Option Nat) : Guard := .one mtx (some sch)

def adoptMany (arity sch : Nat) (mtxs : List Nat) : Guard := .many arity mtxs (some sch)

/-- The calls of `unlock` that `unlock()` and the destructor make. -/
def grants : Guard → List Grant
  | .one (some mutex) (some owner) => [⟨mutex, owner⟩]
  | .one _ _ => []
  | .many _ mutexes (some owner) => mutexes.map fun mutex => ⟨mutex, owner⟩
  | .many _ _ none => []

def unlocked : Guard → Guard
  | .one _ owner => .one none owner
  | .many arity mutexes _ => .many arity mutexes none

/-- What a move leaves: an empty pointer or vector, and the owner. -/
def movedFrom : Guard → Guard
  | .one _ owner => .one none owner
  | .many arity _ owner => .many arity [] owner

/-- The C++ types are the same. -/
def sameType : Guard → Guard → Bool
  | .one _ _, .one _ _ => true
  | .many arity _ _, .many arity' _ _ => arity == arity'
  | _, _ => false

@[simp] theorem grants_default : default.grants = [] := rfl

@[simp] theorem grants_unlocked (guard : Guard) : guard.unlocked.grants = [] := by
  cases guard <;> rfl

@[simp] theorem grants_movedFrom (guard : Guard) : guard.movedFrom.grants = [] := by
  cases guard with
  | one mutex owner => rfl
  | many arity mutexes owner => cases owner <;> rfl

end Guard

inductive GuardObject
  | none
  -- in the frame of `mutex_t::lock`, whose `_Lock_range` has not ended
  | armed (guard : Guard)
  -- in its destructor after `_Lock_range` has thrown
  | unwinding (calls : List Grant)
  | live (guard : Guard)
  -- in `unlock()` or, if `dying`, in the destructor, with the calls it has still to make
  | unlocking (guard : Guard) (calls : List Grant) (dying : Bool)
  deriving DecidableEq, Repr

def GuardObject.grants : GuardObject → List Grant
  | .none | .armed _ | .unwinding _ => []
  | .live guard => guard.grants
  | .unlocking _ calls _ => calls

inductive GuardAction
  -- a step of a mutex that is not a guard's
  | mutex (m : Nat) (action : MutexAction)
  | default
  | adoptOne (sch : Nat) (mtx : Option Nat)
  -- `lock(address, ...)`, which makes its guard at the end
  | adoptMany (arity sch : Nat) (mtxs : List Nat)
  -- `mutex_t::lock` of a coroutine; its guard is there before `_Lock_range`
  | arm (arity sch : Nat) (mtxs : List Nat)
  | locked (g : Nat)
  | threw (g : Nat)
  | moveConstruct (right : Nat)
  | moveAssign (g right : Nat)
  | unlock (g : Nat)
  | destroy (g : Nat)
  -- the next call of `unlock` that guard `g` makes
  | call (g : Nat)
  | finish (g : Nat)

structure Guards where
  mutexes : Nat → Mutex := fun _ => {}
  -- guards are numbered in the order in which they are made
  objects : Nat → GuardObject := fun _ => .none
  created : Nat := 0
  -- history
  -- the locks given that no guard has adopted and that have not been unlocked by hand
  unadopted : Grant → Nat := fun _ => 0
  adopted : Grant → Nat := fun _ => 0
  -- calls of guards that have unlocked
  released : Grant → Nat := fun _ => 0
  -- what the target of a move assignment accounted for
  overwritten : Grant → Nat := fun _ => 0
  -- moved from, and given no value since
  moved : Nat → Bool := fun _ => false

namespace Guards

variable {w t u : Guards} {g : Nat} {k : Grant}

def setObject (w : Guards) (g : Nat) (object : GuardObject) : Guards :=
  { w with objects := Function.update w.objects g object }

def setMutex (w : Guards) (m : Nat) (mutex : Mutex) : Guards :=
  { w with mutexes := Function.update w.mutexes m mutex }

def construct (w : Guards) (object : GuardObject) : Guards :=
  { w.setObject w.created object with created := w.created + 1 }

def adopt (w : Guards) (guard : Guard) : Option Guards :=
  if ∀ k ∈ guard.grants, guard.grants.count k ≤ w.unadopted k then
    some { w with
      unadopted := fun k => w.unadopted k - guard.grants.count k
      adopted := fun k => w.adopted k + guard.grants.count k }
  else none

/-- What a mutex gives and takes back by hand. -/
def bookkeep (unadopted : Grant → Nat) (m : Nat) (before after : Mutex) (k : Grant) : Nat :=
  if k.mutex = m then
    unadopted k + (after.grants k.owner - before.grants k.owner) -
      (after.unlocks k.owner - before.unlocks k.owner)
  else unadopted k

/-- `lock` and `unlock` by hand come in pairs; what a guard has adopted is left to the guard. -/
def paired (w : Guards) (m : Nat) : MutexAction → Bool
  | .unlock sch => (w.mutexes m).owner != some sch || 0 < w.unadopted ⟨m, sch⟩
  | _ => true

def moveAssign (w : Guards) (g right : Nat) (target source : Guard) : Guards :=
  { (w.setObject right (.live source.movedFrom)).setObject g (.live source) with
    overwritten := fun k => w.overwritten k + target.grants.count k
    moved := Function.update (Function.update w.moved right true) g false }

/-- A self assignment empties the vector of the template; `shared_ptr` keeps its value. -/
def selfMove (w : Guards) (g : Nat) : Guard → Guards
  | .one _ _ => w
  | .many arity mutexes owner =>
      { w.setObject g (.live (Guard.many arity mutexes owner).movedFrom) with
        overwritten := fun k => w.overwritten k + (Guard.many arity mutexes owner).grants.count k
        moved := Function.update w.moved g true }

def call (w : Guards) (g : Nat) (k : Grant) (after : GuardObject) : Option Guards :=
  ((w.mutexes k.mutex).step (.unlock k.owner)).map fun mutex =>
    { (w.setMutex k.mutex mutex).setObject g after with
      released := Function.update w.released k
        (w.released k + ((w.mutexes k.mutex).toMutexImpl.unlock k.owner).1.toNat) }

def step (w : Guards) : GuardAction → Option Guards
  | .mutex m action =>
      if w.paired m action then
        ((w.mutexes m).step action).map fun mutex =>
          { w.setMutex m mutex with
            unadopted := bookkeep w.unadopted m (w.mutexes m) mutex }
      else none
  | .default => some (w.construct (.live .default))
  | .adoptOne sch mtx =>
      (w.adopt (.adoptOne sch mtx)).map fun w => w.construct (.live (.adoptOne sch mtx))
  | .adoptMany arity sch mtxs =>
      (w.adopt (.adoptMany arity sch mtxs)).map fun w =>
        w.construct (.live (.adoptMany arity sch mtxs))
  | .arm arity sch mtxs => some (w.construct (.armed (.adoptMany arity sch mtxs)))
  | .locked g => match w.objects g with
      | .armed guard => (w.adopt guard).map fun w =>
        { w.setObject g (.live guard) with moved := Function.update w.moved g false }
      | _ => none
  | .threw g => match w.objects g with
      | .armed guard => some (w.setObject g (.unwinding guard.grants))
      | _ => none
  | .moveConstruct right => match w.objects right with
      | .live source => some
        { (w.construct (.live source)).setObject right (.live source.movedFrom) with
          moved := Function.update w.moved right true }
      | _ => none
  | .moveAssign g right => match w.objects g, w.objects right with
      | .live target, .live source =>
          if target.sameType source then
            if g = right then some (w.selfMove g target)
            else some (w.moveAssign g right target source)
          else none
      | _, _ => none
  | .unlock g => match w.objects g with
      | .live guard => some (w.setObject g (.unlocking guard guard.grants false))
      | _ => none
  | .destroy g => match w.objects g with
      | .live guard => some (w.setObject g (.unlocking guard guard.grants true))
      | _ => none
  | .call g => match w.objects g with
      | .unlocking guard (k :: rest) dying => w.call g k (.unlocking guard rest dying)
      | .unwinding (k :: rest) => w.call g k (.unwinding rest)
      | _ => none
  | .finish g => match w.objects g with
      | .unlocking guard [] dying =>
          some (w.setObject g (if dying then .none else .live guard.unlocked))
      | .unwinding [] => some (w.setObject g .none)
      | _ => none

def system : Transition.System Guards GuardAction where
  init := {}
  step := step

def accounted (w : Guards) (k : Grant) : Nat :=
  Totals.total (fun object : GuardObject => object.grants.count k) w.objects w.created

/-- The target of a move assignment accounts for no lock, or keeps what it has. -/
def Vacant (w : Guards) : GuardAction → Prop
  | .moveAssign g right => (w.objects g).grants = [] ∨
      g = right ∧ ∃ mutex owner, w.objects g = .live (.one mutex owner)
  | _ => True

/-- The guard of a `mutex_t::lock` that has thrown unlocks nothing. -/
def Harmless (w : Guards) : GuardAction → Prop
  | .call g => match w.objects g with
      | .unwinding (k :: _) => (w.mutexes k.mutex).owner ≠ some k.owner
      | _ => True
  | _ => True

def Conserving (w : Guards) (action : GuardAction) : Prop := w.Vacant action ∧ w.Harmless action

end Guards

end Librf
