import Librf.Base.Ledger
import Librf.Base.Transition
import Librf.Future.State

/-!
# The union of `state_t<T>` and `state_t<T&>`

The value and the exception share their storage, and `_has_value` says which of the two is alive.
Constructing and assigning a `T` may throw. `state_t<void>` has no union.
-/

namespace Librf

inductive UnionKind
  | object
  | reference
  deriving DecidableEq, Repr

def UnionKind.kind : UnionKind → Kind
  | object => .object
  | reference => .reference

/-- An object in the storage; its number is its place in the order of construction. -/
structure Member (τ : Type*) where
  id : Nat
  alive : Bool := true
  -- `none` once it has been moved out
  content : Option τ
  deriving DecidableEq, Repr

structure Storage (α ε : Type*) where
  hasValue : ResultType := .none
  -- the last objects constructed as `_value` and as `_exception`
  value : Option (Member α) := none
  exception : Option (Member ε) := none
  built : Nat := 0
  -- history
  destroyed : List Nat := []
  deriving DecidableEq, Repr

/-- The calls; `throws` says whether constructing, assigning or moving a `T` in it throws. -/
inductive StorageCall (α ε : Type*)
  | setValue (v : α) (throws : Bool)
  | promiseYieldValue (v : α) (throws : Bool)
  | setException (e : ε)
  | futureAwaitResume (throws : Bool)
  deriving DecidableEq, Repr

namespace Storage

variable {α ε : Type*}

def valueAlive (s : Storage α ε) : Bool := s.value.any (·.alive)

def exceptionAlive (s : Storage α ε) : Bool := s.exception.any (·.alive)

def constructValue (s : Storage α ε) (v : α) : Storage α ε :=
  { s with value := some { id := s.built, content := some v }, built := s.built + 1 }

def constructException (s : Storage α ε) (e : ε) : Storage α ε :=
  { s with exception := some { id := s.built, content := some e }, built := s.built + 1 }

/-- The end of the lifetime of `_value`: its destructor, or for a pointer the loss of its storage. -/
def destroyValue (s : Storage α ε) : Storage α ε :=
  match s.value with
  | some m => { s with value := some { m with alive := false }, destroyed := s.destroyed ++ [m.id] }
  | none => s

def destroyException (s : Storage α ε) : Storage α ε :=
  match s.exception with
  | some m =>
      { s with exception := some { m with alive := false }, destroyed := s.destroyed ++ [m.id] }
  | none => s

def assignValue (s : Storage α ε) (v : Option α) : Storage α ε :=
  { s with value := s.value.map fun m => { m with content := v } }

def assignException (s : Storage α ε) (e : Option ε) : Storage α ε :=
  { s with exception := s.exception.map fun m => { m with content := e } }

def setValueInternal (kind : UnionKind) (v : α) (throws : Bool) (s : Storage α ε) :
    Bool × Storage α ε :=
  match kind, s.hasValue with
  | .object, .value => if throws then (true, s) else (false, s.assignValue (some v))
  | .object, .exception =>
      let s := s.destroyException
      if throws then (true, s) else (false, { s.constructValue v with hasValue := .value })
  | .object, .none =>
      if throws then (true, s) else (false, { s.constructValue v with hasValue := .value })
  -- a pointer is assigned, which starts its lifetime if there is none
  | .reference, .exception =>
      (false, { s.destroyException.constructValue v with hasValue := .value })
  | .reference, .value => (false, s.assignValue (some v))
  | .reference, .none => (false, { s.constructValue v with hasValue := .value })

def setExceptionInternal (kind : UnionKind) (e : ε) (s : Storage α ε) : Storage α ε :=
  match kind, s.hasValue with
  | _, .exception => s.assignException (some e)
  | .object, .value => { s.destroyValue.constructException e with hasValue := .exception }
  -- the exception takes the storage of the pointer
  | .reference, .value => { s.destroyValue.constructException e with hasValue := .exception }
  | _, .none => { s.constructException e with hasValue := .exception }

/-- What is read, or `none` if moving the value out throws. -/
def futureAwaitResume (kind : UnionKind) (throws : Bool) (s : Storage α ε) :
    Option (Reading α ε) × Storage α ε :=
  match kind, s.hasValue with
  | _, .none => (some .notReady, s)
  | _, .exception =>
      (some ((s.exception.bind (·.content)).elim .nullRethrow .threw), s.assignException none)
  | .object, .value =>
      if throws then (none, s)
      else (some (.returned (s.value.bind (·.content))), s.assignValue none)
  | .reference, .value => (some (.returned (s.value.bind (·.content))), s)

/-- `~state_t`; what is left of a pointer goes with the storage. -/
def destroy (kind : UnionKind) (s : Storage α ε) : Storage α ε :=
  match kind, s.hasValue with
  | .object, .value => s.destroyValue
  | _, .exception => s.destroyException
  | .object, .none => s
  | .reference, _ => if s.valueAlive then s.destroyValue else s

def step (kind : UnionKind) (s : Storage α ε) : StorageCall α ε → Storage α ε
  | .setValue v throws => (s.setValueInternal kind v throws).2
  | .promiseYieldValue v throws => (s.setValueInternal kind v throws).2
  | .setException e => s.setExceptionInternal kind e
  | .futureAwaitResume throws => (s.futureAwaitResume kind throws).2

def system (α ε : Type*) (kind : UnionKind) :
    Transition.System (Storage α ε) (StorageCall α ε) where
  init := {}
  step s call := some (s.step kind call)

/-! ## What is alive -/

def livingValue (s : Storage α ε) : List Nat :=
  (s.value.toList.filter (·.alive)).map (·.id)

def livingException (s : Storage α ε) : List Nat :=
  (s.exception.toList.filter (·.alive)).map (·.id)

structure TagNames (s : Storage α ε) : Prop where
  value : s.hasValue = .value ↔ s.valueAlive = true
  exception : s.hasValue = .exception ↔ s.exceptionAlive = true
  none : s.hasValue = .none ↔ s.valueAlive = false ∧ s.exceptionAlive = false

/-- Everything constructed has been destroyed once, or is alive. -/
def Ledger (s : Storage α ε) : Prop :=
  ∀ i, s.destroyed.count i + s.livingValue.count i + s.livingException.count i =
    if i < s.built then 1 else 0

def DestroyedOnce (s : Storage α ε) : Prop := ∀ i, i < s.built → s.destroyed.count i = 1

variable {s t : Storage α ε} {v : α} {e : ε} {kind : UnionKind}

@[simp] theorem valueAlive_constructValue : (s.constructValue v).valueAlive = true := rfl

@[simp] theorem exceptionAlive_constructValue :
    (s.constructValue v).exceptionAlive = s.exceptionAlive := rfl

@[simp] theorem valueAlive_constructException :
    (s.constructException e).valueAlive = s.valueAlive := rfl

@[simp] theorem exceptionAlive_constructException :
    (s.constructException e).exceptionAlive = true := rfl

@[simp] theorem valueAlive_destroyValue : s.destroyValue.valueAlive = false := by
  cases member : s.value <;> simp [destroyValue, valueAlive, member]

@[simp] theorem exceptionAlive_destroyValue :
    s.destroyValue.exceptionAlive = s.exceptionAlive := by
  cases member : s.value <;> simp [destroyValue, exceptionAlive, member]

@[simp] theorem valueAlive_destroyException : s.destroyException.valueAlive = s.valueAlive := by
  cases member : s.exception <;> simp [destroyException, valueAlive, member]

@[simp] theorem exceptionAlive_destroyException : s.destroyException.exceptionAlive = false := by
  cases member : s.exception <;> simp [destroyException, exceptionAlive, member]

theorem hasValue_destroyException : s.destroyException.hasValue = s.hasValue := by
  cases member : s.exception <;> simp [destroyException, member]

@[simp] theorem valueAlive_assignValue (v : Option α) :
    (s.assignValue v).valueAlive = s.valueAlive := by
  cases member : s.value <;> simp [assignValue, valueAlive, member]

@[simp] theorem exceptionAlive_assignException (e : Option ε) :
    (s.assignException e).exceptionAlive = s.exceptionAlive := by
  cases member : s.exception <;> simp [assignException, exceptionAlive, member]

theorem livingValue_of_dead (dead : s.valueAlive = false) : s.livingValue = [] := by
  cases member : s.value <;> simp_all [livingValue, valueAlive]

theorem livingException_of_dead (dead : s.exceptionAlive = false) : s.livingException = [] := by
  cases member : s.exception <;> simp_all [livingException, exceptionAlive]

theorem Ledger.constructValue (ledger : s.Ledger) (dead : s.valueAlive = false) (v : α) :
    (s.constructValue v).Ledger := by
  intro i
  have before := ledger i
  rw [livingValue_of_dead dead, List.count_nil] at before
  rw [Storage.constructValue, ← Ledger.count_made, ← before]
  exact Nat.add_right_comm _ _ _

theorem Ledger.constructException (ledger : s.Ledger) (dead : s.exceptionAlive = false) (e : ε) :
    (s.constructException e).Ledger := by
  intro i
  have before := ledger i
  rw [livingException_of_dead dead, List.count_nil] at before
  rw [Storage.constructException, ← Ledger.count_made, ← before]
  rfl

theorem Ledger.destroyValue (ledger : s.Ledger) (alive : s.valueAlive = true) :
    s.destroyValue.Ledger := by
  intro i
  have before := ledger i
  cases member : s.value with
  | none => simp [valueAlive, member] at alive
  | some m =>
      have living : m.alive = true := by simpa [valueAlive, member] using alive
      simp only [Storage.destroyValue, member, livingValue, livingException] at before ⊢
      simp [living, List.count_append] at before ⊢
      omega

theorem Ledger.destroyException (ledger : s.Ledger) (alive : s.exceptionAlive = true) :
    s.destroyException.Ledger := by
  intro i
  have before := ledger i
  cases member : s.exception with
  | none => simp [exceptionAlive, member] at alive
  | some m =>
      have living : m.alive = true := by simpa [exceptionAlive, member] using alive
      simp only [Storage.destroyException, member, livingValue, livingException] at before ⊢
      simp [living, List.count_append] at before ⊢
      omega

theorem livingValue_assignValue (v : Option α) : (s.assignValue v).livingValue = s.livingValue := by
  cases member : s.value with
  | none => simp [Storage.assignValue, livingValue, member]
  | some m => cases living : m.alive <;> simp [Storage.assignValue, livingValue, member, living]

theorem livingException_assignException (e : Option ε) :
    (s.assignException e).livingException = s.livingException := by
  cases member : s.exception with
  | none => simp [Storage.assignException, livingException, member]
  | some m =>
      cases living : m.alive <;> simp [Storage.assignException, livingException, member, living]

theorem Ledger.assignValue (ledger : s.Ledger) (v : Option α) : (s.assignValue v).Ledger := by
  intro i
  rw [livingValue_assignValue]
  exact ledger i

theorem Ledger.assignException (ledger : s.Ledger) (e : Option ε) :
    (s.assignException e).Ledger := by
  intro i
  rw [livingException_assignException]
  exact ledger i

/-! ## Each call -/

structure Intact (s : Storage α ε) : Prop where
  names : s.TagNames
  ledger : s.Ledger

theorem Intact.initial : Intact ({} : Storage α ε) where
  names := by constructor <;> simp [valueAlive, exceptionAlive]
  ledger i := by simp [livingValue, livingException]

theorem Intact.value (h : s.Intact) (tag : s.hasValue = .value) :
    s.valueAlive = true ∧ s.exceptionAlive = false := by
  refine ⟨h.names.value.1 tag, Bool.eq_false_iff.2 fun alive => ?_⟩
  rw [h.names.exception.2 alive] at tag
  cases tag

theorem Intact.exception (h : s.Intact) (tag : s.hasValue = .exception) :
    s.valueAlive = false ∧ s.exceptionAlive = true := by
  refine ⟨Bool.eq_false_iff.2 fun alive => ?_, h.names.exception.1 tag⟩
  rw [h.names.value.2 alive] at tag
  cases tag

theorem Intact.constructValue (h : s.Ledger) (empty : s.valueAlive = false)
    (bare : s.exceptionAlive = false) (v : α) :
    Intact { s.constructValue v with hasValue := .value } where
  names := by
    constructor
    · exact iff_of_true rfl rfl
    · exact iff_of_false (by simp) (Bool.eq_false_iff.1 bare)
    · exact iff_of_false (by simp) fun dead => by cases dead.1
  ledger := h.constructValue empty v

theorem Intact.constructException (h : s.Ledger) (empty : s.valueAlive = false)
    (bare : s.exceptionAlive = false) (e : ε) :
    Intact { s.constructException e with hasValue := .exception } where
  names := by
    constructor
    · exact iff_of_false (by simp) (Bool.eq_false_iff.1 empty)
    · exact iff_of_true rfl rfl
    · exact iff_of_false (by simp) fun dead => by cases dead.2
  ledger := h.constructException bare e

theorem Intact.assignValue (h : s.Intact) (v : Option α) : (s.assignValue v).Intact where
  names := by
    constructor
    · rw [valueAlive_assignValue]
      exact h.names.value
    · exact h.names.exception
    · rw [valueAlive_assignValue]
      exact h.names.none
  ledger := h.ledger.assignValue v

theorem Intact.assignException (h : s.Intact) (e : Option ε) : (s.assignException e).Intact where
  names := by
    constructor
    · exact h.names.value
    · rw [exceptionAlive_assignException]
      exact h.names.exception
    · rw [exceptionAlive_assignException]
      exact h.names.none
  ledger := h.ledger.assignException e

/-- A `T` is constructed where an exception has just been destroyed, and throws. -/
def Breaks (kind : UnionKind) (s : Storage α ε) : StorageCall α ε → Prop
  | .setValue _ throws | .promiseYieldValue _ throws =>
      kind = .object ∧ s.hasValue = .exception ∧ throws = true
  | _ => False

theorem Intact.setValueInternal (h : s.Intact) {throws : Bool}
    (unbroken : ¬ (kind = .object ∧ s.hasValue = .exception ∧ throws = true)) (v : α) :
    (s.setValueInternal kind v throws).2.Intact := by
  have none_ (tag : s.hasValue = .none) := h.names.none.1 tag
  cases tag : s.hasValue with
  | none =>
      obtain ⟨empty, bare⟩ := none_ tag
      cases kind with
      | object =>
          simp only [Storage.setValueInternal, tag]
          split
          · exact h
          · exact .constructValue h.ledger empty bare v
      | reference =>
          simp only [Storage.setValueInternal, tag]
          exact .constructValue h.ledger empty bare v
  | value =>
      cases kind with
      | object =>
          simp only [Storage.setValueInternal, tag]
          split
          · exact h
          · exact h.assignValue (some v)
      | reference =>
          simp only [Storage.setValueInternal, tag]
          exact h.assignValue (some v)
  | exception =>
      obtain ⟨empty, alive⟩ := h.exception tag
      have built : Intact { s.destroyException.constructValue v with hasValue := .value } :=
        .constructValue (h.ledger.destroyException alive) (by simpa using empty) (by simp) v
      cases kind with
      | object =>
          have returns : throws = false := by simpa [tag] using unbroken
          simp only [Storage.setValueInternal, tag, returns, Bool.false_eq_true, if_false]
          exact built
      | reference =>
          simp only [Storage.setValueInternal, tag]
          exact built

theorem Intact.setExceptionInternal (h : s.Intact) (e : ε) :
    (s.setExceptionInternal kind e).Intact := by
  cases tag : s.hasValue with
  | none =>
      obtain ⟨empty, bare⟩ := h.names.none.1 tag
      cases kind <;> simp only [Storage.setExceptionInternal, tag] <;>
        exact .constructException h.ledger empty bare e
  | exception =>
      cases kind <;> simp only [Storage.setExceptionInternal, tag] <;>
        exact h.assignException (some e)
  | value =>
      obtain ⟨alive, bare⟩ := h.value tag
      have built : Intact { s.destroyValue.constructException e with hasValue := .exception } :=
        .constructException (h.ledger.destroyValue alive) (by simp) (by simpa using bare) e
      cases kind <;> simp only [Storage.setExceptionInternal, tag] <;> exact built

theorem Intact.futureAwaitResume (h : s.Intact) (throws : Bool) :
    (s.futureAwaitResume kind throws).2.Intact := by
  cases tag : s.hasValue with
  | none => cases kind <;> simpa only [Storage.futureAwaitResume, tag] using h
  | exception =>
      cases kind <;> simp only [Storage.futureAwaitResume, tag] <;> exact h.assignException none
  | value =>
      cases kind with
      | object =>
          simp only [Storage.futureAwaitResume, tag]
          split
          · exact h
          · exact h.assignValue none
      | reference => simpa only [Storage.futureAwaitResume, tag] using h

theorem Intact.step (h : s.Intact) {call : StorageCall α ε} (unbroken : ¬ Breaks kind s call) :
    (s.step kind call).Intact := by
  cases call with
  | setValue v throws => exact h.setValueInternal unbroken v
  | promiseYieldValue v throws => exact h.setValueInternal unbroken v
  | setException e => exact h.setExceptionInternal e
  | futureAwaitResume throws => exact h.futureAwaitResume throws

theorem destroyedOnce_of_dead (ledger : s.Ledger) (empty : s.valueAlive = false)
    (bare : s.exceptionAlive = false) : s.DestroyedOnce := by
  intro i bound
  have before := ledger i
  rw [livingValue_of_dead empty, livingException_of_dead bare, if_pos bound] at before
  exact before

theorem Intact.destroyed (h : s.Intact) : (s.destroy kind).DestroyedOnce := by
  cases tag : s.hasValue with
  | none =>
      obtain ⟨empty, bare⟩ := h.names.none.1 tag
      have left := destroyedOnce_of_dead h.ledger empty bare
      cases kind <;> simpa [destroy, tag, empty] using left
  | value =>
      obtain ⟨alive, bare⟩ := h.value tag
      have left := destroyedOnce_of_dead (h.ledger.destroyValue alive) (by simp) (by simpa using bare)
      cases kind <;> simpa [destroy, tag, alive] using left
  | exception =>
      obtain ⟨empty, alive⟩ := h.exception tag
      have left := destroyedOnce_of_dead (h.ledger.destroyException alive) (by simpa using empty)
        (by simp)
      cases kind <;> simpa only [destroy, tag] using left

theorem not_tagNames_of_breaks {call : StorageCall α ε} (breaks : Breaks kind s call) :
    ¬ (s.step kind call).TagNames := by
  have broken (v : α) {throws : Bool}
      (breaks : kind = .object ∧ s.hasValue = .exception ∧ throws = true) :
      ¬ (s.setValueInternal kind v throws).2.TagNames := by
    obtain ⟨rfl, tag, rfl⟩ := breaks
    intro names
    simp only [Storage.setValueInternal, tag, if_true] at names
    have alive := names.exception.1 (hasValue_destroyException.trans tag)
    rw [exceptionAlive_destroyException] at alive
    cases alive
  cases call with
  | setValue v throws => exact broken v breaks
  | promiseYieldValue v throws => exact broken v breaks
  | setException e => exact breaks.elim
  | futureAwaitResume throws => exact breaks.elim

/-! ## The states of the futures -/

def readValue (s : Storage α ε) : Option α := s.value.bind fun m => if m.alive then m.content else none

def readException (s : Storage α ε) : Option ε := s.exception.bind fun m => if m.alive then m.content else none

def view (s : Storage α ε) (st : FutureState α ε) : FutureState α ε :=
  { st with hasValue := s.hasValue, value := s.readValue, exception := s.readException }

theorem readValue_of_dead (dead : s.valueAlive = false) : s.readValue = none := by
  cases member : s.value <;> simp_all [readValue, valueAlive]

theorem readException_of_dead (dead : s.exceptionAlive = false) : s.readException = none := by
  cases member : s.exception <;> simp_all [readException, exceptionAlive]

theorem readValue_assignValue (alive : s.valueAlive = true) (v : Option α) :
    (s.assignValue v).readValue = v := by
  cases member : s.value <;> simp_all [readValue, valueAlive, Storage.assignValue]

theorem readException_assignException (alive : s.exceptionAlive = true) (e : Option ε) :
    (s.assignException e).readException = e := by
  cases member : s.exception <;> simp_all [readException, exceptionAlive, Storage.assignException]

theorem readException_destroyException : s.destroyException.readException = none :=
  readException_of_dead exceptionAlive_destroyException

theorem readValue_destroyValue : s.destroyValue.readValue = none :=
  readValue_of_dead valueAlive_destroyValue

theorem readException_of_alive (alive : s.exceptionAlive = true) :
    s.exception.bind (·.content) = s.readException := by
  cases member : s.exception <;> simp_all [exceptionAlive, readException]

theorem readValue_of_alive (alive : s.valueAlive = true) :
    s.value.bind (·.content) = s.readValue := by
  cases member : s.value <;> simp_all [valueAlive, readValue]

theorem setValueInternal_view (h : s.Intact) (v : α) (st : FutureState α ε) :
    (s.setValueInternal kind v false).2.view st =
      (s.view st).setValueInternal kind.kind v := by
  cases tag : s.hasValue with
  | none =>
      obtain ⟨-, bare⟩ := h.names.none.1 tag
      have before := readException_of_dead bare
      cases kind <;>
        simp [Storage.setValueInternal, FutureState.setValueInternal, UnionKind.kind, view, tag,
          before] <;>
        exact ⟨rfl, before⟩
  | value =>
      have after := readValue_assignValue (h.value tag).1 (some v)
      cases kind <;>
        simp [Storage.setValueInternal, FutureState.setValueInternal, UnionKind.kind, view, tag,
          after] <;>
        exact ⟨tag, rfl⟩
  | exception =>
      have after : s.destroyException.readException = none := readException_destroyException
      cases kind <;>
        simp [Storage.setValueInternal, FutureState.setValueInternal, UnionKind.kind, view, tag] <;>
        exact ⟨rfl, after⟩

theorem setExceptionInternal_view (h : s.Intact) (e : ε) (st : FutureState α ε) :
    (s.setExceptionInternal kind e).view st = (s.view st).setExceptionInternal kind.kind e := by
  cases tag : s.hasValue with
  | none =>
      obtain ⟨empty, -⟩ := h.names.none.1 tag
      have before := readValue_of_dead empty
      cases kind <;>
        simp [Storage.setExceptionInternal, FutureState.setExceptionInternal, UnionKind.kind, view,
          tag, before] <;>
        exact ⟨before, rfl⟩
  | exception =>
      have after := readException_assignException (h.exception tag).2 (some e)
      cases kind <;>
        simp [Storage.setExceptionInternal, FutureState.setExceptionInternal, UnionKind.kind, view,
          tag, after] <;>
        exact ⟨tag, rfl⟩
  | value =>
      have after : s.destroyValue.readValue = none := readValue_destroyValue
      cases kind <;>
        simp [Storage.setExceptionInternal, FutureState.setExceptionInternal, UnionKind.kind, view,
          tag] <;>
        exact ⟨after, rfl⟩

theorem futureAwaitResume_view (h : s.Intact) (st : FutureState α ε) :
    let read := s.futureAwaitResume kind false
    (read.1, read.2.view st) =
      ((some ((s.view st).futureAwaitResume kind.kind).1),
        ((s.view st).futureAwaitResume kind.kind).2) := by
  cases tag : s.hasValue with
  | none =>
      cases kind <;>
        simp [Storage.futureAwaitResume, FutureState.futureAwaitResume, UnionKind.kind, view, tag]
  | exception =>
      have alive := (h.exception tag).2
      have same := readException_of_alive alive
      have after := readException_assignException alive (none : Option ε)
      cases kind <;>
        simp [Storage.futureAwaitResume, FutureState.futureAwaitResume, UnionKind.kind, view, tag,
          same, after] <;>
        exact ⟨tag, rfl⟩
  | value =>
      have alive := (h.value tag).1
      have same := readValue_of_alive alive
      have after := readValue_assignValue alive (none : Option α)
      cases kind with
      | object =>
          simp [Storage.futureAwaitResume, FutureState.futureAwaitResume, UnionKind.kind, view, tag,
            same, after]
          exact ⟨tag, rfl⟩
      | reference =>
          simp [Storage.futureAwaitResume, FutureState.futureAwaitResume, UnionKind.kind, view, tag,
            same]

/-! ## Every run -/

structure Faithful (kind : UnionKind) (calls : List (StorageCall α ε)) : Prop where
  named : ∀ before rest, before ++ rest = calls → ∀ s,
    (system α ε kind).replay {} before = some s → s.TagNames
  destroyed : ∀ s, (system α ε kind).replay {} calls = some s → (s.destroy kind).DestroyedOnce

theorem intact_of_along {calls : List (StorageCall α ε)}
    (along : (system α ε kind).Along (fun s call => ¬ Breaks kind s call) {} calls)
    (run : (system α ε kind).replay {} calls = some s) : s.Intact := by
  have inductive_ : (system α ε kind).Inductive (fun s call => ¬ Breaks kind s call) Intact := by
    refine ⟨.initial, fun s call t _ intact unbroken action => ?_⟩
    cases action
    exact intact.step unbroken
  exact inductive_.holds (along.reachableBy .init run)

theorem along_of_named {calls : List (StorageCall α ε)} (h : s.Intact)
    (named : ∀ before rest, before ++ rest = calls → ∀ t,
      (system α ε kind).replay s before = some t → t.TagNames) :
    (system α ε kind).Along (fun s call => ¬ Breaks kind s call) s calls := by
  induction calls generalizing s with
  | nil => trivial
  | cons call rest ih =>
      have unbroken : ¬ Breaks kind s call := fun breaks =>
        not_tagNames_of_breaks breaks (named [call] rest rfl _ rfl)
      refine ⟨unbroken, fun t action => ?_⟩
      cases action
      refine ih (h.step unbroken) fun before rest' split t run => ?_
      exact named (call :: before) rest' (by rw [← split]; rfl) t run

/-- The tag names the living member throughout exactly if no `T` throws where an exception has been
destroyed for it. -/
theorem tag_names_living (α ε : Type*) (kind : UnionKind) (calls : List (StorageCall α ε)) :
    Faithful kind calls ↔
      (system α ε kind).Along (fun s call => ¬ Breaks kind s call) {} calls := by
  constructor
  · exact fun faithful => along_of_named .initial faithful.named
  · intro along
    constructor
    · rintro before rest rfl s run
      exact (intact_of_along along.of_append run).names
    · intro s run
      exact (intact_of_along along run).destroyed

/-- `set_exception`, a `set_value` that throws, and the destructor: the exception is destroyed
twice. -/
theorem exception_destroyed_twice : ¬ Faithful .object
    [.setException 7, .setValue 1 true] (α := Nat) (ε := Nat) := by
  intro faithful
  exact absurd (faithful.destroyed _ rfl 0 (by decide)) (by decide)

end Storage

end Librf
