import Librf.When.Completion

/-!
# What `co_await` of a `when_future_t` gives

The children may end with `void`; their connectors write nothing. `await_resume` moves the values
out while connectors of `when_any` still run.
-/

namespace Librf

/-- `none` in its values is what the default constructor has put there: `std::ignore` for a `void`
child of `when_all`, an empty `std::any` for that of `when_any`. -/
structure WhenFuture (α ε : Type*) extends When α ε where
  isVoid : Nat → Bool
  -- history
  -- the schedulers to whose run queues the state has been added
  scheduled : List Nat := []
  -- the result of `await_resume`
  received : Option (WhenValues α) := none

inductive WhenFutureAction (α ε : Type*)
  | step (action : WhenAction α ε)
  | awaitResume

/-- `first` is copied by a move, `second` and the elements of `when_all` are left empty. -/
def WhenValues.movedFrom {α : Type*} (values : WhenValues α) : WhenValues α :=
  { first := values.first }

namespace WhenFuture

variable {α ε : Type*}

def initial (α ε : Type*) (kind : WhenKind) (size : Nat) (isVoid : Nat → Bool) : WhenFuture α ε :=
  { When.initial α ε kind size with isVoid }

def stores (w : WhenFuture α ε) (i : Nat) : Bool :=
  match w.kind, w.connectors i with
  | .all, .returned _ => true
  | .any, .claimed _ => true
  | _, _ => false

def notice (w : WhenFuture α ε) (i : Nat) : List Nat :=
  match w.connectors i with
  | .stored => w.state.onNotifyOne.2.2.toList
  | _ => []

def advance (w : WhenFuture α ε) (i : Nat) : Option (WhenFuture α ε) :=
  if w.isVoid i && w.stores i then some { w with toWhen := w.setConnector i .stored }
  else (w.advanceConnector i).map fun t =>
    { w with toWhen := t, scheduled := w.scheduled ++ w.notice i }

def step (w : WhenFuture α ε) : WhenFutureAction α ε → Option (WhenFuture α ε)
  | .step (.advance i) => w.advance i
  | .step action => (w.toWhen.step action).map fun t => { w with toWhen := t }
  | .awaitResume => match w.place, w.received with
      | .arrived, none => some { w with
          values := w.values.movedFrom
          received := some w.values }
      | _, _ => none

def system (α ε : Type*) (kind : WhenKind) (size : Nat) (isVoid : Nat → Bool) :
    Transition.System (WhenFuture α ε) (WhenFutureAction α ε) where
  init := initial α ε kind size isVoid
  step := step

/-- Child `i` ends with `v i`, after the awaiting coroutine has suspended. -/
def Late (v : Nat → α) (w : WhenFuture α ε) : WhenFutureAction α ε → Prop
  | .step (.finish i o) => o = .value (v i) ∧ (w.place = .suspended ∨ w.place = .arrived)
  | _ => True

/-! ## What a connector does -/

variable {w t : WhenFuture α ε} {kind : WhenKind} {size i : Nat} {v : Nat → α}

def written (w : WhenFuture α ε) (i : Nat) (x : α) (before : Option α) : Option α :=
  if w.isVoid i then before else some x

inductive Advanced (w : WhenFuture α ε) (i : Nat) : WhenFuture α ε → Prop
  | storeElement (x : α) : w.kind = .all → w.connectors i = .returned x → Advanced w i { w with
      connectors := Function.update w.connectors i .stored
      values := { w.values with
        values := Function.update w.values.values i (w.written i x (w.values.values i)) } }
  | claim (x : α) : w.kind = .any → w.connectors i = .returned x → w.values.first = -1 →
      Advanced w i { w with
        connectors := Function.update w.connectors i (.claimed x)
        values := { w.values with first := i } }
  | beaten (x : α) : w.kind = .any → w.connectors i = .returned x → w.values.first ≠ -1 →
      Advanced w i { w with
        toWhen := (w.setConnector i .beaten).settle i (.value ()) }
  | storeSecond (x : α) : w.kind = .any → w.connectors i = .claimed x → Advanced w i { w with
      connectors := Function.update w.connectors i .stored
      values := { w.values with second := w.written i x w.values.second } }
  | notify : w.connectors i = .stored → Advanced w i { w with
      toWhen := (w.notifyOne.setConnector i .notified).settle i (.value ())
      scheduled := w.scheduled ++ w.state.onNotifyOne.2.2.toList }

theorem advanced_of_advance (action : w.advance i = some t) : Advanced w i t := by
  unfold advance at action
  split at action
  · rename_i skips
    simp only [Bool.and_eq_true] at skips
    obtain ⟨isVoid, stores⟩ := skips
    cases action
    unfold WhenFuture.stores at stores
    split at stores
    · rename_i x all returned
      have same : ({ w with
          connectors := Function.update w.connectors i .stored
          values := { w.values with
            values := Function.update w.values.values i (w.written i x (w.values.values i)) } } :
          WhenFuture α ε) = { w with toWhen := w.setConnector i .stored } := by
        simp [written, isVoid, When.setConnector]
      exact same ▸ .storeElement x all returned
    · rename_i x any claimed
      have same : ({ w with
          connectors := Function.update w.connectors i .stored
          values := { w.values with second := w.written i x w.values.second } } :
          WhenFuture α ε) = { w with toWhen := w.setConnector i .stored } := by
        simp [written, isVoid, When.setConnector]
      exact same ▸ .storeSecond x any claimed
    · cases stores
  · rename_i writes
    obtain ⟨u, connected, rfl⟩ := Option.map_eq_some_iff.1 action
    cases When.connects_of_advance connected with
    | storeElement x all returned =>
        have plain : w.isVoid i = false := by
          simpa [stores, all, returned] using writes
        have result := Advanced.storeElement x all returned
        simp only [written, plain] at result
        simpa [notice, returned, When.setConnector] using result
    | claim x any returned first =>
        simpa [notice, returned, When.setConnector] using Advanced.claim x any returned first
    | beaten x any returned first =>
        simpa [notice, returned, When.setConnector] using Advanced.beaten x any returned first
    | storeSecond x any claimed =>
        have plain : w.isVoid i = false := by
          simpa [stores, any, claimed] using writes
        have result := Advanced.storeSecond x any claimed
        simp only [written, plain] at result
        simpa [notice, claimed, When.setConnector] using result
    | notify stored => simpa [notice, stored] using Advanced.notify stored

end WhenFuture

end Librf
