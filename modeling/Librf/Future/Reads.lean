import Librf.Future.State
import Mathlib.Data.List.Induction

/-!
# Reading a failed future

The state has been completed some number of times. Then any number of coroutines `co_await` copies
of the future; their ready tests, suspensions, resumptions and reads come in any order.
-/

namespace Librf

inductive AwaitAction
  -- `future_await_suspend` of the coroutine `handler`, which runs on `sch`
  | suspend (this : Option Nat) (handler : Nat) (sch : Option Nat)
  -- a scheduler resumes the state
  | resume
  -- `await_resume`
  | read
  deriving DecidableEq, Repr

structure Reads (α ε : Type*) where
  state : FutureState α ε
  -- history
  results : List (Reading α ε) := []

namespace Reads

variable {α ε : Type*}

def step (kind : Kind) (s : Reads α ε) : AwaitAction → Reads α ε
  | .suspend this handler sch =>
      if s.state.futureAwaitReady then s
      else { s with state := (s.state.futureAwaitSuspend this handler sch).1 }
  | .resume => { s with state := s.state.resume.2 }
  | .read =>
      let read := s.state.futureAwaitResume kind
      { state := read.2, results := s.results ++ [read.1] }

def run (kind : Kind) (s : Reads α ε) (actions : List AwaitAction) : Reads α ε :=
  actions.foldl (step kind) s

def completed (kind : Kind) (st : FutureState α ε)
    (completions : List (Outcome α ε × Option Nat)) : FutureState α ε :=
  completions.foldl (fun st completion => (st.complete kind completion.1 completion.2).1) st

end Reads

def Outcome.isException {α ε : Type*} : Outcome α ε → Bool
  | .value _ => false
  | .exception _ => true

def Reading.throws {α ε : Type*} : Reading α ε → Bool
  | .threw _ | .notReady => true
  | .returned _ | .nullRethrow => false

namespace Reads

variable {α ε : Type*}

def resultsAfter (kind : Kind) (st : FutureState α ε)
    (completions : List (Outcome α ε × Option Nat)) (actions : List AwaitAction) :
    List (Reading α ε) :=
  (run kind { state := completed kind st completions } actions).results

structure Safe (kind : Kind) (st : FutureState α ε)
    (completions : List (Outcome α ε × Option Nat)) (actions : List AwaitAction) : Prop where
  rethrows : .nullRethrow ∉ resultsAfter kind st completions actions
  throws : ∀ e root, completions.getLast? = some (.exception e, root) →
    ∀ r ∈ resultsAfter kind st completions actions, r.throws = true

/-! ## The reads alone -/

def readings (kind : Kind) (st : FutureState α ε) : Nat → List (Reading α ε)
  | 0 => []
  | n + 1 => (st.futureAwaitResume kind).1 :: readings kind (st.futureAwaitResume kind).2 n

section Readings

variable {st st' : FutureState α ε} {kind : Kind}

structure Alike (st st' : FutureState α ε) : Prop where
  tag : st.hasValue = st'.hasValue
  value : st.value = st'.value
  exception : st.exception = st'.exception

theorem Alike.futureAwaitResume (alike : Alike st st') (kind : Kind) :
    (st.futureAwaitResume kind).1 = (st'.futureAwaitResume kind).1 ∧
      Alike (st.futureAwaitResume kind).2 (st'.futureAwaitResume kind).2 := by
  obtain ⟨_, _, _, tag, _, _, value, exception⟩ := st
  obtain ⟨_, _, _, tag', _, _, value', exception'⟩ := st'
  obtain ⟨rfl, rfl, rfl⟩ := alike
  cases kind <;> cases tag <;> cases exception <;> exact ⟨rfl, rfl, rfl, rfl⟩

theorem readings_congr (alike : Alike st st') (kind : Kind) (n : Nat) :
    readings kind st n = readings kind st' n := by
  induction n generalizing st st' with
  | zero => rfl
  | succ n ih =>
      obtain ⟨same, alike⟩ := alike.futureAwaitResume kind
      rw [readings, readings, same, ih alike]

theorem alike_futureAwaitSuspend (st : FutureState α ε) (this : Option Nat) (handler : Nat)
    (sch : Option Nat) : Alike (st.futureAwaitSuspend this handler sch).1 st := by
  by_cases same : this = some handler <;> cases taken : st.coro <;> cases sch <;>
    simp only [FutureState.futureAwaitSuspend, same, taken, if_true, if_false] <;>
    exact ⟨rfl, rfl, rfl⟩

theorem alike_resume (st : FutureState α ε) : Alike st.resume.2 st := by
  unfold FutureState.resume
  split
  · exact ⟨rfl, rfl, rfl⟩
  · split
    · exact ⟨rfl, rfl, rfl⟩
    · split <;> exact ⟨rfl, rfl, rfl⟩

theorem run_results (kind : Kind) (s : Reads α ε) (actions : List AwaitAction) :
    (s.run kind actions).results = s.results ++ readings kind s.state (actions.count .read) := by
  induction actions generalizing s with
  | nil => exact (List.append_nil _).symm
  | cons action rest ih =>
      rw [run, List.foldl_cons, ← run, ih]
      cases action with
      | suspend this handler sch =>
          simp only [step]
          split
          · simp
          · simp [readings_congr (alike_futureAwaitSuspend s.state this handler sch)]
      | resume => simp [step, readings_congr (alike_resume s.state)]
      | read => simp [step, readings]

theorem readings_notReady (kind : Kind) (tag : st.hasValue = .none) (empty : st.exception = none)
    (n : Nat) : readings kind st n = List.replicate n .notReady := by
  have same : st.futureAwaitResume kind = (.notReady, st) := by
    cases kind <;> simp [FutureState.futureAwaitResume, tag, empty]
  induction n with
  | zero => rfl
  | succ n ih => rw [readings, same, ih, List.replicate_succ]

theorem readings_nullRethrow (other : kind ≠ .unit) (tag : st.hasValue = .exception)
    (empty : st.exception = none) (n : Nat) :
    readings kind st n = List.replicate n .nullRethrow := by
  have same : st.futureAwaitResume kind = (.nullRethrow, st) := by
    obtain ⟨_, _, _, _, _, _, _, _⟩ := st
    cases tag
    cases empty
    cases kind with
    | unit => exact absurd rfl other
    | object => rfl
    | reference => rfl
  induction n with
  | zero => rfl
  | succ n ih => rw [readings, same, ih, List.replicate_succ]

theorem readings_exception (other : kind ≠ .unit) {e : ε} (tag : st.hasValue = .exception)
    (stored : st.exception = some e) (n : Nat) :
    readings kind st (n + 1) = .threw e :: List.replicate n .nullRethrow := by
  have first : st.futureAwaitResume kind = (.threw e, { st with exception := none }) := by
    cases kind with
    | unit => exact absurd rfl other
    | object => simp [FutureState.futureAwaitResume, tag, stored]
    | reference => simp [FutureState.futureAwaitResume, tag, stored]
  rw [readings, first, readings_nullRethrow other]
  · exact tag
  · rfl

theorem nullRethrow_not_mem_of_value (tag : st.hasValue = .value) (n : Nat) :
    .nullRethrow ∉ readings kind st n := by
  induction n generalizing st with
  | zero => exact List.not_mem_nil
  | succ n ih =>
      have same : (st.futureAwaitResume kind).1 ≠ .nullRethrow ∧
          (st.futureAwaitResume kind).2.hasValue = .value := by
        cases kind with
        | unit => cases stored : st.exception <;> simp [FutureState.futureAwaitResume, tag, stored]
        | object => simp [FutureState.futureAwaitResume, tag]
        | reference => simp [FutureState.futureAwaitResume, tag]
      exact List.not_mem_cons_of_ne_of_not_mem same.1.symm (ih same.2)

theorem readings_returned (tag : st.hasValue ≠ .none) (empty : st.exception = none) (n : Nat) :
    readings .unit st n = List.replicate n (.returned none) := by
  have same : st.futureAwaitResume .unit = (.returned none, st) := by
    simp [FutureState.futureAwaitResume, tag, empty]
  induction n with
  | zero => rfl
  | succ n ih => rw [readings, same, ih, List.replicate_succ]

theorem readings_unit {e : ε} (stored : st.exception = some e) (n : Nat) :
    readings .unit st (n + 1) =
      .threw e :: List.replicate n (if st.hasValue = .none then .notReady else .returned none) := by
  have first : st.futureAwaitResume .unit = (.threw e, { st with exception := none }) := by
    simp [FutureState.futureAwaitResume, stored]
  rw [readings, first]
  split
  · rw [readings_notReady]
    · assumption
    · rfl
  · rw [readings_returned]
    · assumption
    · rfl

end Readings

/-! ## After the completions -/

section Completed

variable {st : FutureState α ε} {kind : Kind} {completions : List (Outcome α ε × Option Nat)}

theorem completed_append (kind : Kind) (st : FutureState α ε)
    (completions : List (Outcome α ε × Option Nat)) (o : Outcome α ε) (root : Option Nat) :
    completed kind st (completions ++ [(o, root)]) = (completed kind st completions).assign kind o := by
  simp [completed, FutureState.complete_state]

theorem completed_exception (other : kind ≠ .unit) (st : FutureState α ε)
    (completions : List (Outcome α ε × Option Nat)) (e : ε) (root : Option Nat) :
    (completed kind st (completions ++ [(.exception e, root)])).hasValue = .exception ∧
      (completed kind st (completions ++ [(.exception e, root)])).exception = some e := by
  rw [completed_append]
  cases kind with
  | unit => exact absurd rfl other
  | object => exact ⟨rfl, rfl⟩
  | reference => exact ⟨rfl, rfl⟩

theorem completed_value {v : α} {root : Option Nat} :
    (completed kind st (completions ++ [(.value v, root)])).hasValue = .value := by
  rw [completed_append]
  cases kind <;> rfl

theorem completed_unit_exception {e : ε} {root : Option Nat} :
    (completed .unit st (completions ++ [(.exception e, root)])).exception = some e := by
  rw [completed_append]
  rfl

/-- `set_exception` leaves the tag of `state_t<void>` alone. -/
theorem completed_unit_hasValue (pending : st.hasValue = .none) :
    (completed .unit st completions).hasValue = .none ↔
      ∀ c ∈ completions, c.1.isException = true := by
  induction completions using List.reverseRecOn with
  | nil => simpa [completed] using pending
  | append_singleton completions c ih =>
      obtain ⟨o, root⟩ := c
      rw [completed_append]
      cases o with
      | value v =>
          simp [FutureState.assign, FutureState.setValueInternal, Outcome.isException,
            or_imp, forall_and]
      | exception e =>
          simp only [List.mem_append, List.mem_singleton, or_imp, forall_and, forall_eq,
            Outcome.isException, and_true]
          exact ih

theorem resultsAfter_eq (kind : Kind) (st : FutureState α ε)
    (completions : List (Outcome α ε × Option Nat)) (actions : List AwaitAction) :
    resultsAfter kind st completions actions =
      readings kind (completed kind st completions) (actions.count .read) := by
  rw [resultsAfter, run_results]
  rfl

/-- At most one read, or a state that does not end in an exception, or a `void` state that has no
value. -/
def Readable (kind : Kind) (completions : List (Outcome α ε × Option Nat))
    (actions : List AwaitAction) : Prop :=
  actions.count .read ≤ 1 ∨ (∀ e root, completions.getLast? ≠ some (.exception e, root)) ∨
    kind = .unit ∧ ∀ c ∈ completions, c.1.isException = true

theorem safe_of_no_exception {actions : List AwaitAction}
    (last : ∀ e root, completions.getLast? ≠ some (.exception e, root))
    (never : .nullRethrow ∉ resultsAfter kind st completions actions) :
    Safe kind st completions actions :=
  ⟨never, fun e root ends => absurd ends (last e root)⟩

theorem safe_exception_iff {e : ε} {root : Option Nat} {actions : List AwaitAction} :
    Safe kind st (completions ++ [(.exception e, root)]) actions ↔
      ∀ r ∈ resultsAfter kind st (completions ++ [(.exception e, root)]) actions,
        r.throws = true := by
  constructor
  · exact fun safe => safe.throws e root List.getLast?_concat
  · intro throws
    exact ⟨fun null => absurd (throws _ null) (by simp [Reading.throws]), fun _ _ _ => throws⟩

theorem throws_nullRethrow_iff (e : ε) (n : Nat) :
    (∀ r ∈ (.threw e :: List.replicate n .nullRethrow : List (Reading α ε)), r.throws = true) ↔
      n = 0 := by
  cases n <;> simp [Reading.throws]

theorem throws_unit_iff (e : ε) (n : Nat) (tag : ResultType) :
    (∀ r ∈ (.threw e :: List.replicate n (if tag = .none then .notReady else .returned none) :
      List (Reading α ε)), r.throws = true) ↔ n = 0 ∨ tag = .none := by
  by_cases pending : tag = .none <;> cases n <;> simp [Reading.throws, pending]

theorem safe_iff_of_exception (pending : st.hasValue = .none) (e : ε) (root : Option Nat)
    (actions : List AwaitAction) :
    Safe kind st (completions ++ [(.exception e, root)]) actions ↔
      actions.count .read ≤ 1 ∨
        kind = .unit ∧ ∀ c ∈ completions ++ [(.exception e, root)], c.1.isException = true := by
  rw [safe_exception_iff, resultsAfter_eq]
  cases reads : actions.count .read with
  | zero => simp [readings]
  | succ n =>
      by_cases unit : kind = .unit
      · subst unit
        rw [readings_unit completed_unit_exception, throws_unit_iff,
          completed_unit_hasValue pending]
        simp
      · obtain ⟨tag, stored⟩ := completed_exception unit st completions e root
        rw [readings_exception unit tag stored, throws_nullRethrow_iff]
        simp [unit]

theorem safe_iff_readable (kind : Kind) (pending : st.hasValue = .none) (bare : st.exception = none)
    (completions : List (Outcome α ε × Option Nat)) (actions : List AwaitAction) :
    Safe kind st completions actions ↔ Readable kind completions actions := by
  induction completions using List.reverseRecOn with
  | nil =>
      have never : .nullRethrow ∉ resultsAfter kind st [] actions := by
        rw [resultsAfter_eq, completed, List.foldl_nil, readings_notReady kind pending bare]
        simp
      exact iff_of_true (safe_of_no_exception (by simp) never) (.inr (.inl (by simp)))
  | append_singleton completions c _ =>
      obtain ⟨o, root⟩ := c
      cases o with
      | value v =>
          have never :
              .nullRethrow ∉ resultsAfter kind st (completions ++ [(.value v, root)]) actions := by
            rw [resultsAfter_eq]
            exact nullRethrow_not_mem_of_value completed_value _
          exact iff_of_true (safe_of_no_exception (by simp) never) (.inr (.inl (by simp)))
      | exception e =>
          rw [safe_iff_of_exception pending]
          refine or_congr_right ⟨.inr, fun readable => readable.resolve_left fun other => ?_⟩
          exact other e root List.getLast?_concat

theorem safe_iff_readable_once : Safe .object ({ isFuture := true } : FutureState Nat Nat)
    [(.exception 7, none)] [.read] ↔
      Readable .object [((.exception 7, none) : Outcome Nat Nat × Option Nat)] [.read] :=
  safe_iff_readable .object rfl rfl _ _

theorem null_rethrown : ¬ Safe .object ({ isFuture := true } : FutureState Nat Nat)
    [(.exception 7, none)] [.read, .read] := by
  intro safe
  exact absurd safe.rethrows (by decide)

end Completed

end Reads

end Librf
