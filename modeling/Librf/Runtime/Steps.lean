import Librf.Runtime.Handles

/-!
# The steps of a runtime as moves of handles
-/

namespace Librf

namespace Runtime

variable {α ε : Type*} {s t : Runtime α ε}

def handles (s : Runtime α ε) : Handles where
  classes := s.classes
  coro n := (s.states n).coro
  isInitor n := (s.states n).isInitor
  progress := s.progress
  created := s.created

theorem step_cases {action : RuntimeAction α ε} (h : s.step action = some t) :
    (∃ kind, action = .newCoroutine kind ∧ t = s.add (.future kind)
      (FutureState.promiseInitialSuspend { isFuture := true }) .initial) ∨
    (action = .newGenerator ∧
      t = s.add .generator { isFuture := false, coro := some s.created } .initial) ∨
    (∃ kind, action = .newAwaitable kind ∧
      t = s.add (.future kind) { isFuture := false } .absent) ∨
    (∃ sch n, action = .go sch n ∧ n < s.created ∧
      ((∃ kind, s.classes n = .future kind) ∨ s.classes n = .generator) ∧ t = s.newTask sch n) ∨
    (∃ n o kind, action = .complete n o ∧ s.classes n = .future kind ∧
      (s.states n).isFuture = false ∧
      t = s.update n ((s.states n).complete kind o (s.rootScheduler n))) ∨
    (∃ w sch, action = .notify w ∧ s.classes w = .waiter ∧ (s.states w).scheduler = some sch ∧
      t = { s with schedulers := s.schedulers.addGenerator sch w }) ∨
    (∃ sch, action = .swap sch ∧ (s.schedulers sch).cachedStates = [] ∧
      (s.schedulers sch).busy = none ∧
      t = s.swap sch) ∨
    (∃ sch n rest, action = .resume sch ∧ (s.schedulers sch).busy = none ∧
      (s.schedulers sch).cachedStates = n :: rest ∧
      t = (s.advance sch rest).resume sch n) ∨
    (∃ sch p next, action = .body sch next ∧ (s.schedulers sch).busy = some p ∧
      s.body sch p next = some t) := by
  cases action with
  | newCoroutine kind => exact .inl ⟨kind, rfl, (Option.some.inj h).symm⟩
  | newGenerator => exact .inr (.inl ⟨rfl, (Option.some.inj h).symm⟩)
  | newAwaitable kind => exact .inr (.inr (.inl ⟨kind, rfl, (Option.some.inj h).symm⟩))
  | go sch n =>
      iterate 3 apply Or.inr
      left
      cases class_ : s.classes n <;> simp only [step, class_, reduceCtorEq] at h
      case future kind =>
        split at h
        · exact ⟨sch, n, rfl, ‹_›, .inl ⟨kind, class_⟩, (Option.some.inj h).symm⟩
        · cases h
      case generator =>
        split at h
        · exact ⟨sch, n, rfl, ‹_›, .inr class_, (Option.some.inj h).symm⟩
        · cases h
  | complete n o =>
      iterate 4 apply Or.inr
      left
      cases class_ : s.classes n <;> simp only [step, class_, reduceCtorEq] at h
      split at h
      · cases h
      · exact ⟨n, o, _, rfl, class_, Bool.eq_false_of_not_eq_true ‹_›, (Option.some.inj h).symm⟩
  | notify w =>
      iterate 5 apply Or.inr
      left
      cases class_ : s.classes w <;> simp only [step, class_, reduceCtorEq] at h
      obtain ⟨sch, own, rfl⟩ := Option.map_eq_some_iff.1 h
      exact ⟨w, sch, rfl, class_, own, rfl⟩
  | swap sch =>
      iterate 6 apply Or.inr
      left
      simp only [step] at h
      split at h
      · exact ⟨sch, rfl, And.left ‹_›, And.right ‹_›, (Option.some.inj h).symm⟩
      · cases h
  | resume sch =>
      iterate 7 apply Or.inr
      left
      simp only [step] at h
      split at h
      · exact ⟨sch, _, _, rfl, ‹_›, ‹_›, (Option.some.inj h).symm⟩
      · cases h
  | body sch next =>
      iterate 8 apply Or.inr
      obtain ⟨p, busy, action⟩ := Option.bind_eq_some_iff.1 h
      exact ⟨sch, p, next, rfl, busy, action⟩

theorem ok_of_toOption {x : Except Fault (Runtime α ε)} (h : x.toOption = some t) : x = .ok t := by
  cases x with
  | error fault => cases h
  | ok value => exact congrArg _ (Option.some.inj h)

theorem body_cases {sch p : Nat} {action : BodyAction α ε} (h : s.body sch p action = some t) :
    (∃ m kind kind', action = .transform m ∧ s.progress p = .running ∧
      s.classes p = .future kind ∧ s.classes m = .future kind' ∧ t = s.beginAwait p m) ∨
    (∃ m, action = .test ∧ s.progress p = .transformed m ∧ t = s.testReady p m) ∨
    (∃ m, action = .suspend ∧ s.progress p = .unready m ∧ t = s.suspendAwait sch p m) ∨
    (∃ kind, action = .pause ∧ s.progress p = .running ∧ s.classes p = .future kind ∧
      t = s.pause sch p) ∨
    (∃ kind, action = .park ∧ s.progress p = .running ∧ s.classes p = .future kind ∧
      t = s.park sch p) ∨
    (∃ target kind, action = .via target ∧ s.progress p = .running ∧ s.classes p = .future kind ∧
      t = s.via sch p target) ∨
    (∃ v, action = .yieldValue v ∧ s.progress p = .running ∧ t = s.yieldValue sch p v) ∨
    (∃ v, action = .finish (.value v) ∧ s.progress p = .running ∧ t = s.finish p (.value v)) ∨
    (∃ e, action = .finish (.exception e) ∧
      (s.progress p = .running ∨ s.progress p = .returned) ∧ s.classes p ≠ .generator ∧
      t = s.finish p (.exception e)) ∨
    (action = .finalSuspend ∧ (s.progress p = .returned ∨ s.progress p = .failed) ∧
      s.finalSuspend sch p = .ok t) := by
  cases action with
  | transform m =>
      simp only [body] at h
      split at h
      · exact .inl ⟨m, _, _, rfl, ‹_›, ‹_›, ‹_›, (Option.some.inj h).symm⟩
      · cases h
  | test =>
      simp only [body] at h
      split at h
      · exact .inr (.inl ⟨_, rfl, ‹_›, (Option.some.inj h).symm⟩)
      · cases h
  | suspend =>
      simp only [body] at h
      split at h
      · exact .inr (.inr (.inl ⟨_, rfl, ‹_›, (Option.some.inj h).symm⟩))
      · cases h
  | pause =>
      iterate 3 apply Or.inr
      left
      simp only [body] at h
      split at h
      · exact ⟨_, rfl, ‹_›, ‹_›, (Option.some.inj h).symm⟩
      · cases h
  | park =>
      iterate 4 apply Or.inr
      left
      simp only [body] at h
      split at h
      · exact ⟨_, rfl, ‹_›, ‹_›, (Option.some.inj h).symm⟩
      · cases h
  | via target =>
      iterate 5 apply Or.inr
      left
      simp only [body] at h
      split at h
      · exact ⟨target, _, rfl, ‹_›, ‹_›, (Option.some.inj h).symm⟩
      · cases h
  | yieldValue v =>
      iterate 6 apply Or.inr
      left
      simp only [body] at h
      split at h
      · exact ⟨v, rfl, ‹_›, (Option.some.inj h).symm⟩
      · cases h
  | finish o =>
      iterate 7 apply Or.inr
      simp only [body] at h
      split at h
      · rename_i can
        cases o with
        | value v => exact .inl ⟨v, rfl, by simpa [canFinish] using can, (Option.some.inj h).symm⟩
        | exception e =>
            simp only [canFinish, Bool.and_eq_true, bne_iff_ne, Bool.or_eq_true, beq_iff_eq] at can
            exact .inr (.inl ⟨e, rfl, can.2, can.1, (Option.some.inj h).symm⟩)
      · cases h
  | finalSuspend =>
      iterate 9 apply Or.inr
      simp only [body] at h
      split at h
      · exact ⟨rfl, .inl ‹_›, ok_of_toOption h⟩
      · exact ⟨rfl, .inr ‹_›, ok_of_toOption h⟩
      · cases h

/-! ## Handles -/

theorem setState_handles (n : Nat) (st : FutureState α ε) :
    (s.setState n st).handles =
      { s.handles with
        coro := Function.update s.handles.coro n st.coro
        isInitor := Function.update s.handles.isInitor n st.isInitor } := by
  ext1
  case coro =>
    funext x
    by_cases here : x = n <;> simp [handles, setState, Function.update_apply, here]
  case isInitor =>
    funext x
    by_cases here : x = n <;> simp [handles, setState, Function.update_apply, here]
  all_goals rfl

theorem setState_same (n : Nat) (st : FutureState α ε) (coro : st.coro = (s.states n).coro)
    (isInitor : st.isInitor = (s.states n).isInitor) : (s.setState n st).handles = s.handles := by
  rw [setState_handles, coro, isInitor]
  ext1
  case coro => exact Function.update_eq_self n s.handles.coro
  case isInitor => exact Function.update_eq_self n s.handles.isInitor
  all_goals rfl

theorem setState_coro (n : Nat) (st : FutureState α ε)
    (isInitor : st.isInitor = (s.states n).isInitor) :
    (s.setState n st).handles =
      { s.handles with coro := Function.update s.handles.coro n st.coro } := by
  rw [setState_handles, isInitor]
  ext1
  case isInitor => exact Function.update_eq_self n s.handles.isInitor
  all_goals rfl

theorem setState_isInitor (n : Nat) (st : FutureState α ε) (coro : st.coro = (s.states n).coro) :
    (s.setState n st).handles =
      { s.handles with isInitor := Function.update s.handles.isInitor n st.isInitor } := by
  rw [setState_handles, coro]
  ext1
  case coro => exact Function.update_eq_self n s.handles.coro
  all_goals rfl

theorem newTask_handles (sch n : Nat) : (s.newTask sch n).handles = s.handles :=
  setState_same (s := s) n _ rfl rfl

theorem newTask_schedulers (sch n : Nat) :
    (s.newTask sch n).schedulers =
      if s.hasHandler n then (s.schedulers.emplace sch n).addGenerator sch n
      else s.schedulers.emplace sch n := by
  have same : (s.setState n { s.states n with scheduler := some sch }).hasHandler n =
      s.hasHandler n := by
    simp only [hasHandler, setState, Function.update_self]
    rfl
  rw [← same]
  rfl

theorem complete_handles (n : Nat) (kind : Kind) (o : Outcome α ε) (root : Option Nat) :
    (s.update n ((s.states n).complete kind o root)).handles = s.handles := by
  have same := setState_same (s := s) n ((s.states n).complete kind o root).1
  rw [FutureState.complete_state, FutureState.assign_coro, FutureState.assign_isInitor] at same
  rw [← same rfl rfl, ← FutureState.complete_state]
  rfl

theorem readResult_handles (m : Nat) : (s.readResult m).handles = s.handles :=
  setState_same m _ ((s.states m).futureAwaitResume_frame (s.kind m)).2.1
    ((s.states m).futureAwaitResume_frame (s.kind m)).2.2.2.2.2

theorem switchScheduler_handles (sch fuel n : Nat) (s : Runtime α ε) :
    (switchScheduler sch fuel n s).2.handles = s.handles := by
  induction fuel generalizing n s with
  | zero => rfl
  | succ fuel ih =>
      unfold switchScheduler
      dsimp only
      split
      · rfl
      · split
        · rw [ih]
          exact setState_same (s := s) n _ rfl rfl
        · exact setState_same (s := s) n _ rfl rfl

theorem futureAwaitSuspend_handle (st : FutureState α ε) (this : Option Nat) (c : Nat)
    (sch : Option Nat) :
    (st.futureAwaitSuspend this c sch).1.coro = st.coro.or (some c) ∧
      (st.futureAwaitSuspend this c sch).1.isInitor = st.isInitor := by
  by_cases same : this = some c <;> cases taken : st.coro <;> cases sch <;>
    simp [FutureState.futureAwaitSuspend, same, taken]

theorem suspendAwait_handles (sch p m : Nat) :
    (s.suspendAwait sch p m).handles =
      { s.handles with
        coro := Function.update s.handles.coro m ((s.handles.coro m).or (some p))
        progress := Function.update s.handles.progress p (.awaiting m) } := by
  have handle := futureAwaitSuspend_handle (s.states m) (some m) p (s.getScheduler p)
  ext1
  case coro =>
    funext x
    by_cases here : x = m
    · subst here
      simpa [handles, suspendAwait, setBusy, setProgress, update, setState] using handle.1
    · simp [handles, suspendAwait, setBusy, setProgress, update, setState, here]
  case isInitor =>
    funext x
    by_cases here : x = m
    · subst here
      simpa [handles, suspendAwait, setBusy, setProgress, update, setState] using handle.2
    · simp [handles, suspendAwait, setBusy, setProgress, update, setState, here]
  all_goals rfl

theorem pause_handles (sch p : Nat) :
    (s.pause sch p).handles =
      { s.handles.add .passing (some p) .none .absent with
        progress := Function.update s.handles.progress p (.awaiting s.created) } := by
  have handle := futureAwaitSuspend_handle
    ({ isFuture := false, hasValue := .value } : FutureState α ε) (some s.created) p
  ext1
  case coro =>
    funext x
    by_cases here : x = s.created
    · subst here
      simpa [handles, pause, setBusy, setProgress, update, setState, Handles.add] using (handle _).1
    · simp [handles, pause, setBusy, setProgress, update, setState, Handles.add, here]
  case isInitor =>
    funext x
    by_cases here : x = s.created
    · subst here
      simpa [handles, pause, setBusy, setProgress, update, setState, Handles.add] using (handle _).2
    · simp [handles, pause, setBusy, setProgress, update, setState, Handles.add, here]
  all_goals rfl

theorem park_handles (sch p : Nat) :
    (s.park sch p).handles =
      { s.handles.add .waiter (some p) .none .absent with
        progress := Function.update s.handles.progress p (.awaiting s.created) } := by
  ext1
  case coro =>
    funext x
    by_cases here : x = s.created <;>
      simp [handles, park, setBusy, setProgress, setState, Handles.add, here]
  case isInitor =>
    funext x
    by_cases here : x = s.created <;>
      simp [handles, park, setBusy, setProgress, setState, Handles.add, here]
  all_goals rfl

theorem add_handles (cls : StateClass) (st : FutureState α ε) (progress : Progress) :
    (s.add cls st progress).handles = s.handles.add cls st.coro st.isInitor progress := by
  ext1
  case coro =>
    funext x
    by_cases here : x = s.created <;>
      simp [handles, add, setProgress, setState, Handles.add, here]
  case isInitor =>
    funext x
    by_cases here : x = s.created <;>
      simp [handles, add, setProgress, setState, Handles.add, here]
  all_goals rfl

theorem setProgress_handles (p : Nat) (progress : Progress) :
    (s.setProgress p progress).handles =
      { s.handles with progress := Function.update s.handles.progress p progress } := rfl

theorem beginAwait_handles (p m : Nat) :
    (s.beginAwait p m).handles =
      { s.handles with progress := Function.update s.handles.progress p (.transformed m) } := by
  let st := { s.states m with scheduler := s.getScheduler p }
  have moved : (s.beginAwait p m).handles =
      ((s.setState m st).setProgress p (.transformed m)).handles := rfl
  rw [moved, setProgress_handles, setState_same m st rfl rfl]

theorem testReady_handles (p m : Nat) :
    ∃ progress : Progress, (progress = .running ∨ progress = .unready m) ∧
      (s.testReady p m).handles =
        { s.handles with progress := Function.update s.handles.progress p progress } := by
  unfold testReady
  split
  · refine ⟨.running, .inl rfl, ?_⟩
    rw [setProgress_handles, readResult_handles]
  · exact ⟨.unready m, .inr rfl, rfl⟩

theorem finish_handles (p : Nat) (o : Outcome α ε) :
    (s.finish p o).handles =
      { s.handles with progress := Function.update s.handles.progress p (afterFinish o) } := by
  unfold finish
  split
  · rfl
  · rw [setProgress_handles, complete_handles]

theorem yieldValue_handles (sch p : Nat) (v : α) :
    (s.classes p = .generator ∧ (s.yieldValue sch p v).handles =
      { s.handles with progress := Function.update s.handles.progress p .yielded }) ∨
    (s.classes p ≠ .generator ∧ (s.yieldValue sch p v).handles =
      { s.handles with
        coro := Function.update s.handles.coro p ((s.handles.coro p).or (some p))
        progress := Function.update s.handles.progress p .yielded }) := by
  unfold yieldValue
  split
  · exact .inl ⟨‹_›, rfl⟩
  · refine .inr ⟨‹_›, ?_⟩
    have state := FutureState.promiseYieldValue_state (s.kind p) v p (s.states p)
      (s.rootScheduler p)
    ext1
    case coro =>
      funext x
      by_cases here : x = p
      · subst here
        simp [handles, setBusy, setProgress, update, setState, state]
      · simp [handles, setBusy, setProgress, update, setState, here]
    case isInitor =>
      funext x
      by_cases here : x = p
      · subst here
        simp [handles, setBusy, setProgress, update, setState, state]
      · simp [handles, setBusy, setProgress, update, setState, here]
    all_goals rfl

theorem finalSuspend_handles {sch p : Nat} (h : s.finalSuspend sch p = .ok t) :
    (s.classes p = .generator ∧ t.handles =
      { s.handles with
        coro := Function.update s.handles.coro p none
        progress := Function.update s.handles.progress p .destroyed }) ∨
    (s.classes p ≠ .generator ∧ t.handles =
      { s.handles with
        isInitor := Function.update s.handles.isInitor p .final
        progress := Function.update s.handles.progress p .final }) := by
  unfold finalSuspend at h
  split at h
  · cases h
    refine .inl ⟨‹_›, ?_⟩
    ext1
    case coro =>
      funext x
      by_cases here : x = p <;>
        simp [handles, setBusy, setProgress, destroy, setState, here]
    case isInitor =>
      funext x
      by_cases here : x = p <;>
        simp [handles, setBusy, setProgress, destroy, setState, here]
    all_goals rfl
  · refine .inr ⟨‹_›, ?_⟩
    cases suspended : (s.states p).promiseFinalSuspend (s.rootScheduler p) with
    | error fault => simp [suspended, bind, Except.bind] at h
    | ok updated =>
        have state := FutureState.promiseFinalSuspend_state suspended
        simp only [suspended, bind, Except.bind, Except.ok.injEq] at h
        subst h
        ext1
        case coro =>
          funext x
          by_cases here : x = p
          · subst here
            simp [handles, setBusy, setProgress, update, setState, state]
          · simp [handles, setBusy, setProgress, update, setState, here]
        case isInitor =>
          funext x
          by_cases here : x = p
          · subst here
            simp [handles, setBusy, setProgress, update, setState, state]
          · simp [handles, setBusy, setProgress, update, setState, here]
        all_goals rfl

theorem via_handles (sch p target : Nat) :
    (s.via sch p target).handles = s.handles ∨
      (s.via sch p target).handles =
        { s.handles.add .passing (some p) .none .absent with
          progress := Function.update s.handles.progress p (.awaiting s.created) } := by
  have recorded : (s.recordSwitch p target).handles = s.handles := by
    unfold recordSwitch
    split <;> rfl
  have same := (switchScheduler_handles target (s.created + 1) p (s.recordSwitch p target)).trans
    recorded
  unfold via
  dsimp only
  split
  · right
    have created : Runtime.created _ = s.created := congrArg Handles.created same
    rw [pause_handles, same, created]
  · exact .inl same

theorem wake_handles (sch n p : Nat) :
    (s.wake sch n p).handles =
      { s.handles with progress := Function.update s.handles.progress p .running } := by
  have arrived : (s.arrive p).handles =
      { s.handles with progress := Function.update s.handles.progress p .running } := by
    unfold arrive
    split
    · rw [setProgress_handles, readResult_handles]
    · rfl
  rw [← arrived]
  unfold wake
  dsimp only
  split <;> rfl

theorem resume_cases (st : FutureState α ε) :
    (st.isInitor = .initial ∧ st.resume = (.start, { st with isInitor := .none })) ∨
    (∃ p, st.isInitor ≠ .initial ∧ st.coro = some p ∧
      st.resume = (.wake p, { st with coro := none })) ∨
    (st.isInitor = .final ∧ st.coro = none ∧
      st.resume = (.destroy, { st with isInitor := .none })) ∨
    (st.isInitor = .none ∧ st.coro = none ∧ st.resume = (.nothing, st)) := by
  unfold FutureState.resume
  by_cases first : st.isInitor = .initial
  · exact .inl ⟨first, if_pos first⟩
  · rw [if_neg first]
    cases held : st.coro with
    | some p => exact .inr (.inl ⟨p, first, rfl, rfl⟩)
    | none =>
        by_cases last : st.isInitor = .final
        · exact .inr (.inr (.inl ⟨last, rfl, if_pos last⟩))
        · refine .inr (.inr (.inr ⟨?_, rfl, if_neg last⟩))
          cases tag : st.isInitor with
          | none => rfl
          | initial => exact absurd tag first
          | final => exact absurd tag last

theorem resume_future (s : Runtime α ε) (sch n : Nat) (class_ : s.classes n ≠ .generator)
    (waits : s.classes n ≠ .waiter) :
    s.resumption n = (s.states n).resume.1 ∧
      s.resume sch n =
        (s.setState n (s.states n).resume.2).continueWith sch n (s.states n).resume.1 := by
  cases here : s.classes n <;> simp_all [resumption, resume]

theorem resume_generator (s : Runtime α ε) (sch n : Nat) (class_ : s.classes n = .generator) :
    s.resume sch n = match (s.states n).coro with
      | some p => s.wake sch n p
      | none => s := by
  simp only [resume, resumption, class_]
  cases (s.states n).coro <;> rfl

theorem resume_waiter (s : Runtime α ε) (sch n : Nat) (class_ : s.classes n = .waiter) :
    s.resume sch n = match (s.states n).coro with
      | some p => wake { s.setState n { s.states n with coro := none } with
          schedulers := match (s.states n).scheduler with
            | some own => s.schedulers.delFinal own n
            | none => s.schedulers } sch n p
      | none => s.setState n { s.states n with coro := none } := by
  simp only [resume, resumption, class_]
  cases (s.states n).coro <;> cases (s.states n).scheduler <;> rfl

section Kept

variable (s : Runtime α ε) (sch n : Nat) {st : FutureState α ε} {p : Nat}

theorem resume_generator_none (class_ : s.classes n = .generator)
    (held : (s.states n).coro = none) : s.resume sch n = s := by
  rw [resume_generator s sch n class_, held]

theorem resume_generator_some (class_ : s.classes n = .generator)
    (held : (s.states n).coro = some p) : s.resume sch n = s.wake sch n p := by
  rw [resume_generator s sch n class_, held]

theorem resume_waiter_none (class_ : s.classes n = .waiter) (same : s.states n = st)
    (held : st.coro = none) : s.resume sch n = s.setState n { st with coro := none } := by
  subst same
  rw [resume_waiter s sch n class_, held]

theorem resume_waiter_some (class_ : s.classes n = .waiter) (same : s.states n = st)
    (held : st.coro = some p) :
    s.resume sch n = wake { s.setState n { st with coro := none } with
      schedulers := match st.scheduler with
        | some own => s.schedulers.delFinal own n
        | none => s.schedulers } sch n p := by
  subst same
  rw [resume_waiter s sch n class_, held]

end Kept

theorem resume_move (s : Runtime α ε) (sch n : Nat) : s.handles.Move (s.resume sch n).handles := by
  by_cases generator : s.classes n = .generator
  · rw [resume_generator s sch n generator]
    cases held : (s.states n).coro with
    | none => exact .stay
    | some p =>
        dsimp only
        rw [wake_handles]
        exact .wakeGenerator n p held generator
  by_cases waiter : s.classes n = .waiter
  · have freed := setState_coro (s := s) n { s.states n with coro := none } rfl
    rw [resume_waiter s sch n waiter]
    cases held : (s.states n).coro with
    | none =>
        have same := setState_same (s := s) n { s.states n with coro := none } held.symm rfl
        dsimp only
        rw [same]
        exact .stay
    | some p =>
        dsimp only
        rw [wake_handles]
        change s.handles.Move
          { (s.setState n { s.states n with coro := none }).handles with
            progress := Function.update s.handles.progress p .running }
        rw [freed]
        exact .wake n p held generator
  rw [(resume_future s sch n generator waiter).2]
  rcases resume_cases (s.states n) with ⟨tag, result⟩ | ⟨p, later, held, result⟩ |
    ⟨tag, held, result⟩ | ⟨tag, held, result⟩ <;> rw [result]
  · have started := setState_isInitor (s := s) n { s.states n with isInitor := .none } rfl
    change s.handles.Move
      { (s.setState n { s.states n with isInitor := .none }).handles with
        progress := Function.update s.handles.progress n .running }
    rw [started]
    exact .start n tag generator
  · have freed := setState_coro (s := s) n { s.states n with coro := none } rfl
    change s.handles.Move (wake _ sch n p).handles
    rw [wake_handles, freed]
    exact .wake n p held generator
  · have ended := setState_isInitor (s := s) n { s.states n with isInitor := .none } rfl
    change s.handles.Move
      { (s.setState n { s.states n with isInitor := .none }).handles with
        progress := Function.update s.handles.progress n .destroyed }
    rw [ended]
    exact .destroy n tag generator
  · have same := setState_same (s := s) n (s.states n) rfl rfl
    change s.handles.Move (s.setState n (s.states n)).handles
    rw [same]
    exact .stay

theorem body_move {sch p : Nat} {action : BodyAction α ε} (sound : s.handles.Sound)
    (h : s.body sch p action = some t) : s.handles.Move t.handles := by
  rcases body_cases h with ⟨m, kind, kind', -, now, class_p, class_m, rfl⟩ | ⟨m, -, now, rfl⟩ |
    ⟨m, -, now, rfl⟩ | ⟨kind, -, now, class_p, rfl⟩ | ⟨kind, -, now, class_p, rfl⟩ |
    ⟨target, kind, -, now, class_p, rfl⟩ | ⟨v, -, now, rfl⟩ | ⟨v, -, now, rfl⟩ |
    ⟨e, -, now, class_p, rfl⟩ | ⟨-, now, done⟩
  · rw [beginAwait_handles]
    refine .walk p _ (by simp [handles, now, Progress.active]) rfl (by simp [handles, class_p]) ?_
    rintro x (equal | equal)
    · cases equal
      exact ⟨kind', class_m⟩
    · cases equal
  · obtain ⟨progress, next, same⟩ := testReady_handles (s := s) p m
    rw [same]
    have target := sound.target p m (.inl now)
    refine .walk p progress (by simp [handles, now, Progress.active]) ?_ ?_ ?_
    · rcases next with rfl | rfl <;> rfl
    · intro class_p
      have := (sound.generator p class_p).2.1
      simp [handles, now, Progress.inAwait] at this
    · rcases next with rfl | rfl
      · simp
      · rintro x (equal | equal)
        · cases equal
        · cases equal
          exact target
  · rw [suspendAwait_handles]
    obtain ⟨kind, class_m⟩ := sound.target p m (.inr now)
    exact .suspend p m now (by simp [class_m])
  · rw [pause_handles]
    exact .park p .passing (by simp [handles, now, Progress.active]) (by simp [handles, class_p])
      (by simp)
  · rw [park_handles]
    exact .park p .waiter (by simp [handles, now, Progress.active]) (by simp [handles, class_p])
      (by simp)
  · rcases via_handles (s := s) sch p target with same | same <;> rw [same]
    · exact .stay
    · exact .park p .passing (by simp [handles, now, Progress.active]) (by simp [handles, class_p])
        (by simp)
  · rcases yieldValue_handles (s := s) sch p v with ⟨class_p, same⟩ | ⟨class_p, same⟩ <;> rw [same]
    · exact .yieldGenerator p (by simp [handles, now, Progress.active]) class_p
    · exact .yield p (by simp [handles, now, Progress.active]) class_p
  · rw [finish_handles]
    exact .walk p _ (by simp [handles, now, Progress.active]) rfl (fun _ => rfl) (by simp [afterFinish])
  · rw [finish_handles]
    refine .walk p _ ?_ rfl (fun _ => rfl) (by simp [afterFinish])
    rcases now with now | now <;> simp [handles, now, Progress.active]
  · have active : (s.progress p).active = true := by
      rcases now with now | now <;> rw [now] <;> rfl
    rcases finalSuspend_handles done with ⟨class_p, same⟩ | ⟨class_p, same⟩ <;> rw [same]
    · exact .endGenerator p active class_p
    · exact .final p active class_p

theorem step_move {action : RuntimeAction α ε} (sound : s.handles.Sound)
    (h : s.step action = some t) : s.handles.Move t.handles := by
  rcases step_cases h with ⟨kind, -, rfl⟩ | ⟨-, rfl⟩ | ⟨kind, -, rfl⟩ | ⟨sch, n, -, -, -, rfl⟩ |
    ⟨n, o, kind, -, class_n, -, rfl⟩ | ⟨w, sch, -, -, -, rfl⟩ | ⟨sch, -, -, -, rfl⟩ |
    ⟨sch, n, rest, -, -, -, rfl⟩ | ⟨sch, p, next, -, -, action⟩
  · rw [add_handles]
    exact .newCoroutine kind
  · rw [add_handles]
    exact .newGenerator
  · rw [add_handles]
    exact .newAwaitable kind
  · rw [newTask_handles]
    exact .stay
  · rw [complete_handles]
    exact .stay
  · exact .stay
  · exact .stay
  · exact resume_move (s.advance sch rest) sch n
  · exact body_move sound action

theorem initial_sound : ({} : Runtime α ε).handles.Sound := by
  constructor <;> simp [handles]

theorem sound_of_reachable {allowed : Runtime α ε → RuntimeAction α ε → Prop}
    (reachable : (system α ε).ReachableBy allowed s) : s.handles.Sound := by
  have inductive_ : (system α ε).Inductive allowed fun s => s.handles.Sound :=
    ⟨initial_sound, fun _ _ _ _ sound _ h => sound.move (step_move sound h)⟩
  exact inductive_.holds reachable

end Runtime

end Librf
