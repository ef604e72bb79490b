import Librf.Runtime.Record

/-!
# What a step does to what is said of one state
-/

namespace Librf

namespace Schedulers

def ready (x : Schedulers) (home n : Nat) : Bool := decide (n ∈ (x home).readyTask)

variable (x : Schedulers) (home sch m n : Nat)

@[simp] theorem ready_addGenerator : (x.addGenerator sch m).ready home n = x.ready home n := by
  by_cases here : home = sch
  · subst here
    simp [ready, addGenerator, modify]
  · simp [ready, addGenerator, modify, here]

@[simp] theorem ready_setBusy (busy : Option Nat) :
    (x.setBusy sch busy).ready home n = x.ready home n := by
  by_cases here : home = sch
  · subst here
    simp [ready, setBusy, modify]
  · simp [ready, setBusy, modify, here]

theorem ready_delFinal (other : m ≠ n) : (x.delFinal sch m).ready home n = x.ready home n := by
  by_cases here : home = sch
  · subst here
    simp [ready, delFinal, modify, other.symm]
  · simp [ready, delFinal, modify, here]

theorem ready_emplace (other : m ≠ n) : (x.emplace sch m).ready home n = x.ready home n := by
  by_cases here : home = sch
  · subst here
    by_cases listed : m ∈ (x home).readyTask <;>
      simp [ready, emplace, modify, listed, other.symm]
  · simp [ready, emplace, modify, here]

theorem ready_emplace_self : (x.emplace home n).ready home n = true := by
  by_cases listed : n ∈ (x home).readyTask <;> simp [ready, emplace, modify, listed]

theorem ready_delFinal_self : (x.delFinal sch n).ready home n = (decide (home ≠ sch) && x.ready home n) := by
  by_cases here : home = sch
  · subst here
    simp [ready, delFinal, modify]
  · simp [ready, delFinal, modify, here]

theorem ready_emplace_eq : (x.emplace sch n).ready home n = (decide (home = sch) || x.ready home n) := by
  by_cases here : home = sch
  · subst here
    simp [ready_emplace_self]
  · simp [ready, emplace, modify, here]

theorem ready_moveTask (old : Nat) (other : m ≠ n) :
    (x.moveTask old sch m).ready home n = x.ready home n := by
  unfold moveTask
  split
  · rw [ready_emplace _ _ _ _ _ other, ready_delFinal _ _ _ _ _ other]
  · rfl

@[simp] theorem entries_moveTask (old : Nat) :
    (x.moveTask old sch m).entries home n = x.entries home n := by
  unfold moveTask
  split
  · simp
  · rfl

theorem ready_calls (calls : List Call) (other : m ≠ n) :
    Schedulers.ready (calls.foldl (Schedulers.call m) x) home n = x.ready home n := by
  induction calls generalizing x with
  | nil => rfl
  | cons c rest ih =>
      rw [List.foldl_cons, ih]
      cases c with
      | addGenerator sch => exact ready_addGenerator ..
      | delFinal sch => exact ready_delFinal _ _ _ _ _ other

end Schedulers

/-- What a runtime says about one state. -/
structure TaskView where
  cls : StateClass
  progress : Progress
  scheduler : Option Nat
  coro : Option Nat
  parent : Option Nat
  isFuture : Bool
  goes : List Nat
  awaits : List Nat
  moves : List Nat
  switched : Option Nat
  -- by scheduler, in its run queue
  entries : Nat → Nat
  -- by scheduler, in its `_ready_task`
  ready : Nat → Bool

/-- In a batch of `sch`, the next entry of the run queue has been taken. -/
def TaskView.pop (sch : Nat) (r : TaskView) : TaskView :=
  { r with entries := fun y => if y = sch then r.entries y - 1 else r.entries y }

namespace Runtime

variable {α ε : Type*} {s t : Runtime α ε}

def task (s : Runtime α ε) (n : Nat) : TaskView where
  cls := s.classes n
  progress := s.progress n
  scheduler := (s.states n).scheduler
  coro := (s.states n).coro
  parent := (s.states n).parent
  isFuture := (s.states n).isFuture
  goes := s.goes n
  awaits := s.awaits n
  moves := s.moves n
  switched := s.switched n
  entries sch := s.schedulers.entries sch n
  ready sch := s.schedulers.ready sch n

theorem setProgress_task {n p : Nat} (out : n ≠ p) (x : Progress) :
    (s.setProgress p x).task n = s.task n := by
  simp [task, setProgress, out]

theorem setProgress_task_self (p : Nat) (x : Progress) :
    (s.setProgress p x).task p = { s.task p with progress := x } := by
  simp [task, setProgress]

theorem readResult_task (m n : Nat) : (s.readResult m).task n = s.task n := by
  by_cases here : n = m
  · subst here
    have frame := (s.states n).futureAwaitResume_frame (s.kind n)
    simp [task, readResult, setState, frame]
  · simp [task, readResult, setState, here]

/-! ### Bodies -/

section Body

variable {sch p m n : Nat}

theorem update_task_of_ne (out : n ≠ m) (updated : FutureState α ε × List Call) :
    (s.update m updated).task n = s.task n := by
  simp [task, update, setState, out, out.symm, Schedulers.entries_calls,
    Schedulers.ready_calls _ _ _ _ _ out.symm]

theorem setBusy_task (sch : Nat) (busy : Option Nat) (n : Nat) :
    (s.setBusy sch busy).task n = s.task n := by
  simp [task, setBusy]

theorem beginAwait_task_of_ne (p_out : n ≠ p) (m_out : n ≠ m) :
    (s.beginAwait p m).task n = s.task n := by
  simp [task, beginAwait, setState, setProgress, p_out, m_out]

theorem beginAwait_task_self (other : m ≠ p) :
    (s.beginAwait p m).task p = { s.task p with progress := .transformed m } := by
  simp [task, beginAwait, setState, setProgress, other.symm]

theorem beginAwait_task_target (other : m ≠ p) :
    (s.beginAwait p m).task m =
      { s.task m with scheduler := s.getScheduler p, awaits := s.awaits m ++ [p] } := by
  simp [task, beginAwait, setState, setProgress, other]

theorem suspendAwait_task_of_ne (p_out : n ≠ p) (m_out : n ≠ m) :
    (s.suspendAwait sch p m).task n = s.task n := by
  unfold suspendAwait
  rw [setBusy_task, setProgress_task p_out, update_task_of_ne m_out]

theorem suspendAwait_task_self (other : m ≠ p) :
    (s.suspendAwait sch p m).task p = { s.task p with progress := .awaiting m } := by
  unfold suspendAwait
  rw [setBusy_task, setProgress_task_self, update_task_of_ne other.symm]

theorem pause_task_of_ne (p_out : n ≠ p) (old : n ≠ s.created) :
    (s.pause sch p).task n = s.task n := by
  simp [task, pause, update, setState, setProgress, setBusy, p_out, old, Schedulers.entries_calls,
    Schedulers.ready_calls _ _ _ _ _ old.symm, old.symm]

theorem pause_task_self (old : p ≠ s.created) :
    (s.pause sch p).task p = { s.task p with progress := .awaiting s.created } := by
  simp [task, pause, update, setState, setProgress, setBusy, old, Schedulers.entries_calls,
    Schedulers.ready_calls _ _ _ _ _ old.symm, old.symm]

theorem park_task_of_ne (p_out : n ≠ p) (old : n ≠ s.created) :
    (s.park sch p).task n = s.task n := by
  simp [task, park, setState, setProgress, setBusy, p_out, old]

theorem park_task_self (old : p ≠ s.created) :
    (s.park sch p).task p = { s.task p with progress := .awaiting s.created } := by
  simp [task, park, setState, setProgress, setBusy, old]

theorem yieldValue_task_of_ne (out : n ≠ p) (v : α) :
    (s.yieldValue sch p v).task n = s.task n := by
  unfold yieldValue
  split
  · cases owner : (s.states p).scheduler <;>
      simp [task, setProgress, setBusy, out, out.symm, owner, Schedulers.entries_addGenerator]
  · rw [setBusy_task, setProgress_task out, update_task_of_ne out]

theorem finish_task_of_ne (out : n ≠ p) (o : Outcome α ε) : (s.finish p o).task n = s.task n := by
  unfold finish
  split
  · exact setProgress_task out _
  · rw [setProgress_task out, update_task_of_ne out]

theorem finalSuspend_task_of_ne (out : n ≠ p) (done : s.finalSuspend sch p = .ok t) :
    t.task n = s.task n := by
  unfold finalSuspend at done
  split at done
  · cases done
    cases owner : (s.states p).scheduler <;>
      simp [task, setState, setProgress, setBusy, destroy, out,
        Schedulers.ready_delFinal _ _ _ _ _ out.symm]
  · cases suspended : (s.states p).promiseFinalSuspend (s.rootScheduler p) with
    | error fault => simp [suspended, bind, Except.bind] at done
    | ok updated =>
        simp only [suspended, bind, Except.bind, Except.ok.injEq] at done
        subst done
        rw [setBusy_task, setProgress_task out, update_task_of_ne out]

end Body

/-! ### Other steps -/

theorem newTask_task_of_ne {n x : Nat} (out : x ≠ n) (sch : Nat) :
    (s.newTask sch n).task x = s.task x := by
  simp only [task, newTask_schedulers]
  split <;> simp [newTask, setState, out, Schedulers.ready_emplace _ _ _ _ _ (Ne.symm out),
    Schedulers.entries_addGenerator, Ne.symm out]

theorem addGenerator_task_of_ne {w x : Nat} (out : x ≠ w) (sch : Nat) :
    task { s with schedulers := s.schedulers.addGenerator sch w } x = s.task x := by
  simp [task, Schedulers.entries_addGenerator, Ne.symm out]

theorem swap_task {sch : Nat} (empty : (s.schedulers sch).cachedStates = []) (x : Nat) :
    (s.swap sch).task x = s.task x := by
  have entries : ∀ y, (s.swap sch).schedulers.entries y x = s.schedulers.entries y x := by
    intro y
    by_cases here : y = sch
    · subst here
      simp [swap, Schedulers.modify, Schedulers.entries, empty]
    · simp [swap, Schedulers.modify, Schedulers.entries, here]
  have ready : ∀ y, (s.swap sch).schedulers.ready y x = s.schedulers.ready y x := by
    intro y
    by_cases here : y = sch
    · subst here
      simp [swap, Schedulers.modify, Schedulers.ready]
    · simp [swap, Schedulers.modify, Schedulers.ready, here]
  simp only [task, entries, ready]
  rfl

theorem add_task_of_ne {x : Nat} (old : x ≠ s.created) (cls : StateClass) (st : FutureState α ε)
    (progress : Progress) : (s.add cls st progress).task x = s.task x := by
  simp [task, add, setState, setProgress, old]

theorem advance_task (s : Runtime α ε) (sch : Nat) (rest : List Nat) (x : Nat) :
    (s.advance sch rest).task x =
      { s.task x with entries := fun y => (s.advance sch rest).schedulers.entries y x } := by
  have ready : ∀ y, (s.advance sch rest).schedulers.ready y x = s.schedulers.ready y x := by
    intro y
    by_cases here : y = sch
    · subst here
      simp [advance, Schedulers.modify, Schedulers.ready]
    · simp [advance, Schedulers.modify, Schedulers.ready, here]
  simp only [task, ready]
  rfl

theorem advance_task_of_ne {sch n x : Nat} {rest : List Nat}
    (next : (s.schedulers sch).cachedStates = n :: rest) (out : x ≠ n) :
    (s.advance sch rest).task x = s.task x := by
  rw [advance_task]
  have entries : ∀ y, (s.advance sch rest).schedulers.entries y x = s.schedulers.entries y x := by
    intro y
    by_cases here : y = sch
    · subst here
      simp [advance, Schedulers.modify, Schedulers.entries, next, Ne.symm out]
    · simp [advance, Schedulers.modify, Schedulers.entries, here]
  simp only [task, entries]

theorem arrive_task (s : Runtime α ε) (p x : Nat) :
    (s.arrive p).task x =
      { s.task x with progress := if x = p then .running else s.progress x } := by
  unfold arrive
  by_cases here : x = p
  · subst here
    split
    · rw [setProgress_task_self, readResult_task, if_pos rfl]
    · rw [setProgress_task_self, if_pos rfl]
  · split
    · rw [setProgress_task here, readResult_task, if_neg here]
      rfl
    · rw [setProgress_task here, if_neg here]
      rfl

theorem wake_task (s : Runtime α ε) (sch n p x : Nat) :
    (s.wake sch n p).task x =
      { s.task x with progress := if x = p then .running else s.progress x } := by
  rw [← arrive_task s p x]
  unfold wake
  dsimp only
  split <;> simp [task, setBusy]

/-! ### Resuming -/

theorem setProgress_tasks (p : Nat) (x : Progress) :
    (s.setProgress p x).task = Function.update s.task p { s.task p with progress := x } := by
  funext n
  by_cases here : n = p
  · subst here
    rw [setProgress_task_self, Function.update_self]
  · rw [setProgress_task here, Function.update_of_ne here]

theorem setState_tasks (n : Nat) (st : FutureState α ε) :
    (s.setState n st).task = Function.update s.task n { s.task n with
      scheduler := st.scheduler, coro := st.coro, parent := st.parent, isFuture := st.isFuture } := by
  funext x
  by_cases here : x = n
  · subst here
    simp [task, setState]
  · simp [task, setState, here]

theorem setBusy_tasks (sch : Nat) (busy : Option Nat) : (s.setBusy sch busy).task = s.task :=
  funext fun n => setBusy_task sch busy n

theorem destroy_tasks (n : Nat) :
    (s.destroy n).task = Function.update s.task n { s.task n with progress := .destroyed } :=
  setProgress_tasks (s := s) n .destroyed

theorem delFinal_tasks (sch n : Nat) :
    task { s with schedulers := s.schedulers.delFinal sch n } =
      Function.update s.task n { s.task n with
        ready := fun y => (s.schedulers.delFinal sch n).ready y n } := by
  funext x
  by_cases here : x = n
  · subst here
    simp [task]
  · simp [task, here, Schedulers.ready_delFinal _ _ _ _ _ (Ne.symm here)]

theorem wake_tasks (sch n p : Nat) :
    (s.wake sch n p).task = Function.update s.task p { s.task p with progress := .running } := by
  funext x
  rw [wake_task]
  by_cases here : x = p
  · subst here
    rw [if_pos rfl, Function.update_self]
  · rw [if_neg here, Function.update_of_ne here]
    rfl

theorem advance_tasks {sch n : Nat} {rest : List Nat}
    (next : (s.schedulers sch).cachedStates = n :: rest) :
    (s.advance sch rest).task = Function.update s.task n ((s.task n).pop sch) := by
  funext x
  by_cases here : x = n
  · subst here
    have entries : (fun y => (s.advance sch rest).schedulers.entries y x) =
        fun y => if y = sch then (s.task x).entries y - 1 else (s.task x).entries y := by
      funext y
      by_cases self : y = sch
      · subst self
        simp [task, advance, Schedulers.modify, Schedulers.entries, next]
      · simp [task, advance, Schedulers.modify, Schedulers.entries, self]
    rw [advance_task, entries, Function.update_self]
    rfl
  · rw [advance_task_of_ne next here, Function.update_of_ne here]

inductive Resumed (sch n : Nat) (v : Nat → TaskView) : (Nat → TaskView) → Prop
  | nothing : (v n).coro = none → (v n).progress ≠ .final →
      ((v n).cls ≠ .generator → (v n).progress ≠ .initial) →
      Resumed sch n v (Function.update v n ((v n).pop sch))
  | generator : (v n).cls = .generator → (v n).coro = some n → (v n).progress ≠ .destroyed →
      Resumed sch n v (Function.update v n { (v n).pop sch with progress := .running })
  | start : (v n).cls ≠ .generator → (v n).progress = .initial →
      Resumed sch n v (Function.update v n { (v n).pop sch with progress := .running })
  | destroy : (v n).cls ≠ .generator → (v n).progress = .final →
      Resumed sch n v (Function.update v n { (v n).pop sch with progress := .destroyed })
  -- The task of a wait is never registered; `del_final` finds nothing.
  | wake (p : Nat) (ready : Nat → Bool) (w : Nat → TaskView) : (v n).cls ≠ .generator →
      (v n).progress ≠ .initial → (v n).coro = some p →
      ((v n).progress ≠ .absent → ready = (v n).ready) →
      w = Function.update v n { (v n).pop sch with coro := none, ready } →
      Resumed sch n v (Function.update w p { w p with progress := .running })

theorem resume_tasks (sound : s.handles.Sound) {sch n : Nat} {rest : List Nat}
    (next : (s.schedulers sch).cachedStates = n :: rest) :
    Resumed sch n s.task ((s.advance sch rest).resume sch n).task := by
  have advanced := advance_tasks next
  have self : (s.advance sch rest).task n = (s.task n).pop sch := by
    rw [advanced, Function.update_self]
  by_cases generator : s.classes n = .generator
  · obtain ⟨-, -, unfinal, present⟩ := sound.generator n generator
    cases held : (s.states n).coro with
    | none =>
        rw [resume_generator_none (s.advance sch rest) sch n generator held, advanced]
        exact .nothing held unfinal fun plain => absurd generator plain
    | some p =>
        rw [resume_generator_some (s.advance sch rest) sch n generator held]
        obtain ⟨rfl, alive⟩ := sound.generator_slot n p generator held
        rw [wake_tasks, self, advanced, Function.update_idem]
        exact .generator generator held alive
  by_cases waiter : s.classes n = .waiter
  · have absent : s.progress n = .absent := by
      by_contra present
      rcases sound.coroutine n present with other | ⟨kind, other⟩
      · exact generator other
      · cases waiter.symm.trans other
    have rest_ : (s.advance sch rest).states n = s.states n := rfl
    cases held : (s.states n).coro with
    | none =>
        rw [resume_waiter_none (s.advance sch rest) sch n waiter rest_ held]
        rw [setState_tasks, self, advanced, Function.update_idem]
        have same : (s.task n).coro = none := held
        have view : { (s.task n).pop sch with
            scheduler := (s.states n).scheduler, coro := none, parent := (s.states n).parent
            isFuture := (s.states n).isFuture } = (s.task n).pop sch := by
          rw [← same]
          rfl
        rw [view]
        exact .nothing held (by simp [task, absent]) fun _ => by simp [task, absent]
    | some p =>
        rw [resume_waiter_some (s.advance sch rest) sch n waiter rest_ held]
        have begun : s.progress n ≠ .initial := by simp [absent]
        have unregistered : ∀ ready, (s.task n).progress ≠ .absent → ready = (s.task n).ready :=
          fun _ present => absurd absent present
        rw [wake_tasks]
        cases owner : (s.states n).scheduler with
        | none =>
            dsimp only
            refine .wake p (s.task n).ready _ generator begun held (unregistered _) ?_
            refine (setState_tasks (s := s.advance sch rest) n _).trans ?_
            rw [self, advanced, Function.update_idem]
            simp [task, TaskView.pop, owner]
        | some own =>
            dsimp only
            refine .wake p (fun y => ((s.advance sch rest).schedulers.delFinal own n).ready y n) _
              generator begun held (unregistered _) ?_
            refine (delFinal_tasks (s := (s.advance sch rest).setState n _) own n).trans ?_
            rw [setState_tasks, self, advanced, Function.update_idem, Function.update_self,
              Function.update_idem]
            simp [task, TaskView.pop, owner]
            rfl
  obtain ⟨-, same⟩ := resume_future (s.advance sch rest) sch n generator waiter
  rw [same]
  change Resumed sch n s.task (((s.advance sch rest).setState n
    (s.states n).resume.2).continueWith sch n (s.states n).resume.1).task
  have tagged : ∀ st : FutureState α ε, st.scheduler = (s.states n).scheduler →
      st.coro = (s.states n).coro → st.parent = (s.states n).parent →
      st.isFuture = (s.states n).isFuture →
      ((s.advance sch rest).setState n st).task =
        Function.update s.task n ((s.task n).pop sch) := by
    intro st scheduler coro parent isFuture
    rw [setState_tasks, self, advanced, Function.update_idem, scheduler, coro, parent, isFuture]
    rfl
  rcases resume_cases (s.states n) with ⟨tag, result⟩ | ⟨p, later, held, result⟩ |
    ⟨tag, held, result⟩ | ⟨tag, held, result⟩ <;> rw [result]
  · have initial : s.progress n = .initial := (sound.initial n generator).1 tag
    simp only [continueWith]
    rw [setBusy_tasks, setProgress_tasks, tagged { s.states n with isInitor := .none } rfl rfl rfl rfl,
      Function.update_self, Function.update_idem]
    exact .start generator initial
  · have begun : s.progress n ≠ .initial := fun initial =>
      later ((sound.initial n generator).2 initial)
    simp only [continueWith]
    rw [wake_tasks]
    refine .wake p (s.task n).ready _ generator begun held (fun _ => rfl) ?_
    rw [setState_tasks, self, advanced, Function.update_idem]
    rfl
  · have final : s.progress n = .final := (sound.final n generator).1 tag
    simp only [continueWith]
    rw [destroy_tasks, tagged { s.states n with isInitor := .none } rfl rfl rfl rfl,
      Function.update_self, Function.update_idem]
    exact .destroy generator final
  · have unfinal : s.progress n ≠ .final := fun final => by
      cases tag.symm.trans ((sound.final n generator).2 final)
    simp only [continueWith]
    rw [tagged (s.states n) rfl rfl rfl rfl]
    refine .nothing held unfinal fun _ initial => ?_
    cases tag.symm.trans ((sound.initial n generator).2 initial)

end Runtime

end Librf
