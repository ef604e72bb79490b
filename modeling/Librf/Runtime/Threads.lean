import Librf.Runtime.Registered

/-!
# What a step does to the threads of the schedulers
-/

namespace Librf

namespace Schedulers

/-- What `run_one_batch` has still to resume, and the frame that it runs. -/
def thread (x : Schedulers) (home : Nat) : List Nat × Option Nat :=
  ((x home).cachedStates, (x home).busy)

variable (x : Schedulers) (home sch m : Nat)

@[simp] theorem thread_addGenerator : (x.addGenerator sch m).thread home = x.thread home := by
  by_cases here : home = sch
  · subst here
    simp [thread, addGenerator, modify]
  · simp [thread, addGenerator, modify, here]

@[simp] theorem thread_delFinal : (x.delFinal sch m).thread home = x.thread home := by
  by_cases here : home = sch
  · subst here
    simp [thread, delFinal, modify]
  · simp [thread, delFinal, modify, here]

@[simp] theorem thread_emplace : (x.emplace sch m).thread home = x.thread home := by
  by_cases here : home = sch
  · subst here
    simp [thread, emplace, modify]
  · simp [thread, emplace, modify, here]

@[simp] theorem thread_moveTask (old : Nat) : (x.moveTask old sch m).thread home = x.thread home := by
  unfold moveTask
  split <;> simp

@[simp] theorem thread_calls (calls : List Call) :
    Schedulers.thread (calls.foldl (Schedulers.call m) x) home = x.thread home := by
  induction calls generalizing x with
  | nil => rfl
  | cons c rest ih =>
      rw [List.foldl_cons, ih]
      cases c <;> simp [call]

theorem thread_setBusy (busy : Option Nat) : (x.setBusy sch busy).thread home =
    if home = sch then ((x.thread sch).1, busy) else x.thread home := by
  by_cases here : home = sch
  · subst here
    simp [thread, setBusy, modify]
  · simp [thread, setBusy, modify, here]

end Schedulers

namespace Runtime

variable {α ε : Type*} {s t : Runtime α ε}

structure BodyThread (sch p : Nat) (s t : Runtime α ε) : Prop where
  others : ∀ x, x ≠ sch → t.schedulers.thread x = s.schedulers.thread x
  cached : (t.schedulers sch).cachedStates = (s.schedulers sch).cachedStates
  busy : (t.schedulers sch).busy = (s.schedulers sch).busy ∨
    (t.schedulers sch).busy = none ∧ (t.progress p).active = false
  progress : ∀ q, q ≠ p → t.progress q = s.progress q

theorem BodyThread.stay {sch p : Nat} (thread : t.schedulers.thread = s.schedulers.thread)
    (progress : ∀ q, q ≠ p → t.progress q = s.progress q) : BodyThread sch p s t := by
  have same := congrFun thread sch
  exact ⟨fun x _ => congrFun thread x, congrArg Prod.fst same, .inl (congrArg Prod.snd same),
    progress⟩

theorem BodyThread.leave {sch p : Nat}
    (thread : ∀ x, t.schedulers.thread x = (s.schedulers.setBusy sch none).thread x)
    (passive : (t.progress p).active = false)
    (progress : ∀ q, q ≠ p → t.progress q = s.progress q) : BodyThread sch p s t := by
  have here := thread sch
  rw [Schedulers.thread_setBusy, if_pos rfl] at here
  refine ⟨?_, congrArg Prod.fst here, .inr ⟨congrArg Prod.snd here, passive⟩, progress⟩
  intro x away
  rw [thread, Schedulers.thread_setBusy, if_neg away]

theorem BodyThread.after {u : Runtime α ε} {sch p : Nat}
    (thread : u.schedulers.thread = s.schedulers.thread) (same : u.progress = s.progress)
    (next : BodyThread sch p u t) : BodyThread sch p s t := by
  obtain ⟨others, cached, busy, progress⟩ := next
  have here := congrFun thread sch
  have busy_here : (u.schedulers sch).busy = (s.schedulers sch).busy := congrArg Prod.snd here
  rw [same] at progress
  exact ⟨fun x away => (others x away).trans (congrFun thread x),
    cached.trans (congrArg Prod.fst here), busy_here ▸ busy, progress⟩

theorem switchScheduler_thread (sch fuel n : Nat) (s : Runtime α ε) :
    (switchScheduler sch fuel n s).2.schedulers.thread = s.schedulers.thread := by
  have one : ∀ (u : Runtime α ε) m, (u.switchOne sch m).schedulers.thread = u.schedulers.thread := by
    intro u m
    funext x
    cases owner : (u.states m).scheduler <;> simp [switchOne, setState, owner]
  induction fuel generalizing n s with
  | zero => rfl
  | succ fuel ih =>
      rw [switchScheduler_succ]
      split
      · rfl
      · dsimp only
        split
        · rw [ih, one]
        · exact one s n

theorem pause_thread (sch p : Nat) (s : Runtime α ε) : BodyThread sch p s (s.pause sch p) := by
  refine .leave ?_ ?_ fun q out => Function.update_of_ne out ..
  · intro x
    simp [pause, update, setProgress, setBusy, Schedulers.thread_setBusy]
  · simp [pause, setProgress, setBusy, Progress.active]

theorem via_thread (sch p target : Nat) (s : Runtime α ε) : BodyThread sch p s (s.via sch p target) := by
  obtain ⟨switched, recorded⟩ := recordSwitch_same p target s
  have thread := switchScheduler_thread target (s.created + 1) p { s with switched }
  have progress := congrArg Handles.progress
    (switchScheduler_handles target (s.created + 1) p { s with switched })
  unfold via
  rw [recorded]
  dsimp only
  split
  · exact (pause_thread sch p _).after thread progress
  · exact .stay thread fun q _ => congrFun progress q

theorem yieldValue_thread (sch p : Nat) (v : α) (s : Runtime α ε) :
    BodyThread sch p s (s.yieldValue sch p v) := by
  unfold yieldValue
  split
  · refine .leave ?_ ?_ fun q out => Function.update_of_ne out ..
    · intro x
      cases owner : (s.states p).scheduler <;>
        simp [setProgress, setBusy, owner]
    · simp [setProgress, setBusy, Progress.active]
  · refine .leave ?_ ?_ fun q out => Function.update_of_ne out ..
    · intro x
      simp [update, setProgress, setBusy, Schedulers.thread_setBusy]
    · simp [setProgress, setBusy, Progress.active]

theorem finish_thread (sch p : Nat) (o : Outcome α ε) (s : Runtime α ε) :
    BodyThread sch p s (s.finish p o) := by
  unfold finish
  split
  · exact .stay rfl fun q out => Function.update_of_ne out ..
  · refine .stay ?_ fun q out => Function.update_of_ne out ..
    funext x
    simp [update, setProgress]

theorem finalSuspend_thread {sch p : Nat} (done : s.finalSuspend sch p = .ok t) :
    BodyThread sch p s t := by
  unfold finalSuspend at done
  split at done
  · cases done
    refine .leave ?_ ?_ fun q out => Function.update_of_ne out ..
    · intro x
      cases owner : (s.states p).scheduler <;>
        simp [setState, setProgress, setBusy, destroy]
    · simp [setProgress, destroy, Progress.active]
  · cases suspended : (s.states p).promiseFinalSuspend (s.rootScheduler p) with
    | error fault => simp [suspended, bind, Except.bind] at done
    | ok updated =>
        simp only [suspended, bind, Except.bind, Except.ok.injEq] at done
        subst done
        refine .leave ?_ ?_ fun q out => Function.update_of_ne out ..
        · intro x
          simp [update, setProgress, setBusy, Schedulers.thread_setBusy]
        · simp [setProgress, setBusy, Progress.active]

theorem body_thread {sch p : Nat} {action : BodyAction α ε} (h : s.body sch p action = some t) :
    BodyThread sch p s t := by
  rcases body_cases h with ⟨m, kind, kind', -, now, class_p, class_m, rfl⟩ | ⟨m, -, now, rfl⟩ |
    ⟨m, -, now, rfl⟩ | ⟨kind, -, now, class_p, rfl⟩ | ⟨kind, -, now, class_p, rfl⟩ |
    ⟨target, kind, -, now, class_p, rfl⟩ | ⟨v, -, now, rfl⟩ | ⟨v, -, now, rfl⟩ |
    ⟨e, -, now, class_p, rfl⟩ | ⟨-, now, done⟩
  · exact .stay rfl fun q out => Function.update_of_ne out ..
  · unfold testReady
    split
    · exact .stay rfl fun q out => Function.update_of_ne out ..
    · exact .stay rfl fun q out => Function.update_of_ne out ..
  · refine .leave ?_ ?_ fun q out => Function.update_of_ne out ..
    · intro x
      simp [suspendAwait, update, setProgress, setBusy, Schedulers.thread_setBusy]
    · simp [suspendAwait, setProgress, setBusy, Progress.active]
  · exact pause_thread sch p s
  · refine .leave (fun _ => rfl) ?_ fun q out => Function.update_of_ne out ..
    simp [park, setProgress, setBusy, Progress.active]
  · exact via_thread sch p target s
  · exact yieldValue_thread sch p v s
  · exact finish_thread sch p (.value v) s
  · exact finish_thread sch p (.exception e) s
  · exact finalSuspend_thread done

/-! ### All steps -/

theorem newTask_thread (sch n : Nat) (s : Runtime α ε) :
    (s.newTask sch n).schedulers.thread = s.schedulers.thread := by
  funext x
  rw [newTask_schedulers]
  split <;> simp

theorem swap_thread {sch x : Nat} (away : x ≠ sch) :
    (s.swap sch).schedulers.thread x = s.schedulers.thread x := by
  simp [swap, Schedulers.modify, Schedulers.thread, away]

theorem swap_busy (sch x : Nat) : ((s.swap sch).schedulers x).busy = (s.schedulers x).busy := by
  by_cases here : x = sch <;> simp [swap, Schedulers.modify, here]

theorem advance_thread {sch x : Nat} (rest : List Nat) (away : x ≠ sch) :
    (s.advance sch rest).schedulers.thread x = s.schedulers.thread x := by
  simp [advance, Schedulers.modify, Schedulers.thread, away]

theorem wake_thread (sch n p x : Nat) (s : Runtime α ε) :
    (s.wake sch n p).schedulers.thread x = (s.schedulers.setBusy sch (some p)).thread x := by
  unfold wake arrive
  dsimp only
  split <;> split <;> rfl

structure ResumeThread (sch : Nat) (s t : Runtime α ε) : Prop where
  others : ∀ x, x ≠ sch → t.schedulers.thread x = s.schedulers.thread x
  entered : ∀ q, (t.progress q).active = true →
    (s.progress q).active = true ∨ (t.schedulers sch).busy = some q

theorem ResumeThread.wake {u : Runtime α ε} {sch n p : Nat}
    (others : ∀ x, x ≠ sch → u.schedulers.thread x = s.schedulers.thread x)
    (progress : u.progress = s.progress) : ResumeThread sch s (u.wake sch n p) := by
  have progress_t : (u.wake sch n p).progress = Function.update s.progress p .running := by
    rw [← progress]
    exact congrArg Handles.progress (wake_handles (s := u) sch n p)
  constructor
  · intro x away
    rw [wake_thread, Schedulers.thread_setBusy, if_neg away, others x away]
  · intro q active
    rw [progress_t] at active
    by_cases self : q = p
    · subst self
      have here := wake_thread sch n q sch u
      rw [Schedulers.thread_setBusy, if_pos rfl] at here
      exact .inr (congrArg Prod.snd here)
    · rw [Function.update_of_ne self] at active
      exact .inl active

theorem ResumeThread.stay {sch : Nat}
    (others : ∀ x, x ≠ sch → t.schedulers.thread x = s.schedulers.thread x)
    (progress : t.progress = s.progress) : ResumeThread sch s t :=
  ⟨others, fun _ active => .inl (progress ▸ active)⟩

theorem resume_thread (sch n : Nat) (rest : List Nat) (s : Runtime α ε) :
    ResumeThread sch s ((s.advance sch rest).resume sch n) := by
  have others : ∀ x, x ≠ sch →
      (s.advance sch rest).schedulers.thread x = s.schedulers.thread x :=
    fun x away => advance_thread rest away
  by_cases generator : s.classes n = .generator
  · rw [resume_generator (s.advance sch rest) sch n generator]
    split
    · exact .wake others rfl
    · exact .stay others rfl
  by_cases waiter : s.classes n = .waiter
  · rw [resume_waiter (s.advance sch rest) sch n waiter]
    split
    · refine .wake ?_ rfl
      intro x away
      split
      · rw [Schedulers.thread_delFinal, others x away]
      · exact others x away
    · exact .stay others rfl
  rw [(resume_future (s.advance sch rest) sch n generator waiter).2]
  rcases resume_cases ((s.advance sch rest).states n) with ⟨-, result⟩ | ⟨p, -, -, result⟩ |
    ⟨-, -, result⟩ | ⟨-, -, result⟩ <;> rw [result]
  · constructor
    · intro x away
      simp only [continueWith, setProgress, setState, setBusy]
      rw [Schedulers.thread_setBusy, if_neg away, others x away]
    · intro q active
      by_cases self : q = n
      · subst self
        right
        simp [continueWith, setBusy, Schedulers.busy_setBusy]
      · left
        simpa [continueWith, setProgress, setState, setBusy, advance, self] using active
  · exact .wake others rfl
  · constructor
    · exact others
    · intro q active
      by_cases self : q = n
      · subst self
        simp [continueWith, destroy, setProgress, Progress.active] at active
      · left
        simpa [continueWith, destroy, setProgress, setState, advance, self] using active
  · exact .stay others rfl

/-- A frame that is being executed is executed by a thread. -/
def Running (s : Runtime α ε) : Prop :=
  ∀ p, (s.progress p).active = true → ∃ sch, (s.schedulers sch).busy = some p

theorem Running.same (running : s.Running) (schedulers : t.schedulers.thread = s.schedulers.thread)
    (progress : t.progress = s.progress) : t.Running := by
  intro p active
  rw [progress] at active
  obtain ⟨sch, busy⟩ := running p active
  exact ⟨sch, (congrArg Prod.snd (congrFun schedulers sch)).trans busy⟩

theorem Running.add (running : s.Running) {cls : StateClass} {st : FutureState α ε}
    {progress : Progress} (passive : progress.active = false) : (s.add cls st progress).Running := by
  intro p active
  by_cases new : p = s.created
  · subst new
    have here : (s.add cls st progress).progress s.created = progress := Function.update_self ..
    rw [here, passive] at active
    cases active
  · have old : (s.add cls st progress).progress p = s.progress p := Function.update_of_ne new ..
    rw [old] at active
    exact running p active

theorem Running.body (running : s.Running) {sch p : Nat} (thread : BodyThread sch p s t)
    (busy : (s.schedulers sch).busy = some p) : t.Running := by
  intro q active
  by_cases self : q = p
  · subst self
    rcases thread.busy with same | ⟨-, passive⟩
    · exact ⟨sch, same.trans busy⟩
    · rw [passive] at active
      cases active
  · rw [thread.progress q self] at active
    obtain ⟨x, runs⟩ := running q active
    have away : x ≠ sch := by
      rintro rfl
      rw [busy] at runs
      exact self (Option.some.inj runs).symm
    exact ⟨x, (congrArg Prod.snd (thread.others x away)).trans runs⟩

theorem Running.resume (running : s.Running) {sch : Nat} (thread : ResumeThread sch s t)
    (idle : (s.schedulers sch).busy = none) : t.Running := by
  intro q active
  rcases thread.entered q active with before | entered
  · obtain ⟨x, runs⟩ := running q before
    have away : x ≠ sch := by
      rintro rfl
      rw [idle] at runs
      cases runs
    exact ⟨x, (congrArg Prod.snd (thread.others x away)).trans runs⟩
  · exact ⟨sch, entered⟩

theorem Running.step (running : s.Running) {action : RuntimeAction α ε}
    (h : s.step action = some t) : t.Running := by
  rcases step_cases h with ⟨kind, -, rfl⟩ | ⟨-, rfl⟩ | ⟨kind, -, rfl⟩ | ⟨sch, n, -, -, -, rfl⟩ |
    ⟨n, o, kind, -, -, -, rfl⟩ | ⟨w, sch, -, -, -, rfl⟩ | ⟨sch, -, -, -, rfl⟩ |
    ⟨sch, n, rest, -, idle, -, rfl⟩ | ⟨sch, p, next, -, busy, action⟩
  · exact running.add rfl
  · exact running.add rfl
  · exact running.add rfl
  · exact running.same (newTask_thread sch n s) rfl
  · exact running.same (funext fun x => by simp [update]) rfl
  · exact running.same (funext fun x => by simp) rfl
  · intro p active
    obtain ⟨x, busy⟩ := running p active
    exact ⟨x, (swap_busy sch x).trans busy⟩
  · exact running.resume (resume_thread sch n rest s) idle
  · exact running.body (body_thread action) busy

theorem running_of_reachable {allowed : Runtime α ε → RuntimeAction α ε → Prop}
    (reachable : (system α ε).ReachableBy allowed s) : s.Running := by
  have inductive_ : (system α ε).Inductive allowed Running := by
    constructor
    · intro p active
      cases active
    · exact fun s e t _ running _ h => running.step h
  exact inductive_.holds reachable

end Runtime

end Librf
