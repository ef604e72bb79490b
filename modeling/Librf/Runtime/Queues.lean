import Librf.Runtime.RunQueue
import Librf.Runtime.Threads

/-!
# The run queues of all schedulers

Each step of coroutines and schedulers is one of the queue of any one of the schedulers: it resumes
what `run_one_batch` comes to next, or leaves what is queued and may append to it.
-/

namespace Librf

namespace Schedulers

def Appends (x x' : Schedulers) : Prop :=
  ∀ y, ∃ l, (x' y).runingStates = (x y).runingStates ++ l ∧ (x' y).cachedStates = (x y).cachedStates

variable {x x' x'' : Schedulers}

theorem Appends.refl (x : Schedulers) : x.Appends x := fun _ => ⟨[], (List.append_nil _).symm, rfl⟩

theorem Appends.trans (first : x.Appends x') (second : x'.Appends x'') : x.Appends x'' := by
  intro y
  obtain ⟨l, runing, cached⟩ := first y
  obtain ⟨l', runing', cached'⟩ := second y
  exact ⟨l ++ l', by rw [runing', runing, List.append_assoc], cached'.trans cached⟩

theorem appends_modify (sch : Nat) (f : Scheduler → Scheduler) (l : List Nat)
    (runing : (f (x sch)).runingStates = (x sch).runingStates ++ l)
    (cached : (f (x sch)).cachedStates = (x sch).cachedStates) : x.Appends (x.modify sch f) := by
  intro y
  by_cases here : y = sch
  · subst here
    refine ⟨l, ?_, ?_⟩ <;> simpa [modify]
  · exact ⟨[], by simp [modify, here], by simp [modify, here]⟩

theorem appends_addGenerator (sch n : Nat) : x.Appends (x.addGenerator sch n) :=
  appends_modify sch _ [n] rfl rfl

theorem appends_delFinal (sch n : Nat) : x.Appends (x.delFinal sch n) :=
  appends_modify sch _ [] (List.append_nil _).symm rfl

theorem appends_emplace (sch n : Nat) : x.Appends (x.emplace sch n) :=
  appends_modify sch _ [] (List.append_nil _).symm rfl

theorem appends_setBusy (sch : Nat) (busy : Option Nat) : x.Appends (x.setBusy sch busy) :=
  appends_modify sch _ [] (List.append_nil _).symm rfl

theorem appends_moveTask (old sch n : Nat) : x.Appends (x.moveTask old sch n) := by
  unfold moveTask
  split
  · exact (appends_delFinal old n).trans (appends_emplace sch n)
  · exact .refl x

theorem appends_calls (n : Nat) (calls : List Call) :
    x.Appends (calls.foldl (Schedulers.call n) x) := by
  induction calls generalizing x with
  | nil => exact .refl x
  | cons c rest ih =>
      rw [List.foldl_cons]
      cases c with
      | addGenerator sch => exact (appends_addGenerator sch n).trans ih
      | delFinal sch => exact (appends_delFinal sch n).trans ih

end Schedulers

namespace Runtime

variable {α ε : Type*} {s t : Runtime α ε} {sch n p : Nat}

open Schedulers (Appends appends_addGenerator appends_delFinal appends_emplace appends_setBusy
  appends_calls appends_moveTask)

theorem switchScheduler_appends (sch fuel n : Nat) (s : Runtime α ε) :
    s.schedulers.Appends (switchScheduler sch fuel n s).2.schedulers := by
  have one : ∀ (u : Runtime α ε) m, u.schedulers.Appends (u.switchOne sch m).schedulers := by
    intro u m
    cases owner : (u.states m).scheduler with
    | none => simpa [switchOne, setState, owner] using Appends.refl u.schedulers
    | some old => simpa [switchOne, setState, owner] using appends_moveTask old sch m
  induction fuel generalizing n s with
  | zero => exact .refl _
  | succ fuel ih =>
      rw [switchScheduler_succ]
      split
      · exact .refl _
      · dsimp only
        split
        · exact (one s n).trans (ih _ _)
        · exact one s n

theorem update_appends (n : Nat) (updated : FutureState α ε × List Call) :
    s.schedulers.Appends (s.update n updated).schedulers := appends_calls n updated.2

theorem pause_appends (sch p : Nat) (s : Runtime α ε) :
    s.schedulers.Appends (s.pause sch p).schedulers :=
  (appends_calls s.created _).trans (appends_setBusy sch none)

theorem via_appends (sch p target : Nat) (s : Runtime α ε) :
    s.schedulers.Appends (s.via sch p target).schedulers := by
  obtain ⟨switched, recorded⟩ := recordSwitch_same p target s
  have moved := switchScheduler_appends target (s.created + 1) p { s with switched }
  unfold via
  rw [recorded]
  dsimp only
  split
  · exact moved.trans (pause_appends sch p _)
  · exact moved

theorem yieldValue_appends (sch p : Nat) (v : α) (s : Runtime α ε) :
    s.schedulers.Appends (s.yieldValue sch p v).schedulers := by
  have left := appends_setBusy (x := s.schedulers) sch none
  unfold yieldValue
  split
  · dsimp only
    split
    · exact left.trans (appends_addGenerator _ p)
    · exact left
  · exact (update_appends p _).trans (appends_setBusy sch none)

theorem finish_appends (p : Nat) (o : Outcome α ε) (s : Runtime α ε) :
    s.schedulers.Appends (s.finish p o).schedulers := by
  unfold finish
  split
  · exact .refl _
  · exact update_appends p _

theorem finalSuspend_appends (done : s.finalSuspend sch p = .ok t) :
    s.schedulers.Appends t.schedulers := by
  unfold finalSuspend at done
  split at done
  · cases done
    have left := appends_setBusy (x := s.schedulers) sch none
    dsimp only
    split
    · exact left.trans (appends_delFinal _ p)
    · exact left
  · cases suspended : (s.states p).promiseFinalSuspend (s.rootScheduler p) with
    | error fault => simp [suspended, bind, Except.bind] at done
    | ok updated =>
        simp only [suspended, bind, Except.bind, Except.ok.injEq] at done
        subst done
        exact (update_appends p updated).trans (appends_setBusy sch none)

theorem body_appends {action : BodyAction α ε} (h : s.body sch p action = some t) :
    s.schedulers.Appends t.schedulers := by
  rcases body_cases h with ⟨m, kind, kind', -, now, class_p, class_m, rfl⟩ | ⟨m, -, now, rfl⟩ |
    ⟨m, -, now, rfl⟩ | ⟨kind, -, now, class_p, rfl⟩ | ⟨kind, -, now, class_p, rfl⟩ |
    ⟨target, kind, -, now, class_p, rfl⟩ | ⟨v, -, now, rfl⟩ | ⟨v, -, now, rfl⟩ |
    ⟨e, -, now, class_p, rfl⟩ | ⟨-, now, done⟩
  · exact .refl _
  · unfold testReady
    split <;> exact .refl _
  · exact (update_appends m _).trans (appends_setBusy sch none)
  · exact pause_appends sch p s
  · exact appends_setBusy sch none
  · exact via_appends sch p target s
  · exact yieldValue_appends sch p v s
  · exact finish_appends p (.value v) s
  · exact finish_appends p (.exception e) s
  · exact finalSuspend_appends done

theorem newTask_appends (sch n : Nat) (s : Runtime α ε) :
    s.schedulers.Appends (s.newTask sch n).schedulers := by
  rw [newTask_schedulers]
  split
  · exact (appends_emplace sch n).trans (appends_addGenerator sch n)
  · exact appends_emplace sch n

theorem wake_appends (sch n p : Nat) (s : Runtime α ε) :
    s.schedulers.Appends (s.wake sch n p).schedulers := by
  have entered := appends_setBusy (x := s.schedulers) sch (some p)
  unfold wake arrive
  dsimp only
  split <;> split <;> exact entered

theorem resume_appends (sch n : Nat) (s : Runtime α ε) :
    s.schedulers.Appends (s.resume sch n).schedulers := by
  have continued : ∀ (u : Runtime α ε) r, u.schedulers.Appends (u.continueWith sch n r).schedulers := by
    intro u r
    cases r with
    | start => exact appends_setBusy sch (some n)
    | wake p => exact wake_appends sch n p u
    | _ => exact .refl _
  unfold resume
  dsimp only
  split
  · exact continued _ _
  · exact continued _ _
  · exact continued _ _
  · refine Appends.trans ?_ (continued _ _)
    dsimp only
    split
    · exact appends_delFinal _ n
    · exact .refl _

/-! ## One queue -/

structure Runs (q : RunQueue) (x : Scheduler) : Prop where
  runing : q.runingStates = x.runingStates
  cached : q.rest = x.cachedStates
  adding : q.adding = none
  updating : q.batchSection ≠ .updating
  testing : q.batchSection ≠ .testing

variable {q : RunQueue} {x : Scheduler} {y : Nat}

/-- The calls of `add_generator` for the states of `l`. -/
def adds (l : List Nat) : List QueueAction := l.flatMap fun n => [.acquire n, .emplaceBack]

theorem Runs.replay_adds (runs : Runs q x) (l : List Nat) :
    RunQueue.system.replay q (adds l) = some { q with
      runingStates := q.runingStates ++ l
      added := q.added ++ l } := by
  have free := runs.adding
  have testing := runs.testing
  clear runs
  induction l generalizing q with
  | nil => simp [adds, Transition.System.replay]
  | cons n rest ih =>
      have next := ih (q := { q with runingStates := q.runingStates ++ [n], added := q.added ++ [n] })
        free testing
      simp only [adds, List.flatMap_cons] at next ⊢
      simp only [List.append_assoc, List.singleton_append] at next
      simpa [Transition.System.replay, RunQueue.system, RunQueue.step, free, testing] using next

theorem Runs.replay_clear (runs : Runs q x) (aligned : q.Aligned) (empty : x.cachedStates = []) :
    ∃ events, RunQueue.system.replay q events =
      some { q with cachedStates := [], batchSection := .outside } := by
  have done : q.rest = [] := runs.cached.trans empty
  have position := aligned.position
  cases section_ : q.batchSection with
  | outside =>
      have none := aligned.cached (by simp [RunQueue.inLoop, section_])
      refine ⟨[], ?_⟩
      simp only [Transition.System.replay, Option.some.injEq]
      rw [← none, ← section_]
  | updating => exact absurd section_ runs.updating
  | testing => exact absurd section_ runs.testing
  | looping i =>
      simp only [RunQueue.rest, section_, List.drop_eq_nil_iff] at done
      simp only [RunQueue.position, section_] at position
      refine ⟨[.clear], ?_⟩
      simp [Transition.System.replay, RunQueue.system, RunQueue.step, section_,
        Nat.le_antisymm position done]
  | resuming i =>
      simp only [RunQueue.rest, section_, List.drop_eq_nil_iff] at done
      simp only [RunQueue.position, section_] at position
      refine ⟨[.next, .clear], ?_⟩
      simp [Transition.System.replay, RunQueue.system, RunQueue.step, section_,
        Nat.le_antisymm position done]

/-- What the next step of the runtime resumes in scheduler `y`. -/
def resumes (s : Runtime α ε) (y : Nat) : RuntimeAction α ε → List Nat
  | .resume sch => if sch = y then (s.schedulers y).cachedStates.take 1 else []
  | _ => []

/-- What has been appended to the run queue of `y`. -/
def appended (s t : Runtime α ε) (y : Nat) : List Nat :=
  (t.schedulers y).runingStates.drop (s.schedulers y).runingStates.length

structure QueueStep (y : Nat) (action : RuntimeAction α ε) (s t : Runtime α ε) (q q' : RunQueue) :
    Prop where
  runs : Runs q' (t.schedulers y)
  resumed : q'.resumed = q.resumed ++ s.resumes y action
  added : q'.added = q.added ++ appended s t y

theorem Runs.append (runs : Runs q (s.schedulers y)) {l : List Nat}
    (runing : (t.schedulers y).runingStates = (s.schedulers y).runingStates ++ l)
    (cached : (t.schedulers y).cachedStates = (s.schedulers y).cachedStates) :
    ∃ events q', RunQueue.system.replay q events = some q' ∧ Runs q' (t.schedulers y) ∧
      q'.resumed = q.resumed ∧ q'.added = q.added ++ appended s t y := by
  have new : appended s t y = l := by rw [appended, runing, List.drop_left]
  refine ⟨adds l, _, runs.replay_adds l, ⟨?_, runs.cached.trans cached.symm, runs.adding,
    runs.updating, runs.testing⟩, rfl, ?_⟩
  · rw [runing, ← runs.runing]
  · rw [new]

theorem Runs.appends (runs : Runs q (s.schedulers y)) {action : RuntimeAction α ε}
    (appends : s.schedulers.Appends t.schedulers) (quiet : s.resumes y action = []) :
    ∃ events q', RunQueue.system.replay q events = some q' ∧ QueueStep y action s t q q' := by
  obtain ⟨l, runing, cached⟩ := appends y
  obtain ⟨events, q', run, runs', resumed, added⟩ := runs.append runing cached
  exact ⟨events, q', run, runs', by rw [resumed, quiet, List.append_nil], added⟩

theorem Runs.swap (runs : Runs q (s.schedulers y)) (aligned : q.Aligned)
    (empty : (s.schedulers y).cachedStates = []) :
    ∃ events q', RunQueue.system.replay q events = some q' ∧
      QueueStep y (.swap y : RuntimeAction α ε) s (s.swap y) q q' := by
  obtain ⟨events, left⟩ := runs.replay_clear aligned empty
  have runing : ((s.swap y).schedulers y).runingStates = [] := by
    simp [Runtime.swap, Schedulers.modify]
  have cached : ((s.swap y).schedulers y).cachedStates = (s.schedulers y).runingStates := by
    simp [Runtime.swap, Schedulers.modify]
  have none_new : appended s (s.swap y) y = [] := by simp [appended, runing]
  by_cases idle : q.runingStates = []
  · refine ⟨events ++ [.runOneBatch, .lock, .leave],
      { q with cachedStates := [], batchSection := .outside }, ?_,
      ⟨?_, ?_, runs.adding, by simp, by simp⟩, ?_, ?_⟩
    · rw [RunQueue.system.replay_append, left]
      simp [Transition.System.replay, RunQueue.system, RunQueue.step, idle, runs.adding]
    · rw [runing, ← idle]
    · rw [cached, ← runs.runing, idle]
      rfl
    · simp [resumes]
    · simp [none_new]
  · refine ⟨events ++ [.runOneBatch, .lock, .swap],
      { q with
        runingStates := []
        cachedStates := q.runingStates
        batchSection := .looping 0
        swapped := q.added }, ?_, ⟨?_, ?_, runs.adding, by simp, by simp⟩, ?_, ?_⟩
    · rw [RunQueue.system.replay_append, left]
      simp [Transition.System.replay, RunQueue.system, RunQueue.step, idle, runs.adding]
    · rw [runing]
    · rw [cached, ← runs.runing]
      rfl
    · simp [resumes]
    · simp [none_new]

theorem Runs.resume (runs : Runs q (s.schedulers y)) {rest : List Nat}
    (next : (s.schedulers y).cachedStates = n :: rest) :
    ∃ events q', RunQueue.system.replay q events = some q' ∧
      QueueStep y (.resume y : RuntimeAction α ε) s ((s.advance y rest).resume y n) q q' := by
  have queued : q.rest = n :: rest := runs.cached.trans next
  -- `resume` is entered.
  obtain ⟨events, i, run, behind⟩ : ∃ events i, RunQueue.system.replay q events =
      some { q with batchSection := .resuming i, resumed := q.resumed ++ [n] } ∧
      q.cachedStates.drop (i + 1) = rest := by
    have entered : ∀ i, q.cachedStates.drop i = n :: rest →
        q.cachedStates[i]? = some n ∧ q.cachedStates.drop (i + 1) = rest := by
      intro i tail
      have within : i < q.cachedStates.length := by
        by_contra beyond
        simp [List.drop_eq_nil_of_le (Nat.le_of_not_lt beyond)] at tail
      rw [List.drop_eq_getElem_cons within] at tail
      obtain ⟨head, tail⟩ := List.cons.inj tail
      exact ⟨by rw [List.getElem?_eq_getElem within, head], tail⟩
    cases section_ : q.batchSection with
    | looping i =>
        simp only [RunQueue.rest, section_] at queued
        obtain ⟨here, behind⟩ := entered i queued
        refine ⟨[.resume], i, ?_, behind⟩
        simp [Transition.System.replay, RunQueue.system, RunQueue.step, section_, here]
    | resuming i =>
        simp only [RunQueue.rest, section_] at queued
        obtain ⟨here, behind⟩ := entered (i + 1) queued
        refine ⟨[.next, .resume], i + 1, ?_, behind⟩
        simp [Transition.System.replay, RunQueue.system, RunQueue.step, section_, here]
    | _ => simp [RunQueue.rest, section_] at queued
  have advanced : Runs { q with batchSection := .resuming i, resumed := q.resumed ++ [n] }
      ((s.advance y rest).schedulers y) := by
    refine ⟨?_, ?_, runs.adding, by simp, by simp⟩
    · simpa [advance, Schedulers.modify] using runs.runing
    · simpa [advance, Schedulers.modify, RunQueue.rest] using behind
  obtain ⟨l, runing, cached⟩ := resume_appends y n (s.advance y rest) y
  obtain ⟨events', q', run', runs', resumed, added⟩ := advanced.append runing cached
  have same : ((s.advance y rest).schedulers y).runingStates = (s.schedulers y).runingStates := by
    simp [advance, Schedulers.modify]
  refine ⟨events ++ events', q', ?_, runs', ?_, ?_⟩
  · rw [RunQueue.system.replay_append, run]
    exact run'
  · simp [resumed, resumes, next]
  · rw [added, appended, appended, same]

theorem Runs.step (runs : Runs q (s.schedulers y)) (aligned : q.Aligned)
    {action : RuntimeAction α ε} (h : s.step action = some t) :
    ∃ events q', RunQueue.system.replay q events = some q' ∧ QueueStep y action s t q q' := by
  rcases step_cases h with ⟨kind, rfl, rfl⟩ | ⟨rfl, rfl⟩ | ⟨kind, rfl, rfl⟩ |
    ⟨sch, n, rfl, -, -, rfl⟩ | ⟨n, o, kind, rfl, -, -, rfl⟩ | ⟨w, sch, rfl, -, -, rfl⟩ |
    ⟨sch, rfl, empty, -, rfl⟩ | ⟨sch, n, rest, rfl, -, next, rfl⟩ | ⟨sch, p, next, rfl, -, action⟩
  · exact runs.appends (.refl _) rfl
  · exact runs.appends (.refl _) rfl
  · exact runs.appends (.refl _) rfl
  · exact runs.appends (newTask_appends sch n s) rfl
  · exact runs.appends (update_appends n _) rfl
  · exact runs.appends (appends_addGenerator sch w) rfl
  · by_cases here : sch = y
    · subst here
      exact runs.swap aligned empty
    · have same : (s.swap sch).schedulers y = s.schedulers y := by
        simp [Runtime.swap, Schedulers.modify, Ne.symm here]
      obtain ⟨events, q', run, runs', resumed, added⟩ :=
        runs.append (t := s.swap sch) (l := []) (by simp [same]) (by rw [same])
      exact ⟨events, q', run, runs', by simp [resumed, resumes], added⟩
  · by_cases here : sch = y
    · subst here
      exact runs.resume next
    · have same : (s.advance sch rest).schedulers y = s.schedulers y := by
        simp [advance, Schedulers.modify, Ne.symm here]
      obtain ⟨l, runing, cached⟩ := resume_appends sch n (s.advance sch rest) y
      rw [same] at runing cached
      obtain ⟨events, q', run, runs', resumed, added⟩ := runs.append runing cached
      exact ⟨events, q', run, runs', by simp [resumed, resumes, here], added⟩
  · exact runs.appends (body_appends action) rfl

/-! ## Every run -/

/-- What the steps of a run resume in scheduler `y`. -/
def resumedIn (y : Nat) : Runtime α ε → List (RuntimeAction α ε) → List Nat
  | _, [] => []
  | s, action :: rest => match s.step action with
      | some t => s.resumes y action ++ resumedIn y t rest
      | none => []

/-- What they add to its run queue. -/
def addedIn (y : Nat) : Runtime α ε → List (RuntimeAction α ε) → List Nat
  | _, [] => []
  | s, action :: rest => match s.step action with
      | some t => appended s t y ++ addedIn y t rest
      | none => []

theorem Runs.replay {actions : List (RuntimeAction α ε)} (runs : Runs q (s.schedulers y))
    (reachable : RunQueue.system.Reachable q) (run : (system α ε).replay s actions = some t) :
    ∃ q', RunQueue.system.Reachable q' ∧ Runs q' (t.schedulers y) ∧
      q'.resumed = q.resumed ++ resumedIn y s actions ∧
      q'.added = q.added ++ addedIn y s actions := by
  induction actions generalizing s q with
  | nil =>
      cases run
      exact ⟨q, reachable, runs, (List.append_nil _).symm, (List.append_nil _).symm⟩
  | cons action rest ih =>
      obtain ⟨u, h, run⟩ := Option.bind_eq_some_iff.1 run
      have h : s.step action = some u := h
      obtain ⟨events, q₁, first, runs₁, resumed₁, added₁⟩ := runs.step (RunQueue.aligned reachable) h
      obtain ⟨q', reachable', runs', resumed', added'⟩ := ih runs₁ (reachable.replay first) run
      refine ⟨q', reachable', runs', ?_, ?_⟩
      · simp [resumed', resumed₁, resumedIn, h]
      · simp [added', added₁, addedIn, h]

/-- In every run each scheduler resumes what has been added to its run queue, in this order. -/
theorem resumed_of_added {actions : List (RuntimeAction α ε)}
    (run : (system α ε).replay {} actions = some s) (y : Nat) :
    addedIn y {} actions = resumedIn y {} actions ++ (s.schedulers y).cachedStates ++
      (s.schedulers y).runingStates := by
  have initial : Runs {} ((({} : Runtime α ε)).schedulers y) := ⟨rfl, rfl, rfl, by simp, by simp⟩
  obtain ⟨q, reachable, runs, resumed, added⟩ := initial.replay .init run
  have pending := (RunQueue.aligned reachable).pending
  rw [runs.adding, runs.runing, runs.cached, resumed, added] at pending
  simpa using pending

end Runtime

end Librf
