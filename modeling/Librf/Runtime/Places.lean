import Librf.Runtime.Home

/-!
# Which thread runs a coroutine
-/

namespace Librf

theorem Handles.Move.classes {h h' : Handles} (move : h.Move h') {n : Nat} (old : n < h.created) :
    h'.classes n = h.classes n := by
  cases move with
  | newCoroutine | newAwaitable | newGenerator | park =>
      exact Function.update_of_ne (Nat.ne_of_lt old) ..
  | _ => rfl

theorem Role.of_task {n : Nat} {r : TaskView} (role : Role n r) (goes : r.goes ≠ [])
    (open_ : r.progress.ended = false) :
    ∃ home, r.scheduler = some home ∧ ∀ y, r.ready y = decide (y = home) := by
  cases role with
  | task cls moves sch home => exact ⟨home, rfl, fun _ => rfl⟩
  | taskEnded cls moves switched sch home x coro entries ready ended => cases open_.symm.trans ended
  | _ => exact absurd rfl goes

namespace Runtime

variable {α ε : Type*} {s t : Runtime α ε} {sch p n : Nat}

/-- What the thread of a scheduler executes is on that scheduler. -/
def Placed (s : Runtime α ε) : Prop :=
  ∀ y q, (s.schedulers y).busy = some q → s.classes q ≠ .generator →
    (s.progress q).active = true ∧ (s.states q).scheduler = some y

structure GoesOn (sch p : Nat) (s t : Runtime α ε) : Prop where
  others : ∀ q, q ≠ p → (s.progress q).active = true → t.task q = s.task q
  self : (t.schedulers sch).busy ≠ none → s.classes p ≠ .generator →
    (t.progress p).active = true ∧ (t.states p).scheduler = (s.states p).scheduler

theorem GoesOn.leave (others : ∀ q, q ≠ p → (s.progress q).active = true → t.task q = s.task q)
    (idle : s.classes p ≠ .generator → (t.schedulers sch).busy = none) : GoesOn sch p s t :=
  ⟨others, fun busy plain => absurd (idle plain) busy⟩

theorem setBusy_none (s : Runtime α ε) (sch : Nat) :
    ((s.setBusy sch none).schedulers sch).busy = none := by
  simp [setBusy, Schedulers.busy_setBusy]

theorem GoesOn.finish {o : Outcome α ε}  : GoesOn sch p s (s.finish p o) := by
  refine ⟨fun q out _ => finish_task_of_ne out o, fun _ plain => ?_⟩
  rw [finish_eq plain]
  cases o <;> simp [update, setProgress, setState, afterFinish, Progress.active,
    FutureState.complete_state]

theorem Settled.goesOn (settled : s.Settled) {action : BodyAction α ε}
    (allowed : Exclusive s (.body sch action)) (h : s.body sch p action = some t) :
    GoesOn sch p s t := by
  obtain ⟨sound, linked, -⟩ := id settled
  have other {m q : Nat} (outside : s.progress m = .absent ∨ s.progress m = .initial)
      (active : (s.progress q).active = true) : q ≠ m := by
    rintro rfl
    rcases outside with x | x <;> rw [x] at active <;> cases active
  have old {q : Nat} (active : (s.progress q).active = true) : q ≠ s.created :=
    Nat.ne_of_lt (sound.of_active active)
  rcases body_cases h with ⟨m, kind, kind', rfl, now, class_p, class_m, rfl⟩ | ⟨m, -, now, rfl⟩ |
    ⟨m, -, now, rfl⟩ | ⟨kind, -, now, class_p, rfl⟩ | ⟨kind, -, now, class_p, rfl⟩ |
    ⟨target, kind, -, now, class_p, rfl⟩ | ⟨v, -, now, rfl⟩ | ⟨v, -, now, rfl⟩ |
    ⟨e, -, now, plain, rfl⟩ | ⟨-, now, done⟩
  · obtain ⟨goes, awaits⟩ := allowed
    have outside := outside_of_future class_m fun here =>
      ((linked.forest.role m here).of_unused goes awaits).1
    have apart := (other outside (q := p) (by rw [now]; rfl)).symm
    constructor
    · exact fun q out active => beginAwait_task_of_ne out (other outside active)
    · intro _ _
      have view := beginAwait_task_self (s := s) apart
      have progress : (s.beginAwait p m).progress p = .transformed m :=
        congrArg TaskView.progress view
      exact ⟨by rw [progress]; rfl, congrArg TaskView.scheduler view⟩
  · have inBody : (s.progress p).inAwait = true := by rw [now]; rfl
    have read : (s.readResult m).task = s.task := funext fun q => readResult_task m q
    have tasks : ∃ x : Progress, x.active = true ∧
        (s.testReady p m).task = Function.update s.task p { s.task p with progress := x } := by
      unfold Runtime.testReady
      split
      · exact ⟨.running, rfl, by rw [setProgress_tasks, read]⟩
      · exact ⟨.unready m, rfl, by rw [setProgress_tasks]⟩
    obtain ⟨x, active, tasks⟩ := tasks
    constructor
    · intro q out _
      rw [tasks, Function.update_of_ne out]
    · intro _ _
      have view : (s.testReady p m).task p = { s.task p with progress := x } := by
        rw [tasks, Function.update_self]
      have progress : (s.testReady p m).progress p = x := congrArg TaskView.progress view
      exact ⟨by rw [progress]; exact active, congrArg TaskView.scheduler view⟩
  · obtain ⟨kind, class_m⟩ := sound.target p m (.inr now)
    have outside := outside_of_future class_m fun here =>
      (linked.forest.called p m here (.inr now)).progress
    exact .leave (fun q out active => suspendAwait_task_of_ne out (other outside active))
      fun _ => setBusy_none _ sch
  · exact .leave (fun q out active => pause_task_of_ne out (old active)) fun _ => setBusy_none _ sch
  · exact .leave (fun q out active => park_task_of_ne out (old active)) fun _ => setBusy_none _ sch
  · have here : s.IsCoroutine p := ⟨⟨kind, class_p⟩, by simp [now]⟩
    have inBody : (s.task p).progress.inBody = true := by
      change (s.progress p).inBody = true
      rw [now]
      rfl
    obtain ⟨l, chain⟩ := linked.forest.exists_chain (suspended_of_sound sound) here inBody
    by_cases own : (s.states p).scheduler = some target
    · rw [linked.via_here sound chain now own]
      exact ⟨fun _ _ _ => rfl, fun _ _ => ⟨by rw [now]; rfl, rfl⟩⟩
    obtain ⟨u, via, handles, tasks, -⟩ := linked.via_away sound chain now own
    have created : u.created = s.created := congrArg Handles.created handles
    rw [via]
    refine .leave ?_ fun _ => setBusy_none _ sch
    intro q out active
    have waits : q ∉ l := by
      intro passed
      rcases chain.exists_below passed with rfl | ⟨c, -, -, waits⟩
      · exact out rfl
      · have waits : s.progress q = .awaiting c := waits
        rw [waits] at active
        cases active
    rw [pause_task_of_ne out (created ▸ old active), tasks, moveChain, if_neg waits]
  · refine .leave (fun q out _ => yieldValue_task_of_ne out v) fun plain => ?_
    unfold Runtime.yieldValue
    split
    · exact absurd ‹_› plain
    · exact setBusy_none _ sch
  · exact .finish
  · exact .finish
  · refine .leave (fun q out _ => finalSuspend_task_of_ne out done) fun plain => ?_
    obtain ⟨updated, -, rfl⟩ := finalSuspend_eq plain done
    exact setBusy_none _ sch

/-! ## Resuming -/

theorem continueWith_busy (s : Runtime α ε) (sch n : Nat) (r : Resumption) :
    ((s.continueWith sch n r).schedulers sch).busy = match r with
      | .start => some n
      | .wake p => some p
      | .destroy | .nothing => (s.schedulers sch).busy := by
  cases r with
  | wake p =>
      have here := wake_thread sch n p sch s
      rw [Schedulers.thread_setBusy, if_pos rfl] at here
      exact congrArg Prod.snd here
  | _ => simp [continueWith, setBusy, Schedulers.busy_setBusy, destroy, setProgress]

theorem resume_busy {q : Nat} (idle : (s.schedulers sch).busy = none)
    (busy : ((s.resume sch n).schedulers sch).busy = some q) :
    s.resumption n = .start ∧ q = n ∨ s.resumption n = .wake q := by
  unfold Runtime.resume at busy
  rw [continueWith_busy] at busy
  cases resumption : s.resumption n with
  | start =>
      rw [resumption] at busy
      exact .inl ⟨rfl, (Option.some.inj busy).symm⟩
  | wake p =>
      rw [resumption] at busy
      cases busy
      exact .inr rfl
  | _ =>
      rw [resumption] at busy
      cases class_ : s.classes n with
      | waiter =>
          cases held : (s.states n).coro with
          | none =>
              simp only [class_, held, idle] at busy
              cases busy
          | some p => simp [Runtime.resumption, class_, held] at resumption
      | _ =>
          simp only [class_] at busy
          cases idle.symm.trans busy

theorem continueWith_progress (s : Runtime α ε) (sch n : Nat) (r : Resumption) :
    (s.continueWith sch n r).progress = match r with
      | .start => Function.update s.progress n .running
      | .wake p => Function.update s.progress p .running
      | .destroy => Function.update s.progress n .destroyed
      | .nothing => s.progress := by
  cases r with
  | wake p => exact congrArg Handles.progress (wake_handles (s := s) sch n p)
  | _ => rfl

theorem resume_progress (s : Runtime α ε) (sch n : Nat) :
    (s.resume sch n).progress = match s.resumption n with
      | .start => Function.update s.progress n .running
      | .wake p => Function.update s.progress p .running
      | .destroy => Function.update s.progress n .destroyed
      | .nothing => s.progress := by
  unfold Runtime.resume
  rw [continueWith_progress]
  cases s.classes n <;> rfl

theorem resume_scheduler (sound : s.handles.Sound) {rest : List Nat}
    (next : (s.schedulers sch).cachedStates = n :: rest) (m : Nat) :
    (((s.advance sch rest).resume sch n).states m).scheduler = (s.states m).scheduler := by
  change (((s.advance sch rest).resume sch n).task m).scheduler = (s.task m).scheduler
  have popped (r : TaskView) (scheduler : r.scheduler = (s.task n).scheduler) :
      (Function.update s.task n r m).scheduler = (s.task m).scheduler := by
    by_cases on : m = n
    · rw [on, Function.update_self, scheduler]
    · rw [Function.update_of_ne on]
  generalize resumed : ((s.advance sch rest).resume sch n).task = v
  cases resumed ▸ resume_tasks sound next with
  | wake p ready w _ _ _ _ released =>
      by_cases on : m = p
      · rw [on, Function.update_self, released, ← on]
        exact popped _ rfl
      · rw [Function.update_of_ne on, released]
        exact popped _ rfl
  | _ => exact popped _ rfl

theorem resume_active (sound : s.handles.Sound) (rest : List Nat) {q : Nat}
    (plain : s.classes q ≠ .generator) (active : (s.progress q).active = true) :
    (((s.advance sch rest).resume sch n).progress q).active = true := by
  have progress := resume_progress (s.advance sch rest) sch n
  have same : (s.advance sch rest).resumption n = s.resumption n := rfl
  rw [progress, same]
  have entered (p : Nat) : (Function.update s.progress p .running q).active = true := by
    by_cases self : q = p
    · rw [self, Function.update_self]
      rfl
    · rwa [Function.update_of_ne self]
  cases resumption : s.resumption n with
  | start => exact entered n
  | wake p => exact entered p
  | nothing => exact active
  | destroy =>
      have away : q ≠ n := by
        rintro rfl
        have present : s.progress q ≠ .absent := Progress.ne_absent active
        have future := (sound.coroutine q present).resolve_left plain
        have final : s.progress q = .final :=
          (sound.final q plain).1 (of_resumption_destroy ⟨future, present⟩ resumption).1
        rw [final] at active
        cases active
      change (Function.update s.progress n .destroyed q).active = true
      rwa [Function.update_of_ne away]

/-- What a thread enters is on its scheduler. -/
theorem Settled.entered (settled : s.Settled) (idle : (s.schedulers sch).busy = none)
    {rest : List Nat} (next : (s.schedulers sch).cachedStates = n :: rest) {q : Nat}
    (busy : (((s.advance sch rest).resume sch n).schedulers sch).busy = some q)
    (plain : s.classes q ≠ .generator) :
    (((s.advance sch rest).resume sch n).progress q).active = true ∧
      (((s.advance sch rest).resume sch n).states q).scheduler = some sch := by
  obtain ⟨sound, -, home⟩ := settled
  have progress := resume_progress (s.advance sch rest) sch n
  have same : (s.advance sch rest).resumption n = s.resumption n := rfl
  rw [same] at progress
  have idle' : ((s.advance sch rest).schedulers sch).busy = none := by
    simp [advance, Schedulers.modify, idle]
  have entered := resume_busy idle' busy
  have before : s.classes n ≠ .generator := by
    intro generator
    rcases entered with ⟨-, rfl⟩ | wake
    · exact plain generator
    · exact plain ((sound.generator_slot n q generator (of_resumption_wake wake).1).1 ▸ generator)
  have queued : 0 < (s.task n).entries sch := by
    simp only [task, Schedulers.entries, next, List.cons_append, List.count_cons_self]
    exact Nat.succ_pos _
  have own : (s.states n).scheduler = some sch := (home.tidy n).home before sch queued
  have scheduler := resume_scheduler sound next q
  rcases entered with ⟨start, rfl⟩ | wake
  · have start : s.resumption q = .start := start
    rw [progress, start]
    exact ⟨by simp [Progress.active], scheduler.trans own⟩
  · have wake : s.resumption n = .wake q := wake
    rw [progress, wake]
    refine ⟨by simp [Progress.active], ?_⟩
    have held : (s.states n).coro = some q := (of_resumption_wake wake).1
    exact scheduler.trans ((home.link n q before held).symm.trans own)

/-! ## Every run -/

theorem Placed.step (placed : s.Placed) (settled : s.Settled) {action : RuntimeAction α ε}
    (allowed : Exclusive s action) (h : s.step action = some t) : t.Placed := by
  have move := step_move settled.sound h
  obtain ⟨sound, linked, -⟩ := id settled
  have others {q y : Nat} (busy : (s.schedulers y).busy = some q) (plain : t.classes q ≠ .generator)
      (kept : s.classes q ≠ .generator → (s.progress q).active = true →
        (t.progress q).active = true ∧ (t.states q).scheduler = (s.states q).scheduler) :
      (t.progress q).active = true ∧ (t.states q).scheduler = some y := by
    have before : s.classes q ≠ .generator := by
      intro generator
      exact plain ((move.classes (sound.generator q generator).1).trans generator)
    obtain ⟨active, own⟩ := placed y q busy before
    exact ⟨(kept before active).1, (kept before active).2.trans own⟩
  have same_view {q : Nat} (active : (s.progress q).active = true) (same : t.task q = s.task q) :
      (t.progress q).active = true ∧ (t.states q).scheduler = (s.states q).scheduler := by
    have progress : t.progress q = s.progress q := congrArg TaskView.progress same
    exact ⟨progress ▸ active, congrArg TaskView.scheduler same⟩
  have unborn : (s.progress s.created).active = false := by
    rw [show s.progress s.created = .absent from (sound.fresh _ (Nat.le_refl _)).1]
    rfl
  -- Nobody executes the state that changes.
  have stay {n : Nat} (threads : ∀ y, (t.schedulers y).busy = (s.schedulers y).busy)
      (out : s.classes n ≠ .generator → (s.progress n).active = false)
      (same : ∀ q, q ≠ n → t.task q = s.task q) : t.Placed := by
    intro y q busy plain
    refine others ((threads y).symm.trans busy) plain fun before active =>
      same_view active (same q ?_)
    rintro rfl
    cases (out before).symm.trans active
  rcases step_cases h with ⟨kind, -, rfl⟩ | ⟨-, rfl⟩ | ⟨kind, -, rfl⟩ |
    ⟨sch, n, rfl, -, class_n, rfl⟩ | ⟨n, o, kind, -, class_n, awaitable, rfl⟩ |
    ⟨w, sch, -, class_w, own, rfl⟩ | ⟨sch, -, empty, -, rfl⟩ | ⟨sch, n, rest, -, idle, next, rfl⟩ |
    ⟨sch, p, next, rfl, busy, action⟩
  · exact stay (fun _ => rfl) (fun _ => unborn) fun q old => add_task_of_ne old _ _ _
  · exact stay (fun _ => rfl) (fun _ => unborn) fun q old => add_task_of_ne old _ _ _
  · exact stay (fun _ => rfl) (fun _ => unborn) fun q old => add_task_of_ne old _ _ _
  · have thread := newTask_thread sch n s
    refine stay (fun y => congrArg Prod.snd (congrFun thread y)) (fun plain => ?_)
      fun q out => newTask_task_of_ne out sch
    obtain ⟨kind, class_n⟩ := class_n.resolve_right plain
    obtain ⟨awaits, goes⟩ := allowed plain
    have outside := outside_of_future class_n fun here =>
      ((linked.forest.role n here).of_unused (goes here) awaits).1
    rcases outside with x | x <;> rw [x] <;> rfl
  · have absent : s.progress n = .absent := by
      by_contra present
      have future : (s.states n).isFuture = true :=
        (linked.forest.role n ⟨⟨kind, class_n⟩, present⟩).isFuture
      cases awaitable.symm.trans future
    refine stay (fun y => ?_) (fun _ => by rw [absent]; rfl) fun q out => update_task_of_ne out _
    exact congrArg Prod.snd (Schedulers.thread_calls s.schedulers y n _)
  · have absent : s.progress w = .absent := waiter_absent sound (.inl class_w)
    refine stay (fun y => ?_) (fun _ => by rw [absent]; rfl)
      fun q out => addGenerator_task_of_ne out sch
    exact congrArg Prod.snd (Schedulers.thread_addGenerator s.schedulers y sch w)
  · intro y q busy plain
    exact others ((swap_busy sch y).symm.trans busy) plain fun _ active =>
      same_view active (swap_task empty q)
  · intro y q busy plain
    by_cases here : y = sch
    · subst here
      refine settled.entered idle next busy fun generator => ?_
      exact plain ((move.classes (sound.generator q generator).1).trans generator)
    · have thread := (resume_thread sch n rest s).others y here
      refine others ((congrArg Prod.snd thread).symm.trans busy) plain fun before active => ?_
      exact ⟨resume_active sound rest before active, resume_scheduler sound next q⟩
  · have goesOn := settled.goesOn allowed action
    have thread := body_thread action
    intro y q running plain
    by_cases here : y = sch
    · subst here
      have self : q = p := by
        rcases thread.busy with same | ⟨none_, -⟩
        · exact Option.some.inj (running.symm.trans (same.trans busy))
        · cases none_.symm.trans running
      subst self
      exact others busy plain fun before _ => goesOn.self (by simp [running]) before
    · have before := (congrArg Prod.snd (thread.others y here)).symm.trans running
      refine others before plain fun class_ active => same_view active (goesOn.others q ?_ active)
      rintro rfl
      have one := (placed y q before class_).2.symm.trans (placed sch q busy class_).2
      exact here (Option.some.inj one)

theorem placed_of_reachable (reachable : (system α ε).ReachableBy Exclusive s) : s.Placed := by
  have inductive_ : (system α ε).Inductive Exclusive Placed := by
    constructor
    · intro y q busy
      cases busy
    · exact fun s e t reached placed allowed h => placed.step (settled_of_reachable reached) allowed h
  exact inductive_.holds reachable

/-! ### What is promised -/

theorem Settled.mem_readyTask (settled : s.Settled) (here : s.IsCoroutine n) (y : Nat) :
    n ∈ (s.schedulers y).readyTask ↔
      s.goes n ≠ [] ∧ (s.progress n).ended = false ∧ s.getScheduler n = some y := by
  obtain ⟨-, linked, home⟩ := settled
  rw [mem_readyTask_iff]
  constructor
  · intro registered
    have task : s.goes n ≠ [] ∧ (s.progress n).ended = false := by
      rw [← Bool.not_eq_true, ← not_or]
      intro over_
      cases ((home.tidy n).registered here over_ y).symm.trans registered
    obtain ⟨own, scheduler, ready⟩ := (linked.forest.role n here).of_task task.1 task.2
    rw [ready, decide_eq_true_iff] at registered
    exact ⟨task.1, task.2, getScheduler_of_some (registered ▸ scheduler)⟩
  · rintro ⟨goes, open_, reports⟩
    obtain ⟨own, scheduler, ready⟩ := (linked.forest.role n here).of_task goes open_
    rw [ready, decide_eq_true_iff]
    exact Option.some.inj (reports.symm.trans (getScheduler_of_some scheduler))

structure RunsAtHome (s : Runtime α ε) : Prop where
  -- Nobody else executes it.
  runs : ∀ y p, (s.schedulers y).busy = some p → s.IsCoroutine p →
    s.getScheduler p = some y ∧ (s.progress p).active = true ∧
      ∀ x, (s.schedulers x).busy = some p → x = y
  executed : ∀ p, s.IsCoroutine p → (s.progress p).active = true →
    ∃ y, s.getScheduler p = some y ∧ (s.schedulers y).busy = some p
  -- Its continuation is queued there.
  queued : ∀ y n p, 0 < s.schedulers.entries y n → (s.resumption n).handle n = some p →
    s.IsCoroutine p → s.getScheduler p = some y
  registered : ∀ y n, s.IsCoroutine n → (n ∈ (s.schedulers y).readyTask ↔
    s.goes n ≠ [] ∧ (s.progress n).ended = false ∧ s.getScheduler n = some y)

theorem runs_at_home (reachable : (system α ε).ReachableBy Exclusive s) : s.RunsAtHome := by
  obtain ⟨sound, linked, home⟩ := settled_of_reachable reachable
  have placed := placed_of_reachable reachable
  have running := running_of_reachable reachable
  have plain {p : Nat} (here : s.IsCoroutine p) := class_ne_generator here
  constructor
  · intro y p busy here
    obtain ⟨active, own⟩ := placed y p busy (plain here)
    refine ⟨getScheduler_of_some own, active, fun x busy' => ?_⟩
    exact Option.some.inj ((placed x p busy' (plain here)).2.symm.trans own)
  · intro p here active
    obtain ⟨y, busy⟩ := running p active
    exact ⟨y, getScheduler_of_some (placed y p busy (plain here)).2, busy⟩
  · intro y n p queued handled here
    apply getScheduler_of_some
    have before : s.classes n ≠ .generator := by
      intro generator
      have self : p = n := by
        cases resumption : s.resumption n with
        | wake q =>
            rw [resumption] at handled
            cases handled
            exact (sound.generator_slot n p generator (of_resumption_wake resumption).1).1
        | start =>
            rw [resumption] at handled
            exact (Option.some.inj handled).symm
        | _ =>
            rw [resumption] at handled
            cases handled
      exact plain here (self ▸ generator)
    have own : (s.states n).scheduler = some y := (home.tidy n).home before y queued
    cases resumption : s.resumption n with
    | start =>
        rw [resumption] at handled
        cases handled
        exact own
    | wake q =>
        rw [resumption] at handled
        cases handled
        have held : (s.states n).coro = some p := (of_resumption_wake resumption).1
        exact (home.link n p before held).symm.trans own
    | destroy =>
        rw [resumption] at handled
        cases handled
    | nothing =>
        rw [resumption] at handled
        cases handled
  · exact fun y n here => Settled.mem_readyTask ⟨sound, linked, home⟩ here y

/-- The child of a task moves both to another scheduler. -/
def movedCall : List (RuntimeAction Unit Unit) :=
  nestedCall ++ [.body 0 (.via 1), .swap 1, .resume 1]

theorem runs_at_home_moved :
    ∃ s, (system Unit Unit).ReachableBy Exclusive s ∧ (s.schedulers 1).busy = some 1 ∧
      s.getScheduler 1 = some 1 ∧ 0 ∈ (s.schedulers 1).readyTask := by
  obtain ⟨s, reachable, test⟩ := Transition.System.reachableBy_of_replay (system Unit Unit)
    Exclusive movedCall (fun s => (s.schedulers 1).busy = some 1 ∧ s.Started 0 ∧ s.IsCoroutine 1 ∧
      s.goes 0 = [0] ∧ (s.progress 0).ended = false ∧ s.getScheduler 0 = some 1) (by decide)
  simp only [decide_eq_true_eq] at test
  obtain ⟨busy, task, child, goes, open_, own⟩ := test
  have promised := runs_at_home reachable
  exact ⟨s, reachable, busy, (promised.runs 1 1 busy child).1,
    (promised.registered 1 0 task.1).2 ⟨by simp [goes], open_, own⟩⟩

/-! ## The task of the running coroutine -/

def findTask (s : Runtime α ε) (sch n : Nat) : Option Nat :=
  if n ∈ (s.schedulers sch).readyTask then some n else none

def getCurrentScheduler (s : Runtime α ε) (p : Nat) : Option Nat := s.getScheduler p

/-- `get_current_task`; it fails where it would read through a null pointer. -/
def getCurrentTask (s : Runtime α ε) (p : Nat) : Option (Option Nat) := do
  let root ← s.getRoot p
  let sch ← s.getScheduler root
  pure (s.findTask sch root)

/-- What `p` learns from `get_root_state`, `get_current_scheduler` and `get_current_task`. -/
structure Current (s : Runtime α ε) (p r y : Nat) : Prop where
  descends : s.Descends p r
  root : s.getRoot p = some r
  scheduler : s.getCurrentScheduler p = some y
  task : s.getCurrentTask p = some (if (s.progress r).ended then none else some r)
  -- until the body is left
  body : (s.progress p).inBody = true → (s.progress r).ended = false ∧ s.getScheduler r = some y

theorem Settled.findTask (settled : s.Settled) (here : s.IsCoroutine n) (goes : s.goes n ≠ [])
    {y : Nat} (own : s.getScheduler n = some y) :
    s.findTask y n = if (s.progress n).ended then none else some n := by
  have listed := settled.mem_readyTask here y
  unfold Runtime.findTask
  cases ended : (s.progress n).ended with
  | true =>
      rw [if_neg fun registered => Bool.noConfusion (ended.symm.trans (listed.1 registered).2.1)]
      rfl
  | false =>
      rw [if_pos (listed.2 ⟨goes, ended, own⟩)]
      rfl

theorem Descends.goes {r : Nat} (descends : s.Descends n r) : ∃ sch, s.goes r = [sch] := by
  induction descends with
  | go goes => exact ⟨_, goes⟩
  | await _ _ ih => exact ih

theorem current_of_running (reachable : (system α ε).ReachableBy Exclusive s) {y : Nat}
    (busy : (s.schedulers y).busy = some p) (here : s.IsCoroutine p) : ∃ r, s.Current p r y := by
  obtain ⟨sound, linked, home⟩ := settled_of_reachable reachable
  have placed := placed_of_reachable reachable
  obtain ⟨active, own⟩ := placed y p busy (class_ne_generator here)
  have started : s.Started p := by
    refine ⟨here, fun initial => ?_⟩
    rw [initial] at active
    cases active
  obtain ⟨r, descends⟩ := linked.exists_descends started
  have root := linked.getRoot_of_descends sound started descends
  obtain ⟨started_r, -⟩ := linked.started_root started descends
  obtain ⟨sch, goes⟩ := descends.goes
  obtain ⟨own', scheduler⟩ := (linked.forest.role r started_r.1).scheduler_of_begun started_r.2
  have scheduler : s.getScheduler r = some own' := getScheduler_of_some scheduler
  refine ⟨r, descends, root, getScheduler_of_some own, ?_, ?_⟩
  · simp only [getCurrentTask, root, scheduler, Option.bind_some, bind, pure]
    rw [Settled.findTask ⟨sound, linked, home⟩ started_r.1 (by simp [goes]) scheduler]
  · intro inBody
    obtain ⟨l, chain⟩ := linked.forest.exists_chain (suspended_of_sound sound) here inBody
    have ascent := linked.forest.ascent chain inBody
    obtain ⟨r', last, -⟩ := ascent.exists_last
    cases root.symm.trans (linked.getRoot sound here ascent last)
    obtain ⟨-, passed, -⟩ := linked.forest.last chain inBody last
    exact ⟨Progress.ended_eq_false (chain.mem_inBody inBody r passed),
      getScheduler_of_some ((linked.forest.same_home chain inBody r passed).trans own)⟩

theorem current_of_running_moved :
    ∃ s, (system Unit Unit).ReachableBy Exclusive s ∧ s.Descends 1 0 ∧
      s.getCurrentScheduler 1 = some 1 ∧ s.getCurrentTask 1 = some (some 0) := by
  obtain ⟨s, reachable, test⟩ := Transition.System.reachableBy_of_replay (system Unit Unit)
    Exclusive movedCall (fun s => (s.schedulers 1).busy = some 1 ∧ s.IsCoroutine 1 ∧
      s.getRoot 1 = some 0 ∧ (s.progress 0).ended = false) (by decide)
  simp only [decide_eq_true_eq] at test
  obtain ⟨busy, here, root, open_⟩ := test
  obtain ⟨r, current⟩ := current_of_running reachable busy here
  cases root.symm.trans current.root
  have task := current.task
  rw [open_] at task
  exact ⟨s, reachable, current.descends, current.scheduler, task⟩

end Runtime

end Librf
