import Librf.Runtime.Tasks

/-!
# Tasks in every run
-/

namespace Librf

namespace Runtime

variable {α ε : Type*} {s t : Runtime α ε}

theorem Registered.newTask (registered : s.Registered) {n : Nat} (sch : Nat)
    (born : n < s.created) : (s.newTask sch n).Registered := by
  refine registered.change (t := s.newTask sch n) (· = n) rfl rfl
    (fun x out => newTask_task_of_ne out sch) ?_ (fun _ => List.Subset.refl _)
    (fun _ _ _ waiting => .inl waiting) (by rintro x rfl; exact .inl born)
  · rintro x rfl present unawaited unmoved
    have kept := registered.kept x present unawaited unmoved
    have first : ∀ own, ((s.newTask sch x).task x).goes = [own] → s.goes x = [] ∧ sch = own := by
      intro own goes
      have goes : s.goes x ++ [sch] = [own] := by simpa [task, Runtime.newTask, setState] using goes
      cases before : s.goes x with
      | nil => simpa [before] using goes
      | cons y rest => simp [before] at goes
    constructor
    · simpa [task, Runtime.newTask, setState] using kept.isFuture
    · intro none
      simp [task, Runtime.newTask] at none
    · intro own goes
      simp [task, Runtime.newTask, setState, (first own goes).2]
    · intro own goes _
      obtain ⟨-, rfl⟩ := first own goes
      simp only [task, newTask_schedulers]
      split <;> simp [Schedulers.ready_emplace_self]
    · intro own goes final
      have initial : s.progress x = .initial := (kept.unused (first own goes).1).1
      have final : s.progress x = .final := final
      rw [initial] at final
      cases final

theorem Registered.complete (registered : s.Registered) (sound : s.handles.Sound) {n : Nat}
    {kind : Kind} (o : Outcome α ε) (class_ : s.classes n = .future kind)
    (awaitable : (s.states n).isFuture = false) (root : Option Nat) :
    (s.update n ((s.states n).complete kind o root)).Registered := by
  have born : n < s.created := by
    by_contra new
    have unborn : s.classes n = .waiter := (sound.fresh n (Nat.le_of_not_lt new)).2
    rw [class_] at unborn
    cases unborn
  refine registered.change (t := s.update n _) (· = n) rfl rfl
    (fun x out => update_task_of_ne out _) ?_ (fun _ => List.Subset.refl _)
    (fun _ _ _ waiting => .inl waiting) (by rintro x rfl; exact .inl born)
  · rintro x rfl present unawaited unmoved
    have future : (s.states x).isFuture = true :=
      (registered.kept x present unawaited unmoved).isFuture (by simp [task, class_])
    rw [future] at awaitable
    cases awaitable

theorem waiter_absent (sound : s.handles.Sound) {n : Nat}
    (class_ : s.classes n = .waiter ∨ s.classes n = .passing) : s.progress n = .absent := by
  by_contra present
  rcases sound.coroutine n present with generator | ⟨kind, future⟩
  · have generator : s.classes n = .generator := generator
    rcases class_ with class_ | class_ <;> simp [class_] at generator
  · have future : s.classes n = .future kind := future
    rcases class_ with class_ | class_ <;> simp [class_] at future

theorem Registered.notify (registered : s.Registered) (sound : s.handles.Sound) {w sch : Nat}
    (class_ : s.classes w = .waiter) (own : (s.states w).scheduler = some sch) :
    Registered { s with schedulers := s.schedulers.addGenerator sch w } := by
  refine registered.change (· = w) rfl rfl (fun x out => addGenerator_task_of_ne out sch) ?_
    (fun _ => List.Subset.refl _) (fun _ _ _ waiting => .inl waiting) ?_
  · rintro x rfl present - -
    exact absurd (waiter_absent sound (.inl class_)) present
  · rintro x rfl
    by_contra neither
    rw [not_or] at neither
    have unborn := registered.unborn x (Nat.le_of_not_lt neither.1) (by simpa using neither.2)
    rw [own] at unborn
    cases unborn.1

theorem Registered.swap (registered : s.Registered) (sch : Nat)
    (empty : (s.schedulers sch).cachedStates = []) : (s.swap sch).Registered := by
  exact registered.change (t := s.swap sch) (fun _ => False) rfl rfl
    (fun x _ => swap_task empty x) (by simp) (fun _ => List.Subset.refl _) (by simp) (by simp)

theorem Registered.add (registered : s.Registered) {cls : StateClass} {st : FutureState α ε}
    {progress : Progress} (start : progress = .absent ∨ progress = .initial)
    (isFuture : progress ≠ .absent → cls ≠ .generator → st.isFuture = true) :
    (s.add cls st progress).Registered := by
  have passed : ∀ n, ¬ progress.waitsFor n := by
    rcases start with rfl | rfl <;> exact not_waitsFor rfl
  have progress_self : (s.add cls st progress).progress s.created = progress :=
    Function.update_self ..
  have progress_of : ∀ n, n ≠ s.created → (s.add cls st progress).progress n = s.progress n :=
    fun n old => Function.update_of_ne old ..
  have waits : ∀ p n, ((s.add cls st progress).progress p).waitsFor n →
      (s.progress p).waitsFor n := by
    intro p n waiting
    by_cases new : p = s.created
    · subst new
      rw [progress_self] at waiting
      exact absurd waiting (passed n)
    · rwa [progress_of p new] at waiting
  constructor
  · intro n present unawaited unmoved
    by_cases new : n = s.created
    · subst new
      obtain ⟨scheduler, goes, entries⟩ := registered.unborn s.created (Nat.le_refl _) unmoved
      rw [progress_self] at present
      have initial := start.resolve_left present
      constructor
      · simpa [task, Runtime.add, setState, setProgress] using isFuture present
      · exact fun _ => ⟨progress_self.trans initial, entries⟩
      all_goals
        intro own started
        have started : s.goes s.created = [own] := started
        rw [goes] at started
        cases started
    · rw [progress_of n new] at present
      rw [add_task_of_ne new]
      exact registered.kept n present unawaited unmoved
  · intro p n kind class_ waiting
    have before := waits p n waiting
    have old : n ≠ s.created := Nat.ne_of_lt (registered.target p n before)
    have class_ : s.classes n = .future kind := by
      simpa [Runtime.add, setState, setProgress, old] using class_
    exact registered.called p n kind class_ before
  · exact fun p n waiting => Nat.lt_succ_of_lt (registered.target p n (waits p n waiting))
  · intro n later unmoved
    have old : n ≠ s.created := Nat.ne_of_gt later
    obtain ⟨scheduler, goes, entries⟩ := registered.unborn n (Nat.le_of_succ_le later) unmoved
    exact ⟨by simpa [Runtime.add, setState, setProgress, old] using scheduler, goes, entries⟩

/-! ### Resuming -/

theorem Registered.resumeStep (registered : s.Registered) (sound : s.handles.Sound) {sch n p : Nat}
    {rest : List Nat} (next : (s.schedulers sch).cachedStates = n :: rest)
    (target : p = n ∨ s.progress p ≠ .absent) (classes : t.classes = s.classes)
    (created : t.created = s.created) (awaits : t.awaits = s.awaits) (moves : t.moves = s.moves)
    (progress : ∀ x, x = n ∨ x = p →
      t.progress x = s.progress x ∨ s.progress x ≠ .absent ∧ (t.progress x).inAwait = false)
    (same : ∀ x, x ≠ n → x ≠ p → t.task x = s.task x)
    (kept : ∀ x, x = n ∨ x = p → s.progress x ≠ .absent → s.awaits x = [] → (s.task x).Kept →
      (t.task x).Kept) : t.Registered := by
  refine registered.change (t := t) (fun x => x = n ∨ x = p) classes created ?_ ?_
    (fun x => by rw [awaits]; exact List.Subset.refl _) ?_ ?_
  · intro x out
    rw [not_or] at out
    exact same x out.1 out.2
  · intro x on present unawaited unmoved
    have before : s.progress x ≠ .absent := by
      rcases progress x on with same | ⟨before, -⟩
      · rwa [same] at present
      · exact before
    rw [awaits] at unawaited
    rw [moves] at unmoved
    exact kept x on before unawaited (registered.kept x before unawaited unmoved)
  · intro x m on waiting
    rcases progress x on with same | ⟨-, outside⟩
    · exact .inl (same ▸ waiting)
    · exact absurd waiting (not_waitsFor outside m)
  · have queued : n < s.created ∨ t.moves n ≠ [] := by
      by_contra neither
      rw [not_or, moves] at neither
      have entries := (registered.unborn n (Nat.le_of_not_lt neither.1)
        (by simpa using neither.2)).2.2 sch
      simp [Schedulers.entries, next] at entries
    rintro x (rfl | rfl)
    · exact queued
    · rcases target with rfl | present
      · exact queued
      · left
        by_contra new
        exact present (sound.fresh x (Nat.le_of_not_lt new)).1

section Resume

variable {sch n : Nat} {rest : List Nat}

theorem entry_pos (next : (s.schedulers sch).cachedStates = n :: rest) :
    ∃ y, 0 < (s.task n).entries y :=
  ⟨sch, by
    simp only [task, Schedulers.entries, next, List.cons_append, List.count_cons_self]
    exact Nat.succ_pos _⟩

theorem Registered.tagStep (registered : s.Registered) (sound : s.handles.Sound)
    (next : (s.schedulers sch).cachedStates = n :: rest) {x : Progress}
    (classes : t.classes = s.classes) (created : t.created = s.created)
    (awaits : t.awaits = s.awaits) (moves : t.moves = s.moves)
    (others : ∀ y, y ≠ n → t.task y = s.task y)
    (self : t.task n = { (s.advance sch rest).task n with progress := x })
    (progress : x = s.progress n ∨ s.progress n ≠ .absent ∧ x.inAwait = false)
    (open_ : s.progress n ≠ .absent → (t.task n).finished = false → (s.task n).finished = false)
    (last : s.progress n ≠ .absent → x ≠ .final) : t.Registered := by
  have progress_t : t.progress n = x := congrArg TaskView.progress self
  refine registered.resumeStep (t := t) (p := n) sound next (.inl rfl) classes created awaits moves
    ?_ (fun y out _ => others y out) ?_
  · rintro y on
    obtain rfl : y = n := on.elim id id
    rw [progress_t]
    exact progress
  · rintro y on present - kept
    obtain rfl : y = n := on.elim id id
    have after := self
    rw [advance_task] at after
    refine kept.step (.inr (entry_pos next)) ?_ ?_ ?_
    · rw [after]
      exact ⟨rfl, rfl, rfl, rfl⟩
    · intro now
      refine ⟨open_ present now, fun z => ?_⟩
      rw [after]
      exact id
    · intro final
      rw [after] at final
      exact absurd final (last present)

theorem Registered.wakeStep (registered : s.Registered) (sound : s.handles.Sound)
    (next : (s.schedulers sch).cachedStates = n :: rest) {u : Runtime α ε} {p : Nat}
    (plain : s.classes n ≠ .generator) (coro : (s.states n).coro = some p)
    (progress : u.progress = s.progress) (classes : u.classes = s.classes)
    (created : u.created = s.created) (awaits : u.awaits = s.awaits) (moves : u.moves = s.moves)
    (tasks : ∀ x, (x = n → s.progress n ≠ .absent) → u.task x =
      { (s.advance sch rest).task x with coro := if x = n then none else (s.states x).coro }) :
    (u.wake sch n p).Registered := by
  have slot : s.progress p = .awaiting n ∨ p = n ∧ s.progress n = .yielded :=
    sound.slot n p plain coro
  have present : s.progress p ≠ .absent := by
    rcases slot with waits | ⟨rfl, yields⟩
    · simp [waits]
    · simp [yields]
  have open_ : (s.task p).finished = false := by
    apply TaskView.finished_eq_false
    rcases slot with waits | ⟨rfl, yields⟩
    · simp [task, waits, Progress.ended]
    · simp [task, yields, Progress.ended]
  have begun : s.progress p ≠ .initial := by
    rcases slot with waits | ⟨rfl, yields⟩
    · simp [waits]
    · simp [yields]
  have handles := wake_handles (s := u) sch n p
  have same : ∀ x, (x = n → s.progress n ≠ .absent) → (u.wake sch n p).task x =
      { (s.advance sch rest).task x with
        coro := if x = n then none else (s.states x).coro
        progress := if x = p then .running else s.progress x } := by
    intro x here
    rw [wake_task, tasks x here, progress]
  have progress_t : ∀ x, (u.wake sch n p).progress x = if x = p then .running else s.progress x := by
    intro x
    rw [← progress]
    exact congrArg TaskView.progress (wake_task u sch n p x)
  have histories : (u.wake sch n p).awaits = u.awaits ∧ (u.wake sch n p).moves = u.moves := by
    unfold Runtime.wake arrive
    dsimp only
    split <;> split <;> exact ⟨rfl, rfl⟩
  refine registered.resumeStep (t := u.wake sch n p) (p := p) sound next (.inr present)
    ((congrArg Handles.classes handles).trans classes)
    ((congrArg Handles.created handles).trans created) (histories.1.trans awaits)
    (histories.2.trans moves) ?_ ?_ ?_
  · intro x _
    rw [progress_t]
    by_cases self : x = p
    · subst self
      exact .inr ⟨present, by rw [if_pos rfl]; rfl⟩
    · exact .inl (if_neg self)
  · intro x out_n out_p
    rw [same x fun here => absurd here out_n, advance_task_of_ne next out_n, if_neg out_p,
      if_neg out_n]
    rfl
  · intro x on there unawaited kept
    -- A coroutine that has not been awaited waits in its own state at most.
    have self : x = p := by
      rcases on with rfl | self
      · rcases slot with waits | ⟨self, -⟩
        · obtain ⟨kind, class_⟩ := (sound.coroutine x there).resolve_left plain
          have listed := registered.called p x kind class_ (.inr (.inr waits))
          rw [unawaited] at listed
          cases listed
        · exact self.symm
      · exact self
    subst self
    rw [same x (fun here => here ▸ present), advance_task, if_pos rfl]
    exact kept.step (.inl begun) ⟨rfl, rfl, rfl, rfl⟩ (fun _ => ⟨open_, fun _ => id⟩) (by simp)

theorem Registered.resume (registered : s.Registered) (sound : s.handles.Sound)
    (next : (s.schedulers sch).cachedStates = n :: rest) :
    ((s.advance sch rest).resume sch n).Registered := by
  have others : ∀ y, y ≠ n → (s.advance sch rest).task y = s.task y :=
    fun y out => advance_task_of_ne next out
  have setState_others : ∀ st y, y ≠ n →
      ((s.advance sch rest).setState n st).task y = s.task y := by
    intro st y out
    rw [← others y out]
    simp [task, setState, out]
  have same_finished : (s.advance sch rest |>.task n).finished = (s.task n).finished := by
    rw [advance_task]
    rfl
  by_cases generator : s.classes n = .generator
  · obtain ⟨-, -, unfinal, present⟩ := sound.generator n generator
    cases held : (s.states n).coro with
    | none =>
        rw [resume_generator_none (s.advance sch rest) sch n generator held]
        exact registered.tagStep (t := s.advance sch rest) (x := s.progress n) sound next rfl rfl rfl
          rfl others rfl (.inl rfl) (fun _ => same_finished ▸ id) fun _ => unfinal
    | some p =>
        rw [resume_generator_some (s.advance sch rest) sch n generator held]
        obtain ⟨rfl, alive⟩ := sound.generator_slot n p generator held
        have handles := wake_handles (s := s.advance sch rest) sch p p
        have histories : ((s.advance sch rest).wake sch p p).awaits = s.awaits ∧
            ((s.advance sch rest).wake sch p p).moves = s.moves := by
          unfold Runtime.wake arrive
          dsimp only
          split <;> split <;> exact ⟨rfl, rfl⟩
        refine registered.tagStep (t := (s.advance sch rest).wake sch p p) (x := .running) sound next
          (congrArg Handles.classes handles) (congrArg Handles.created handles) histories.1
          histories.2 ?_ ?_ (.inr ⟨present, rfl⟩) ?_ (by simp)
        · intro y out
          rw [wake_task, if_neg out, ← others y out]
          rfl
        · rw [wake_task, if_pos rfl]
        · intro _ _
          rw [TaskView.finished_of_generator generator]
          exact beq_eq_false_iff_ne.2 alive
  by_cases waiter : s.classes n = .waiter
  · have absent := waiter_absent sound (.inl waiter)
    have advanced : (s.advance sch rest).states n = s.states n := rfl
    cases held : (s.states n).coro with
    | none =>
        rw [resume_waiter_none (s.advance sch rest) sch n waiter advanced held]
        refine registered.tagStep
          (t := (s.advance sch rest).setState n { s.states n with coro := none })
          (x := s.progress n) sound next rfl rfl rfl rfl (setState_others _) ?_ (.inl rfl)
          (fun present => absurd absent present) (fun present => absurd absent present)
        simp [task, setState, advance, held]
    | some p =>
        rw [resume_waiter_some (s.advance sch rest) sch n waiter advanced held]
        refine registered.wakeStep sound next generator held rfl rfl rfl rfl rfl ?_
        intro x here
        have out : x ≠ n := fun self => here self absent
        cases owner : (s.states n).scheduler <;>
          simp [task, setState, advance, out, Schedulers.ready_delFinal _ _ _ _ _ (Ne.symm out)]
  obtain ⟨-, same⟩ := resume_future (s.advance sch rest) sch n generator waiter
  rw [same]
  change Registered (((s.advance sch rest).setState n (s.states n).resume.2).continueWith sch n
    (s.states n).resume.1)
  rcases resume_cases (s.states n) with ⟨tag, result⟩ | ⟨p, later, held, result⟩ |
    ⟨tag, held, result⟩ | ⟨tag, held, result⟩ <;> rw [result]
  · have initial : s.progress n = .initial := (sound.initial n generator).1 tag
    refine registered.tagStep (x := .running) sound next rfl rfl rfl rfl ?_ ?_
      (.inr ⟨by simp [initial], rfl⟩) ?_ (by simp)
    · intro y out
      rw [← setState_others { s.states n with isInitor := .none } y out]
      simp [task, continueWith, setState, setProgress, setBusy, out]
    · simp [task, continueWith, setState, setProgress, setBusy, advance]
    · exact fun _ _ => TaskView.finished_eq_false (by simp [task, initial, Progress.ended])
  · refine registered.wakeStep (u := (s.advance sch rest).setState n { s.states n with coro := none })
      sound next generator held rfl rfl rfl rfl rfl ?_
    intro x _
    by_cases here : x = n <;> simp [task, setState, here, advance]
  · have final : s.progress n = .final := (sound.final n generator).1 tag
    refine registered.tagStep (x := .destroyed) sound next rfl rfl rfl rfl ?_ ?_
      (.inr ⟨by simp [final], rfl⟩) ?_ (by simp)
    · intro y out
      rw [← setState_others { s.states n with isInitor := .none } y out]
      simp [task, continueWith, setState, setProgress, destroy, out]
    · simp [task, continueWith, setState, setProgress, destroy, advance]
    · intro _ open_
      rw [TaskView.finished_of_destroyed (by simp [task, continueWith, setProgress, destroy])] at open_
      cases open_
  · have unfinal : s.progress n ≠ .final := by
      intro final
      have tagged : (s.states n).isInitor = .final := (sound.final n generator).2 final
      rw [tag] at tagged
      cases tagged
    refine registered.tagStep (t := (s.advance sch rest).setState n (s.states n))
      (x := s.progress n) sound next rfl rfl rfl rfl (setState_others _) ?_ (.inl rfl) ?_
      (fun _ => unfinal)
    · simp [task, setState, advance]
    · intro _ open_
      rw [← same_finished, ← open_]
      simp [task, setState, advance]

end Resume

theorem Registered.body (registered : s.Registered) (sound : s.handles.Sound) {sch p : Nat}
    {action : BodyAction α ε} (h : s.body sch p action = some t) : t.Registered := by
  have born : (s.progress p).active = true → p < s.created := fun active => sound.of_active active
  have created : ∀ {m kind}, s.classes m = .future kind → m < s.created := by
    intro m kind class_
    by_contra new
    have unborn : s.classes m = .waiter := (sound.fresh m (Nat.le_of_not_lt new)).2
    rw [class_] at unborn
    cases unborn
  rcases body_cases h with ⟨m, kind, kind', -, now, class_p, class_m, rfl⟩ | ⟨m, -, now, rfl⟩ |
    ⟨m, -, now, rfl⟩ | ⟨kind, -, now, class_p, rfl⟩ | ⟨kind, -, now, class_p, rfl⟩ |
    ⟨target, kind, -, now, class_p, rfl⟩ | ⟨v, -, now, rfl⟩ | ⟨v, -, now, rfl⟩ |
    ⟨e, -, now, class_p, rfl⟩ | ⟨-, now, done⟩
  · exact registered.beginAwait now ⟨created class_p, created class_m⟩
  · exact registered.testReady now (born (by simp [now, Progress.active]))
  · obtain ⟨kind, class_m⟩ := sound.target p m (.inr now)
    exact registered.suspendAwait class_m now
      ⟨born (by simp [now, Progress.active]), created class_m⟩
  · exact registered.pause sound now (created class_p)
  · exact registered.park sound now (created class_p)
  · exact registered.via sound target now (created class_p)
  · exact registered.yieldValue v now (born (by simp [now, Progress.active]))
  · exact registered.finish (.value v) (.inl now) (born (by simp [now, Progress.active]))
  · refine registered.finish (.exception e) now (born ?_)
    rcases now with now | now <;> simp [now, Progress.active]
  · refine registered.finalSuspend now (born ?_) done
    rcases now with now | now <;> simp [now, Progress.active]

theorem Registered.step (registered : s.Registered) (sound : s.handles.Sound)
    {action : RuntimeAction α ε} (h : s.step action = some t) : t.Registered := by
  rcases step_cases h with ⟨kind, -, rfl⟩ | ⟨-, rfl⟩ | ⟨kind, -, rfl⟩ | ⟨sch, n, -, born, -, rfl⟩ |
    ⟨n, o, kind, -, class_n, awaitable, rfl⟩ | ⟨w, sch, -, class_w, own, rfl⟩ |
    ⟨sch, -, empty, -, rfl⟩ | ⟨sch, n, rest, -, -, next, rfl⟩ | ⟨sch, p, next, -, -, action⟩
  · exact registered.add (.inr rfl) fun _ _ => rfl
  · exact registered.add (.inr rfl) fun _ plain => absurd rfl plain
  · exact registered.add (.inl rfl) fun present => absurd rfl present
  · exact registered.newTask sch born
  · exact registered.complete sound o class_n awaitable _
  · exact registered.notify sound class_w own
  · exact registered.swap sch empty
  · exact registered.resume sound next
  · exact registered.body sound action

theorem initial_registered : ({} : Runtime α ε).Registered := by
  constructor
  · exact fun n present => absurd rfl present
  · exact fun p n kind class_ => by cases class_
  · rintro p n (waiting | waiting | waiting) <;> cases waiting
  · exact fun n _ _ => ⟨rfl, rfl, fun _ => rfl⟩

theorem registered_of_reachable {allowed : Runtime α ε → RuntimeAction α ε → Prop}
    (reachable : (system α ε).ReachableBy allowed s) : s.Registered := by
  have inductive_ : (system α ε).Inductive allowed Registered := by
    constructor
    · exact initial_registered
    · intro s e t reached registered _ h
      exact registered.step (sound_of_reachable reached) h
  exact inductive_.holds reachable

end Runtime

end Librf
