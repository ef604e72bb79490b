import Librf.Runtime.Chains
import Librf.Runtime.Once
import Librf.Runtime.Registered

/-!
# The forest of awaits in every run

Any number of schedulers, each with its thread; coroutines move between them by `via`.
-/

namespace Librf

namespace Runtime

variable {α ε : Type*} {s t : Runtime α ε}

/-- Each coroutine of a `future_t` is started by `go` once or awaited once before it was started. -/
def Chained (s : Runtime α ε) : RuntimeAction α ε → Prop
  | .go _ n => s.IsCoroutine n → s.Unused n
  | .body _ (.transform m) => s.IsCoroutine m → s.Unused m
  | _ => True

instance (s : Runtime α ε) (action : RuntimeAction α ε) : Decidable (Chained s action) :=
  match action with
  | .newCoroutine _ | .newGenerator | .newAwaitable _ | .complete _ _ | .notify _ | .swap _
  | .resume _ => isTrue trivial
  | .go _ n => inferInstanceAs (Decidable (s.IsCoroutine n → s.Unused n))
  | .body _ action => match action with
    | .transform m => inferInstanceAs (Decidable (s.IsCoroutine m → s.Unused m))
    | .yieldValue _ | .via _ | .test | .suspend | .pause | .park | .finish _ | .finalSuspend =>
        isTrue trivial

structure Linked (s : Runtime α ε) : Prop where
  forest : Forest s.task
  blank : ∀ n, s.created ≤ n → (s.task n).Blank

structure Linked.Next (s t : Runtime α ε) : Prop where
  forest : Forest.Next s.task t.task
  blank : ∀ n, t.created ≤ n → (t.task n).Blank

theorem Linked.Next.linked (next : Linked.Next s t) : t.Linked := ⟨next.forest.forest, next.blank⟩

theorem tasks_of_ne {n : Nat} (same : ∀ x, x ≠ n → t.task x = s.task x) :
    t.task = Function.update s.task n (t.task n) := by
  funext x
  by_cases here : x = n
  · subst here
    rw [Function.update_self]
  · rw [same x here, Function.update_of_ne here]

/-! ## What is known of handles -/

theorem class_ne_generator {n : Nat} (coroutine : s.IsCoroutine n) : s.classes n ≠ .generator := by
  obtain ⟨⟨kind, class_⟩, -⟩ := coroutine
  rw [class_]
  simp

theorem suspended_of_sound (sound : s.handles.Sound) : Suspended s.task := by
  intro m q coroutine coro other
  rcases sound.slot m q (class_ne_generator coroutine) coro with waits | ⟨self, -⟩
  · exact waits
  · exact absurd self other

theorem unheld_of_sound (sound : s.handles.Sound) {n : Nat} (outside : ∀ m, s.progress n ≠ .awaiting m)
    (own : s.IsCoroutine n → s.progress n ≠ .yielded) :
    ∀ m, (s.task m).IsCoroutine → (s.task m).coro ≠ some n := by
  intro m coroutine coro
  rcases sound.slot m n (class_ne_generator coroutine) coro with waits | ⟨rfl, yields⟩
  · exact outside m waits
  · exact own coroutine yields

theorem inAwait_eq_false (sound : s.handles.Sound) {n : Nat} (other : ¬ s.IsCoroutine n) :
    (s.progress n).inAwait = false := by
  by_contra inAwait
  exact other (coroutine_of_inAwait sound (Bool.eq_true_of_not_eq_false inAwait))

theorem Linked.other (linked : s.Linked) (sound : s.handles.Sound) {n : Nat}
    (before : ¬ s.IsCoroutine n) (after : ¬ t.IsCoroutine n)
    (outside : (t.progress n).inAwait = false) (same : ∀ x, x ≠ n → t.task x = s.task x) :
    Forest.Next s.task t.task := by
  have idle := inAwait_eq_false sound before
  rw [tasks_of_ne same]
  refine linked.forest.other (r := t.task n) before after outside (unheld_of_sound sound ?_ ?_)
  · intro m waits
    rw [waits] at idle
    cases idle
  · exact fun coroutine => absurd coroutine before

theorem absent_of_new (sound : s.handles.Sound) : ¬ s.IsCoroutine s.created :=
  fun coroutine => coroutine.2 (sound.fresh _ (Nat.le_refl _)).1

theorem lt_of_coroutine (sound : s.handles.Sound) {n : Nat} (coroutine : s.IsCoroutine n) :
    n < s.created := by
  by_contra new
  exact coroutine.2 (sound.fresh n (Nat.le_of_not_lt new)).1

/-! ## Bodies -/

section Body

variable {sch p m : Nat}

theorem Linked.running (linked : s.Linked) (coroutine : s.IsCoroutine p)
    (now : s.progress p = .running) : ∃ home, (s.states p).scheduler = some home ∧
      s.getScheduler p = some home := by
  have inBody : (s.task p).progress.inBody = true := by
    change (s.progress p).inBody = true
    rw [now]
    rfl
  obtain ⟨home, own⟩ := (linked.forest.role p coroutine).scheduler_of_inBody inBody
  exact ⟨home, own, getScheduler_of_some own⟩

theorem Linked.beginAwait (linked : s.Linked) (sound : s.handles.Sound)
    (coroutine : s.IsCoroutine p) (now : s.progress p = .running)
    (unused : s.IsCoroutine m → s.Unused m) : Forest.Next s.task (s.beginAwait p m).task := by
  have forest := linked.forest
  have inBody : (s.task p).progress.inBody = true := by
    change (s.progress p).inBody = true
    rw [now]
    rfl
  have other : m ≠ p := by
    rintro rfl
    obtain ⟨goes, awaits⟩ := unused coroutine
    have role := forest.role m coroutine
    have initial : s.progress m = .initial := (role.of_unused goes awaits).1
    cases now.symm.trans initial
  obtain ⟨home, own, scheduler⟩ := linked.running coroutine now
  let called : TaskView := { s.task m with scheduler := some home, awaits := s.awaits m ++ [p] }
  have tasks : (s.beginAwait p m).task = Function.update (Function.update s.task m called) p
      { s.task p with progress := .transformed m } := by
    funext x
    by_cases self : x = p
    · subst self
      rw [Function.update_self, beginAwait_task_self other]
    · rw [Function.update_of_ne self]
      by_cases target : x = m
      · subst target
        rw [Function.update_self, beginAwait_task_target other, scheduler]
      · rw [Function.update_of_ne target, beginAwait_task_of_ne self target]
  have same : Function.update s.task m called p = s.task p := Function.update_of_ne other.symm ..
  have before : Forest.Next s.task (Function.update s.task m called) := by
    by_cases target : s.IsCoroutine m
    · obtain ⟨goes, awaits⟩ := unused target
      obtain ⟨initial, coro, parent, call, -⟩ := (forest.role m target).of_unused goes awaits
      have role : Role m called := by
        simpa [called, awaits] using call p home other.symm
      apply forest.initial role (fun _ => initial) initial
      · intro q waits
        have listed : s.awaits m = [q] := (forest.called q m target waits).awaits
        rw [awaits] at listed
        cases listed
      · intro q held
        cases coro.symm.trans held
      · have initial : s.progress m = .initial := initial
        exact unheld_of_sound sound (by simp [initial]) (by simp [initial])
      · intro q up
        cases parent.symm.trans up
    · have idle := inAwait_eq_false sound target
      refine forest.other (r := called) target target idle (unheld_of_sound sound ?_ ?_)
      · intro q waits
        rw [waits] at idle
        cases idle
      · exact fun here => absurd here target
  rw [tasks, ← same]
  refine before.trans (before.forest.walk ?_ ?_ ?_ ?_)
  · rw [same]
    exact coroutine
  · rw [same]
    exact inBody
  · rfl
  · intro m' waits
    obtain rfl : m = m' := by simpa using waits
    refine ⟨other, fun target => ?_⟩
    rw [Function.update_self] at target ⊢
    obtain ⟨goes, awaits⟩ := unused target
    obtain ⟨initial, coro, -⟩ := (forest.role m target).of_unused goes awaits
    exact ⟨initial, coro, by simp [called, awaits]⟩

theorem Linked.testReady (linked : s.Linked) (coroutine : s.IsCoroutine p)
    (now : s.progress p = .transformed m) : Forest.Next s.task (s.testReady p m).task := by
  have inBody : (s.task p).progress.inBody = true := by
    change (s.progress p).inBody = true
    rw [now]
    rfl
  have called := fun target => linked.forest.called p m target (.inl now)
  have other : m ≠ p := by
    rintro rfl
    have initial : s.progress m = .initial := (called coroutine).progress
    cases now.symm.trans initial
  have read : (s.readResult m).task = s.task := funext fun n => readResult_task m n
  unfold Runtime.testReady
  split
  · rw [setProgress_tasks, read]
    apply linked.forest.walk coroutine inBody rfl
    simp
  · rw [setProgress_tasks]
    apply linked.forest.walk coroutine inBody rfl
    intro m' waits
    obtain rfl : m = m' := by simpa using waits
    exact ⟨other, called⟩

theorem suspendAwait_tasks (other : m ≠ p) : (s.suspendAwait sch p m).task =
    Function.update (Function.update s.task p { s.task p with progress := .awaiting m }) m
      ((s.suspendAwait sch p m).task m) := by
  funext x
  by_cases target : x = m
  · subst target
    rw [Function.update_self]
  · rw [Function.update_of_ne target]
    by_cases self : x = p
    · subst self
      rw [Function.update_self, suspendAwait_task_self other]
    · rw [Function.update_of_ne self, suspendAwait_task_of_ne self target]

theorem suspendAwait_task_target {home : Nat} (other : m ≠ p) (scheduler : s.getScheduler p = some home)
    (isFuture : (s.states m).isFuture = true) (coro : (s.states m).coro = none) :
    (s.suspendAwait sch p m).task m = { s.task m with
      scheduler := some home, coro := some p, parent := some p
      entries := fun y => s.schedulers.entries y m + if y = home then 1 else 0 } := by
  simp [task, suspendAwait, update, setState, setProgress, setBusy, other, scheduler, coro, isFuture,
    FutureState.futureAwaitSuspend, FutureState.isReady, Schedulers.call,
    Schedulers.entries_addGenerator, eq_comm, other.symm]

theorem Linked.suspendAwait (linked : s.Linked) (sound : s.handles.Sound)
    (coroutine : s.IsCoroutine p) (now : s.progress p = .unready m) :
    Forest.Next s.task (s.suspendAwait sch p m).task := by
  have forest := linked.forest
  have inBody : (s.task p).progress.inBody = true := by
    change (s.progress p).inBody = true
    rw [now]
    rfl
  have called := fun target => forest.called p m target (.inr now)
  have other : m ≠ p := by
    rintro rfl
    have initial : s.progress m = .initial := (called coroutine).progress
    cases now.symm.trans initial
  obtain ⟨home, own⟩ := (forest.role p coroutine).scheduler_of_inBody inBody
  have scheduler : s.getScheduler p = some home := getScheduler_of_some own
  have before : Forest.Next s.task
      (Function.update s.task p { s.task p with progress := .awaiting m }) := by
    apply forest.walk coroutine inBody rfl
    simp
  have same : Function.update s.task p { s.task p with progress := .awaiting m } m = s.task m :=
    Function.update_of_ne other ..
  rw [suspendAwait_tasks other]
  by_cases target : s.IsCoroutine m
  · have role := forest.role m target
    obtain ⟨initial, coro, awaits⟩ := called target
    rw [suspendAwait_task_target other scheduler role.isFuture coro]
    refine before.trans (before.forest.initial (role.queue (called target) home).2
      (fun _ => same ▸ initial) initial ?_ ?_ ?_ ?_)
    · intro q waits
      by_cases self : q = p
      · subst self
        rw [Function.update_self] at waits
        simp at waits
      · rw [Function.update_of_ne self] at waits
        have listed := (forest.called q m target waits).awaits
        rw [awaits] at listed
        cases listed
        exact self rfl
    · intro q held _
      cases held
      rw [Function.update_self]
      exact own.symm
    · intro q here
      have initial : s.progress m = .initial := initial
      by_cases self : q = p
      · subst self
        rw [Function.update_self]
        exact unheld_of_sound sound (by simp [initial]) (by simp [initial]) q coroutine
      · rw [Function.update_of_ne self] at here ⊢
        exact unheld_of_sound sound (by simp [initial]) (by simp [initial]) q here
    · intro q up
      cases up
      rw [Function.update_self]
      exact ⟨other.symm, ⟨coroutine.1, by simp⟩, by simp⟩
  · have idle := inAwait_eq_false sound target
    have after : ¬ (s.suspendAwait sch p m).IsCoroutine m := by
      rintro ⟨class_, present⟩
      exact target ⟨class_, fun absent => present ((Function.update_of_ne other ..).trans absent)⟩
    have progress : (s.suspendAwait sch p m).progress m = s.progress m :=
      Function.update_of_ne other ..
    refine before.trans
      (before.forest.other (r := (s.suspendAwait sch p m).task m) ?_ after ?_ ?_)
    · rw [same]
      exact target
    · change ((s.suspendAwait sch p m).progress m).inAwait = false
      rw [progress]
      exact idle
    · intro q here
      have unheld := unheld_of_sound sound (n := m) (fun q waits => by
        rw [waits] at idle
        cases idle) fun here => absurd here target
      by_cases self : q = p
      · subst self
        rw [Function.update_self]
        exact unheld q coroutine
      · rw [Function.update_of_ne self] at here ⊢
        exact unheld q here

theorem Linked.wait (linked : s.Linked) (sound : s.handles.Sound) (coroutine : s.IsCoroutine p)
    (now : s.progress p = .running) (absent : t.progress s.created = .absent)
    (self : t.task p = { s.task p with progress := .awaiting s.created })
    (same : ∀ x, x ≠ p → x ≠ s.created → t.task x = s.task x) : Forest.Next s.task t.task := by
  have inBody : (s.task p).progress.inBody = true := by
    change (s.progress p).inBody = true
    rw [now]
    rfl
  have new := absent_of_new sound
  have other : s.created ≠ p := by
    rintro rfl
    exact new coroutine
  have before : Forest.Next s.task
      (Function.update s.task p { s.task p with progress := .awaiting s.created }) := by
    apply linked.forest.walk coroutine inBody rfl
    simp
  have tasks : t.task = Function.update
      (Function.update s.task p { s.task p with progress := .awaiting s.created }) s.created
      (t.task s.created) := by
    funext x
    by_cases here : x = s.created
    · subst here
      rw [Function.update_self]
    · rw [Function.update_of_ne here]
      by_cases on : x = p
      · subst on
        rw [Function.update_self, self]
      · rw [Function.update_of_ne on, same x on here]
  have unborn : s.progress s.created = .absent := (sound.fresh _ (Nat.le_refl _)).1
  rw [tasks]
  refine before.trans
    (before.forest.other (r := t.task s.created) ?_ (fun here => here.2 absent) ?_ ?_)
  · rw [Function.update_of_ne other]
    exact new
  · change (t.progress s.created).inAwait = false
    rw [absent]
    rfl
  · intro q here
    have unheld := unheld_of_sound sound (n := s.created) (by simp [unborn])
      fun here => absurd here new
    by_cases on : q = p
    · subst on
      rw [Function.update_self]
      exact unheld q coroutine
    · rw [Function.update_of_ne on] at here ⊢
      exact unheld q here

theorem Linked.pause (linked : s.Linked) (sound : s.handles.Sound) (coroutine : s.IsCoroutine p)
    (now : s.progress p = .running) : Forest.Next s.task (s.pause sch p).task := by
  have born := lt_of_coroutine sound coroutine
  have unborn : s.progress s.created = .absent := (sound.fresh _ (Nat.le_refl _)).1
  refine linked.wait (t := s.pause sch p) sound coroutine now ?_
    (pause_task_self (Nat.ne_of_lt born)) fun _ => pause_task_of_ne
  exact (Function.update_of_ne (Nat.ne_of_gt born) ..).trans unborn

theorem Linked.park (linked : s.Linked) (sound : s.handles.Sound) (coroutine : s.IsCoroutine p)
    (now : s.progress p = .running) : Forest.Next s.task (s.park sch p).task := by
  have born := lt_of_coroutine sound coroutine
  have unborn : s.progress s.created = .absent := (sound.fresh _ (Nat.le_refl _)).1
  refine linked.wait (t := s.park sch p) sound coroutine now ?_
    (park_task_self (Nat.ne_of_lt born)) fun _ => park_task_of_ne
  exact (Function.update_of_ne (Nat.ne_of_gt born) ..).trans unborn

theorem Linked.leave (linked : s.Linked) (coroutine : s.IsCoroutine p)
    (begun : s.progress p ≠ .initial) (role : Role p (t.task p)) (classes : t.classes = s.classes)
    (left : (t.progress p).left = true) (scheduler : (t.task p).scheduler = (s.task p).scheduler)
    (coro : ∀ q, (t.states p).coro = some q → q ≠ p → (s.states p).coro = some q)
    (parent : (t.task p).parent = (s.task p).parent) (same : ∀ x, x ≠ p → t.task x = s.task x) :
    Forest.Next s.task t.task := by
  have away : ∀ x : Progress, x.left = true → x ≠ .absent ∧ x ≠ .initial ∧
      ∀ m, ¬ (x = .transformed m ∨ x = .unready m) := by
    intro x left
    cases x <;> simp_all [Progress.left, Progress.ended]
  obtain ⟨present, begun', passed⟩ := away _ left
  rw [tasks_of_ne same]
  refine linked.forest.stay coroutine begun role ⟨?_, present⟩ begun' scheduler coro parent ?_
  · obtain ⟨kind, class_⟩ := coroutine.1
    exact ⟨kind, (congrFun classes p).trans class_⟩
  · exact fun m waits => absurd waits (passed m)

theorem yieldValue_task_self (plain : s.classes p ≠ .generator) (v : α) :
    (s.yieldValue sch p v).task p = { s.task p with
      progress := .yielded, coro := (s.states p).coro.or (some p)
      entries := ((s.yieldValue sch p v).task p).entries } := by
  have updated : s.yieldValue sch p v = ((s.update p ((s.states p).promiseYieldValue (s.kind p) v p
      (s.rootScheduler p))).setProgress p .yielded).setBusy sch none := by
    unfold yieldValue
    split
    · exact absurd ‹_› plain
    · rfl
  have ready : ∀ y, (s.yieldValue sch p v).schedulers.ready y p = s.schedulers.ready y p := by
    intro y
    rw [updated]
    simp only [update, setProgress, setBusy, Schedulers.ready_setBusy,
      FutureState.promiseYieldValue_calls]
    split <;> simp [Schedulers.call]
  simp only [task, ready]
  rw [updated]
  simp [update, setState, setProgress, setBusy, FutureState.promiseYieldValue_state]

theorem Linked.yieldValue (linked : s.Linked) (sound : s.handles.Sound) (v : α)
    (now : s.progress p = .running) : Forest.Next s.task (s.yieldValue sch p v).task := by
  have class_ : (s.yieldValue sch p v).classes = s.classes := by
    unfold Runtime.yieldValue
    split <;> rfl
  have progress : (s.yieldValue sch p v).progress p = .yielded := by
    unfold Runtime.yieldValue
    split <;> simp [setProgress, setBusy]
  by_cases coroutine : s.IsCoroutine p
  · have self : (s.yieldValue sch p v).task p = _ :=
      yieldValue_task_self (class_ne_generator coroutine) v
    refine linked.leave (t := s.yieldValue sch p v) coroutine (by simp [now]) ?_ class_
      (by rw [progress]; rfl) ?_ ?_ ?_ fun x out => yieldValue_task_of_ne out v
    · rw [self]
      exact (linked.forest.role p coroutine).yield now _
    · rw [self]
    · intro q held other
      have held : ((s.yieldValue sch p v).task p).coro = some q := held
      rw [self] at held
      cases coro : (s.states p).coro with
      | none =>
          simp only [coro, Option.none_or, Option.some.injEq] at held
          exact absurd held.symm other
      | some c => simpa [coro] using held
    · rw [self]
  · refine linked.other (t := s.yieldValue sch p v) sound coroutine ?_ (by rw [progress]; rfl)
      fun x out => yieldValue_task_of_ne out v
    rintro ⟨⟨kind, future⟩, -⟩
    rw [class_] at future
    exact coroutine ⟨⟨kind, future⟩, by simp [now]⟩

theorem afterFinish_ended (o : Outcome α ε) : (afterFinish o).ended = true := by
  cases o <;> rfl

theorem Linked.finish (linked : s.Linked) (sound : s.handles.Sound) (o : Outcome α ε)
    (now : s.progress p = .running ∨ s.progress p = .returned) : Forest.Next s.task (s.finish p o).task := by
  have begun : s.progress p ≠ .initial := by rcases now with now | now <;> simp [now]
  have present : s.progress p ≠ .absent := by rcases now with now | now <;> simp [now]
  have class_ : (s.finish p o).classes = s.classes := by
    unfold Runtime.finish
    split <;> rfl
  have progress : (s.finish p o).progress p = afterFinish o := by
    unfold Runtime.finish
    split <;> simp [setProgress]
  by_cases coroutine : s.IsCoroutine p
  · have updated : s.finish p o = (s.update p ((s.states p).complete (s.kind p) o
        (s.rootScheduler p))).setProgress p (afterFinish o) := by
      unfold Runtime.finish
      split
      · exact absurd ‹_› (class_ne_generator coroutine)
      · rfl
    have self : (s.finish p o).task p = { s.task p with
        progress := afterFinish o, entries := ((s.finish p o).task p).entries
        ready := ((s.finish p o).task p).ready } := by
      simp only [task]
      rw [updated]
      simp [update, setState, setProgress, FutureState.complete_state]
    refine linked.leave (t := s.finish p o) coroutine begun ?_ class_
      (by rw [progress, Progress.left, afterFinish_ended]; rfl) ?_ ?_ ?_
      fun x out => finish_task_of_ne out o
    · rw [self]
      exact (linked.forest.role p coroutine).leave begun (afterFinish_ended o) _ _
    · rw [self]
    · intro q held _
      have held : ((s.finish p o).task p).coro = some q := held
      rw [self] at held
      exact held
    · rw [self]
  · refine linked.other (t := s.finish p o) sound coroutine ?_ ?_ fun x out => finish_task_of_ne out o
    · rintro ⟨⟨kind, future⟩, -⟩
      rw [class_] at future
      exact coroutine ⟨⟨kind, future⟩, present⟩
    · rw [progress]
      cases o <;> rfl

theorem finalSuspend_eq (plain : s.classes p ≠ .generator) (done : s.finalSuspend sch p = .ok t) :
    ∃ updated : FutureState α ε × List Call, updated.1 = { s.states p with isInitor := .final } ∧
      t = ((s.update p updated).setProgress p .final).setBusy sch none := by
  unfold finalSuspend at done
  split at done
  · exact absurd ‹_› plain
  · cases suspended : (s.states p).promiseFinalSuspend (s.rootScheduler p) with
    | error fault => simp [suspended, bind, Except.bind] at done
    | ok updated =>
        simp only [suspended, bind, Except.bind, Except.ok.injEq] at done
        exact ⟨updated, FutureState.promiseFinalSuspend_state suspended, done.symm⟩

theorem Linked.finalSuspend (linked : s.Linked) (sound : s.handles.Sound)
    (now : s.progress p = .returned ∨ s.progress p = .failed)
    (done : s.finalSuspend sch p = .ok t) : Forest.Next s.task t.task := by
  have begun : s.progress p ≠ .initial := by rcases now with now | now <;> simp [now]
  have present : s.progress p ≠ .absent := by rcases now with now | now <;> simp [now]
  have same := fun x out => finalSuspend_task_of_ne (s := s) (t := t) (n := x) out done
  by_cases coroutine : s.IsCoroutine p
  · obtain ⟨updated, state, rfl⟩ := finalSuspend_eq (class_ne_generator coroutine) done
    generalize next : ((s.update p updated).setProgress p .final).setBusy sch none = t at same ⊢
    have progress : t.progress p = .final := by
      rw [← next]
      simp [setProgress, setBusy]
    have self : t.task p = { s.task p with
        progress := .final, entries := (t.task p).entries, ready := (t.task p).ready } := by
      rw [← next]
      simp [task, update, setState, setProgress, setBusy, state]
    refine linked.leave coroutine begun ?_ (by rw [← next]; rfl) (by rw [progress]; rfl) ?_ ?_ ?_ same
    · rw [self]
      exact (linked.forest.role p coroutine).leave begun rfl _ _
    · rw [self]
    · intro q held _
      have held : (t.task p).coro = some q := held
      rw [self] at held
      exact held
    · rw [self]
  · have generator : s.classes p = .generator := by
      by_contra plain
      exact coroutine ⟨(sound.coroutine p present).resolve_left plain, present⟩
    rcases finalSuspend_handles done with ⟨-, handles⟩ | ⟨plain, -⟩
    · have class_ := congrFun (congrArg Handles.classes handles) p
      have progress : t.progress p = .destroyed :=
        (congrFun (congrArg Handles.progress handles) p).trans (Function.update_self ..)
      refine linked.other sound coroutine ?_ (by rw [progress]; rfl) same
      rintro ⟨⟨kind, future⟩, -⟩
      cases (future.symm.trans class_).trans generator
    · exact absurd generator plain

end Body

/-! ## Other steps -/

theorem add_task_self (cls : StateClass) (st : FutureState α ε) (progress : Progress) :
    (s.add cls st progress).task s.created = { s.task s.created with
      cls, progress, scheduler := st.scheduler, coro := st.coro, parent := st.parent
      isFuture := st.isFuture } := by
  simp [task, add, setState, setProgress]

theorem Linked.newCoroutine (linked : s.Linked) (sound : s.handles.Sound) (kind : Kind) :
    Forest.Next s.task (s.add (.future kind) (FutureState.promiseInitialSuspend { isFuture := true })
      .initial).task := by
  obtain ⟨-, goes, awaits, entries, ready⟩ := linked.blank s.created (Nat.le_refl _)
  obtain ⟨absent, unborn⟩ := sound.fresh s.created (Nat.le_refl _)
  have absent : s.progress s.created = .absent := absent
  have unborn : s.classes s.created = .waiter := unborn
  rw [tasks_of_ne (t := s.add _ _ _) (n := s.created) fun x old => add_task_of_ne old _ _ _,
    add_task_self]
  have entries : (s.task s.created).entries = fun _ => 0 := funext entries
  have ready : (s.task s.created).ready = fun _ => false := funext ready
  refine linked.forest.initial ?_ (fun here => absurd here (absent_of_new sound)) rfl ?_ ?_
    (unheld_of_sound sound (by simp [absent]) (by simp [absent])) ?_
  · dsimp only
    rw [goes, awaits, entries, ready]
    exact .fresh _ _ _
  · intro q waits
    obtain ⟨kind', class_⟩ := sound.target q s.created waits
    have class_ : s.classes s.created = .future kind' := class_
    cases class_.symm.trans unborn
  · intro q held
    cases held
  · intro q up
    cases up

theorem Linked.add (linked : s.Linked) (sound : s.handles.Sound) {cls : StateClass}
    {st : FutureState α ε} {progress : Progress} (outside : progress.inAwait = false)
    (plain : progress = .absent ∨ ∀ kind, cls ≠ .future kind) :
    Forest.Next s.task (s.add cls st progress).task := by
  have progress_self : (s.add cls st progress).progress s.created = progress :=
    Function.update_self ..
  have class_self : (s.add cls st progress).classes s.created = cls := Function.update_self ..
  refine linked.other (t := s.add cls st progress) sound (absent_of_new sound) ?_
    (by rw [progress_self]; exact outside) fun x old => add_task_of_ne old _ _ _
  rintro ⟨⟨kind, future⟩, present⟩
  rcases plain with absent | plain
  · exact present (progress_self.trans absent)
  · exact plain kind (class_self.symm.trans future)

theorem newTask_task_self (sch n : Nat) : (s.newTask sch n).task n = { s.task n with
    scheduler := some sch, goes := s.goes n ++ [sch], switched := some sch
    entries := ((s.newTask sch n).task n).entries
    ready := ((s.newTask sch n).task n).ready } := by
  simp [task, newTask, setState]

theorem newTask_ready (sch n y : Nat) : ((s.newTask sch n).task n).ready y =
    (decide (y = sch) || (s.task n).ready y) := by
  have emplaced : (s.schedulers.emplace sch n).ready y n =
      (decide (y = sch) || s.schedulers.ready y n) := by
    by_cases here : y = sch
    · subst here
      simp [Schedulers.ready_emplace_self]
    · simp [Schedulers.ready, Schedulers.emplace, Schedulers.modify, here]
  simp only [task, newTask_schedulers]
  split
  · rw [Schedulers.ready_addGenerator, emplaced]
  · exact emplaced

theorem Linked.newTask (linked : s.Linked) (sound : s.handles.Sound) {n : Nat} (sch : Nat)
    (unused : s.IsCoroutine n → s.Unused n) : Forest.Next s.task (s.newTask sch n).task := by
  have same := fun x out => newTask_task_of_ne (s := s) (n := n) (x := x) out sch
  by_cases coroutine : s.IsCoroutine n
  · obtain ⟨goes, awaits⟩ := unused coroutine
    obtain ⟨initial, coro, parent, -, start⟩ :=
      (linked.forest.role n coroutine).of_unused goes awaits
    rw [tasks_of_ne same, newTask_task_self]
    have initial' : s.progress n = .initial := initial
    refine linked.forest.initial ?_ (fun _ => initial) initial ?_ ?_
      (unheld_of_sound sound (by simp [initial']) (by simp [initial'])) ?_
    · rw [goes]
      exact start sch _ _ (newTask_ready sch n)
    · intro q waits
      have listed : s.awaits n = [q] := (linked.forest.called q n coroutine waits).awaits
      cases awaits.symm.trans listed
    · intro q held
      cases coro.symm.trans held
    · intro q up
      cases parent.symm.trans up
  · exact linked.other (t := s.newTask sch n) sound coroutine coroutine
      (inAwait_eq_false sound coroutine) same

theorem Linked.complete (linked : s.Linked) (sound : s.handles.Sound) {n : Nat} {kind : Kind}
    (o : Outcome α ε) (awaitable : (s.states n).isFuture = false) (root : Option Nat) :
    Forest.Next s.task (s.update n ((s.states n).complete kind o root)).task := by
  have plain : ¬ s.IsCoroutine n := by
    intro coroutine
    have future : (s.states n).isFuture = true := (linked.forest.role n coroutine).isFuture
    cases awaitable.symm.trans future
  exact linked.other (t := s.update n _) sound plain plain (inAwait_eq_false sound plain)
    fun x out => update_task_of_ne out _

theorem Linked.notify (linked : s.Linked) (sound : s.handles.Sound) {w sch : Nat}
    (class_ : s.classes w = .waiter) :
    Forest.Next s.task (task { s with schedulers := s.schedulers.addGenerator sch w }) := by
  have plain : ¬ s.IsCoroutine w := by
    rintro ⟨⟨kind, future⟩, -⟩
    cases class_.symm.trans future
  exact linked.other (t := { s with schedulers := s.schedulers.addGenerator sch w }) sound plain
    plain (inAwait_eq_false sound plain) fun x out => addGenerator_task_of_ne out sch

/-! ## Resuming -/

theorem Linked.resume (linked : s.Linked) (sound : s.handles.Sound) {sch n : Nat} {rest : List Nat}
    (next : (s.schedulers sch).cachedStates = n :: rest) :
    Forest.Next s.task ((s.advance sch rest).resume sch n).task := by
  have forest := linked.forest
  have queued : 0 < (s.task n).entries sch := by
    simp only [task, Schedulers.entries, next, List.cons_append, List.count_cons_self]
    exact Nat.succ_pos _
  have unheld : ∀ {n}, ¬ s.IsCoroutine n → ∀ m, (s.task m).IsCoroutine → (s.task m).coro ≠ some n := by
    intro n plain
    have outside := inAwait_eq_false sound plain
    apply unheld_of_sound sound
    · intro m waits
      rw [waits] at outside
      cases outside
    · exact fun coroutine => absurd coroutine plain
  have calls : s.IsCoroutine n → (s.task n).progress ≠ .initial → ∀ m,
      (s.task n).progress = .transformed m ∨ (s.task n).progress = .unready m →
      m ≠ n ∧ ((s.task m).IsCoroutine → (s.task m).Called n) := by
    intro coroutine begun m waits
    refine ⟨?_, fun target => forest.called n m target waits⟩
    rintro rfl
    exact begun (forest.called m m coroutine waits).progress
  generalize resumed : ((s.advance sch rest).resume sch n).task = v
  cases resumed ▸ resume_tasks sound next with
  | nothing free _ begun =>
      by_cases coroutine : s.IsCoroutine n
      · have begun := begun (class_ne_generator coroutine)
        have role := (forest.role n coroutine).release queued begun
        have same : { (s.task n).pop sch with coro := none } = (s.task n).pop sch := by
          rw [← free]
          rfl
        rw [same] at role
        exact forest.stay coroutine begun role coroutine begun rfl (fun _ held _ => held) rfl
          (calls coroutine begun)
      · exact forest.other (r := (s.task n).pop sch) coroutine coroutine
          (inAwait_eq_false sound coroutine) (unheld coroutine)
  | generator class_ =>
      have plain : ∀ progress, ¬ TaskView.IsCoroutine { (s.task n).pop sch with progress } := by
        rintro progress ⟨⟨kind, future⟩, -⟩
        cases future.symm.trans class_
      have before : ¬ s.IsCoroutine n := by
        rintro ⟨⟨kind, future⟩, -⟩
        cases future.symm.trans class_
      exact forest.other before (plain _) rfl (unheld before)
  | start class_ initial =>
      have initial' : s.progress n = .initial := initial
      have present : s.progress n ≠ .absent := by simp [initial']
      exact forest.start ⟨(sound.coroutine n present).resolve_left class_, present⟩ initial queued
  | destroy class_ final =>
      have final' : s.progress n = .final := final
      have present : s.progress n ≠ .absent := by simp [final']
      have begun : s.progress n ≠ .initial := by simp [final']
      have coroutine : s.IsCoroutine n := ⟨(sound.coroutine n present).resolve_left class_, present⟩
      refine forest.stay coroutine begun ((forest.role n coroutine).leave begun rfl _ _)
        ⟨coroutine.1, by simp⟩ (by simp) rfl (fun _ held _ => held) rfl ?_
      simp
  | wake p ready w class_ begun held unregistered released =>
      have slot : s.progress p = .awaiting n ∨ p = n ∧ s.progress n = .yielded :=
        sound.slot n p class_ held
      have before : Forest.Next s.task w := by
        rw [released]
        by_cases coroutine : s.IsCoroutine n
        · rw [unregistered coroutine.2]
          exact forest.stay coroutine begun ((forest.role n coroutine).release queued begun)
            coroutine begun rfl (fun _ held _ => by cases held) rfl (calls coroutine begun)
        · exact forest.other (r := { (s.task n).pop sch with coro := none, ready }) coroutine
            coroutine (inAwait_eq_false sound coroutine) (unheld coroutine)
      have same : (w p).cls = (s.task p).cls ∧ (w p).progress = (s.task p).progress ∧
          (w p).goes = (s.task p).goes := by
        rw [released]
        by_cases self : p = n
        · subst self
          rw [Function.update_self]
          exact ⟨rfl, rfl, rfl⟩
        · rw [Function.update_of_ne self]
          exact ⟨rfl, rfl, rfl⟩
      obtain ⟨cls, progress, goes⟩ := same
      have still : s.IsCoroutine p → (w p).IsCoroutine := by
        rintro ⟨⟨kind, future⟩, present⟩
        exact ⟨⟨kind, cls.trans future⟩, fun absent => present (progress.symm.trans absent)⟩
      rcases slot with waits | ⟨rfl, yields⟩
      · have waits' : (w p).progress = .awaiting n := progress.trans waits
        refine before.trans (before.forest.walk ?_ ?_ ?_ ?_)
        · exact still (coroutine_of_inAwait sound (by rw [waits]; rfl))
        · exact Progress.inBody_of_awaiting waits'
        · rfl
        · simp
      · have present : s.progress p ≠ .absent := by simp [yields]
        have coroutine : s.IsCoroutine p :=
          ⟨(sound.coroutine p present).resolve_left class_, present⟩
        have yields' : (w p).progress = .yielded := progress.trans yields
        have started : (w p).goes ≠ [] := goes ▸ (forest.role p coroutine).of_own held
        have coroutine' := still coroutine
        refine before.trans (before.forest.stay coroutine' (by simp [yields']) ?_
          ⟨coroutine'.1, by simp⟩ (by simp) rfl (fun _ held _ => held) rfl ?_)
        · exact (before.forest.role p coroutine').goOn started (by rw [yields']; rfl)
        · simp

end Runtime

end Librf
