import Librf.Runtime.Via

/-!
# A chain of awaits is on one scheduler

After each `via` the whole chain is on the scheduler asked for, and so is what its coroutines are
resumed by later.
-/

namespace Librf

namespace Runtime

variable {α ε : Type*} {s t : Runtime α ε} {sch p target : Nat} {l : List Nat}

/-- The one entry in all run queues that `p` is resumed by is of state `w`, in `home`. -/
structure Queued (p w home : Nat) (s : Runtime α ε) : Prop where
  handle : ∀ m, s.resumption m = .wake p ↔ m = w
  entries : ∀ y, s.schedulers.entries y w = if y = home then 1 else 0

/-- `via(target)` of `p` has led from `s` to `t`; `l` is the chain of `p`, under `r`. -/
structure Moved (sch p target r : Nat) (l : List Nat) (s t : Runtime α ε) : Prop where
  reports : ∀ q ∈ l, t.getScheduler q = some target
  registered : ∀ y, r ∈ (t.schedulers y).readyTask ↔ y = target
  others : ∀ m, m ≠ r → ∀ y, m ∈ (t.schedulers y).readyTask ↔ m ∈ (s.schedulers y).readyTask
  elsewhere : ∀ m, m < s.created → m ∉ l → (t.states m).scheduler = (s.states m).scheduler
  switched : t.switched r = some target
  onward : s.getScheduler p = some target → t = s
  suspended : s.getScheduler p ≠ some target →
    (t.schedulers sch).busy = none ∧ t.progress p = .awaiting s.created ∧
      t.Queued p s.created target

structure ViaMoves (s : Runtime α ε) : Prop where
  via : ∀ sch p target t, (s.schedulers sch).busy = some p →
    s.step (.body sch (.via target)) = some t →
    ∃ l r, Chain s.task p l ∧ (∀ l', Chain s.task p l' → l' = l) ∧ l.getLast? = some r ∧
      Moved sch p target r l s t
  -- A child of `q` ends while the chain under `r` is on `home`.
  returns : ∀ sch p q o t l r, (s.schedulers sch).busy = some p → s.progress p = .running →
    Chain s.task p (p :: q :: l) → (q :: l).getLast? = some r →
    s.step (.body sch (.finish o)) = some t →
    ∃ home, s.switched r = some home ∧ t.progress q = .awaiting p ∧ t.Queued q p home

theorem resumption_wake_iff (sound : s.handles.Sound) {w : Nat} (coroutine : s.IsCoroutine p)
    (waits : s.progress p = .awaiting w) (here : s.resumption w = .wake p) (m : Nat) :
    s.resumption m = .wake p ↔ m = w := by
  constructor
  · intro wake
    have held := (of_resumption_wake wake).1
    by_cases generator : s.classes m = .generator
    · obtain ⟨rfl, -⟩ := sound.generator_slot m p generator held
      exact absurd generator (class_ne_generator coroutine)
    · rcases sound.slot m p generator held with waits' | ⟨rfl, yields⟩
      · have waits' : s.progress p = .awaiting m := waits'
        cases waits.symm.trans waits'
        rfl
      · have yields : s.progress p = .yielded := yields
        cases waits.symm.trans yields
  · rintro rfl
    exact here

theorem resumption_of_coro {n : Nat} (class_ : s.classes n ≠ .generator)
    (waits : s.classes n ≠ .waiter) (begun : (s.states n).isInitor ≠ .initial)
    (coro : (s.states n).coro = some p) : s.resumption n = .wake p := by
  rw [(resume_future s 0 n class_ waits).1, FutureState.resume, if_neg begun, coro]

theorem mem_readyTask_iff {y n : Nat} : n ∈ (s.schedulers y).readyTask ↔ (s.task n).ready y = true :=
  decide_eq_true_iff.symm

theorem pause_schedulers (own : (s.states p).scheduler = some target) :
    (s.pause sch p).schedulers =
      (s.schedulers.addGenerator target s.created).setBusy sch none := by
  have scheduler : getScheduler { s with
      classes := Function.update s.classes s.created .passing
      created := s.created + 1 } p = some target := getScheduler_of_some own
  simp only [Runtime.pause, setBusy, setProgress, update, scheduler,
    FutureState.futureAwaitSuspend_calls]
  rfl

theorem Queued.pause (linked : s.Linked) (sound : s.handles.Sound) (coroutine : s.IsCoroutine p)
    (own : (s.states p).scheduler = some target) (active : (s.progress p).active = true) :
    (s.pause sch p).Queued p s.created target := by
  have born := lt_of_coroutine sound coroutine
  have handles := pause_handles (s := s) sch p
  have moves : s.handles.Move (s.pause sch p).handles := by
    rw [handles]
    exact .park p .passing active (class_ne_generator coroutine) (by simp)
  have self : (s.pause sch p).task p = _ := pause_task_self (Nat.ne_of_lt born)
  have waits : (s.pause sch p).progress p = .awaiting s.created :=
    congrArg TaskView.progress self
  have coroutine' : (s.pause sch p).IsCoroutine p := by
    obtain ⟨⟨kind, class_⟩, -⟩ := coroutine
    refine ⟨⟨kind, ?_⟩, by simp [waits]⟩
    exact (Function.update_of_ne (Nat.ne_of_lt born) ..).trans class_
  constructor
  · apply resumption_wake_iff (sound.move moves) coroutine' waits
    have class_ : (s.pause sch p).classes s.created = .passing := Function.update_self ..
    have isInitor : ((s.pause sch p).states s.created).isInitor = .none :=
      (congrFun (congrArg Handles.isInitor handles) s.created).trans (Function.update_self ..)
    have coro : ((s.pause sch p).states s.created).coro = some p :=
      (congrFun (congrArg Handles.coro handles) s.created).trans (Function.update_self ..)
    exact resumption_of_coro (by simp [class_]) (by simp [class_]) (by simp [isInitor]) coro
  · intro y
    have empty : s.schedulers.entries y s.created = 0 :=
      (linked.blank s.created (Nat.le_refl _)).entries y
    rw [pause_schedulers own, Schedulers.entries_setBusy, Schedulers.entries_addGenerator, empty]
    simp [eq_comm]

theorem pause_ready (own : (s.states p).scheduler = some target) (y n : Nat) :
    (s.pause sch p).schedulers.ready y n = s.schedulers.ready y n := by
  rw [pause_schedulers own, Schedulers.ready_setBusy, Schedulers.ready_addGenerator]

theorem pause_scheduler {n : Nat} (old : n ≠ s.created) :
    ((s.pause sch p).states n).scheduler = (s.states n).scheduler := by
  by_cases self : n = p
  · subst self
    exact congrArg TaskView.scheduler (pause_task_self old)
  · exact congrArg TaskView.scheduler (pause_task_of_ne self old)

theorem Linked.moved (linked : s.Linked) (sound : s.handles.Sound) (coroutine : s.IsCoroutine p)
    (now : s.progress p = .running) {r : Nat} (chain : Chain s.task p l)
    (last : l.getLast? = some r) : Moved sch p target r l s (s.via sch p target) := by
  have inBody : (s.task p).progress.inBody = true := by
    change (s.progress p).inBody = true
    rw [now]
    rfl
  have same_home := linked.forest.same_home chain inBody
  obtain ⟨task, passed, alone⟩ := linked.forest.last chain inBody last
  obtain ⟨home, own, scheduler⟩ := linked.running coroutine now
  by_cases here : (s.states p).scheduler = some target
  · have stays : s.via sch p target = s := linked.via_here sound chain now here
    rw [stays]
    have root := linked.homed chain inBody here r passed
    rcases (linked.forest.role r (chain.mem_coroutine r passed)).of_inBody
        (chain.mem_inBody inBody r passed) with ⟨_, _, -, -, -, -, goes, -⟩ |
      ⟨_, home', -, -, -, -, scheduler', switched, -⟩
    · exact absurd goes task
    constructor
    · exact fun q on => getScheduler_of_some ((same_home q on).trans here)
    · intro y
      rw [mem_readyTask_iff, root.ready, if_neg task, decide_eq_true_iff]
    · exact fun _ _ _ => Iff.rfl
    · exact fun _ _ _ => rfl
    · exact switched.trans (scheduler'.symm.trans root.scheduler)
    · exact fun _ => rfl
    · exact fun away => absurd (getScheduler_of_some here) away
  · obtain ⟨u, via, handles, tasks, -⟩ := linked.via_away sound chain now here
    have created : u.created = s.created := congrArg Handles.created handles
    have sound' : u.handles.Sound := handles ▸ sound
    have linked' := (linked.shift sound chain now handles tasks).linked
    have classes : u.classes = s.classes := congrArg Handles.classes handles
    have progress : u.progress = s.progress := congrArg Handles.progress handles
    have coroutine' : u.IsCoroutine p := by
      rw [IsCoroutine, classes, progress]
      exact coroutine
    have born : ∀ q ∈ l, q ≠ u.created := fun q on => Nat.ne_of_lt
      (created ▸ lt_of_coroutine sound (chain.mem_coroutine q on))
    have moved : ∀ q ∈ l, u.task q = (s.task q).move target := by
      intro q on
      rw [tasks, moveChain, if_pos on]
    have own' : (u.states p).scheduler = some target :=
      congrArg TaskView.scheduler (moved p chain.mem_start)
    have away := getScheduler_of_some own
    have ready : ∀ y n, n ∈ ((u.pause sch p).schedulers y).readyTask ↔ (u.task n).ready y = true := by
      intro y n
      rw [mem_readyTask_iff]
      exact iff_of_eq (congrArg (· = true) (pause_ready own' y n))
    rw [via]
    constructor
    · intro q on
      apply getScheduler_of_some
      rw [pause_scheduler (born q on)]
      exact congrArg TaskView.scheduler (moved q on)
    · intro y
      rw [ready, moved r passed, TaskView.move_ready, if_neg task, decide_eq_true_iff]
    · intro m other y
      rw [ready, mem_readyTask_iff, tasks, moveChain]
      by_cases on : m ∈ l
      · rw [if_pos on, TaskView.move_ready, if_pos (alone m on other)]
      · rw [if_neg on]
    · intro m old out
      rw [pause_scheduler (created ▸ Nat.ne_of_lt old)]
      have view : u.task m = s.task m := by rw [tasks, moveChain, if_neg out]
      exact congrArg TaskView.scheduler view
    · have view := congrArg TaskView.switched (moved r passed)
      rw [TaskView.move_switched, if_neg task] at view
      exact view
    · intro there
      cases away.symm.trans there
      exact absurd own here
    · intro _
      rw [← created]
      refine ⟨?_, ?_, ?_⟩
      · simp [Runtime.pause, setBusy, Schedulers.busy_setBusy]
      · exact congrArg TaskView.progress (pause_task_self (born p chain.mem_start) : (u.pause sch p).task p = _)
      · refine .pause linked' sound' coroutine' own' ?_
        rw [progress, now]
        rfl

theorem Linked.returned (linked : s.Linked) (sound : s.handles.Sound) {q r : Nat}
    (coroutine : s.IsCoroutine p) (now : s.progress p = .running)
    (chain : Chain s.task p (p :: q :: l)) (last : (q :: l).getLast? = some r) (o : Outcome α ε) :
    ∃ home, s.switched r = some home ∧ (s.finish p o).progress q = .awaiting p ∧
      (s.finish p o).Queued q p home := by
  have inBody : (s.task p).progress.inBody = true := by
    change (s.progress p).inBody = true
    rw [now]
    rfl
  have plain := class_ne_generator coroutine
  have updated : s.finish p o = (s.update p ((s.states p).complete (s.kind p) o
      (s.rootScheduler p))).setProgress p (afterFinish o) := by
    unfold Runtime.finish
    split
    · exact absurd ‹_› plain
    · rfl
  have top : (p :: q :: l).getLast? = some r := by rw [List.getLast?_cons_cons, last]
  obtain ⟨task, passed, -⟩ := linked.forest.last chain inBody top
  have same := linked.forest.same_home chain inBody r passed
  have ascent := linked.forest.ascent chain inBody
  have above : (s.task p).parent = some q := by
    cases ascent with
    | next link rest =>
        cases rest <;> exact link
  rcases (linked.forest.role p coroutine).of_inBody inBody with
    ⟨q', home, other, -, coro, parent, -, own, empty, -⟩ | ⟨_, _, -, -, none, -⟩
  · cases above.symm.trans parent
    have own : (s.states p).scheduler = some home := own
    have coro : (s.states p).coro = some q := coro
    have waits : s.progress q = .awaiting p :=
      suspended_of_sound sound p q coroutine coro other
    have progress : ∀ x, x ≠ p → (s.finish p o).progress x = s.progress x := fun x out =>
      congrArg TaskView.progress (finish_task_of_ne out o)
    have begun : (s.states p).isInitor ≠ .initial := by
      intro tag
      have initial : s.progress p = .initial := (sound.initial p plain).1 tag
      cases now.symm.trans initial
    refine ⟨home, ?_, (progress q other).trans waits, ?_, ?_⟩
    · rcases (linked.forest.role r (chain.mem_coroutine r passed)).of_inBody
          (chain.mem_inBody inBody r passed) with ⟨_, _, -, -, -, -, goes, -⟩ |
        ⟨_, home', -, -, -, -, scheduler, switched, -⟩
      · exact absurd goes task
      · cases (same.trans own).symm.trans scheduler
        exact switched
    · have handles := finish_handles (s := s) p o
      have moves : s.handles.Move (s.finish p o).handles := by
        rw [handles]
        have active : (s.handles.progress p).active = true := by
          change (s.progress p).active = true
          rw [now]
          rfl
        cases o <;> exact .walk p _ active rfl (fun _ => rfl) (by simp [afterFinish])
      have classes : (s.finish p o).classes = s.classes := congrArg Handles.classes handles
      obtain ⟨⟨kind, class_⟩, -⟩ := coroutine
      have coroutine' : (s.finish p o).IsCoroutine q := by
        obtain ⟨⟨kind', class_q⟩, present⟩ := coroutine_of_inAwait sound (p := q) (by rw [waits]; rfl)
        exact ⟨⟨kind', (congrFun classes q).trans class_q⟩,
          fun absent => present ((progress q other).symm.trans absent)⟩
      have class_p : (s.finish p o).classes p = .future kind := (congrFun classes p).trans class_
      have tag : ((s.finish p o).states p).isInitor = (s.states p).isInitor :=
        congrFun (congrArg Handles.isInitor handles) p
      have held : ((s.finish p o).states p).coro = (s.states p).coro :=
        congrFun (congrArg Handles.coro handles) p
      apply resumption_wake_iff (sound.move moves) coroutine' ((progress q other).trans waits)
      exact resumption_of_coro (by simp [class_p]) (by simp [class_p]) (tag ▸ begun)
        (held.trans coro)
    · intro y
      have empty : s.schedulers.entries y p = 0 := empty y
      have scheduler : (s.states p).getScheduler (s.rootScheduler p) = some home := by
        simp [FutureState.getScheduler, own]
      have handler : (s.states p).hasHandlerSkipLock = true := by
        simp [FutureState.hasHandlerSkipLock, coro]
      rw [updated]
      simp only [update, setProgress, FutureState.complete_calls, scheduler, handler]
      simp only [if_true, List.foldl_cons, List.foldl_nil, Schedulers.call,
        Schedulers.entries_addGenerator, empty]
      simp [eq_comm]
  · cases above.symm.trans none

theorem via_moves_chain (reachable : (system α ε).ReachableBy Chained s) : s.ViaMoves := by
  have linked := linked_of_reachable reachable
  have sound := sound_of_reachable reachable
  constructor
  · intro sch p target t busy h
    have action : s.body sch p (.via target) = some t := by
      simpa [step, busy] using h
    simp only [body] at action
    split at action
    · rename_i kind now class_p
      cases action
      have coroutine : s.IsCoroutine p := ⟨⟨kind, class_p⟩, by simp [now]⟩
      have inBody : (s.task p).progress.inBody = true := by
        change (s.progress p).inBody = true
        rw [now]
        rfl
      obtain ⟨l, chain⟩ := linked.forest.exists_chain (suspended_of_sound sound) coroutine inBody
      have ascent := linked.forest.ascent chain inBody
      obtain ⟨r, last, -⟩ := ascent.exists_last
      refine ⟨l, r, chain, fun l' chain' => ?_, last, linked.moved sound coroutine now chain last⟩
      exact (linked.forest.ascent chain' inBody).unique ascent
    · cases action
  · intro sch p q o t l r busy now chain last h
    have action : s.body sch p (.finish o) = some t := by
      simpa [step, busy] using h
    simp only [body] at action
    split at action
    · cases action
      exact linked.returned sound chain.coroutine now chain last o
    · cases action

def nestedCall : List (RuntimeAction Unit Unit) :=
  [.newCoroutine .unit, .newCoroutine .unit, .go 0 0, .swap 0, .resume 0, .body 0 (.transform 1),
    .body 0 .test, .body 0 .suspend, .swap 0, .resume 0]

theorem via_moves_chain_nested :
    ∃ s t, (system Unit Unit).ReachableBy Chained s ∧ s.step (.body 0 (.via 1)) = some t ∧
      ∃ l r, Chain s.task 1 l ∧ l.getLast? = some r ∧ Moved 0 1 1 r l s t := by
  obtain ⟨s, reachable, test⟩ := Transition.System.reachableBy_of_replay (system Unit Unit)
    Chained nestedCall (fun s => (s.schedulers 0).busy = some 1 ∧
      (s.step (.body 0 (.via 1))).isSome) (by decide)
  simp only [decide_eq_true_eq] at test
  obtain ⟨busy, enabled⟩ := test
  obtain ⟨t, next⟩ := Option.isSome_iff_exists.1 enabled
  obtain ⟨l, r, chain, -, last, moved⟩ := (via_moves_chain reachable).via 0 1 1 t busy next
  exact ⟨s, t, reachable, next, l, r, chain, last, moved⟩

end Runtime

end Librf
