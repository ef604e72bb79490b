import Librf.Runtime.Linked
import Librf.Runtime.Threads

/-!
# `via` moves a chain of awaits
-/

namespace Librf

namespace TaskView

/-- Registered on `home`, if it is a task, and nowhere else. -/
structure Homed (home : Nat) (r : TaskView) : Prop where
  scheduler : r.scheduler = some home
  ready : ∀ y, r.ready y = if r.goes = [] then false else decide (y = home)

def switch (sch : Nat) (r : TaskView) : TaskView :=
  { r with
    scheduler := some sch
    moves := r.moves ++ [sch]
    ready := fun y => if r.goes = [] then r.ready y else decide (y = sch) }

end TaskView

namespace Schedulers

variable (x : Schedulers) (sch n y : Nat)

theorem ready_moveTask_self (old : Nat) : (x.moveTask old sch n).ready y n =
    if x.ready old n = true then decide (y = sch) || (decide (y ≠ old) && x.ready y n)
    else x.ready y n := by
  have registered : x.ready old n = true ↔ n ∈ (x old).readyTask := decide_eq_true_iff
  unfold moveTask
  simp only [registered]
  split
  · rw [ready_emplace_eq, ready_delFinal_self]
  · rfl

end Schedulers

namespace Runtime

variable {α ε : Type*} {s t : Runtime α ε}

theorem switchOne_tasks {sch home n : Nat} (homed : (s.task n).Homed home) :
    (s.switchOne sch n).task = Function.update s.task n ((s.task n).switch sch) := by
  obtain ⟨owner, registered⟩ := homed
  have owner : (s.states n).scheduler = some home := owner
  have registered : ∀ y, s.schedulers.ready y n =
      if s.goes n = [] then false else decide (y = home) := registered
  funext x
  by_cases here : x = n
  · subst here
    have ready : (fun y => (s.schedulers.moveTask home sch x).ready y x) = fun y =>
        if s.goes x = [] then s.schedulers.ready y x else decide (y = sch) := by
      funext y
      rw [Schedulers.ready_moveTask_self, registered, registered]
      by_cases task : s.goes x = []
      · simp [task]
      · by_cases away : y = home <;> simp [task, away]
    rw [Function.update_self]
    simp [task, switchOne, setState, owner, ready, TaskView.switch]
  · rw [Function.update_of_ne here]
    simp [task, switchOne, setState, here, owner, Schedulers.ready_moveTask _ _ _ _ _ _
      (Ne.symm here)]

theorem switchScheduler_ascent {up : Nat → Option Nat} {sch home n fuel : Nat} {l : List Nat}
    (ascent : Ascent up n l) (parent : ∀ q ∈ l, (s.task q).parent = up q)
    (homed : ∀ q ∈ l, (s.task q).Homed home) (away : home ≠ sch) (enough : l.length ≤ fuel) :
    (switchScheduler sch fuel n s).1 = true ∧ (switchScheduler sch fuel n s).2.task =
      fun q => if q ∈ l then (s.task q).switch sch else s.task q := by
  induction ascent generalizing s fuel with
  | @top n ends =>
      cases fuel with
      | zero => cases enough
      | succ fuel =>
          have here := homed n List.mem_cons_self
          have elsewhere : (s.states n).scheduler ≠ some sch := fun there =>
            away (Option.some.inj (here.scheduler.symm.trans there))
          have top : (s.states n).parent = none := (parent n List.mem_cons_self).trans ends
          rw [switchScheduler_succ, if_neg elsewhere, top]
          refine ⟨rfl, (switchOne_tasks here).trans ?_⟩
          funext q
          by_cases self : q = n
          · subst self
            simp
          · simp [self]
  | @next n p l link rest ih =>
      cases fuel with
      | zero => cases enough
      | succ fuel =>
          have here := homed n List.mem_cons_self
          have elsewhere : (s.states n).scheduler ≠ some sch := fun there =>
            away (Option.some.inj (here.scheduler.symm.trans there))
          have above : (s.states n).parent = some p := (parent n List.mem_cons_self).trans link
          have once : n ∉ l := (List.nodup_cons.1 (Ascent.next link rest).nodup).1
          have tasks : (s.switchOne sch n).task = _ := switchOne_tasks here
          have same : ∀ q ∈ l, (s.switchOne sch n).task q = s.task q := by
            intro q passed
            rw [tasks, Function.update_of_ne]
            rintro rfl
            exact once passed
          rw [switchScheduler_succ, if_neg elsewhere, above]
          refine ⟨rfl, ?_⟩
          have next := (ih (s := s.switchOne sch n)
            (fun q passed => by rw [same q passed]; exact parent q (List.mem_cons_of_mem _ passed))
            (fun q passed => by rw [same q passed]; exact homed q (List.mem_cons_of_mem _ passed))
            (Nat.le_of_succ_le_succ enough)).2
          dsimp only
          rw [next]
          funext q
          by_cases on : q ∈ l
          · rw [if_pos on, if_pos (List.mem_cons_of_mem _ on), same q on]
          · rw [if_neg on, tasks]
            by_cases self : q = n
            · subst self
              rw [Function.update_self, if_pos List.mem_cons_self]
            · rw [Function.update_of_ne self, if_neg (by simp [self, on])]

theorem switchScheduler_here {sch fuel n : Nat} (here : (s.states n).scheduler = some sch) :
    switchScheduler sch (fuel + 1) n s = (false, s) := by
  rw [switchScheduler_succ, if_pos here]

/-! ## Roots -/

theorem Linked.getRoot (linked : s.Linked) (sound : s.handles.Sound) {n r : Nat} {l : List Nat}
    (coroutine : s.IsCoroutine n) (ascent : Ascent (fun m => (s.task m).parent) n l)
    (last : l.getLast? = some r) : s.getRoot n = some r := by
  have born : ∀ m ∈ l, m < s.created := fun m passed =>
    lt_of_coroutine sound (linked.forest.mem_coroutine coroutine ascent m passed)
  refine ascent.rootFrom (fun m passed => ⟨s.states m, if_pos (born m passed), rfl⟩) last ?_
  exact Nat.le_succ_of_le (ascent.length_le born)

section Via

variable {sch p target : Nat} {l : List Nat}

theorem Linked.homed (linked : s.Linked) (chain : Chain s.task p l) {home : Nat}
    (inBody : (s.task p).progress.inBody = true) (own : (s.states p).scheduler = some home) :
    ∀ q ∈ l, (s.task q).Homed home := by
  intro q passed
  have scheduler := (linked.forest.same_home chain inBody q passed).trans own
  refine ⟨scheduler, fun y => ?_⟩
  rcases (linked.forest.role q (chain.mem_coroutine q passed)).of_inBody
      (chain.mem_inBody inBody q passed) with ⟨_, _, -, -, -, -, goes, -, -, ready⟩ |
    ⟨_, home', goes, -, -, -, scheduler', -, ready⟩
  · rw [if_pos goes, ready]
  · cases scheduler.symm.trans scheduler'
    rw [if_neg (by simp [goes]), ready]

theorem Linked.via_here (linked : s.Linked) (sound : s.handles.Sound) (chain : Chain s.task p l)
    (now : s.progress p = .running) (here : (s.states p).scheduler = some target) :
    s.via sch p target = s := by
  have inBody : (s.task p).progress.inBody = true := by
    change (s.progress p).inBody = true
    rw [now]
    rfl
  have ascent := linked.forest.ascent chain inBody
  obtain ⟨r, last, -⟩ := ascent.exists_last
  have root := linked.getRoot sound chain.coroutine ascent last
  obtain ⟨task, passed, -⟩ := linked.forest.last chain inBody last
  have switched : s.switched r = some target := by
    have scheduler := (linked.forest.same_home chain inBody r passed).trans here
    rcases (linked.forest.role r (chain.mem_coroutine r passed)).of_inBody
        (chain.mem_inBody inBody r passed) with ⟨_, _, -, -, -, -, goes, -⟩ |
      ⟨_, home', -, -, -, -, scheduler', switched, -⟩
    · exact absurd goes task
    · cases scheduler.symm.trans scheduler'
      exact switched
  have recorded : s.recordSwitch p target = s := by
    unfold recordSwitch
    rw [root]
    dsimp only
    rw [← switched, Function.update_eq_self]
  unfold Runtime.via
  rw [recorded, switchScheduler_here here]
  rfl

theorem Linked.via_away (linked : s.Linked) (sound : s.handles.Sound) (chain : Chain s.task p l)
    (now : s.progress p = .running) (away : (s.states p).scheduler ≠ some target) :
    ∃ u : Runtime α ε, s.via sch p target = u.pause sch p ∧ u.handles = s.handles ∧
      u.task = moveChain target l s.task ∧ u.schedulers.thread = s.schedulers.thread := by
  have inBody : (s.task p).progress.inBody = true := by
    change (s.progress p).inBody = true
    rw [now]
    rfl
  have ascent := linked.forest.ascent chain inBody
  obtain ⟨r, last, -⟩ := ascent.exists_last
  have root := linked.getRoot sound chain.coroutine ascent last
  obtain ⟨task, passed, alone⟩ := linked.forest.last chain inBody last
  obtain ⟨home, own, -⟩ := linked.running chain.coroutine now
  have homed := linked.homed chain inBody own
  have other : home ≠ target := by
    rintro rfl
    exact away own
  let before : Runtime α ε := { s with switched := Function.update s.switched r (some target) }
  have recorded : s.recordSwitch p target = before := by
    unfold recordSwitch
    rw [root]
  have frame : ∀ q, before.task q = { s.task q with switched := before.switched q } := fun _ => rfl
  have born : ∀ m ∈ l, m < s.created := fun m passed =>
    lt_of_coroutine sound (chain.mem_coroutine m passed)
  obtain ⟨moved, tasks⟩ := switchScheduler_ascent (s := before) ascent
    (fun _ _ => rfl) (fun q passed => by
      obtain ⟨scheduler, ready⟩ := homed q passed
      exact ⟨scheduler, ready⟩) other (Nat.le_succ_of_le (ascent.length_le born))
  refine ⟨(switchScheduler target (s.created + 1) p before).2, ?_, ?_, ?_, ?_⟩
  · unfold Runtime.via
    rw [recorded]
    dsimp only
    rw [moved, if_pos rfl]
  · exact switchScheduler_handles target (s.created + 1) p before
  · rw [tasks]
    funext q
    unfold moveChain
    by_cases on : q ∈ l
    · rw [if_pos on, if_pos on, frame]
      by_cases top : q = r
      · subst top
        have goes : (s.task q).goes ≠ [] := task
        simp [TaskView.switch, TaskView.move, goes, before]
      · have goes : (s.task q).goes = [] := alone q on top
        simp [TaskView.switch, TaskView.move, goes, before, top]
        rfl
    · have top : q ≠ r := by
        rintro rfl
        exact on passed
      rw [if_neg on, if_neg on, frame]
      simp only [before, Function.update_of_ne top]
      rfl
  · exact switchScheduler_thread target (s.created + 1) p before

theorem Linked.shift (linked : s.Linked) (sound : s.handles.Sound) (chain : Chain s.task p l)
    (now : s.progress p = .running) {u : Runtime α ε} (handles : u.handles = s.handles)
    (tasks : u.task = moveChain target l s.task) : Linked.Next s u := by
  have created : u.created = s.created := congrArg Handles.created handles
  constructor
  · rw [tasks]
    exact linked.forest.move (suspended_of_sound sound) chain now target
  · intro n new
    rw [created] at new
    have out : n ∉ l := fun passed =>
      Nat.not_lt_of_le new (lt_of_coroutine sound (chain.mem_coroutine n passed))
    rw [tasks, moveChain, if_neg out]
    exact linked.blank n new

theorem Linked.via (linked : s.Linked) (sound : s.handles.Sound) (coroutine : s.IsCoroutine p)
    (now : s.progress p = .running) : Linked.Next s (s.via sch p target) := by
  have inBody : (s.task p).progress.inBody = true := by
    change (s.progress p).inBody = true
    rw [now]
    rfl
  obtain ⟨l, chain⟩ :=
    linked.forest.exists_chain (suspended_of_sound sound) coroutine inBody
  by_cases here : (s.states p).scheduler = some target
  · rw [linked.via_here sound chain now here]
    exact ⟨.refl linked.forest, linked.blank⟩
  obtain ⟨u, via, handles, tasks, -⟩ := linked.via_away sound chain now here
  have progress : u.progress = s.progress := congrArg Handles.progress handles
  have created : u.created = s.created := congrArg Handles.created handles
  have classes : u.classes = s.classes := congrArg Handles.classes handles
  have moved := linked.shift sound chain now handles tasks
  have coroutine' : u.IsCoroutine p := by
    rw [IsCoroutine, classes, progress]
    exact coroutine
  have now' : u.progress p = .running := (congrFun progress p).trans now
  rw [via]
  constructor
  · exact moved.forest.trans (moved.linked.pause (handles ▸ sound) coroutine' now')
  · intro n new
    have old : u.created < n := new
    have out : n ≠ p := by
      rintro rfl
      exact Nat.lt_asymm old (created ▸ lt_of_coroutine sound coroutine)
    rw [pause_task_of_ne out (Nat.ne_of_gt old)]
    exact moved.blank n (Nat.le_of_lt old)

end Via

/-! ## Every run -/

theorem Linked.body (linked : s.Linked) (sound : s.handles.Sound) {sch p : Nat}
    {action : BodyAction α ε} (allowed : Chained s (.body sch action))
    (h : s.body sch p action = some t) : Linked.Next s t := by
  have born : (s.progress p).active = true → p < s.created := fun active => sound.of_active active
  -- A step that says nothing new about states that there are not.
  have blank : ∀ {m : Nat}, p < s.created → m < s.created → t.created = s.created →
      (∀ x, x ≠ p → x ≠ m → t.task x = s.task x) → ∀ n, t.created ≤ n → (t.task n).Blank := by
    intro m old_p old_m created same n new
    rw [created] at new
    rw [same n (Nat.ne_of_gt (Nat.lt_of_lt_of_le old_p new))
      (Nat.ne_of_gt (Nat.lt_of_lt_of_le old_m new))]
    exact linked.blank n new
  have blank' : p < s.created → t.created = s.created + 1 →
      (∀ x, x ≠ p → x ≠ s.created → t.task x = s.task x) →
      ∀ n, t.created ≤ n → (t.task n).Blank := by
    intro old_p created same n new
    rw [created] at new
    rw [same n (Nat.ne_of_gt (Nat.lt_trans old_p new)) (Nat.ne_of_gt new)]
    exact linked.blank n (Nat.le_of_succ_le new)
  rcases body_cases h with ⟨m, kind, kind', rfl, now, class_p, class_m, rfl⟩ | ⟨m, rfl, now, rfl⟩ |
    ⟨m, rfl, now, rfl⟩ | ⟨kind, rfl, now, class_p, rfl⟩ | ⟨kind, rfl, now, class_p, rfl⟩ |
    ⟨target, kind, rfl, now, class_p, rfl⟩ | ⟨v, rfl, now, rfl⟩ | ⟨v, rfl, now, rfl⟩ |
    ⟨e, rfl, now, class_p, rfl⟩ | ⟨rfl, now, done⟩
  · exact ⟨linked.beginAwait sound ⟨⟨kind, class_p⟩, by simp [now]⟩ now allowed,
      blank (created_of_future sound class_p) (created_of_future sound class_m) rfl
        fun _ => beginAwait_task_of_ne⟩
  · have coroutine := coroutine_of_inAwait sound (by rw [now]; rfl)
    have old := lt_of_coroutine sound coroutine
    refine ⟨linked.testReady coroutine now, blank (m := p) old old ?_ ?_⟩
    · unfold Runtime.testReady
      split <;> rfl
    · intro x out _
      unfold Runtime.testReady
      split
      · rw [setProgress_task out, readResult_task]
      · exact setProgress_task out _
  · have coroutine := coroutine_of_inAwait sound (by rw [now]; rfl)
    obtain ⟨kind, class_m⟩ := sound.target p m (.inr now)
    exact ⟨linked.suspendAwait sound coroutine now, blank (lt_of_coroutine sound coroutine)
      (created_of_future sound class_m) rfl fun _ => suspendAwait_task_of_ne⟩
  · exact ⟨linked.pause sound ⟨⟨kind, class_p⟩, by simp [now]⟩ now,
      blank' (created_of_future sound class_p) rfl fun _ => pause_task_of_ne⟩
  · exact ⟨linked.park sound ⟨⟨kind, class_p⟩, by simp [now]⟩ now,
      blank' (created_of_future sound class_p) rfl fun _ => park_task_of_ne⟩
  · exact linked.via sound ⟨⟨kind, class_p⟩, by simp [now]⟩ now
  · have old := born (by rw [now]; rfl)
    refine ⟨linked.yieldValue sound v now, blank (m := p) old old ?_
      fun x out _ => yieldValue_task_of_ne out v⟩
    unfold Runtime.yieldValue
    split <;> rfl
  · have old := born (by rw [now]; rfl)
    refine ⟨linked.finish sound (.value v) (.inl now), blank (m := p) old old ?_
      fun x out _ => finish_task_of_ne out _⟩
    unfold Runtime.finish
    split <;> rfl
  · have old := born (by rcases now with now | now <;> rw [now] <;> rfl)
    refine ⟨linked.finish sound (.exception e) now, blank (m := p) old old ?_
      fun x out _ => finish_task_of_ne out _⟩
    unfold Runtime.finish
    split <;> rfl
  · have old := born (by rcases now with now | now <;> rw [now] <;> rfl)
    refine ⟨linked.finalSuspend sound now done, blank (m := p) old old ?_
      fun x out _ => finalSuspend_task_of_ne out done⟩
    rcases finalSuspend_handles done with ⟨-, handles⟩ | ⟨-, handles⟩
    · exact congrArg Handles.created handles
    · exact congrArg Handles.created handles

theorem entry_lt (linked : s.Linked) {sch n : Nat} {rest : List Nat}
    (next : (s.schedulers sch).cachedStates = n :: rest) : n < s.created := by
  by_contra new
  have none := (linked.blank n (Nat.le_of_not_lt new)).entries sch
  simp [task, Schedulers.entries, next] at none

theorem resume_created (s : Runtime α ε) (sch n : Nat) : (s.resume sch n).created = s.created := by
  have woken : ∀ (u : Runtime α ε) p, (u.wake sch n p).created = u.created :=
    fun u p => congrArg Handles.created (wake_handles (s := u) sch n p)
  unfold Runtime.resume
  dsimp only
  cases s.resumption n with
  | wake p =>
      rw [continueWith, woken]
      cases s.classes n <;> rfl
  | _ => cases s.classes n <;> rfl

theorem Linked.step (linked : s.Linked) (sound : s.handles.Sound) {action : RuntimeAction α ε}
    (allowed : Chained s action) (h : s.step action = some t) : Linked.Next s t := by
  have blank : ∀ {m : Nat}, m < s.created → t.created = s.created →
      (∀ x, x ≠ m → t.task x = s.task x) → ∀ n, t.created ≤ n → (t.task n).Blank := by
    intro m old created same n new
    rw [created] at new
    rw [same n (Nat.ne_of_gt (Nat.lt_of_lt_of_le old new))]
    exact linked.blank n new
  have added : t.created = s.created + 1 → (∀ x, x ≠ s.created → t.task x = s.task x) →
      ∀ n, t.created ≤ n → (t.task n).Blank := by
    intro created same n new
    rw [created] at new
    rw [same n (Nat.ne_of_gt new)]
    exact linked.blank n (Nat.le_of_succ_le new)
  rcases step_cases h with ⟨kind, -, rfl⟩ | ⟨-, rfl⟩ | ⟨kind, -, rfl⟩ | ⟨sch, n, rfl, born, -, rfl⟩ |
    ⟨n, o, kind, -, class_n, awaitable, rfl⟩ | ⟨w, sch, -, class_w, own, rfl⟩ |
    ⟨sch, -, empty, -, rfl⟩ | ⟨sch, n, rest, -, -, next, rfl⟩ | ⟨sch, p, next, rfl, -, action⟩
  · exact ⟨linked.newCoroutine sound kind, added rfl fun x old => add_task_of_ne old _ _ _⟩
  · exact ⟨linked.add sound rfl (.inr (by simp)), added rfl fun x old => add_task_of_ne old _ _ _⟩
  · exact ⟨linked.add sound rfl (.inl rfl), added rfl fun x old => add_task_of_ne old _ _ _⟩
  · exact ⟨linked.newTask sound sch allowed, blank born rfl fun x out => newTask_task_of_ne out sch⟩
  · exact ⟨linked.complete sound o awaitable _,
      blank (created_of_future sound class_n) rfl fun x out => update_task_of_ne out _⟩
  · refine ⟨linked.notify sound class_w, blank ?_ rfl fun x out => addGenerator_task_of_ne out sch⟩
    by_contra new
    have unborn : (s.states w).scheduler = none := (linked.blank w (Nat.le_of_not_lt new)).scheduler
    cases unborn.symm.trans own
  · have same : (s.swap sch).task = s.task := funext fun x => swap_task empty x
    constructor
    · rw [same]
      exact .refl linked.forest
    · exact fun n new => same ▸ linked.blank n new
  · refine ⟨linked.resume sound next, fun x new => ?_⟩
    rw [resume_created] at new
    have entered := entry_lt linked next
    have out : x ≠ n := Nat.ne_of_gt (Nat.lt_of_lt_of_le entered new)
    have same : ((s.advance sch rest).resume sch n).task x = s.task x := by
      generalize resumed : ((s.advance sch rest).resume sch n).task = v
      cases resumed ▸ resume_tasks sound next with
      | wake p ready w class_ _ held _ released =>
          have present : s.progress p ≠ .absent := by
            rcases sound.slot n p class_ held with waits | ⟨rfl, yields⟩
            · have waits : s.progress p = .awaiting n := waits
              simp [waits]
            · have yields : s.progress p = .yielded := yields
              simp [yields]
          have away : x ≠ p := by
            rintro rfl
            exact present (sound.fresh x new).1
          rw [released, Function.update_of_ne away, Function.update_of_ne out]
      | _ => exact Function.update_of_ne out ..
    rw [same]
    exact linked.blank x new
  · exact linked.body sound allowed action

theorem initial_linked : ({} : Runtime α ε).Linked := by
  constructor
  · constructor
    · exact fun n coroutine => absurd rfl coroutine.2
    · exact fun p m coroutine => absurd rfl coroutine.2
    · exact fun n p coroutine => absurd rfl coroutine.2
    · exact fun n p coroutine => absurd rfl coroutine.2
    · exact fun n coroutine => absurd rfl coroutine.2
  · exact fun n _ => ⟨rfl, rfl, rfl, fun _ => rfl, fun _ => rfl⟩

theorem linked_of_reachable (reachable : (system α ε).ReachableBy Chained s) : s.Linked := by
  have inductive_ : (system α ε).Inductive Chained Linked := by
    constructor
    · exact initial_linked
    · intro s e t reached linked allowed h
      exact (linked.step (sound_of_reachable reached) allowed h).linked
  exact inductive_.holds reachable

end Runtime

end Librf
