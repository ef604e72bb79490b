import Librf.Runtime.Views

/-!
# Tasks

A coroutine that `go` has started stays in `_ready_task` until its body has ended, whatever other
coroutines, wake-ups and threads do.
-/

namespace Librf

/-- `co_return` has been executed or an exception has left the body. -/
def Progress.ended : Progress → Bool
  | .returned | .failed | .final | .destroyed => true
  | _ => false

/-- In `co_await` of state `m`. -/
def Progress.waitsFor (m : Nat) (x : Progress) : Prop :=
  x = .transformed m ∨ x = .unready m ∨ x = .awaiting m

namespace TaskView

/-- A generator's task is over with its frame. -/
def finished (r : TaskView) : Bool :=
  match r.cls with
  | .generator => r.progress == .destroyed
  | _ => r.progress.ended

theorem finished_eq_false {r : TaskView} (open_ : r.progress.ended = false) : r.finished = false := by
  unfold finished
  split
  · cases progress : r.progress <;> simp_all [Progress.ended]
  · exact open_

theorem finished_of_generator {r : TaskView} (generator : r.cls = .generator) :
    r.finished = (r.progress == .destroyed) := by
  simp [finished, generator]

theorem finished_of_ended {r : TaskView} (plain : r.cls ≠ .generator)
    (ended : r.progress.ended = true) : r.finished = true := by
  unfold finished
  split
  · exact absurd ‹_› plain
  · exact ended

theorem finished_of_destroyed {r : TaskView} (destroyed : r.progress = .destroyed) :
    r.finished = true := by
  unfold finished
  split <;> simp [destroyed, Progress.ended]

structure Kept (r : TaskView) : Prop where
  isFuture : r.cls ≠ .generator → r.isFuture = true
  unused : r.goes = [] → r.progress = .initial ∧ ∀ sch, r.entries sch = 0
  scheduler : ∀ sch, r.goes = [sch] → r.scheduler = some sch
  ready : ∀ sch, r.goes = [sch] → r.finished = false → r.ready sch = true
  final : ∀ sch, r.goes = [sch] → r.progress = .final → 0 < r.entries sch

variable {r r' : TaskView}

theorem Kept.step (kept : r.Kept) (begun : r.progress ≠ .initial ∨ ∃ sch, 0 < r.entries sch)
    (same : r'.cls = r.cls ∧ r'.isFuture = r.isFuture ∧ r'.goes = r.goes ∧
      r'.scheduler = r.scheduler)
    (ready : r'.finished = false →
      r.finished = false ∧ ∀ sch, r.ready sch = true → r'.ready sch = true)
    (final : r'.progress = .final → ∀ sch, r.scheduler = some sch → 0 < r'.entries sch) :
    r'.Kept := by
  obtain ⟨cls, isFuture, goes, scheduler⟩ := same
  constructor
  · rw [cls, isFuture]
    exact kept.isFuture
  · rw [goes]
    intro none
    obtain ⟨initial, idle⟩ := kept.unused none
    rcases begun with begun | ⟨sch, queued⟩
    · exact absurd initial begun
    · exact absurd (idle sch) (Nat.ne_of_gt queued)
  · rw [goes, scheduler]
    exact kept.scheduler
  · rw [goes]
    intro sch own open_
    obtain ⟨before, stays⟩ := ready open_
    exact stays sch (kept.ready sch own before)
  · rw [goes]
    intro sch own ended
    exact final ended sch (kept.scheduler sch own)

end TaskView

namespace Runtime

variable {α ε : Type*} {s t : Runtime α ε}

structure Registered (s : Runtime α ε) : Prop where
  kept : ∀ n, s.progress n ≠ .absent → s.awaits n = [] → s.moves n = [] → (s.task n).Kept
  called : ∀ p n kind, s.classes n = .future kind → (s.progress p).waitsFor n → p ∈ s.awaits n
  target : ∀ p n, (s.progress p).waitsFor n → n < s.created
  unborn : ∀ n, s.created ≤ n → s.moves n = [] →
    (s.states n).scheduler = none ∧ s.goes n = [] ∧ ∀ sch, s.schedulers.entries sch n = 0

theorem Registered.change (registered : s.Registered) (touched : Nat → Prop)
    (classes : t.classes = s.classes) (created : t.created = s.created)
    (same : ∀ n, ¬ touched n → t.task n = s.task n)
    (kept : ∀ n, touched n → t.progress n ≠ .absent → t.awaits n = [] → t.moves n = [] →
      (t.task n).Kept)
    (awaits : ∀ n, s.awaits n ⊆ t.awaits n)
    (waits : ∀ p n, touched p → (t.progress p).waitsFor n →
      (s.progress p).waitsFor n ∨
        n < s.created ∧ (p ∈ t.awaits n ∨ ∀ kind, s.classes n ≠ .future kind))
    (born : ∀ n, touched n → n < s.created ∨ t.moves n ≠ []) : t.Registered := by
  constructor
  · intro n present unawaited unmoved
    by_cases on : touched n
    · exact kept n on present unawaited unmoved
    · have equal := same n on
      have progress : t.progress n = s.progress n := congrArg TaskView.progress equal
      have awaits : t.awaits n = s.awaits n := congrArg TaskView.awaits equal
      have moves : t.moves n = s.moves n := congrArg TaskView.moves equal
      rw [equal]
      exact registered.kept n (progress ▸ present) (awaits ▸ unawaited) (moves ▸ unmoved)
  · intro p n kind class_ waiting
    rw [classes] at class_
    by_cases on : touched p
    · rcases waits p n on waiting with before | ⟨-, listed | other⟩
      · exact awaits n (registered.called p n kind class_ before)
      · exact listed
      · exact absurd class_ (other kind)
    · have progress : t.progress p = s.progress p := congrArg TaskView.progress (same p on)
      rw [progress] at waiting
      exact awaits n (registered.called p n kind class_ waiting)
  · intro p n waiting
    rw [created]
    by_cases on : touched p
    · exact (waits p n on waiting).elim (registered.target p n) And.left
    · have progress : t.progress p = s.progress p := congrArg TaskView.progress (same p on)
      rw [progress] at waiting
      exact registered.target p n waiting
  · intro n new unmoved
    rw [created] at new
    have out : ¬ touched n :=
      fun on => (born n on).elim (fun old => absurd old (Nat.not_lt_of_le new)) fun moved =>
        moved unmoved
    have equal := same n out
    have moves : t.moves n = s.moves n := congrArg TaskView.moves equal
    obtain ⟨scheduler, goes, entries⟩ := registered.unborn n new (moves ▸ unmoved)
    refine ⟨(congrArg TaskView.scheduler equal).trans scheduler,
      (congrArg TaskView.goes equal).trans goes, fun sch => ?_⟩
    exact (congrFun (congrArg TaskView.entries equal) sch).trans (entries sch)

theorem Registered.bodyStep (registered : s.Registered) {p m : Nat}
    (classes : t.classes = s.classes) (created : t.created = s.created)
    (born : p < s.created ∧ m < s.created) (present : s.progress p ≠ .absent)
    (same : ∀ n, n ≠ p → n ≠ m → t.task n = s.task n) (moves : t.moves = s.moves)
    (awaits : ∀ n, s.awaits n ⊆ t.awaits n)
    (kept : t.awaits p = [] → (s.task p).Kept → (t.task p).Kept)
    (other : m ≠ p → t.progress m = s.progress m ∧
      (t.awaits m ≠ [] ∨ t.progress m = .absent))
    (waits : ∀ n, (t.progress p).waitsFor n →
      (s.progress p).waitsFor n ∨
        n < s.created ∧ (p ∈ t.awaits n ∨ ∀ kind, s.classes n ≠ .future kind)) :
    t.Registered := by
  refine registered.change (t := t) (fun n => n = p ∨ n = m) classes created ?_ ?_ awaits ?_ ?_
  · intro n out
    rw [not_or] at out
    exact same n out.1 out.2
  · intro n on there unawaited unmoved
    by_cases self : n = p
    · subst self
      have before : s.awaits n = [] := List.subset_nil.1 (unawaited ▸ awaits n)
      exact kept unawaited (registered.kept n present before (moves ▸ unmoved))
    · obtain rfl := on.resolve_left self
      rcases (other self).2 with awaited | absent
      · exact absurd unawaited awaited
      · exact absurd absent there
  · intro q n on waiting
    by_cases self : q = p
    · subst self
      exact waits n waiting
    · obtain rfl := on.resolve_left self
      rw [(other self).1] at waiting
      exact .inl waiting
  · rintro n (rfl | rfl)
    · exact .inl born.1
    · exact .inl born.2

theorem not_waitsFor {x : Progress} (outside : x.inAwait = false) (n : Nat) : ¬ x.waitsFor n := by
  rintro (rfl | rfl | rfl) <;> cases outside

/-! ### Bodies -/

theorem Registered.beginAwait (registered : s.Registered) {p m : Nat}
    (now : s.progress p = .running) (born : p < s.created ∧ m < s.created) :
    (s.beginAwait p m).Registered := by
  have awaited : p ∈ (s.beginAwait p m).awaits m := by
    simp [Runtime.beginAwait, setState, setProgress]
  refine registered.bodyStep (t := s.beginAwait p m) rfl rfl born (by simp [now])
    (fun _ => beginAwait_task_of_ne) rfl ?_ ?_ ?_ ?_
  · intro n
    by_cases here : n = m <;> simp [Runtime.beginAwait, setState, setProgress, here]
  · intro unawaited kept
    have other : m ≠ p := by
      rintro rfl
      rw [unawaited] at awaited
      cases awaited
    rw [beginAwait_task_self other]
    exact kept.step (.inl (by simp [task, now])) ⟨rfl, rfl, rfl, rfl⟩
      (fun _ => ⟨TaskView.finished_eq_false (by simp [task, now, Progress.ended]), fun _ => id⟩) (by simp)
  · intro other
    exact ⟨Function.update_of_ne other .., .inl (List.ne_nil_of_mem awaited)⟩
  · rintro n waiting
    obtain rfl : n = m := by
      simpa [Runtime.beginAwait, setState, setProgress, Progress.waitsFor, eq_comm] using waiting
    exact .inr ⟨born.2, .inl awaited⟩

theorem Registered.walk (registered : s.Registered) {p : Nat} {x : Progress} (born : p < s.created)
    (classes : t.classes = s.classes) (created : t.created = s.created)
    (awaits : t.awaits = s.awaits) (moves : t.moves = s.moves)
    (present : s.progress p ≠ .absent) (begun : s.progress p ≠ .initial)
    (same : ∀ n, n ≠ p → t.task n = s.task n) (self : t.task p = { s.task p with progress := x })
    (open_ : (t.task p).finished = false → (s.task p).finished = false) (last : x ≠ .final)
    (waits : ∀ n, x.waitsFor n → (s.progress p).waitsFor n) : t.Registered := by
  have progress : t.progress p = x := congrArg TaskView.progress self
  refine registered.bodyStep (t := t) (m := p) classes created ⟨born, born⟩ present
    (fun n out _ => same n out) moves (fun n => by rw [awaits]; exact List.Subset.refl _) ?_
    (fun other => absurd rfl other) ?_
  · intro _ kept
    rw [self] at open_ ⊢
    exact kept.step (.inl begun) ⟨rfl, rfl, rfl, rfl⟩ (fun after => ⟨open_ after, fun _ => id⟩)
      fun ended => absurd ended last
  · intro n waiting
    rw [progress] at waiting
    exact .inl (waits n waiting)

theorem Registered.testReady (registered : s.Registered) {p m : Nat}
    (now : s.progress p = .transformed m) (born : p < s.created) :
    (s.testReady p m).Registered := by
  have present : s.progress p ≠ .absent := by simp [now]
  have begun : s.progress p ≠ .initial := by simp [now]
  have open_ : (s.task p).finished = false :=
    TaskView.finished_eq_false (by simp [task, now, Progress.ended])
  unfold Runtime.testReady
  split
  · refine registered.walk (t := (s.readResult m).setProgress p .running) (x := .running) born rfl
      rfl rfl rfl present begun ?_ ?_ (fun _ => open_) (by simp) ?_
    · intro n out
      rw [setProgress_task out, readResult_task]
    · rw [setProgress_task_self, readResult_task]
    · exact fun n waiting => absurd waiting (not_waitsFor rfl n)
  · refine registered.walk (t := s.setProgress p (.unready m)) (x := .unready m) born rfl rfl rfl rfl
      present begun (fun n out => setProgress_task out _) (setProgress_task_self ..)
      (fun _ => open_) (by simp) ?_
    rintro n (waiting | waiting | waiting) <;> cases waiting
    exact .inl now

theorem Registered.suspendAwait (registered : s.Registered) {sch p m : Nat} {kind : Kind}
    (class_m : s.classes m = .future kind) (now : s.progress p = .unready m)
    (born : p < s.created ∧ m < s.created) : (s.suspendAwait sch p m).Registered := by
  have waiting : (s.progress p).waitsFor m := .inr (.inl now)
  have awaited := registered.called p m kind class_m waiting
  refine registered.bodyStep (t := s.suspendAwait sch p m) rfl rfl born (by simp [now])
    (fun _ => suspendAwait_task_of_ne) rfl (fun _ => List.Subset.refl _) ?_ ?_ ?_
  · intro unawaited kept
    have unawaited : s.awaits p = [] := unawaited
    have other : m ≠ p := by
      rintro rfl
      rw [unawaited] at awaited
      cases awaited
    rw [suspendAwait_task_self other]
    exact kept.step (.inl (by simp [task, now])) ⟨rfl, rfl, rfl, rfl⟩
      (fun _ => ⟨TaskView.finished_eq_false (by simp [task, now, Progress.ended]), fun _ => id⟩) (by simp)
  · exact fun other => ⟨Function.update_of_ne other .., .inl (List.ne_nil_of_mem awaited)⟩
  · intro n awaits
    obtain rfl : n = m := by
      simpa [Runtime.suspendAwait, setState, setProgress, setBusy, Progress.waitsFor, eq_comm] using
        awaits
    exact .inl waiting

theorem Registered.born (registered : s.Registered) (sound : s.handles.Sound) {cls : StateClass}
    (plain : ∀ kind, cls ≠ .future kind) :
    Registered { s with
      classes := Function.update s.classes s.created cls
      created := s.created + 1 } := by
  have absent : s.progress s.created = .absent := (sound.fresh _ (Nat.le_refl _)).1
  constructor
  · intro n present unawaited unmoved
    have old : n ≠ s.created := by
      rintro rfl
      exact present absent
    have kept := registered.kept n present unawaited unmoved
    simpa [task, old] using kept
  · intro p n kind class_ waiting
    by_cases old : n = s.created
    · subst old
      simp only [Function.update_self] at class_
      exact absurd class_ (plain kind)
    · simp only [Function.update_of_ne old] at class_
      exact registered.called p n kind class_ waiting
  · exact fun p n waiting => Nat.lt_succ_of_lt (registered.target p n waiting)
  · exact fun n new unmoved => registered.unborn n (Nat.le_of_succ_le new) unmoved

theorem Registered.pause (registered : s.Registered) (sound : s.handles.Sound) {sch p : Nat}
    (now : s.progress p = .running) (born : p < s.created) : (s.pause sch p).Registered := by
  have other : s.created ≠ p := Nat.ne_of_gt born
  have absent : s.progress s.created = .absent := (sound.fresh _ (Nat.le_refl _)).1
  refine (registered.born sound (by simp)).bodyStep (t := s.pause sch p) (p := p)
    (m := s.created) rfl rfl ⟨Nat.lt_succ_of_lt born, Nat.lt_succ_self _⟩ (by simp [now]) ?_ rfl
    (fun _ => List.Subset.refl _) ?_ ?_ ?_
  · intro n p_out m_out
    simp [task, Runtime.pause, update, setState, setProgress, setBusy, p_out, m_out,
      Schedulers.entries_calls, Schedulers.ready_calls _ _ _ _ _ m_out.symm, m_out.symm]
  · intro _ kept
    refine kept.step (.inl (by simp [task, now])) ?_ ?_ ?_
    · simp [task, Runtime.pause, update, setState, setProgress, setBusy, other.symm]
    · intro _
      refine ⟨TaskView.finished_eq_false (by simp [task, now, Progress.ended]), fun x ready => ?_⟩
      simpa [task, Runtime.pause, update, setState, setProgress, setBusy,
        Schedulers.ready_calls _ _ _ _ _ other] using ready
    · simp [task, Runtime.pause, update, setState, setProgress, setBusy]
  · intro _
    refine ⟨Function.update_of_ne other .., .inr ?_⟩
    exact (Function.update_of_ne other ..).trans absent
  · intro n waiting
    obtain rfl : n = s.created := by
      simpa [Runtime.pause, update, setState, setProgress, setBusy, Progress.waitsFor, eq_comm] using
        waiting
    exact .inr ⟨Nat.lt_succ_self _, .inr (by simp)⟩

theorem Registered.park (registered : s.Registered) (sound : s.handles.Sound) {sch p : Nat}
    (now : s.progress p = .running) (born : p < s.created) : (s.park sch p).Registered := by
  have other : s.created ≠ p := Nat.ne_of_gt born
  have absent : s.progress s.created = .absent := (sound.fresh _ (Nat.le_refl _)).1
  refine (registered.born sound (by simp)).bodyStep (t := s.park sch p) (p := p)
    (m := s.created) rfl rfl ⟨Nat.lt_succ_of_lt born, Nat.lt_succ_self _⟩ (by simp [now]) ?_ rfl
    (fun _ => List.Subset.refl _) ?_ ?_ ?_
  · intro n p_out m_out
    simp [task, Runtime.park, setState, setProgress, setBusy, p_out, m_out]
  · intro _ kept
    refine kept.step (.inl (by simp [task, now])) ?_ ?_ ?_
    · simp [task, Runtime.park, setState, setProgress, setBusy, other.symm]
    · intro _
      refine ⟨TaskView.finished_eq_false (by simp [task, now, Progress.ended]), fun x ready => ?_⟩
      simpa [task, Runtime.park, setState, setProgress, setBusy] using ready
    · simp [task, Runtime.park, setState, setProgress, setBusy]
  · intro _
    refine ⟨Function.update_of_ne other .., .inr ?_⟩
    exact (Function.update_of_ne other ..).trans absent
  · intro n waiting
    obtain rfl : n = s.created := by
      simpa [Runtime.park, setState, setProgress, setBusy, Progress.waitsFor, eq_comm] using waiting
    exact .inr ⟨Nat.lt_succ_self _, .inr (by simp)⟩

/-! `via` leaves a trace in the history of each state that it moves. -/

def switchOne (s : Runtime α ε) (sch n : Nat) : Runtime α ε :=
  { s.setState n { s.states n with scheduler := some sch } with
    schedulers := match (s.states n).scheduler with
      | some old => s.schedulers.moveTask old sch n
      | none => s.schedulers
    moves := Function.update s.moves n (s.moves n ++ [sch]) }

theorem switchScheduler_succ (sch fuel n : Nat) (s : Runtime α ε) :
    switchScheduler sch (fuel + 1) n s =
      if (s.states n).scheduler = some sch then (false, s)
      else (true, match (s.states n).parent with
        | some p => (switchScheduler sch fuel p (s.switchOne sch n)).2
        | none => s.switchOne sch n) := rfl

theorem switchOne_task (sch n x : Nat) :
    (s.switchOne sch n).task x = s.task x ∨ (s.switchOne sch n).moves x ≠ [] := by
  by_cases here : x = n
  · subst here
    right
    simp [switchOne]
  · left
    cases owner : (s.states n).scheduler <;>
      simp [task, switchOne, setState, here, owner, Schedulers.ready_moveTask _ _ _ _ _ _
        (Ne.symm here)]

theorem switchScheduler_task (sch fuel n x : Nat) (s : Runtime α ε) :
    (switchScheduler sch fuel n s).2.task x = s.task x ∨
      (switchScheduler sch fuel n s).2.moves x ≠ [] := by
  induction fuel generalizing n s with
  | zero => exact .inl rfl
  | succ fuel ih =>
      rw [switchScheduler_succ]
      split
      · exact .inl rfl
      · dsimp only
        split
        · rename_i p link
          rcases ih p (s.switchOne sch n) with same | moved
          · rcases switchOne_task (s := s) sch n x with first | moved
            · exact .inl (same.trans first)
            · right
              have moves := congrArg TaskView.moves same
              exact fun none => moved (moves.symm.trans none)
          · exact .inr moved
        · exact switchOne_task sch n x

theorem switchScheduler_awaits (sch fuel n : Nat) (s : Runtime α ε) :
    (switchScheduler sch fuel n s).2.awaits = s.awaits := by
  induction fuel generalizing n s with
  | zero => rfl
  | succ fuel ih =>
      rw [switchScheduler_succ]
      split
      · rfl
      · dsimp only
        split
        · exact ih ..
        · rfl

theorem Registered.switchScheduler (registered : s.Registered) (sch fuel n : Nat) :
    (Runtime.switchScheduler sch fuel n s).2.Registered := by
  have handles := switchScheduler_handles sch fuel n s
  have progress := congrArg Handles.progress handles
  refine registered.change (fun x => (Runtime.switchScheduler sch fuel n s).2.moves x ≠ [])
    (congrArg Handles.classes handles) (congrArg Handles.created handles) ?_ ?_ ?_ ?_ ?_
  · intro x unmoved
    exact (switchScheduler_task sch fuel n x s).resolve_right unmoved
  · exact fun x moved _ _ unmoved => absurd unmoved moved
  · exact fun x => by rw [switchScheduler_awaits]; exact List.Subset.refl _
  · intro p x _ waiting
    have same : (Runtime.switchScheduler sch fuel n s).2.progress p = s.progress p :=
      congrFun progress p
    exact .inl (same ▸ waiting)
  · exact fun x moved => .inr moved

theorem recordSwitch_same (p target : Nat) (s : Runtime α ε) :
    ∃ switched, s.recordSwitch p target = { s with switched } := by
  unfold recordSwitch
  split
  · exact ⟨_, rfl⟩
  · exact ⟨s.switched, rfl⟩

theorem Registered.via (registered : s.Registered) (sound : s.handles.Sound) {sch p : Nat}
    (target : Nat) (now : s.progress p = .running) (born : p < s.created) :
    (s.via sch p target).Registered := by
  obtain ⟨switched, recorded⟩ := recordSwitch_same p target s
  have before : Registered { s with switched } := by
    refine ⟨fun n present unawaited unmoved => ?_, registered.called, registered.target,
      registered.unborn⟩
    obtain ⟨isFuture, unused, scheduler, ready, final⟩ :=
      registered.kept n present unawaited unmoved
    exact ⟨isFuture, unused, scheduler, ready, final⟩
  have after := before.switchScheduler target (s.created + 1) p
  have handles := switchScheduler_handles target (s.created + 1) p { s with switched }
  unfold Runtime.via
  rw [recorded]
  dsimp only
  split
  · refine after.pause ?_ ?_ ?_
    · rw [handles]
      exact sound
    · exact (congrFun (congrArg Handles.progress handles) p).trans now
    · exact Nat.lt_of_lt_of_eq born (congrArg Handles.created handles).symm
  · exact after

/-! ### The end of a body -/

theorem Registered.yieldValue (registered : s.Registered) {sch p : Nat} (v : α)
    (now : s.progress p = .running) (born : p < s.created) :
    (s.yieldValue sch p v).Registered := by
  have present : s.progress p ≠ .absent := by simp [now]
  unfold Runtime.yieldValue
  split
  · refine registered.bodyStep (m := p) rfl rfl ⟨born, born⟩ present ?_ rfl
      (fun _ => List.Subset.refl _) ?_ (fun other => absurd rfl other) ?_
    · intro n out _
      cases owner : (s.states p).scheduler <;>
        simp [task, setProgress, setBusy, out, out.symm, owner, Schedulers.entries_addGenerator]
    · intro _ kept
      refine kept.step (.inl (by simp [task, now])) ⟨rfl, rfl, rfl, rfl⟩ ?_
        (by simp [task, setProgress, setBusy])
      intro _
      refine ⟨TaskView.finished_eq_false (by simp [task, now, Progress.ended]), fun x ready => ?_⟩
      cases owner : (s.states p).scheduler <;>
        simpa [task, setProgress, setBusy, owner] using ready
    · intro n waiting
      simp [setProgress, setBusy, Progress.waitsFor] at waiting
  · refine registered.bodyStep (m := p) rfl rfl ⟨born, born⟩ present ?_ rfl
      (fun _ => List.Subset.refl _) ?_ (fun other => absurd rfl other) ?_
    · intro n out _
      simp [task, update, setState, setProgress, setBusy, out, out.symm, Schedulers.entries_calls,
        Schedulers.ready_calls _ _ _ _ _ out.symm]
    · intro _ kept
      refine kept.step (.inl (by simp [task, now])) ?_ ?_
        (by simp [task, update, setState, setProgress, setBusy])
      · simp [task, update, setState, setProgress, setBusy, FutureState.promiseYieldValue_state]
      · intro _
        refine ⟨TaskView.finished_eq_false (by simp [task, now, Progress.ended]), fun x ready => ?_⟩
        simp only [task, update, setProgress, setBusy, Schedulers.ready_setBusy,
          FutureState.promiseYieldValue_calls]
        split
        · simpa [Schedulers.call, task] using ready
        · exact ready
    · intro n waiting
      simp [update, setState, setProgress, setBusy, Progress.waitsFor] at waiting

theorem Registered.finish (registered : s.Registered) {p : Nat} (o : Outcome α ε)
    (now : s.progress p = .running ∨ s.progress p = .returned) (born : p < s.created) :
    (s.finish p o).Registered := by
  have present : s.progress p ≠ .absent := by
    rcases now with now | now <;> simp [now]
  have begun : s.progress p ≠ .initial := by
    rcases now with now | now <;> simp [now]
  have ended : (afterFinish o).ended = true ∧ afterFinish o ≠ .final := by
    cases o <;> simp [afterFinish, Progress.ended]
  have passed : ∀ n, ¬ (afterFinish o).waitsFor n := by
    cases o <;> exact not_waitsFor rfl
  unfold Runtime.finish
  split
  · rename_i generator
    refine registered.walk (t := s.setProgress p (afterFinish o)) born rfl rfl rfl rfl present begun
      (fun n out => setProgress_task out _) (setProgress_task_self ..) ?_ ended.2
      (fun n waiting => absurd waiting (passed n))
    intro _
    rw [TaskView.finished_of_generator generator]
    rcases now with now | now <;> simp [task, now]
  · rename_i plain
    refine registered.bodyStep (m := p) rfl rfl ⟨born, born⟩ present ?_ rfl
      (fun _ => List.Subset.refl _) ?_ (fun other => absurd rfl other) ?_
    · intro n out _
      simp [task, update, setState, setProgress, out, out.symm, Schedulers.entries_calls,
        Schedulers.ready_calls _ _ _ _ _ out.symm]
    · intro _ kept
      refine kept.step (.inl begun) ?_ ?_ ?_
      · simp [task, update, setState, setProgress, FutureState.complete_state]
      · intro open_
        rw [TaskView.finished_of_ended plain (by simp [task, setProgress, ended.1])] at open_
        cases open_
      · simp [task, setProgress, ended.2]
    · intro n waiting
      simp only [setProgress, Function.update_self] at waiting
      exact absurd waiting (passed n)

theorem Registered.finalSuspend (registered : s.Registered) {sch p : Nat}
    (now : s.progress p = .returned ∨ s.progress p = .failed) (born : p < s.created)
    (done : s.finalSuspend sch p = .ok t) : t.Registered := by
  have present : s.progress p ≠ .absent := by
    rcases now with now | now <;> simp [now]
  have begun : s.progress p ≠ .initial := by
    rcases now with now | now <;> simp [now]
  unfold Runtime.finalSuspend at done
  split at done
  · cases done
    refine registered.bodyStep (m := p) rfl rfl ⟨born, born⟩ present ?_ rfl
      (fun _ => List.Subset.refl _) ?_ (fun other => absurd rfl other) ?_
    · intro n out _
      cases owner : (s.states p).scheduler <;>
        simp [task, setState, setProgress, setBusy, destroy, out,
          Schedulers.ready_delFinal _ _ _ _ _ out.symm]
    · intro _ kept
      refine kept.step (.inl begun) ?_ ?_ ?_
      · simp [task, setState, setProgress, setBusy, destroy]
      · intro open_
        rw [TaskView.finished_of_destroyed (by simp [task, setProgress, destroy])] at open_
        cases open_
      · simp [task, setProgress, destroy]
    · intro n waiting
      simp [setProgress, destroy, Progress.waitsFor] at waiting
  · rename_i plain
    rw [FutureState.promiseFinalSuspend_eq] at done
    cases root : (s.states p).getScheduler (s.rootScheduler p) with
    | none => simp [root, bind, Except.bind] at done
    | some own =>
        simp only [root, bind, Except.bind, Except.ok.injEq] at done
        subst done
        refine registered.bodyStep (m := p) rfl rfl ⟨born, born⟩ present ?_ rfl
          (fun _ => List.Subset.refl _) ?_ (fun other => absurd rfl other) ?_
        · intro n out _
          simp [task, update, setState, setProgress, setBusy, out, out.symm, Schedulers.call,
            Schedulers.entries_addGenerator, Schedulers.ready_delFinal _ _ _ _ _ out.symm]
        · intro _ kept
          refine kept.step (.inl begun) ?_ ?_ ?_
          · simp [task, update, setState, setProgress, setBusy]
          · intro open_
            rw [TaskView.finished_of_ended plain
              (by simp [task, setProgress, setBusy, Progress.ended])] at open_
            cases open_
          · intro _ x scheduler
            have scheduler : (s.states p).scheduler = some x := scheduler
            have here : own = x := by
              simpa [FutureState.getScheduler, scheduler] using root.symm
            simp [task, update, setState, setProgress, setBusy, Schedulers.call,
              Schedulers.entries_addGenerator, here]
        · intro n waiting
          simp [update, setState, setProgress, setBusy, Progress.waitsFor] at waiting

end Runtime

end Librf
