import Librf.Runtime.Record

/-!
# What a step of a body does to the records of the coroutines
-/

namespace Librf

namespace Runtime

variable {α ε : Type*} {s t : Runtime α ε} {home : Nat}

def IsCoroutine (s : Runtime α ε) (n : Nat) : Prop :=
  (∃ kind, s.classes n = .future kind) ∧ s.progress n ≠ .absent

instance (s : Runtime α ε) (n : Nat) : Decidable (s.IsCoroutine n) :=
  have class_ : Decidable (∃ kind, s.classes n = .future kind) :=
    match s.classes n with
    | .future kind => isTrue ⟨kind, rfl⟩
    | .passing => isFalse (by simp)
    | .generator => isFalse (by simp)
    | .waiter => isFalse (by simp)
  @instDecidableAnd _ _ class_ inferInstance

def Unused (s : Runtime α ε) (n : Nat) : Prop := s.goes n = [] ∧ s.awaits n = []

instance (s : Runtime α ε) (n : Nat) : Decidable (s.Unused n) := inferInstanceAs (Decidable (_ ∧ _))

/-- One scheduler; each coroutine of a `future_t` is started by `go` once or awaited once before it
was started, and only started ones yield. -/
def OnceEach (home : Nat) (s : Runtime α ε) : RuntimeAction α ε → Prop
  | .go sch n => sch = home ∧ (s.IsCoroutine n → s.Unused n)
  | .swap sch | .resume sch => sch = home
  | .body _ (.transform m) => s.IsCoroutine m → s.Unused m
  | .body sch (.yieldValue _) => ∀ p, (s.schedulers sch).busy = some p → s.goes p ≠ []
  | .body _ (.via _) => False
  | _ => True

instance (home : Nat) (s : Runtime α ε) (action : RuntimeAction α ε) :
    Decidable (OnceEach home s action) :=
  match action with
  | .newCoroutine _ | .newGenerator | .newAwaitable _ | .complete _ _ | .notify _ => isTrue trivial
  | .go sch n => inferInstanceAs (Decidable (sch = home ∧ (s.IsCoroutine n → s.Unused n)))
  | .swap sch | .resume sch => inferInstanceAs (Decidable (sch = home))
  | .body sch action => match action with
    | .transform m => inferInstanceAs (Decidable (s.IsCoroutine m → s.Unused m))
    | .yieldValue _ => inferInstanceAs (Decidable (∀ p ∈ (s.schedulers sch).busy, s.goes p ≠ []))
    | .via _ => isFalse id
    | .test | .suspend | .pause | .park | .finish _ | .finalSuspend => isTrue trivial

structure Unborn (home : Nat) (s : Runtime α ε) (n : Nat) : Prop where
  scheduler : (s.states n).scheduler = none
  unused : s.Unused n
  wakeups : s.wakeups n = 0
  destroyed : s.destroyed n = 0
  entries : s.schedulers.entries home n = 0

structure Framed (home : Nat) (s : Runtime α ε) : Prop where
  stage : ∀ n, s.IsCoroutine n → Stage home n (s.record home n)
  called : ∀ p m, s.IsCoroutine m → (s.progress p = .transformed m ∨ s.progress p = .unready m) →
    s.progress m = .initial ∧ (s.states m).coro = none ∧ s.awaits m = [p]
  busy : ∀ p, (s.progress p).active = true → (s.schedulers home).busy = some p
  only : ∀ sch p, (s.schedulers sch).busy = some p → sch = home
  unborn : ∀ n, s.created ≤ n → s.Unborn home n

theorem Framed.change (framed : s.Framed home) (touched : Nat → Prop)
    (classes : t.classes = s.classes) (created : t.created = s.created)
    (same : ∀ n, ¬ touched n → t.record home n = s.record home n)
    (stage : ∀ n, touched n → t.IsCoroutine n → Stage home n (t.record home n))
    (called : ∀ p m, touched p ∨ touched m → t.IsCoroutine m →
      (t.progress p = .transformed m ∨ t.progress p = .unready m) →
      t.progress m = .initial ∧ (t.states m).coro = none ∧ t.awaits m = [p])
    (busy : ∀ p, (t.progress p).active = true → (t.schedulers home).busy = some p)
    (only : ∀ sch p, (t.schedulers sch).busy = some p → sch = home)
    (born : ∀ n, touched n → n < s.created) : t.Framed home := by
  have progress : ∀ n, ¬ touched n → t.progress n = s.progress n :=
    fun n out => congrArg Record.progress (same n out)
  have coroutine : ∀ n, ¬ touched n → t.IsCoroutine n → s.IsCoroutine n := by
    intro n out here
    rwa [IsCoroutine, classes, progress n out] at here
  constructor
  · intro n here
    by_cases on : touched n
    · exact stage n on here
    · rw [same n on]
      exact framed.stage n (coroutine n on here)
  · intro p m here awaits
    by_cases on : touched p ∨ touched m
    · exact called p m on here awaits
    · rw [not_or] at on
      rw [progress p on.1] at awaits
      have before := framed.called p m (coroutine m on.2 here) awaits
      have coro : (t.states m).coro = (s.states m).coro := congrArg Record.coro (same m on.2)
      have history : t.awaits m = s.awaits m := congrArg Record.awaits (same m on.2)
      rwa [progress m on.2, coro, history]
  · exact busy
  · exact only
  · intro n new
    rw [created] at new
    have out : ¬ touched n := fun on => absurd (born n on) (Nat.not_lt_of_le new)
    have before := framed.unborn n new
    have equal := same n out
    constructor
    · exact (congrArg Record.scheduler equal).trans before.scheduler
    · exact ⟨(congrArg Record.goes equal).trans before.unused.1,
        (congrArg Record.awaits equal).trans before.unused.2⟩
    · exact (congrArg Record.wakeups equal).trans before.wakeups
    · exact (congrArg Record.destroyed equal).trans before.destroyed
    · exact (congrArg Record.entries equal).trans before.entries

theorem Framed.alone (framed : s.Framed home) {p q : Nat} (busy : (s.schedulers home).busy = some p)
    (active : (s.progress q).active = true) : q = p :=
  Option.some.inj ((framed.busy q active).symm.trans busy)

theorem Framed.busy_of_body (framed : s.Framed home) {p : Nat}
    (here : (s.schedulers home).busy = some p) (others : ∀ q, q ≠ p → t.progress q = s.progress q)
    (busy : (t.schedulers home).busy = some p ∨ (t.progress p).active = false) :
    ∀ q, (t.progress q).active = true → (t.schedulers home).busy = some q := by
  intro q active
  by_cases self : q = p
  · subst self
    rcases busy with busy | passive
    · exact busy
    · rw [passive] at active
      cases active
  · rw [others q self] at active
    exact absurd (framed.alone here active) self

theorem Framed.bodyStep (framed : s.Framed home) {p m : Nat}
    (busy : (s.schedulers home).busy = some p) (classes : t.classes = s.classes)
    (created : t.created = s.created) (born : p < s.created ∧ m < s.created)
    (same : ∀ n, n ≠ p → n ≠ m → t.record home n = s.record home n)
    (progress_m : m ≠ p → t.progress m = s.progress m)
    (stage_p : t.IsCoroutine p → Stage home p (t.record home p))
    (stage_m : m ≠ p → t.IsCoroutine m → Stage home m (t.record home m))
    (called : ∀ x, t.IsCoroutine x → (t.progress p = .transformed x ∨ t.progress p = .unready x) →
      t.progress x = .initial ∧ (t.states x).coro = none ∧ t.awaits x = [p])
    (busy' : (t.schedulers home).busy = some p ∨
      (t.schedulers home).busy = none ∧ (t.progress p).active = false)
    (only : ∀ sch, sch ≠ home → (t.schedulers sch).busy = (s.schedulers sch).busy) :
    t.Framed home := by
  have others : ∀ q, q ≠ p → t.progress q = s.progress q := by
    intro q out
    by_cases here : q = m
    · subst here
      exact progress_m out
    · exact congrArg Record.progress (same q out here)
  have busy_t := framed.busy_of_body busy others (busy'.imp id And.right)
  refine framed.change (t := t) (fun n => n = p ∨ n = m) classes created ?_ ?_ ?_ busy_t ?_ ?_
  · intro n out
    rw [not_or] at out
    exact same n out.1 out.2
  · intro n on here
    by_cases self : n = p
    · subst self
      exact stage_p here
    · have : n = m := on.resolve_left self
      subst this
      exact stage_m self here
  · intro q x _ here awaits
    have active : (t.progress q).active = true := by
      rcases awaits with awaits | awaits <;> rw [awaits] <;> rfl
    have self : q = p := by
      by_contra out
      rw [others q out] at active
      exact out (framed.alone busy active)
    subst self
    exact called x here awaits
  · intro sch q runs
    by_contra away
    rw [only sch away] at runs
    exact away (framed.only sch q runs)
  · rintro n (rfl | rfl)
    · exact born.1
    · exact born.2

theorem getScheduler_of_some {n sch : Nat} (here : (s.states n).scheduler = some sch) :
    s.getScheduler n = some sch := by
  simp [getScheduler, FutureState.getScheduler, here]

theorem Framed.beginAwait (framed : s.Framed home) {p m : Nat} (coroutine : s.IsCoroutine p)
    (busy : (s.schedulers home).busy = some p) (now : s.progress p = .running)
    (born : p < s.created ∧ m < s.created) (unused : s.IsCoroutine m → s.Unused m) :
    (s.beginAwait p m).Framed home := by
  have stage_p := framed.stage p coroutine
  have scheduler : s.getScheduler p = some home := by
    apply getScheduler_of_some
    exact stage_p.scheduler_of_active (by simp [record, now, Progress.active])
  have fresh : s.IsCoroutine m → s.record home m =
      ⟨.initial, .initial, none, none, true, [], [], 0, 0, 0⟩ :=
    fun here => (framed.stage m here).of_unused (unused here).1 (unused here).2
  have other : m ≠ p := by
    rintro rfl
    have := congrArg Record.progress (fresh coroutine)
    rw [show (s.record home m).progress = .running from now] at this
    cases this
  have progress_m : (s.beginAwait p m).progress m = s.progress m := Function.update_of_ne other ..
  have before : (s.beginAwait p m).IsCoroutine m → s.IsCoroutine m := by
    rintro ⟨class_, present⟩
    exact ⟨class_, progress_m ▸ present⟩
  refine framed.bodyStep (t := s.beginAwait p m) busy rfl rfl born ?_ (fun _ => progress_m) ?_ ?_ ?_
    (.inl busy) (fun _ _ => rfl)
  · intro n p_out m_out
    simp [record, Runtime.beginAwait, setState, setProgress, p_out, m_out]
  · intro _
    have same : (s.beginAwait p m).record home p =
        { s.record home p with progress := .transformed m } := by
      simp [record, Runtime.beginAwait, setState, setProgress, other.symm]
    rw [same]
    exact stage_p.walk (by simp [record, now, Progress.inBody]) rfl
  · intro _ here
    have same : (s.beginAwait p m).record home m =
        { s.record home m with scheduler := some home, awaits := s.awaits m ++ [p] } := by
      simp [record, Runtime.beginAwait, setState, setProgress, other, scheduler]
    rw [same, fresh (before here), (unused (before here)).2]
    exact .called p
  · intro x here awaits
    have target : x = m := by
      simpa [Runtime.beginAwait, setProgress, setState, eq_comm] using awaits
    subst target
    have record := fresh (before here)
    refine ⟨progress_m.trans (congrArg Record.progress record), ?_, ?_⟩
    · have : (s.states x).coro = none := congrArg Record.coro record
      simpa [Runtime.beginAwait, setState, setProgress] using this
    · simp [Runtime.beginAwait, setState, setProgress, (unused (before here)).2]

theorem setProgress_record {n p : Nat} (out : n ≠ p) (x : Progress) :
    (s.setProgress p x).record home n = s.record home n := by
  simp [record, setProgress, out]

theorem setProgress_record_self (p : Nat) (x : Progress) :
    (s.setProgress p x).record home p = { s.record home p with progress := x } := by
  simp [record, setProgress]

theorem readResult_record (m n : Nat) : (s.readResult m).record home n = s.record home n := by
  by_cases here : n = m
  · subst here
    have frame := (s.states n).futureAwaitResume_frame (s.kind n)
    simp [record, readResult, setState, frame]
  · simp [record, readResult, setState, here]

theorem Framed.testReady (framed : s.Framed home) {p m : Nat} (coroutine : s.IsCoroutine p)
    (busy : (s.schedulers home).busy = some p) (now : s.progress p = .transformed m)
    (born : p < s.created) : (s.testReady p m).Framed home := by
  have stage_p := framed.stage p coroutine
  have inBody : (s.record home p).progress.inBody = true := by simp [record, now, Progress.inBody]
  by_cases ready : (s.states m).futureAwaitReady = true
  · have after : s.testReady p m = (s.readResult m).setProgress p .running := if_pos ready
    rw [after]
    refine framed.bodyStep (t := (s.readResult m).setProgress p .running) (m := p) busy rfl rfl
      ⟨born, born⟩ ?_ (fun other => absurd rfl other) ?_ (fun other => absurd rfl other) ?_
      (.inl busy) (fun _ _ => rfl)
    · intro n out _
      rw [setProgress_record out, readResult_record]
    · intro _
      rw [setProgress_record_self, readResult_record]
      exact stage_p.walk inBody rfl
    · intro x _ awaits
      simp [setProgress] at awaits
  · have after : s.testReady p m = s.setProgress p (.unready m) := if_neg ready
    rw [after]
    refine framed.bodyStep (t := s.setProgress p (.unready m)) (m := p) busy rfl rfl ⟨born, born⟩
      (fun n out _ => setProgress_record out _) (fun other => absurd rfl other) ?_
      (fun other => absurd rfl other) ?_ (.inl busy) (fun _ _ => rfl)
    · intro _
      rw [setProgress_record_self]
      exact stage_p.walk inBody rfl
    · intro x here awaits
      have target : x = m := by simpa [setProgress, eq_comm] using awaits
      subst target
      have before : s.IsCoroutine x := by
        by_cases self : x = p
        · exact self ▸ coroutine
        · exact ⟨here.1, by simpa [setProgress, self] using here.2⟩
      obtain ⟨initial, coro, history⟩ := framed.called p x before (.inl now)
      have other : x ≠ p := by
        rintro rfl
        rw [now] at initial
        cases initial
      refine ⟨?_, coro, history⟩
      simpa [setProgress, other] using initial

/-! ### Suspending -/

theorem Framed.suspendStep (framed : s.Framed home) {p m : Nat}
    (busy : (s.schedulers home).busy = some p) (classes : t.classes = s.classes)
    (created : t.created = s.created) (born : p < s.created ∧ m < s.created)
    (same : ∀ n, n ≠ p → n ≠ m → t.record home n = s.record home n)
    (progress_m : m ≠ p → t.progress m = s.progress m)
    (stage_p : t.IsCoroutine p → Stage home p (t.record home p))
    (stage_m : m ≠ p → t.IsCoroutine m → Stage home m (t.record home m))
    (passive : (t.progress p).active = false)
    (idle : (t.schedulers home).busy = none)
    (only : ∀ sch, sch ≠ home → (t.schedulers sch).busy = (s.schedulers sch).busy) :
    t.Framed home := by
  refine framed.bodyStep busy classes created born same progress_m stage_p stage_m ?_
    (.inr ⟨idle, passive⟩) only
  rintro x - (awaits | awaits)
  · rw [awaits] at passive
    cases passive
  · rw [awaits] at passive
    cases passive

theorem Framed.suspendAwait (framed : s.Framed home) {p m : Nat} (coroutine : s.IsCoroutine p)
    (busy : (s.schedulers home).busy = some p) (now : s.progress p = .unready m)
    (born : p < s.created ∧ m < s.created) : (s.suspendAwait home p m).Framed home := by
  have stage_p := framed.stage p coroutine
  have scheduler : s.getScheduler p = some home := by
    apply getScheduler_of_some
    exact stage_p.scheduler_of_active (by simp [record, now, Progress.active])
  have called : s.IsCoroutine m →
      s.progress m = .initial ∧ (s.states m).coro = none ∧ s.awaits m = [p] :=
    fun here => framed.called p m here (.inr now)
  have handle := futureAwaitSuspend_handle (s.states m) (some m) p (some home)
  have other : m ≠ p := by
    rintro rfl
    have := (called coroutine).1
    rw [now] at this
    cases this
  refine framed.suspendStep (t := s.suspendAwait home p m) busy rfl rfl born ?_ ?_ ?_ ?_ ?_ ?_ ?_
  · intro n p_out m_out
    simp [record, Runtime.suspendAwait, update, setState, setProgress, setBusy, p_out, m_out,
      Schedulers.entries_calls, m_out.symm]
  · exact fun _ => Function.update_of_ne other ..
  · intro _
    have self : (s.suspendAwait home p m).record home p =
        { s.record home p with progress := .awaiting m } := by
      simp [record, Runtime.suspendAwait, update, setState, setProgress, setBusy, other.symm,
        Schedulers.entries_calls, other]
    rw [self]
    exact stage_p.walk (by simp [record, now, Progress.inBody]) rfl
  · intro _ here
    have before : s.IsCoroutine m := ⟨here.1, by
      have := here.2
      rwa [show (s.suspendAwait home p m).progress m = s.progress m from
        Function.update_of_ne other ..] at this⟩
    obtain ⟨initial, coro, history⟩ := called before
    have was := (framed.stage m before).of_called initial coro history
    simp only [record, Record.mk.injEq] at was
    obtain ⟨-, isInitor, -, -, isFuture, goes, -, wakeups, destroyed, entries⟩ := was
    have after : (s.suspendAwait home p m).record home m =
        ⟨.initial, .initial, some p, some home, true, [], [p], 0, 0, 1⟩ := by
      simp [record, Runtime.suspendAwait, update, setState, setProgress, setBusy, Schedulers.call,
        Schedulers.entries_addGenerator, FutureState.futureAwaitSuspend, FutureState.isReady, *]
    rw [after]
    exact .queued p
  · simp [Runtime.suspendAwait, update, setState, setProgress, setBusy, Progress.active]
  · simp [Runtime.suspendAwait, update, setState, setProgress, setBusy, Schedulers.busy_setBusy]
  · intro sch away
    simp [Runtime.suspendAwait, update, setState, setProgress, setBusy, Schedulers.busy_setBusy,
      away]

theorem Framed.born (framed : s.Framed home) (sound : s.handles.Sound) (cls : StateClass) :
    Framed home { s with
      classes := Function.update s.classes s.created cls
      created := s.created + 1 } := by
  have absent : ∀ n, s.created ≤ n → s.progress n = .absent := fun n new => (sound.fresh n new).1
  have before : ∀ n, IsCoroutine { s with
      classes := Function.update s.classes s.created cls
      created := s.created + 1 } n → s.IsCoroutine n := by
    rintro n ⟨class_, present⟩
    have old : n ≠ s.created := by
      rintro rfl
      exact present (absent _ (Nat.le_refl _))
    exact ⟨by simpa [old] using class_, present⟩
  refine ⟨fun n here => framed.stage n (before n here), fun p m here => framed.called p m (before m here),
    framed.busy, framed.only, fun n new => ?_⟩
  obtain ⟨scheduler, unused, wakeups, destroyed, entries⟩ :=
    framed.unborn n (Nat.le_of_succ_le new)
  exact ⟨scheduler, unused, wakeups, destroyed, entries⟩

theorem Framed.pause (framed : s.Framed home) (sound : s.handles.Sound) {p : Nat}
    (coroutine : s.IsCoroutine p) (busy : (s.schedulers home).busy = some p)
    (now : s.progress p = .running) (born : p < s.created) : (s.pause home p).Framed home := by
  have stage_p := framed.stage p coroutine
  have other : s.created ≠ p := Nat.ne_of_gt born
  refine (framed.born sound .passing).suspendStep (t := s.pause home p) (m := s.created) busy rfl rfl
    ⟨Nat.lt_succ_of_lt born, Nat.lt_succ_self _⟩ ?_ ?_ ?_ ?_ ?_ ?_ ?_
  · intro n p_out m_out
    simp [record, Runtime.pause, update, setState, setProgress, setBusy, p_out, m_out,
      Schedulers.entries_calls, m_out.symm]
  · exact fun _ => Function.update_of_ne other ..
  · intro _
    have self : (s.pause home p).record home p =
        { s.record home p with progress := .awaiting s.created } := by
      simp [record, Runtime.pause, update, setState, setProgress, setBusy, other.symm,
        Schedulers.entries_calls, other]
    rw [self]
    exact stage_p.walk (by simp [record, now, Progress.inBody]) rfl
  · rintro _ ⟨⟨kind, class_⟩, -⟩
    simp [Runtime.pause, update, setState, setProgress, setBusy] at class_
  · simp [Runtime.pause, update, setState, setProgress, setBusy, Progress.active]
  · simp [Runtime.pause, update, setState, setProgress, setBusy, Schedulers.busy_setBusy]
  · intro sch away
    simp [Runtime.pause, update, setState, setProgress, setBusy, Schedulers.busy_setBusy, away]

theorem Framed.park (framed : s.Framed home) (sound : s.handles.Sound) {p : Nat}
    (coroutine : s.IsCoroutine p) (busy : (s.schedulers home).busy = some p)
    (now : s.progress p = .running) (born : p < s.created) : (s.park home p).Framed home := by
  have stage_p := framed.stage p coroutine
  have other : s.created ≠ p := Nat.ne_of_gt born
  refine (framed.born sound .waiter).suspendStep (t := s.park home p) (m := s.created) busy rfl rfl
    ⟨Nat.lt_succ_of_lt born, Nat.lt_succ_self _⟩ ?_ ?_ ?_ ?_ ?_ ?_ ?_
  · intro n p_out m_out
    simp [record, Runtime.park, setState, setProgress, setBusy, p_out, m_out]
  · exact fun _ => Function.update_of_ne other ..
  · intro _
    have self : (s.park home p).record home p =
        { s.record home p with progress := .awaiting s.created } := by
      simp [record, Runtime.park, setState, setProgress, setBusy, other.symm]
    rw [self]
    exact stage_p.walk (by simp [record, now, Progress.inBody]) rfl
  · rintro _ ⟨⟨kind, class_⟩, -⟩
    simp [Runtime.park, setState, setProgress, setBusy] at class_
  · simp [Runtime.park, setState, setProgress, setBusy, Progress.active]
  · simp [Runtime.park, setState, setProgress, setBusy, Schedulers.busy_setBusy]
  · intro sch away
    simp [Runtime.park, setState, setProgress, setBusy, Schedulers.busy_setBusy, away]

theorem Framed.yieldValue (framed : s.Framed home) {p : Nat} (v : α)
    (busy : (s.schedulers home).busy = some p) (now : s.progress p = .running)
    (born : p < s.created) (task : s.goes p ≠ []) : (s.yieldValue home p v).Framed home := by
  unfold Runtime.yieldValue
  split
  · rename_i class_
    refine framed.suspendStep (m := p) busy rfl rfl ⟨born, born⟩ ?_ (fun other => absurd rfl other)
      ?_ (fun other => absurd rfl other) ?_ ?_ ?_
    · intro n out _
      cases owner : (s.states p).scheduler <;>
        simp [record, setProgress, setBusy, out, out.symm, owner, Schedulers.entries_addGenerator]
    · rintro ⟨⟨kind, here⟩, -⟩
      have here : s.classes p = .future kind := here
      rw [class_] at here
      cases here
    · simp [setProgress, setBusy, Progress.active]
    · cases owner : (s.states p).scheduler <;>
        simp [setProgress, setBusy, owner, Schedulers.busy_setBusy]
    · intro sch away
      cases owner : (s.states p).scheduler <;>
        simp [setProgress, setBusy, owner, Schedulers.busy_setBusy, away]
  · rename_i class_
    refine framed.suspendStep (m := p) busy rfl rfl ⟨born, born⟩ ?_ (fun other => absurd rfl other)
      ?_ (fun other => absurd rfl other) ?_ ?_ ?_
    · intro n out _
      simp [record, update, setState, setProgress, setBusy, out, out.symm,
        Schedulers.entries_calls]
    · rintro ⟨here, -⟩
      have stage_p := framed.stage p ⟨here, by simp [now]⟩
      rcases stage_p.of_inBody (by simp [record, now, Progress.inBody]) with ⟨q, was⟩ | was
      · simp only [record, Record.mk.injEq] at was
        exact absurd was.2.2.2.2.2.1 task
      · simp only [record, Record.mk.injEq] at was
        obtain ⟨-, isInitor, coro, scheduler, isFuture, goes, awaits, wakeups, destroyed, entries⟩ :=
          was
        have root : (s.states p).getScheduler (s.rootScheduler p) = some home :=
          getScheduler_of_some scheduler
        have after : ((((s.update p ((s.states p).promiseYieldValue (s.kind p) v p
            (s.rootScheduler p))).setProgress p .yielded).setBusy home none).record home p) =
            ⟨.yielded, .none, some p, some home, true, [home], [], 0, 0, 1⟩ := by
          simp [record, update, setState, setProgress, setBusy, Schedulers.call,
            Schedulers.entries_addGenerator, FutureState.promiseYieldValue_state,
            FutureState.promiseYieldValue_calls, *]
        rw [after]
        exact .yielded
    · simp [update, setState, setProgress, setBusy, Progress.active]
    · simp [update, setState, setProgress, setBusy, Schedulers.busy_setBusy]
    · intro sch away
      simp [update, setState, setProgress, setBusy, Schedulers.busy_setBusy, away]

/-! ### The end of a body -/

theorem afterFinish_atEnd (o : Outcome α ε) : (afterFinish o).atEnd = true := by
  cases o <;> rfl

theorem Framed.finish (framed : s.Framed home) {p : Nat} (o : Outcome α ε)
    (busy : (s.schedulers home).busy = some p)
    (now : s.progress p = .running ∨ s.progress p = .returned) (born : p < s.created) :
    (s.finish p o).Framed home := by
  have passed : ∀ x, afterFinish o ≠ .transformed x ∧ afterFinish o ≠ .unready x := by
    cases o <;> simp [afterFinish]
  unfold Runtime.finish
  split
  · rename_i class_
    refine framed.bodyStep (t := s.setProgress p (afterFinish o)) (m := p) busy rfl rfl
      ⟨born, born⟩ (fun n out _ => setProgress_record out _) (fun other => absurd rfl other) ?_
      (fun other => absurd rfl other) ?_ (.inl busy) (fun _ _ => rfl)
    · rintro ⟨⟨kind, here⟩, -⟩
      have here : s.classes p = .future kind := here
      rw [class_] at here
      cases here
    · intro x _ awaits
      simp [setProgress, passed] at awaits
  · have present : s.progress p ≠ .absent := by
      rcases now with now | now <;> simp [now]
    refine framed.bodyStep (m := p) busy rfl rfl ⟨born, born⟩ ?_ (fun other => absurd rfl other) ?_
      (fun other => absurd rfl other) ?_ (.inl ?_) ?_
    · intro n out _
      simp [record, update, setState, setProgress, out, out.symm, Schedulers.entries_calls]
    · rintro ⟨here, -⟩
      have stage_p := framed.stage p ⟨here, present⟩
      -- what is queued now wakes the coroutine that awaits `p`
      have after (q k : Nat) (was : s.record home p =
          ⟨s.progress p, .none, some q, some home, true, [], [q], 0, 0, k⟩) :
          ((s.update p ((s.states p).complete (s.kind p) o (s.rootScheduler p))).setProgress p
            (afterFinish o)).record home p =
              ⟨afterFinish o, .none, some q, some home, true, [], [q], 0, 0, k + 1⟩ := by
        simp only [record, Record.mk.injEq] at was
        obtain ⟨-, isInitor, coro, scheduler, isFuture, goes, awaits, wakeups, destroyed, entries⟩ :=
          was
        have root : (s.states p).getScheduler (s.rootScheduler p) = some home :=
          getScheduler_of_some scheduler
        simp [record, update, setState, setProgress, Schedulers.call,
          Schedulers.entries_addGenerator, FutureState.complete_state,
          FutureState.complete_calls, FutureState.hasHandlerSkipLock, *]
      have taskAfter (was : s.record home p =
          ⟨s.progress p, .none, none, some home, true, [home], [], 0, 0, 0⟩) :
          ((s.update p ((s.states p).complete (s.kind p) o (s.rootScheduler p))).setProgress p
            (afterFinish o)).record home p =
              ⟨afterFinish o, .none, none, some home, true, [home], [], 0, 0, 0⟩ := by
        simp only [record, Record.mk.injEq] at was
        obtain ⟨-, isInitor, coro, scheduler, isFuture, goes, awaits, wakeups, destroyed, entries⟩ :=
          was
        have root : (s.states p).getScheduler (s.rootScheduler p) = some home :=
          getScheduler_of_some scheduler
        simp [record, update, setState, setProgress, Schedulers.call, FutureState.complete_state,
          FutureState.complete_calls, FutureState.hasHandlerSkipLock, *]
      rcases now with now | now
      · rcases stage_p.of_inBody (by simp [record, now, Progress.inBody]) with ⟨q, was⟩ | was
        · rw [after q 0 was]
          exact .ended q 1 _ (afterFinish_atEnd o) Nat.one_pos
        · rw [taskAfter was]
          exact .taskEnded _ (afterFinish_atEnd o)
      · rcases stage_p.of_atEnd (by simp [record, now, Progress.atEnd]) with
          ⟨q, k, queued, was⟩ | was
        · rw [after q k was]
          exact .ended q (k + 1) _ (afterFinish_atEnd o) (Nat.succ_pos k)
        · rw [taskAfter was]
          exact .taskEnded _ (afterFinish_atEnd o)
    · intro x _ awaits
      simp [setProgress, passed] at awaits
    · simpa [update, setState, setProgress] using busy
    · simp [update, setState, setProgress]

theorem Framed.finalSuspend (framed : s.Framed home) {p : Nat}
    (busy : (s.schedulers home).busy = some p)
    (now : s.progress p = .returned ∨ s.progress p = .failed) (born : p < s.created)
    (done : s.finalSuspend home p = .ok t) : t.Framed home := by
  unfold Runtime.finalSuspend at done
  split at done
  · rename_i class_
    cases done
    refine framed.suspendStep (m := p) busy rfl rfl ⟨born, born⟩ ?_ (fun other => absurd rfl other)
      ?_ (fun other => absurd rfl other) ?_ ?_ ?_
    · intro n out _
      cases owner : (s.states p).scheduler <;>
        simp [record, setState, setProgress, setBusy, destroy, out]
    · rintro ⟨⟨kind, here⟩, -⟩
      have here : s.classes p = .future kind := here
      rw [class_] at here
      cases here
    · simp [destroy, setProgress, Progress.active]
    · cases owner : (s.states p).scheduler <;>
        simp [setState, setProgress, setBusy, destroy, Schedulers.busy_setBusy]
    · intro sch away
      cases owner : (s.states p).scheduler <;>
        simp [setState, setProgress, setBusy, destroy, Schedulers.busy_setBusy, away]
  · rename_i class_
    have present : s.progress p ≠ .absent := by
      rcases now with now | now <;> simp [now]
    have atEnd : (s.record home p).progress.atEnd = true := by
      rcases now with now | now <;> simp [record, now, Progress.atEnd]
    rw [FutureState.promiseFinalSuspend_eq] at done
    cases root : (s.states p).getScheduler (s.rootScheduler p) with
    | none => simp [root, bind, Except.bind] at done
    | some sch =>
        simp only [root, bind, Except.bind, Except.ok.injEq] at done
        subst done
        refine framed.suspendStep (m := p) busy rfl rfl ⟨born, born⟩ ?_
          (fun other => absurd rfl other) ?_ (fun other => absurd rfl other) ?_ ?_ ?_
        · intro n out _
          simp [record, update, setState, setProgress, setBusy, out, out.symm, Schedulers.call,
            Schedulers.entries_addGenerator]
        · rintro ⟨here, -⟩
          have stage_p := framed.stage p ⟨here, present⟩
          have after (coro : Option Nat) (goes awaits : List Nat) (k : Nat) (was : s.record home p =
              ⟨s.progress p, .none, coro, some home, true, goes, awaits, 0, 0, k⟩) :
              (((s.update p ({ s.states p with isInitor := .final },
                [.addGenerator sch, .delFinal sch])).setProgress p .final).setBusy home none).record
                  home p = ⟨.final, .final, coro, some home, true, goes, awaits, 0, 0, k + 1⟩ := by
            simp only [record, Record.mk.injEq] at was
            obtain ⟨-, isInitor, coro, scheduler, isFuture, goes, awaits, wakeups, destroyed,
              entries⟩ := was
            have own : sch = home :=
              Option.some.inj (root.symm.trans (getScheduler_of_some scheduler))
            simp [record, update, setState, setProgress, setBusy, Schedulers.call,
              Schedulers.entries_addGenerator, *]
          rcases stage_p.of_atEnd atEnd with ⟨q, k, queued, was⟩ | was
          · rw [after (some q) [] [q] k was]
            exact .final q (k + 1) (Nat.succ_lt_succ queued)
          · rw [after none [home] [] 0 was]
            exact .taskFinal
        · simp [update, setState, setProgress, setBusy, Progress.active]
        · simp [update, setState, setProgress, setBusy, Schedulers.busy_setBusy]
        · intro other away
          simp [update, setState, setProgress, setBusy, Schedulers.busy_setBusy, Schedulers.call,
            away]

end Runtime

end Librf
