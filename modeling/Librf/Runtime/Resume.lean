import Librf.Runtime.Frames

/-!
# What the other steps do to the records of the coroutines
-/

namespace Librf

namespace Runtime

variable {α ε : Type*} {s t : Runtime α ε} {home : Nat}

theorem Framed.outside (framed : s.Framed home) (touched : Nat → Prop)
    (classes : t.classes = s.classes) (created : t.created = s.created)
    (progress : t.progress = s.progress)
    (busy : ∀ sch, (t.schedulers sch).busy = (s.schedulers sch).busy)
    (same : ∀ n, ¬ touched n → t.record home n = s.record home n)
    (stage : ∀ n, touched n → t.IsCoroutine n → Stage home n (t.record home n))
    (unused : ∀ n, touched n → s.IsCoroutine n → s.Unused n)
    (born : ∀ n, touched n → n < s.created) : t.Framed home := by
  have coroutine : ∀ n, t.IsCoroutine n → s.IsCoroutine n := by
    rintro n ⟨class_, present⟩
    rw [classes] at class_
    rw [progress] at present
    exact ⟨class_, present⟩
  refine framed.change (t := t) touched classes created same stage ?_ ?_ ?_ born
  · intro p m on here awaits
    rw [progress] at awaits
    obtain ⟨initial, coro, history⟩ := framed.called p m (coroutine m here) awaits
    have out : ¬ touched m := by
      intro on
      rw [(unused m on (coroutine m here)).2] at history
      cases history
    have record := same m out
    exact ⟨(congrArg Record.progress record).trans initial,
      (congrArg Record.coro record).trans coro, (congrArg Record.awaits record).trans history⟩
  · intro p active
    rw [progress] at active
    rw [busy]
    exact framed.busy p active
  · intro sch p runs
    rw [busy] at runs
    exact framed.only sch p runs

theorem Framed.newTask (framed : s.Framed home) {n : Nat} (born : n < s.created)
    (unused : s.IsCoroutine n → s.Unused n) : (s.newTask home n).Framed home := by
  refine framed.outside (t := s.newTask home n) (· = n) rfl rfl rfl ?_ ?_ ?_ ?_ ?_
  · intro sch
    rw [newTask_schedulers]
    split <;> simp
  · intro x out
    have entries : (s.newTask home n).schedulers.entries home x = s.schedulers.entries home x := by
      rw [newTask_schedulers]
      split <;> simp [Ne.symm out, Schedulers.entries_addGenerator]
    simp only [record, entries]
    simp [Runtime.newTask, setState, out]
  · rintro x rfl here
    have before : s.IsCoroutine x := here
    have was := (framed.stage x before).of_unused (unused before).1 (unused before).2
    simp only [record, Record.mk.injEq] at was
    obtain ⟨progress, isInitor, coro, -, isFuture, goes, awaits, wakeups, destroyed, entries⟩ := was
    obtain ⟨kind, class_⟩ := before.1
    have after : (s.newTask home x).record home x =
        ⟨.initial, .initial, none, some home, true, [home], [], 0, 0, 1⟩ := by
      simp [record, Runtime.newTask, setState, hasHandler, FutureState.hasHandlerSkipLock,
        Schedulers.entries_addGenerator, *]
    rw [after]
    exact .started
  · rintro x rfl
    exact unused
  · rintro x rfl
    exact born

theorem Framed.complete (framed : s.Framed home) {n : Nat} (kind : Kind) (o : Outcome α ε)
    (born : n < s.created) (awaitable : (s.states n).isFuture = false) :
    (s.update n ((s.states n).complete kind o (s.rootScheduler n))).Framed home := by
  have none : ¬ s.IsCoroutine n := by
    intro here
    rw [show (s.states n).isFuture = true from (framed.stage n here).isFuture] at awaitable
    cases awaitable
  refine framed.outside (t := s.update n _) (· = n) rfl rfl rfl ?_ ?_ ?_ ?_ ?_
  · intro sch
    simp [update]
  · intro x out
    simp [record, update, setState, out, Ne.symm out, Schedulers.entries_calls]
  · rintro x rfl here
    exact absurd here none
  · rintro x rfl here
    exact absurd here none
  · rintro x rfl
    exact born

theorem Framed.notify (framed : s.Framed home) {w : Nat} (sch : Nat) (born : w < s.created)
    (waiter : s.classes w = .waiter) :
    Framed home { s with schedulers := s.schedulers.addGenerator sch w } := by
  refine framed.outside (· = w) rfl rfl rfl (by simp) ?_ ?_ ?_ ?_
  · intro x out
    simp [record, Ne.symm out, Schedulers.entries_addGenerator]
  · rintro x rfl ⟨⟨kind, here⟩, -⟩
    rw [show s.classes x = _ from here] at waiter
    cases waiter
  · rintro x rfl ⟨⟨kind, here⟩, -⟩
    rw [here] at waiter
    cases waiter
  · rintro x rfl
    exact born

theorem Framed.swap (framed : s.Framed home) (sch : Nat)
    (empty : (s.schedulers sch).cachedStates = []) : (s.swap sch).Framed home := by
  refine framed.outside (t := s.swap sch) (fun _ => False) rfl rfl rfl ?_ ?_ ?_ ?_ ?_
  · intro other
    by_cases here : other = sch <;> simp [Runtime.swap, Schedulers.modify, here]
  · intro x _
    by_cases here : home = sch
    · subst here
      simp [record, Runtime.swap, Schedulers.modify, Schedulers.entries, empty]
    · simp [record, Runtime.swap, Schedulers.modify, Schedulers.entries, here]
  all_goals simp

theorem Framed.add (framed : s.Framed home) (sound : s.handles.Sound) {cls : StateClass}
    {st : FutureState α ε} {progress : Progress} (passive : progress.active = false)
    (stage : (∃ kind, cls = .future kind) → progress ≠ .absent → Stage home s.created
      ⟨progress, st.isInitor, st.coro, st.scheduler, st.isFuture, [], [], 0, 0, 0⟩) :
    (s.add cls st progress).Framed home := by
  have new : s.progress s.created = .absent := (sound.fresh _ (Nat.le_refl _)).1
  have before : ∀ n, n ≠ s.created → (s.add cls st progress).IsCoroutine n → s.IsCoroutine n := by
    rintro n old ⟨class_, present⟩
    exact ⟨by simpa [Runtime.add, setState, setProgress, old] using class_,
      by simpa [Runtime.add, setState, setProgress, old] using present⟩
  have old_of : ∀ p m, (s.add cls st progress).progress p = .transformed m ∨
      (s.add cls st progress).progress p = .unready m → p ≠ s.created := by
    rintro p m awaits rfl
    have self : (s.add cls st progress).progress s.created = progress := Function.update_self ..
    rw [self] at awaits
    rcases awaits with rfl | rfl <;> cases passive
  have progress_of : ∀ p, p ≠ s.created → (s.add cls st progress).progress p = s.progress p :=
    fun p old => Function.update_of_ne old ..
  constructor
  · intro n here
    by_cases old : n = s.created
    · subst old
      obtain ⟨scheduler, ⟨goes, awaits⟩, wakeups, destroyed, entries⟩ :=
        framed.unborn s.created (Nat.le_refl _)
      obtain ⟨class_, present⟩ := here
      simp only [Runtime.add, setState, setProgress, Function.update_self] at class_ present
      have same : (s.add cls st progress).record home s.created =
          ⟨progress, st.isInitor, st.coro, st.scheduler, st.isFuture, [], [], 0, 0, 0⟩ := by
        simp [record, Runtime.add, setState, setProgress, *]
      rw [same]
      exact stage class_ present
    · have same : (s.add cls st progress).record home n = s.record home n := by
        simp [record, Runtime.add, setState, setProgress, old]
      rw [same]
      exact framed.stage n (before n old here)
  · intro p m here awaits
    have old := old_of p m awaits
    rw [progress_of p old] at awaits
    have target : m ≠ s.created := by
      rintro rfl
      obtain ⟨kind, class_⟩ := sound.target p s.created awaits
      have unborn : s.classes s.created = .waiter := (sound.fresh _ (Nat.le_refl _)).2
      have class_ : s.classes s.created = .future kind := class_
      rw [unborn] at class_
      cases class_
    have called := framed.called p m (before m target here) awaits
    simpa [Runtime.add, setState, setProgress, target] using called
  · intro p active
    by_cases old : p = s.created
    · subst old
      rw [show (s.add cls st progress).progress s.created = progress from
        Function.update_self ..] at active
      rw [passive] at active
      cases active
    · rw [progress_of p old] at active
      exact framed.busy p active
  · exact framed.only
  · intro n later
    have old : n ≠ s.created := Nat.ne_of_gt later
    obtain ⟨scheduler, unused, wakeups, destroyed, entries⟩ :=
      framed.unborn n (Nat.le_of_succ_le later)
    exact ⟨by simpa [Runtime.add, setState, setProgress, old] using scheduler, unused, wakeups,
      destroyed, entries⟩

/-! ### Resuming -/

theorem advance_record {n : Nat} {rest : List Nat}
    (next : (s.schedulers home).cachedStates = n :: rest) (x : Nat) :
    s.record home x =
      { (s.advance home rest).record home x with
        entries := (s.advance home rest).schedulers.entries home x + if n = x then 1 else 0 } := by
  by_cases here : n = x <;>
    simp [record, advance, Schedulers.modify, Schedulers.entries, next, here]

theorem arrive_record (p x : Nat) :
    (s.arrive p).record home x =
      { s.record home x with progress := if x = p then .running else s.progress x } := by
  unfold arrive
  by_cases here : x = p
  · subst here
    split
    · rw [setProgress_record_self, readResult_record, if_pos rfl]
    · rw [setProgress_record_self, if_pos rfl]
  · split
    · rw [setProgress_record here, readResult_record, if_neg here]
      rfl
    · rw [setProgress_record here, if_neg here]
      rfl

theorem countWakeup_record (u : Runtime α ε) (n x : Nat) :
    record { u with wakeups := Function.update u.wakeups n (u.wakeups n + 1) } home x =
      { u.record home x with wakeups := if x = n then u.wakeups x + 1 else u.wakeups x } := by
  by_cases here : x = n
  · subst here
    simp [record]
  · simp [record, here]

theorem wake_record (sch n p x : Nat) :
    (s.wake sch n p).record home x =
      { s.record home x with
        progress := if x = p then .running else (s.record home x).progress
        wakeups := (s.record home x).wakeups + if x = n ∧ p ≠ n then 1 else 0 } := by
  have arrived : ((s.arrive p).setBusy sch (some p)).record home x =
      { s.record home x with progress := if x = p then .running else s.progress x } := by
    rw [← arrive_record p x]
    simp [record, setBusy]
  have wakeups : ((s.arrive p).setBusy sch (some p)).wakeups = s.wakeups := by
    unfold arrive
    split <;> rfl
  unfold wake
  dsimp only
  split
  · rename_i self
    rw [arrived]
    simp [self, record]
  · rename_i other
    rw [countWakeup_record, arrived, wakeups]
    by_cases here : x = n <;> simp [other, here, record]

theorem wake_busy (u : Runtime α ε) (home n p sch : Nat) :
    ((u.wake home n p).schedulers sch).busy =
      if sch = home then some p else (u.schedulers sch).busy := by
  unfold wake arrive
  dsimp only
  split <;> split <;> simp [setBusy, setProgress, readResult, setState, Schedulers.busy_setBusy]

theorem Framed.resumeStep (framed : s.Framed home) {n p : Nat} (classes : t.classes = s.classes)
    (created : t.created = s.created) (born : n < s.created ∧ p < s.created)
    (same : ∀ x, x ≠ n → x ≠ p → t.record home x = s.record home x)
    (stage : ∀ x, x = n ∨ x = p → t.IsCoroutine x → Stage home x (t.record home x))
    (runs : ∀ q, (t.progress q).active = true →
      t.progress q = .running ∧ (t.schedulers home).busy = some q)
    (only : ∀ sch, sch ≠ home → (t.schedulers sch).busy = (s.schedulers sch).busy) :
    t.Framed home := by
  refine framed.change (t := t) (fun x => x = n ∨ x = p) classes created ?_ stage ?_
    (fun q active => (runs q active).2) ?_ ?_
  · intro x out
    rw [not_or] at out
    exact same x out.1 out.2
  · intro q x _ _ awaits
    have active : (t.progress q).active = true := by
      rcases awaits with awaits | awaits <;> rw [awaits] <;> rfl
    rw [(runs q active).1] at awaits
    rcases awaits with awaits | awaits <;> cases awaits
  · intro sch q busy
    by_contra away
    rw [only sch away] at busy
    exact away (framed.only sch q busy)
  · rintro x (rfl | rfl)
    · exact born.1
    · exact born.2

theorem Framed.idle (framed : s.Framed home) (idle : (s.schedulers home).busy = none) (q : Nat) :
    (s.progress q).active = false := by
  cases active : (s.progress q).active with
  | false => rfl
  | true =>
      rw [framed.busy q active] at idle
      cases idle

section Resume

variable {n : Nat} {rest : List Nat}

theorem entry_born (framed : s.Framed home) (next : (s.schedulers home).cachedStates = n :: rest) :
    n < s.created := by
  by_contra new
  have entries := (framed.unborn n (Nat.le_of_not_lt new)).entries
  simp [Schedulers.entries, next] at entries

theorem entry_record {r : Record} (next : (s.schedulers home).cachedStates = n :: rest)
    (was : s.record home n = r) :
    0 < r.entries ∧ (s.advance home rest).record home n = { r with entries := r.entries - 1 } := by
  subst was
  have split := congrArg Record.entries (advance_record next n)
  simp only [if_true] at split
  constructor
  · rw [split]
    exact Nat.succ_pos _
  · rw [split]
    rfl

theorem advance_other (next : (s.schedulers home).cachedStates = n :: rest) {x : Nat}
    (out : x ≠ n) : (s.advance home rest).record home x = s.record home x := by
  rw [advance_record next x, if_neg (Ne.symm out)]
  rfl

theorem advance_history (s : Runtime α ε) (rest : List Nat) :
    (s.advance home rest).goes = s.goes ∧ (s.advance home rest).awaits = s.awaits ∧
      (s.advance home rest).wakeups = s.wakeups ∧
      (s.advance home rest).destroyed = s.destroyed :=
  ⟨rfl, rfl, rfl, rfl⟩

theorem advance_only (s : Runtime α ε) (rest : List Nat) {sch : Nat} (away : sch ≠ home) :
    ((s.advance home rest).schedulers sch).busy = (s.schedulers sch).busy := by
  simp [advance, Schedulers.modify, away]

theorem Framed.nothing (framed : s.Framed home) (idle : (s.schedulers home).busy = none)
    (next : (s.schedulers home).cachedStates = n :: rest) (same : t.progress = s.progress)
    (classes : t.classes = s.classes) (created : t.created = s.created)
    (records : ∀ x, t.record home x = (s.advance home rest).record home x)
    (only : ∀ sch, sch ≠ home → (t.schedulers sch).busy = (s.schedulers sch).busy)
    (empty : s.IsCoroutine n → (s.states n).isInitor = .none ∧ (s.states n).coro = none) :
    t.Framed home := by
  have born := entry_born framed next
  refine framed.resumeStep (n := n) (p := n) classes created ⟨born, born⟩ ?_ ?_ ?_ only
  · intro x out _
    rw [records, advance_other next out]
  · intro x touched here
    have self : x = n := touched.elim id id
    subst self
    have before : s.IsCoroutine x := by
      rw [IsCoroutine, classes, same] at here
      exact here
    obtain ⟨isInitor, coro⟩ := empty before
    obtain ⟨queued, after⟩ := entry_record next rfl
    rw [records, after]
    exact (framed.stage x before).nothing queued isInitor coro
  · intro q active
    rw [same, framed.idle idle q] at active
    cases active

theorem Framed.wake (framed : s.Framed home) (sound : s.handles.Sound)
    (idle : (s.schedulers home).busy = none)
    (next : (s.schedulers home).cachedStates = n :: rest) {u : Runtime α ε} {p : Nat}
    (progress : u.progress = s.progress) (classes : u.classes = s.classes)
    (created : u.created = s.created)
    (records : ∀ x, u.record home x =
      { (s.advance home rest).record home x with
        coro := if x = n then none else (s.states x).coro })
    (only : ∀ sch, sch ≠ home → (u.schedulers sch).busy = (s.schedulers sch).busy)
    (plain : s.classes n ≠ .generator) (coro : (s.states n).coro = some p)
    (later : s.IsCoroutine n → (s.states n).isInitor ≠ .initial) :
    (u.wake home n p).Framed home := by
  have born := entry_born framed next
  have slot := sound.slot n p plain coro
  have handles := wake_handles (s := u) home n p
  have progress_t : (u.wake home n p).progress = Function.update s.progress p .running := by
    rw [← progress]
    exact congrArg Handles.progress handles
  have classes_t : (u.wake home n p).classes = s.classes := by
    rw [← classes]
    exact congrArg Handles.classes handles
  have created_t : (u.wake home n p).created = s.created := by
    rw [← created]
    exact congrArg Handles.created handles
  have present : s.progress p ≠ .absent := by
    rcases slot with waits | ⟨rfl, yields⟩
    · rw [show s.progress p = _ from waits]
      simp
    · rw [show s.progress p = _ from yields]
      simp
  have born_p : p < s.created := by
    by_contra new
    exact present (sound.fresh p (Nat.le_of_not_lt new)).1
  refine framed.resumeStep (t := u.wake home n p) (n := n) (p := p) classes_t created_t
    ⟨born, born_p⟩ ?_ ?_ ?_ ?_
  · intro x out_n out_p
    rw [wake_record, records, advance_other next out_n]
    simp [record, out_n, out_p]
  · intro x touched here
    have before : s.IsCoroutine x := by
      rw [IsCoroutine, classes_t, progress_t] at here
      by_cases self : x = p
      · subst self
        exact ⟨here.1, present⟩
      · rwa [Function.update_of_ne self] at here
    by_cases self : x = n
    · subst self
      obtain ⟨queued, after⟩ := entry_record next rfl
      rw [wake_record, records, after]
      rcases (framed.stage x before).wake queued (later before) coro (framed.idle idle x) with
        ⟨rfl, -, stage⟩ | ⟨ended, stage⟩
      · simpa using stage
      · have other : p ≠ x := by
          rintro rfl
          rcases slot with waits | ⟨-, yields⟩
          · rw [show (s.record home p).progress = _ from waits] at ended
            cases ended
          · rw [show (s.record home p).progress = _ from yields] at ended
            cases ended
        simpa [other, other.symm] using stage
    · have equal : x = p := touched.resolve_left self
      subst equal
      have waits : s.progress x = .awaiting n := slot.resolve_right fun both => self both.1
      rw [wake_record, records, advance_other next self]
      have stage := (framed.stage x before).walk (x := .running)
        (by simp [record, waits, Progress.inBody]) rfl
      simpa [self, record] using stage
  · intro q active
    rw [progress_t] at active ⊢
    by_cases self : q = p
    · subst self
      exact ⟨Function.update_self .., by rw [wake_busy, if_pos rfl]⟩
    · rw [Function.update_of_ne self, framed.idle idle q] at active
      cases active
  · intro sch away
    rw [wake_busy, if_neg away]
    exact only sch away

theorem Framed.enter (framed : s.Framed home) (idle : (s.schedulers home).busy = none)
    (next : (s.schedulers home).cachedStates = n :: rest) (classes : t.classes = s.classes)
    (created : t.created = s.created)
    (progress : t.progress = Function.update s.progress n .running)
    (others : ∀ x, x ≠ n → t.record home x = (s.advance home rest).record home x)
    (stage : t.IsCoroutine n → Stage home n (t.record home n))
    (busy : (t.schedulers home).busy = some n)
    (only : ∀ sch, sch ≠ home → (t.schedulers sch).busy = (s.schedulers sch).busy) :
    t.Framed home := by
  have born := entry_born framed next
  refine framed.resumeStep (n := n) (p := n) classes created ⟨born, born⟩ ?_ ?_ ?_ only
  · intro x out _
    rw [others x out, advance_other next out]
  · intro x touched
    have self : x = n := touched.elim id id
    subst self
    exact stage
  · intro q active
    rw [progress] at active ⊢
    by_cases self : q = n
    · subst self
      exact ⟨Function.update_self .., busy⟩
    · rw [Function.update_of_ne self, framed.idle idle q] at active
      cases active

theorem Framed.start (framed : s.Framed home) (sound : s.handles.Sound)
    (idle : (s.schedulers home).busy = none)
    (next : (s.schedulers home).cachedStates = n :: rest) (plain : s.classes n ≠ .generator)
    (isInitor : (s.states n).isInitor = .initial) :
    ((((s.advance home rest).setState n { s.states n with isInitor := .none }).setProgress n
      .running).setBusy home (some n)).Framed home := by
  have initial : s.progress n = .initial := (sound.initial n plain).1 isInitor
  refine framed.enter (n := n) idle next rfl rfl rfl ?_ ?_ ?_ ?_
  · intro x out
    simp [record, setState, setProgress, setBusy, advance, out]
  · rintro ⟨class_, -⟩
    obtain ⟨queued, after⟩ := entry_record next rfl
    have stage := (framed.stage n ⟨class_, by simp [initial]⟩).start queued isInitor
    have entries : (s.advance home rest).schedulers.entries home n =
        s.schedulers.entries home n - 1 := congrArg Record.entries after
    simpa [record, setState, setProgress, setBusy, entries, advance_history] using stage
  · simp [setState, setProgress, setBusy, Schedulers.busy_setBusy]
  · intro sch away
    simpa [setState, setProgress, setBusy, Schedulers.busy_setBusy, away] using
      advance_only s rest away

theorem Framed.wakeGenerator (framed : s.Framed home) (idle : (s.schedulers home).busy = none)
    (next : (s.schedulers home).cachedStates = n :: rest) (generator : s.classes n = .generator) :
    ((s.advance home rest).wake home n n).Framed home := by
  have handles := wake_handles (s := s.advance home rest) home n n
  have classes : ((s.advance home rest).wake home n n).classes = s.classes :=
    congrArg Handles.classes handles
  refine framed.enter (n := n) idle next classes (congrArg Handles.created handles)
    (congrArg Handles.progress handles) ?_ ?_ ?_ ?_
  · intro x out
    rw [wake_record]
    simp [out]
  · rintro ⟨⟨kind, here⟩, -⟩
    rw [classes, generator] at here
    cases here
  · rw [wake_busy, if_pos rfl]
  · intro sch away
    rw [wake_busy, if_neg away]
    exact advance_only s rest away

theorem Framed.destroy (framed : s.Framed home) (sound : s.handles.Sound)
    (idle : (s.schedulers home).busy = none)
    (next : (s.schedulers home).cachedStates = n :: rest) (plain : s.classes n ≠ .generator)
    (isInitor : (s.states n).isInitor = .final) (coro : (s.states n).coro = none) :
    (((s.advance home rest).setState n { s.states n with isInitor := .none }).destroy n).Framed
      home := by
  have final : s.progress n = .final := (sound.final n plain).1 isInitor
  have born := entry_born framed next
  refine framed.resumeStep (n := n) (p := n) rfl rfl ⟨born, born⟩ ?_ ?_ ?_ ?_
  · intro x out _
    rw [← advance_other next out]
    simp [record, setState, setProgress, Runtime.destroy, advance, out]
  · intro x touched here
    have self : x = n := touched.elim id id
    subst self
    obtain ⟨queued, after⟩ := entry_record next rfl
    have stage := (framed.stage x ⟨here.1, by simp [final]⟩).destroy queued isInitor coro
    have entries : (s.advance home rest).schedulers.entries home x =
        s.schedulers.entries home x - 1 := congrArg Record.entries after
    simpa [record, setState, setProgress, Runtime.destroy, entries, advance_history] using stage
  · intro q active
    by_cases self : q = n
    · subst self
      simp [setState, setProgress, Runtime.destroy, Progress.active] at active
    · have passive := framed.idle idle q
      simp [setState, setProgress, Runtime.destroy, advance, self, passive] at active
  · exact fun sch away => advance_only s rest away

theorem Framed.resume (framed : s.Framed home) (sound : s.handles.Sound)
    (idle : (s.schedulers home).busy = none)
    (next : (s.schedulers home).cachedStates = n :: rest) :
    ((s.advance home rest).resume home n).Framed home := by
  have only (sch : Nat) (away : sch ≠ home) := advance_only s rest away
  by_cases generator : s.classes n = .generator
  · cases held : (s.states n).coro with
    | none =>
        rw [resume_generator_none (s.advance home rest) home n generator held]
        refine framed.nothing (t := s.advance home rest) idle next rfl rfl rfl (fun _ => rfl) only ?_
        rintro ⟨⟨kind, here⟩, -⟩
        rw [generator] at here
        cases here
    | some p =>
        rw [resume_generator_some (s.advance home rest) home n generator held]
        have self := (sound.generator_slot n p generator held).1
        subst self
        exact framed.wakeGenerator idle next generator
  by_cases waiter : s.classes n = .waiter
  · have plain : ¬ s.IsCoroutine n := by
      rintro ⟨⟨kind, here⟩, -⟩
      rw [waiter] at here
      cases here
    have advanced : (s.advance home rest).states n = s.states n := rfl
    cases held : (s.states n).coro with
    | none =>
        rw [resume_waiter_none (s.advance home rest) home n waiter advanced held]
        refine framed.nothing (t := (s.advance home rest).setState n { s.states n with coro := none })
          idle next rfl rfl rfl ?_ only ?_
        · intro x
          by_cases here : x = n <;> simp [record, setState, here, held, advance]
        · exact fun here => absurd here plain
    | some p =>
        rw [resume_waiter_some (s.advance home rest) home n waiter advanced held]
        refine framed.wake sound idle next rfl rfl rfl ?_ ?_ generator held
          fun here => absurd here plain
        · intro x
          cases owner : (s.states n).scheduler <;> by_cases here : x = n <;>
            simp [record, setState, here, owner, advance]
        · intro sch away
          cases owner : (s.states n).scheduler <;> simpa using only sch away
  obtain ⟨-, same⟩ := resume_future (s.advance home rest) home n generator waiter
  rw [same]
  change Framed home (((s.advance home rest).setState n (s.states n).resume.2).continueWith home n
    (s.states n).resume.1)
  rcases resume_cases (s.states n) with ⟨tag, result⟩ | ⟨p, later, held, result⟩ |
    ⟨tag, held, result⟩ | ⟨tag, held, result⟩ <;> rw [result]
  · exact framed.start sound idle next generator tag
  · refine framed.wake (u := (s.advance home rest).setState n { s.states n with coro := none }) sound
      idle next rfl rfl rfl ?_ only generator held fun _ => later
    intro x
    by_cases here : x = n <;> simp [record, setState, here, advance]
  · exact framed.destroy sound idle next generator tag held
  · refine framed.nothing (t := (s.advance home rest).setState n (s.states n)) idle next rfl rfl rfl
      ?_ only (fun _ => ⟨tag, held⟩)
    intro x
    by_cases here : x = n <;> simp [record, setState, here, advance]

end Resume

end Runtime

end Librf
