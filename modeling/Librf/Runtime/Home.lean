import Librf.Runtime.Threads
import Librf.Runtime.Roots
import Librf.Runtime.Switching

/-!
# A coroutine runs in the thread of its own scheduler

`AtHome` is said of the views of all states: an entry of a run queue is in the queue of its state's
scheduler, and a state that holds a handle is on the scheduler of the coroutine it is to resume.
-/

namespace Librf

namespace TaskView

/-- Awaited by `p`, which is on `home` and has not suspended. -/
structure Asked (p : Nat) (home : Option Nat) (r : TaskView) : Prop where
  coro : r.coro = none
  awaits : r.awaits = [p]
  scheduler : r.scheduler = home

structure Tidy (r : TaskView) : Prop where
  home : r.cls ≠ .generator → ∀ y, 0 < r.entries y → r.scheduler = some y
  unused : (∃ kind, r.cls = .future kind) → r.awaits = [] → (r.IsCoroutine → r.goes = []) →
    r.coro = none ∧ ∀ y, r.entries y = 0
  once : r.IsCoroutine → r.progress.ended = false → ∀ y, r.entries y ≤ 1
  body : r.IsCoroutine → r.progress.inBody = true → ∀ y, r.entries y = 0
  registered : r.IsCoroutine → r.goes = [] ∨ r.progress.ended = true → ∀ y, r.ready y = false

variable {r : TaskView}

theorem Tidy.other (plain : ∀ kind, r.cls ≠ .future kind)
    (home : r.cls ≠ .generator → ∀ y, 0 < r.entries y → r.scheduler = some y) : r.Tidy := by
  have never : ¬ r.IsCoroutine := fun here => here.1.elim plain
  exact ⟨home, fun future => future.elim fun kind class_ => absurd class_ (plain kind),
    fun here => absurd here never, fun here => absurd here never, fun here => absurd here never⟩

theorem Tidy.pop (tidy : r.Tidy) (sch : Nat) : (r.pop sch).Tidy := by
  have less (y : Nat) : (r.pop sch).entries y ≤ r.entries y := by
    simp only [TaskView.pop]
    split
    · exact Nat.sub_le _ _
    · exact Nat.le_refl _
  constructor
  · exact fun plain y queued => tidy.home plain y (Nat.lt_of_lt_of_le queued (less y))
  · intro future awaits goes
    obtain ⟨coro, idle⟩ := tidy.unused future awaits goes
    exact ⟨coro, fun y => Nat.eq_zero_of_le_zero (idle y ▸ less y)⟩
  · exact fun here open_ y => Nat.le_trans (less y) (tidy.once here open_ y)
  · exact fun here inBody y => Nat.eq_zero_of_le_zero (tidy.body here inBody y ▸ less y)
  · exact tidy.registered

theorem Tidy.pop_entries (tidy : r.Tidy) (here : r.IsCoroutine) (open_ : r.progress.ended = false)
    {sch : Nat} (queued : 0 < r.entries sch) (y : Nat) : (r.pop sch).entries y = 0 := by
  have plain : r.cls ≠ .generator := by
    obtain ⟨⟨kind, class_⟩, -⟩ := here
    simp [class_]
  have most := tidy.once here open_ y
  simp only [TaskView.pop]
  split
  · exact Nat.sub_eq_zero_of_le most
  · next away =>
      by_contra some_
      have both := (tidy.home plain sch queued).symm.trans
        (tidy.home plain y (Nat.pos_of_ne_zero some_))
      exact away (Option.some.inj both).symm

theorem Tidy.enter (tidy : r.Tidy) (here : r.IsCoroutine) (empty : ∀ y, r.entries y = 0)
    {x : Progress} (inBody : x.inBody = true) : TaskView.Tidy { r with progress := x } := by
  refine ⟨tidy.home, ?_, fun _ _ y => empty y ▸ Nat.zero_le 1, fun _ _ => empty, ?_⟩
  · exact fun future awaits goes =>
      tidy.unused future awaits fun _ => goes ⟨here.1, Progress.not_absent inBody⟩
  · rintro - (goes | ended)
    · exact tidy.registered here (.inl goes)
    · cases (Progress.ended_eq_false inBody).symm.trans ended

end TaskView

structure AtHome (v : Nat → TaskView) : Prop where
  tidy : ∀ n, (v n).Tidy
  link : ∀ n p, (v n).cls ≠ .generator → (v n).coro = some p → (v n).scheduler = (v p).scheduler
  asked : ∀ p m, (v p).progress = .transformed m ∨ (v p).progress = .unready m →
    (v m).Asked p (v p).scheduler

variable {v : Nat → TaskView} {n : Nat} {r : TaskView}

theorem AtHome.update (home : AtHome v) (tidy : r.Tidy)
    (link : r.cls ≠ .generator → ∀ p, r.coro = some p → p ≠ n → r.scheduler = (v p).scheduler)
    (held : ∀ m, m ≠ n → (v m).cls ≠ .generator → (v m).coro = some n →
      r.scheduler = (v n).scheduler)
    (asks : ∀ m, r.progress = .transformed m ∨ r.progress = .unready m →
      m ≠ n ∧ (v m).Asked n r.scheduler)
    (asked : ∀ p, p ≠ n → (v p).progress = .transformed n ∨ (v p).progress = .unready n →
      r.Asked p (v p).scheduler) : AtHome (Function.update v n r) := by
  have of_ne {q : Nat} (out : q ≠ n) : Function.update v n r q = v q := Function.update_of_ne out ..
  have self : Function.update v n r n = r := Function.update_self ..
  constructor
  · intro q
    by_cases on : q = n
    · subst on
      rw [self]
      exact tidy
    · rw [of_ne on]
      exact home.tidy q
  · intro m q plain coro
    by_cases on : m = n
    · subst on
      rw [self] at plain coro ⊢
      by_cases own : q = m
      · rw [own, self]
      · rw [of_ne own]
        exact link plain q coro own
    · rw [of_ne on] at plain coro ⊢
      have same := home.link m q plain coro
      by_cases target : q = n
      · subst target
        rw [self, held m on plain coro, same]
      · rw [of_ne target, same]
  · intro q m waits
    by_cases source : q = n
    · subst source
      rw [self] at waits ⊢
      obtain ⟨other, target⟩ := asks m waits
      rw [of_ne other]
      exact target
    · rw [of_ne source] at waits ⊢
      by_cases on : m = n
      · subst on
        rw [self]
        exact asked q source waits
      · rw [of_ne on]
        exact home.asked q m waits

theorem AtHome.stay (home : AtHome v) (tidy : r.Tidy) (scheduler : r.scheduler = (v n).scheduler)
    (cls : r.cls = (v n).cls) (coro : ∀ p, r.coro = some p → p ≠ n → (v n).coro = some p)
    (asks : ∀ m, r.progress = .transformed m ∨ r.progress = .unready m →
      m ≠ n ∧ (v m).Asked n r.scheduler)
    (asked : ∀ p, p ≠ n → (v p).progress = .transformed n ∨ (v p).progress = .unready n →
      r.coro = none ∧ r.awaits = (v n).awaits) : AtHome (Function.update v n r) := by
  apply home.update tidy
  · intro plain p held other
    rw [scheduler]
    exact home.link n p (cls ▸ plain) (coro p held other)
  · exact fun _ _ _ _ => scheduler
  · exact asks
  · intro p other waits
    obtain ⟨free, awaits⟩ := asked p other waits
    obtain ⟨-, alone, same⟩ := home.asked p n waits
    exact ⟨free, awaits.trans alone, scheduler.trans same⟩

theorem AtHome.walk (home : AtHome v) (here : (v n).IsCoroutine)
    (inBody : (v n).progress.inBody = true) {x : Progress} (after : x.inBody = true)
    (asks : ∀ m, x = .transformed m ∨ x = .unready m → m ≠ n ∧ (v m).Asked n (v n).scheduler) :
    AtHome (Function.update v n { v n with progress := x }) := by
  apply home.stay (r := { v n with progress := x })
  · exact (home.tidy n).enter here ((home.tidy n).body here inBody) after
  · rfl
  · rfl
  · exact fun _ held _ => held
  · exact asks
  · intro p other waits
    exact ⟨(home.asked p n waits).coro, rfl⟩

theorem Role.scheduler_of_begun (role : Role n r) (begun : r.progress ≠ .initial) :
    ∃ home, r.scheduler = some home := by
  cases role with
  | fresh => exact absurd rfl begun
  | _ => exact ⟨_, rfl⟩

namespace Runtime

variable {α ε : Type*} {s t : Runtime α ε} {sch p m n : Nat}

/-- Each coroutine of a `future_t` is started by `go` once or awaited once before it was started;
the future of an `awaitable_t` is awaited once at most, and not by anybody if `go` has it. -/
def Exclusive (s : Runtime α ε) : RuntimeAction α ε → Prop
  | .go _ n => s.classes n ≠ .generator → s.awaits n = [] ∧ (s.IsCoroutine n → s.goes n = [])
  | .body _ (.transform m) => s.Unused m
  | _ => True

instance (s : Runtime α ε) (action : RuntimeAction α ε) : Decidable (Exclusive s action) :=
  match action with
  | .newCoroutine _ | .newGenerator | .newAwaitable _ | .complete _ _ | .notify _ | .swap _
  | .resume _ => isTrue trivial
  | .go _ n => inferInstanceAs (Decidable (s.classes n ≠ .generator →
      s.awaits n = [] ∧ (s.IsCoroutine n → s.goes n = [])))
  | .body _ action => match action with
    | .transform m => inferInstanceAs (Decidable (s.Unused m))
    | .yieldValue _ | .via _ | .test | .suspend | .pause | .park | .finish _ | .finalSuspend =>
        isTrue trivial

theorem Exclusive.chained {action : RuntimeAction α ε} (allowed : Exclusive s action) :
    Chained s action := by
  cases action with
  | go sch n =>
      intro here
      obtain ⟨awaits, goes⟩ := allowed (class_ne_generator here)
      exact ⟨goes here, awaits⟩
  | body sch action =>
      cases action with
      | transform m => exact fun _ => allowed
      | _ => trivial
  | _ => trivial

/-! ## Entries -/

theorem newTask_entries (sch n y : Nat) : (s.newTask sch n).schedulers.entries y n =
    s.schedulers.entries y n + if s.hasHandler n = true ∧ y = sch then 1 else 0 := by
  rw [newTask_schedulers]
  split
  · next has => simp [Schedulers.entries_addGenerator, has, eq_comm]
  · next has => simp [has]

theorem update_entries (n y : Nat) (updated : FutureState α ε × List Call) :
    (s.update n updated).schedulers.entries y n =
      s.schedulers.entries y n + updated.2.count (.addGenerator y) := by
  simp [update, Schedulers.entries_calls]

theorem update_ready {y : Nat} {updated : FutureState α ε × List Call}
    (registered : (s.update n updated).schedulers.ready y n = true) :
    s.schedulers.ready y n = true := by
  have calls (x : Schedulers) (l : List Call)
      (listed : Schedulers.ready (l.foldl (Schedulers.call n) x) y n = true) :
      x.ready y n = true := by
    induction l generalizing x with
    | nil => exact listed
    | cons c rest ih =>
        have before := ih _ listed
        cases c with
        | addGenerator sch => simpa [Schedulers.call] using before
        | delFinal sch =>
            simp only [Schedulers.call, Schedulers.ready_delFinal_self, Bool.and_eq_true] at before
            exact before.2
  exact calls _ _ registered

theorem isInitor_eq_none (sound : s.handles.Sound) (plain : s.handles.classes n ≠ .generator)
    (begun : s.progress n ≠ .initial) (unfinal : s.progress n ≠ .final) :
    (s.states n).isInitor = .none := by
  have initial : (s.states n).isInitor ≠ .initial := fun tag =>
    begun ((sound.initial n plain).1 tag)
  have final : (s.states n).isInitor ≠ .final := fun tag => unfinal ((sound.final n plain).1 tag)
  cases tag : (s.states n).isInitor with
  | none => rfl
  | initial => exact absurd tag initial
  | final => exact absurd tag final

theorem Linked.used (linked : s.Linked) (here : s.IsCoroutine n) (begun : s.progress n ≠ .initial)
    (awaits : s.awaits n = []) : s.goes n ≠ [] := by
  rcases Role.of_begun (linked.forest.role n here) begun with ⟨p, -, listed, -⟩ | ⟨sch, goes, -⟩
  · cases awaits.symm.trans listed
  · simp [show s.goes n = [sch] from goes]

/-! ## Steps that run no body -/

theorem outside_of_future {kind : Kind} (class_ : s.classes n = .future kind)
    (initial : s.IsCoroutine n → s.progress n = .initial) :
    s.progress n = .absent ∨ s.progress n = .initial := by
  by_cases here : s.IsCoroutine n
  · exact .inr (initial here)
  · exact .inl (by_contra fun present => here ⟨⟨kind, class_⟩, present⟩)

structure Settled (s : Runtime α ε) : Prop where
  sound : s.handles.Sound
  linked : s.Linked
  home : AtHome s.task

theorem unheld_of_outside (sound : s.handles.Sound)
    (inside : s.progress n = .absent ∨ s.progress n = .initial) (m : Nat)
    (plain : (s.task m).cls ≠ .generator) : (s.task m).coro ≠ some n := by
  intro held
  rcases sound.slot m n plain held with waits | ⟨rfl, yields⟩
  · have waits : s.progress n = .awaiting m := waits
    simp [waits] at inside
  · have yields : s.progress n = .yielded := yields
    simp [yields] at inside

theorem Settled.add (settled : s.Settled) {cls : StateClass} {st : FutureState α ε} {progress : Progress}
    (coro : cls ≠ .generator → st.coro = none) (start : progress = .initial ∨ progress = .absent) :
    AtHome (s.add cls st progress).task := by
  obtain ⟨sound, linked, home⟩ := settled
  obtain ⟨-, -, -, entries, ready⟩ := linked.blank s.created (Nat.le_refl _)
  obtain ⟨absent, unborn⟩ := sound.fresh s.created (Nat.le_refl _)
  have absent : s.progress s.created = .absent := absent
  have outside : progress.inBody = false := by rcases start with rfl | rfl <;> rfl
  have open_ : progress.ended = false := by rcases start with rfl | rfl <;> rfl
  rw [tasks_of_ne (t := s.add _ _ _) (n := s.created) fun x old => add_task_of_ne old _ _ _,
    add_task_self]
  apply home.update
  · constructor
    · exact fun _ y queued => absurd (entries y) (Nat.ne_of_gt queued)
    · rintro ⟨kind, future⟩ - -
      refine ⟨coro fun generator => ?_, entries⟩
      cases future.symm.trans generator
    · exact fun _ _ y => entries y ▸ Nat.zero_le 1
    · exact fun _ _ => entries
    · exact fun _ _ => ready
  · intro plain p held
    cases (coro plain).symm.trans held
  · exact fun m _ plain held =>
      absurd held (unheld_of_outside sound (.inl absent) m plain)
  · rintro m (waits | waits) <;> rcases start with rfl | rfl <;> cases waits
  · intro p _ waits
    obtain ⟨kind, class_⟩ := sound.target p s.created waits
    cases class_.symm.trans unborn

theorem Settled.newTask (settled : s.Settled)
    (class_ : (∃ kind, s.classes n = .future kind) ∨ s.classes n = .generator)
    (allowed : Exclusive s (.go sch n)) : AtHome (s.newTask sch n).task := by
  obtain ⟨sound, linked, home⟩ := settled
  have same := fun x out => newTask_task_of_ne (s := s) (n := n) (x := x) out sch
  rw [tasks_of_ne same, newTask_task_self]
  rcases class_ with future | generator
  · obtain ⟨kind, class_⟩ := future
    obtain ⟨awaits, goes⟩ := allowed (by simp [class_])
    obtain ⟨coro, idle⟩ := (home.tidy n).unused ⟨kind, class_⟩ awaits goes
    have coro : (s.states n).coro = none := coro
    have idle : ∀ y, s.schedulers.entries y n = 0 := idle
    have outside := outside_of_future class_ fun here =>
      ((linked.forest.role n here).of_unused (goes here) awaits).1
    have entries (y : Nat) : (s.newTask sch n).schedulers.entries y n =
        if s.progress n = .initial ∧ y = sch then 1 else 0 := by
      have plain : s.handles.classes n ≠ .generator := by simp [handles, class_]
      have has : s.hasHandler n = true ↔ s.progress n = .initial := by
        simp only [hasHandler, class_, FutureState.hasHandlerSkipLock, coro]
        rcases outside with absent | initial
        · simp [isInitor_eq_none sound plain (by simp [absent]) (by simp [absent]), absent]
        · have tag : (s.states n).isInitor = .initial := (sound.initial n plain).2 initial
          simp [tag, initial]
      rw [newTask_entries, idle, Nat.zero_add]
      simp only [has]
    have inBody : (s.progress n).inBody = false := by rcases outside with x | x <;> rw [x] <;> rfl
    have open_ : (s.progress n).ended = false := by rcases outside with x | x <;> rw [x] <;> rfl
    apply home.update
    · constructor
      · intro _ y queued
        have queued : 0 < (s.newTask sch n).schedulers.entries y n := queued
        rw [entries] at queued
        split at queued
        · next both => exact congrArg some both.2.symm
        · cases queued
      · intro _ _ unstarted
        refine ⟨coro, fun y => ?_⟩
        have absent : s.progress n ≠ .initial := by
          intro initial
          have goes := unstarted ⟨⟨kind, class_⟩, by simp [task, initial]⟩
          simp at goes
        exact (entries y).trans (if_neg fun both => absent both.1)
      · intro _ _ y
        refine Nat.le_trans (Nat.le_of_eq (entries y)) ?_
        split
        · exact Nat.le_refl 1
        · exact Nat.zero_le 1
      · exact fun _ walks => by cases inBody.symm.trans walks
      · rintro - (goes | ended)
        · simp at goes
        · cases open_.symm.trans ended
    · intro _ p held
      cases coro.symm.trans held
    · exact fun m _ plain held => absurd held (unheld_of_outside sound outside m plain)
    · intro m waits
      rcases outside with x | x <;> simp [task, x] at waits
    · intro p _ waits
      have listed : s.awaits n = [p] := (home.asked p n waits).awaits
      cases awaits.symm.trans listed
  · have plain (kind : Kind) : s.classes n ≠ .future kind := by simp [generator]
    have quiet : (s.progress n).inAwait = false := (sound.generator n generator).2.1
    apply home.update
    · exact .other plain fun other => absurd generator other
    · exact fun other => absurd generator other
    · intro m other plain' held
      rcases sound.slot m n plain' held with waits | ⟨rfl, -⟩
      · have waits : s.progress n = .awaiting m := waits
        rw [waits] at quiet
        cases quiet
      · exact absurd rfl other
    · intro m waits
      have waits : s.progress n = .transformed m ∨ s.progress n = .unready m := waits
      rcases waits with waits | waits <;> rw [waits] at quiet <;> cases quiet
    · intro p _ waits
      obtain ⟨kind, future⟩ := sound.target p n waits
      exact absurd future (plain kind)

theorem Settled.complete (settled : s.Settled)
    {kind : Kind} (class_ : s.classes n = .future kind) (awaitable : (s.states n).isFuture = false)
    (o : Outcome α ε) :
    AtHome (s.update n ((s.states n).complete kind o (s.rootScheduler n))).task := by
  obtain ⟨sound, linked, home⟩ := settled
  have other : ¬ s.IsCoroutine n := by
    intro here
    have future : (s.states n).isFuture = true := (linked.forest.role n here).isFuture
    cases awaitable.symm.trans future
  have absent : s.progress n = .absent := by_contra fun present => other ⟨⟨kind, class_⟩, present⟩
  have isInitor := isInitor_eq_none sound (n := n) (by simp [handles, class_]) (by simp [absent])
    (by simp [absent])
  -- An entry is made where the state has a handle.
  have entered (y : Nat) (calls : ((s.states n).complete kind o (s.rootScheduler n)).2.count
      (.addGenerator y) ≠ 0) : (s.states n).coro ≠ none ∧ (s.states n).scheduler = some y := by
    rw [FutureState.complete_calls] at calls
    cases held : (s.states n).coro with
    | none =>
        simp only [FutureState.hasHandlerSkipLock, held, isInitor] at calls
        split at calls <;> simp at calls
    | some p =>
        refine ⟨by simp, ?_⟩
        have waits : s.progress p = .awaiting n := by
          rcases sound.slot n p (by simp [handles, class_]) held with waits | ⟨-, yields⟩
          · exact waits
          · cases absent.symm.trans yields
        have here : s.IsCoroutine p := coroutine_of_inAwait sound (by simp [waits, Progress.inAwait])
        obtain ⟨own, scheduler⟩ :=
          (linked.forest.role p here).scheduler_of_inBody (Progress.inBody_of_awaiting waits)
        have scheduler : (s.states n).scheduler = some own :=
          (home.link n p (by simp [task, class_]) held).trans scheduler
        rw [FutureState.getScheduler, scheduler] at calls
        simp only [Option.some_or] at calls
        split at calls
        · rw [scheduler]
          by_contra away
          apply calls
          rw [List.count_singleton]
          simpa using away
        · simp at calls
  have view : (s.update n ((s.states n).complete kind o (s.rootScheduler n))).task n =
      { s.task n with
        entries := fun y => s.schedulers.entries y n +
          ((s.states n).complete kind o (s.rootScheduler n)).2.count (.addGenerator y)
        ready := fun y =>
          (s.update n ((s.states n).complete kind o (s.rootScheduler n))).schedulers.ready y n } := by
    simp only [task, update_entries]
    simp [update, setState, FutureState.complete_state]
  rw [tasks_of_ne (t := s.update n _) fun x out => update_task_of_ne out _, view]
  obtain ⟨own, unused, -⟩ := home.tidy n
  apply home.stay
  · constructor
    · intro plain y queued
      rcases Nat.add_pos_iff_pos_or_pos.1 queued with before | new
      · exact own plain y before
      · exact (entered y (Nat.ne_of_gt new)).2
    · intro future awaits _
      obtain ⟨coro, idle⟩ := unused future awaits fun here => absurd here other
      refine ⟨coro, fun y => ?_⟩
      have none_ : ((s.states n).complete kind o (s.rootScheduler n)).2.count (.addGenerator y) = 0 :=
        by_contra fun some_ => (entered y some_).1 coro
      exact (congrArg₂ (· + ·) (idle y) none_ : _ = 0 + 0)
    · exact fun here => absurd here other
    · exact fun here => absurd here other
    · exact fun here => absurd here other
  · rfl
  · rfl
  · exact fun _ held _ => held
  · intro m waits
    simp [task, absent] at waits
  · exact fun p _ waits => ⟨(home.asked p n waits).coro, rfl⟩

theorem Settled.notify (settled : s.Settled) {w : Nat}
    (class_ : s.classes w = .waiter) (own : (s.states w).scheduler = some sch) :
    AtHome (task { s with schedulers := s.schedulers.addGenerator sch w }) := by
  obtain ⟨sound, -, home⟩ := settled
  have plain (kind : Kind) : s.classes w ≠ .future kind := by simp [class_]
  have absent : s.progress w = .absent := by
    by_contra present
    rcases sound.coroutine w present with generator | ⟨kind, future⟩
    · cases class_.symm.trans generator
    · exact plain kind future
  have view : task { s with schedulers := s.schedulers.addGenerator sch w } w =
      { s.task w with entries := fun y => s.schedulers.entries y w + if sch = y then 1 else 0 } := by
    simp [task, Schedulers.entries_addGenerator]
  rw [tasks_of_ne (t := { s with schedulers := s.schedulers.addGenerator sch w })
    fun x out => addGenerator_task_of_ne out sch, view]
  apply home.stay
  · apply TaskView.Tidy.other plain
    intro other y queued
    by_cases here : sch = y
    · exact here ▸ own
    · exact (home.tidy w).home other y (by simpa [task, here] using queued)
  · rfl
  · rfl
  · exact fun _ held _ => held
  · intro m waits
    simp [task, absent] at waits
  · exact fun p _ waits => ⟨(home.asked p w waits).coro, rfl⟩

theorem Settled.asks (settled : s.Settled)
    (waits : (s.task n).progress = .transformed m ∨ (s.task n).progress = .unready m) :
    m ≠ n ∧ (s.task m).Asked n (s.task n).scheduler := by
  obtain ⟨sound, linked, home⟩ := settled
  refine ⟨?_, home.asked n m waits⟩
  rintro rfl
  have waits' : s.progress m = .transformed m ∨ s.progress m = .unready m := waits
  have here : s.IsCoroutine m := by
    apply coroutine_of_inAwait sound
    rcases waits' with x | x <;> rw [x] <;> rfl
  have initial : s.progress m = .initial := (linked.forest.called m m here waits).progress
  simp [initial] at waits'

theorem Settled.resume (settled : s.Settled)
    {rest : List Nat} (next : (s.schedulers sch).cachedStates = n :: rest) :
    AtHome ((s.advance sch rest).resume sch n).task := by
  have asks := fun m => settled.asks (n := n) (m := m)
  obtain ⟨sound, linked, home⟩ := settled
  have queued : 0 < (s.task n).entries sch := by
    simp only [task, Schedulers.entries, next, List.cons_append, List.count_cons_self]
    exact Nat.succ_pos _
  have asked (p : Nat) (_ : p ≠ n)
      (waits : (s.task p).progress = .transformed n ∨ (s.task p).progress = .unready n) :
      (s.task n).coro = none ∧ (s.task n).awaits = (s.task n).awaits :=
    ⟨(home.asked p n waits).coro, rfl⟩
  have popped := (home.tidy n).pop sch
  generalize resumed : ((s.advance sch rest).resume sch n).task = v
  cases resumed ▸ resume_tasks sound next with
  | nothing free _ begun =>
      exact home.stay popped rfl rfl (fun _ held _ => held) asks asked
  | generator class_ =>
      have plain (kind : Kind) : (s.task n).cls ≠ .future kind := by simp [class_]
      exact home.stay (.other plain fun other => absurd class_ other) rfl rfl
        (fun _ held _ => held) (by simp) asked
  | start class_ initial =>
      have initial' : s.progress n = .initial := initial
      have present : s.progress n ≠ .absent := by simp [initial']
      have here : s.IsCoroutine n := ⟨(sound.coroutine n present).resolve_left class_, present⟩
      have empty := (home.tidy n).pop_entries here (by rw [initial]; rfl) queued
      exact home.stay (popped.enter here empty rfl) rfl rfl (fun _ held _ => held) (by simp) asked
  | destroy class_ final =>
      have final' : s.progress n = .final := final
      have present : s.progress n ≠ .absent := by simp [final']
      have here : s.IsCoroutine n := ⟨(sound.coroutine n present).resolve_left class_, present⟩
      refine home.stay ⟨popped.home, ?_, ?_, ?_, ?_⟩ rfl rfl (fun _ held _ => held) (by simp) asked
      · exact fun future awaits goes => popped.unused future awaits fun here => goes ⟨here.1, by simp⟩
      · exact fun _ open_ => by cases open_
      · exact fun _ inBody => by cases inBody
      · exact fun _ _ => (home.tidy n).registered here (.inr (by rw [final]; rfl))
  | wake p ready w class_ begun held unregistered released =>
      have slot : s.progress p = .awaiting n ∨ p = n ∧ s.progress n = .yielded :=
        sound.slot n p class_ held
      have before : AtHome w := by
        rw [released]
        refine home.stay ⟨popped.home, ?_, popped.once, popped.body, ?_⟩ rfl rfl
          (fun _ held _ => by cases held) asks fun p _ waits => ⟨rfl, rfl⟩
        · intro future awaits goes
          cases ((home.tidy n).unused future awaits goes).1.symm.trans held
        · intro here over_
          rw [unregistered here.2]
          exact popped.registered here over_
      have frame : (w p).cls = (s.task p).cls ∧ (w p).progress = (s.task p).progress := by
        rw [released]
        by_cases self : p = n
        · rw [self, Function.update_self]
          exact ⟨rfl, rfl⟩
        · rw [Function.update_of_ne self]
          exact ⟨rfl, rfl⟩
      rcases slot with waits | ⟨rfl, yields⟩
      · have here : s.IsCoroutine p := coroutine_of_inAwait sound (by rw [waits]; rfl)
        have waits' : (w p).progress = .awaiting n := frame.2.trans waits
        refine before.walk ?_ (Progress.inBody_of_awaiting waits') rfl (by simp)
        rw [TaskView.IsCoroutine, frame.1, frame.2]
        exact here
      · have present : s.progress p ≠ .absent := by simp [yields]
        have here : s.IsCoroutine p := ⟨(sound.coroutine p present).resolve_left class_, present⟩
        have empty : ∀ y, (w p).entries y = 0 := by
          rw [released, Function.update_self]
          exact (home.tidy p).pop_entries here (by rw [show (s.task p).progress = _ from yields]; rfl)
            queued
        have here' : (w p).IsCoroutine := by
          rw [TaskView.IsCoroutine, frame.1, frame.2]
          exact here
        exact before.stay ((before.tidy p).enter here' empty rfl) rfl rfl (fun _ held _ => held)
          (by simp) fun q _ waits => ⟨(before.asked q p waits).coro, rfl⟩

/-! ## Bodies -/

theorem Settled.running (settled : s.Settled) (here : s.IsCoroutine p)
    (inBody : (s.progress p).inBody = true) :
    ∃ home, (s.states p).scheduler = some home ∧ s.getScheduler p = some home := by
  obtain ⟨home, own⟩ := (settled.linked.forest.role p here).scheduler_of_inBody inBody
  exact ⟨home, own, getScheduler_of_some own⟩

theorem Settled.beginAwait (settled : s.Settled) (here : s.IsCoroutine p)
    (now : s.progress p = .running) {kind : Kind} (class_m : s.classes m = .future kind)
    (unused : s.Unused m) : AtHome (s.beginAwait p m).task := by
  have inBody : (s.progress p).inBody = true := by rw [now]; rfl
  obtain ⟨own, scheduler, getScheduler⟩ := settled.running here inBody
  obtain ⟨sound, linked, home⟩ := settled
  obtain ⟨goes, awaits⟩ := unused
  obtain ⟨coro, idle⟩ := (home.tidy m).unused ⟨kind, class_m⟩ awaits fun _ => goes
  have outside := outside_of_future class_m fun target =>
    ((linked.forest.role m target).of_unused goes awaits).1
  have other : m ≠ p := by
    rintro rfl
    simp [now] at outside
  have tasks : (s.beginAwait p m).task = Function.update (Function.update s.task m
      { s.task m with scheduler := some own, awaits := s.awaits m ++ [p] }) p
      { s.task p with progress := .transformed m } := by
    funext x
    by_cases self : x = p
    · rw [self, Function.update_self, beginAwait_task_self other]
    · rw [Function.update_of_ne self]
      by_cases target : x = m
      · rw [target, Function.update_self, beginAwait_task_target other, getScheduler]
      · rw [Function.update_of_ne target, beginAwait_task_of_ne self target]
  have same (r : TaskView) : Function.update s.task m r p = s.task p :=
    Function.update_of_ne other.symm ..
  have before : AtHome (Function.update s.task m
      { s.task m with scheduler := some own, awaits := s.awaits m ++ [p] }) := by
    apply home.update
    · constructor
      · exact fun _ y queued => absurd (idle y) (Nat.ne_of_gt queued)
      · intro _ empty
        simp at empty
      · exact fun _ _ y => (idle y).symm ▸ Nat.zero_le 1
      · exact fun _ _ => idle
      · exact fun target _ => (home.tidy m).registered target (.inl goes)
    · intro _ q held
      cases coro.symm.trans held
    · exact fun q _ plain held => absurd held (unheld_of_outside sound outside q plain)
    · intro q waits
      rcases outside with x | x <;> simp [task, x] at waits
    · intro q _ waits
      have listed : s.awaits m = [q] := (home.asked q m waits).awaits
      cases awaits.symm.trans listed
  rw [tasks, ← same]
  apply before.walk
  · rw [same]
    exact here
  · rw [same]
    exact inBody
  · rfl
  · intro m' waits
    obtain rfl : m = m' := by simpa using waits
    rw [Function.update_self, same]
    exact ⟨other, coro, by simp [awaits], scheduler.symm⟩

theorem Settled.testReady (settled : s.Settled) (now : s.progress p = .transformed m) :
    AtHome (s.testReady p m).task := by
  have asks := settled.asks (n := p) (m := m) (.inl now)
  obtain ⟨sound, linked, home⟩ := settled
  have here : s.IsCoroutine p := coroutine_of_inAwait sound (by rw [now]; rfl)
  have inBody : (s.task p).progress.inBody = true := by
    change (s.progress p).inBody = true
    rw [now]
    rfl
  have read : (s.readResult m).task = s.task := funext fun n => readResult_task m n
  unfold Runtime.testReady
  split
  · rw [setProgress_tasks, read]
    exact home.walk here inBody rfl (by simp)
  · rw [setProgress_tasks]
    apply home.walk here inBody rfl
    intro m' waits
    obtain rfl : m = m' := by simpa using waits
    exact asks

theorem suspendAwait_view {own : Nat} (other : m ≠ p) (scheduler : s.getScheduler p = some own)
    (coro : (s.states m).coro = none) : (s.suspendAwait sch p m).task m = { s.task m with
      scheduler := some own, coro := some p, parent := some p
      entries := fun y => s.schedulers.entries y m +
        if (s.states m).isReady = true ∧ y = own then 1 else 0 } := by
  by_cases ready : (s.states m).isReady = true
  · have frame : FutureState.isReady { s.states m with
        parent := some p, scheduler := some own, coro := some p } = true := ready
    simp [task, suspendAwait, update, setState, setProgress, setBusy, other, scheduler, coro, ready,
      FutureState.futureAwaitSuspend, frame, Schedulers.call, Schedulers.entries_addGenerator,
      eq_comm, other.symm]
  · have frame : FutureState.isReady { s.states m with
        parent := some p, scheduler := some own, coro := some p } = false :=
      Bool.eq_false_of_not_eq_true ready
    simp [task, suspendAwait, update, setState, setProgress, setBusy, other, scheduler, coro, ready,
      FutureState.futureAwaitSuspend, frame]

theorem Settled.suspendAwait (settled : s.Settled) (now : s.progress p = .unready m) :
    AtHome (s.suspendAwait sch p m).task := by
  obtain ⟨other, coro, awaits, same⟩ := settled.asks (n := p) (m := m) (.inr now)
  have here : s.IsCoroutine p := coroutine_of_inAwait settled.sound (by rw [now]; rfl)
  have inBody : (s.progress p).inBody = true := by rw [now]; rfl
  obtain ⟨own, scheduler, getScheduler⟩ := settled.running here inBody
  obtain ⟨sound, linked, home⟩ := settled
  have coro : (s.states m).coro = none := coro
  have awaits : s.awaits m = [p] := awaits
  have same : (s.states m).scheduler = some own := same.trans scheduler
  obtain ⟨kind, class_m⟩ := sound.target p m (.inr now)
  have outside := outside_of_future class_m fun target =>
    (linked.forest.called p m target (.inr now)).progress
  have quiet : (s.progress m).inBody = false := by rcases outside with x | x <;> rw [x] <;> rfl
  have open_ : (s.progress m).ended = false := by rcases outside with x | x <;> rw [x] <;> rfl
  have idle (target : s.IsCoroutine m) (y : Nat) : (s.task m).entries y = 0 := by
    by_contra some_
    exact (linked.forest.role m target).not_called (Nat.pos_of_ne_zero some_)
      (linked.forest.called p m target (.inr now))
  have before : AtHome (Function.update s.task p { s.task p with progress := .awaiting m }) :=
    home.walk here inBody rfl (by simp)
  have view : Function.update s.task p { s.task p with progress := .awaiting m } m = s.task m :=
    Function.update_of_ne other ..
  rw [suspendAwait_tasks other, suspendAwait_view other getScheduler coro]
  apply before.update
  · constructor
    · intro plain y queued
      rcases Nat.add_pos_iff_pos_or_pos.1 queued with old | new
      · exact same.symm.trans ((home.tidy m).home plain y old)
      · split at new
        · next both => exact congrArg some both.2.symm
        · cases new
    · intro _ empty
      cases awaits.symm.trans empty
    · intro target _ y
      refine Nat.le_trans (Nat.le_of_eq (congrArg (· + _) (idle target y))) ?_
      split <;> decide
    · exact fun _ walks => by cases quiet.symm.trans walks
    · rintro target (goes | ended)
      · exact (home.tidy m).registered target (.inl goes)
      · cases open_.symm.trans ended
  · intro _ q held _
    cases held
    rw [Function.update_self]
    exact scheduler.symm
  · intro q _ plain held
    rw [view]
    exact same.symm
  · intro q waits
    rcases outside with x | x <;> simp [task, x] at waits
  · intro q _ waits
    by_cases self : q = p
    · rw [self, Function.update_self] at waits
      simp at waits
    · rw [Function.update_of_ne self] at waits
      have listed : s.awaits m = [q] := (home.asked q m waits).awaits
      cases awaits.symm.trans listed
      exact absurd rfl self

theorem Settled.wait (settled : s.Settled) (here : s.IsCoroutine p) (now : s.progress p = .running)
    (self : t.task p = { s.task p with progress := .awaiting s.created })
    (same : ∀ x, x ≠ p → x ≠ s.created → t.task x = s.task x)
    (plain : ∀ kind, t.classes s.created ≠ .future kind) (absent : t.progress s.created = .absent)
    (coro : ∀ q, (t.states s.created).coro = some q → q = p)
    (scheduler : (t.states s.created).scheduler = (s.states p).scheduler)
    (entries : ∀ y, 0 < t.schedulers.entries y s.created → (s.states p).scheduler = some y) :
    AtHome t.task := by
  obtain ⟨sound, linked, home⟩ := settled
  have inBody : (s.task p).progress.inBody = true := by
    change (s.progress p).inBody = true
    rw [now]
    rfl
  have other : s.created ≠ p := Nat.ne_of_gt (lt_of_coroutine sound here)
  have unborn : s.progress s.created = .absent := (sound.fresh _ (Nat.le_refl _)).1
  have before : AtHome
      (Function.update s.task p { s.task p with progress := .awaiting s.created }) :=
    home.walk here inBody rfl (by simp)
  have tasks : t.task = Function.update
      (Function.update s.task p { s.task p with progress := .awaiting s.created }) s.created
      (t.task s.created) := by
    funext x
    by_cases new : x = s.created
    · rw [new, Function.update_self]
    · rw [Function.update_of_ne new]
      by_cases on : x = p
      · rw [on, Function.update_self, self]
      · rw [Function.update_of_ne on, same x on new]
  have view (q : Nat) :
      (Function.update s.task p { s.task p with progress := .awaiting s.created } q).coro =
        (s.task q).coro ∧
      (Function.update s.task p { s.task p with progress := .awaiting s.created } q).cls =
        (s.task q).cls := by
    by_cases on : q = p
    · rw [on, Function.update_self]
      exact ⟨rfl, rfl⟩
    · rw [Function.update_of_ne on]
      exact ⟨rfl, rfl⟩
  rw [tasks]
  apply before.update
  · exact .other plain fun _ y queued => scheduler.trans (entries y queued)
  · intro _ q held _
    obtain rfl := coro q held
    rw [Function.update_self]
    exact scheduler
  · intro q _ plain held
    rw [(view q).1] at held
    rw [(view q).2] at plain
    exact absurd held (unheld_of_outside sound (.inl unborn) q plain)
  · intro m waits
    simp [task, absent] at waits
  · intro q _ waits
    by_cases on : q = p
    · rw [on, Function.update_self] at waits
      simp at waits
    · rw [Function.update_of_ne on] at waits
      obtain ⟨kind, class_⟩ := sound.target q s.created waits
      cases class_.symm.trans (sound.fresh s.created (Nat.le_refl _)).2

theorem Settled.pause (settled : s.Settled) (here : s.IsCoroutine p)
    (now : s.progress p = .running) : AtHome (s.pause sch p).task := by
  obtain ⟨own, scheduler, getScheduler⟩ := settled.running here (by rw [now]; rfl)
  have born := lt_of_coroutine settled.sound here
  have unborn : s.progress s.created = .absent := (settled.sound.fresh _ (Nat.le_refl _)).1
  have entries : ∀ y, s.schedulers.entries y s.created = 0 :=
    (settled.linked.blank s.created (Nat.le_refl _)).entries
  refine settled.wait (t := s.pause sch p) here now (pause_task_self (Nat.ne_of_lt born))
    (fun _ => pause_task_of_ne) ?_ ?_ ?_ ?_ ?_
  · intro kind
    simp [Runtime.pause, update, setState, setProgress, setBusy]
  · exact (Function.update_of_ne (Nat.ne_of_gt born) ..).trans unborn
  · intro q held
    have coro : ((s.pause sch p).states s.created).coro = some p :=
      (congrFun (congrArg Handles.coro (pause_handles sch p)) s.created).trans
        (Function.update_self ..)
    exact Option.some.inj (held.symm.trans coro)
  · have inside : Runtime.getScheduler { s with
        classes := Function.update s.classes s.created .passing
        created := s.created + 1 } p = some own := getScheduler_of_some scheduler
    simp [Runtime.pause, update, setState, setProgress, setBusy, inside, scheduler,
      FutureState.futureAwaitSuspend, Nat.ne_of_gt born]
  · intro y queued
    rw [pause_schedulers scheduler, Schedulers.entries_setBusy, Schedulers.entries_addGenerator,
      entries] at queued
    by_cases same : own = y
    · exact same ▸ scheduler
    · simp [same] at queued

theorem Settled.park (settled : s.Settled) (here : s.IsCoroutine p)
    (now : s.progress p = .running) : AtHome (s.park sch p).task := by
  obtain ⟨own, scheduler, getScheduler⟩ := settled.running here (by rw [now]; rfl)
  have born := lt_of_coroutine settled.sound here
  have unborn : s.progress s.created = .absent := (settled.sound.fresh _ (Nat.le_refl _)).1
  have entries : ∀ y, s.schedulers.entries y s.created = 0 :=
    (settled.linked.blank s.created (Nat.le_refl _)).entries
  refine settled.wait (t := s.park sch p) here now (park_task_self (Nat.ne_of_lt born))
    (fun _ => park_task_of_ne) ?_ ?_ ?_ ?_ ?_
  · intro kind
    simp [Runtime.park, setState, setProgress, setBusy]
  · exact (Function.update_of_ne (Nat.ne_of_gt born) ..).trans unborn
  · intro q held
    rw [eq_comm]
    simpa [Runtime.park, setState, setProgress, setBusy] using held
  · have inside : Runtime.getScheduler s p = (s.states p).scheduler :=
      getScheduler.trans scheduler.symm
    simp [Runtime.park, setState, setProgress, setBusy, inside]
  · intro y queued
    have empty : (s.park sch p).schedulers.entries y s.created = 0 := by
      simp [Runtime.park, setState, setProgress, setBusy, entries]
    exact absurd empty (Nat.ne_of_gt queued)

theorem Settled.move (settled : s.Settled) {l : List Nat} {target : Nat} (chain : Chain s.task p l)
    (now : s.progress p = .running) : AtHome (moveChain target l s.task) := by
  obtain ⟨sound, linked, home⟩ := settled
  have inBody : (s.task p).progress.inBody = true := by
    change (s.progress p).inBody = true
    rw [now]
    rfl
  have walks := chain.mem_inBody inBody
  have coroutines := chain.mem_coroutine
  have frame := moveChain_frame target l s.task
  -- A member waits in the one below it.
  have below (q m : Nat) (passed : q ∈ l) (waits : s.progress q = .awaiting m) : m ∈ l := by
    rcases chain.exists_below passed with rfl | ⟨c, below, -, waits'⟩
    · cases now.symm.trans waits
    · cases waits'.symm.trans waits
      exact below
  constructor
  · intro q
    unfold moveChain
    split
    · rename_i passed
      have empty := (home.tidy q).body (coroutines q passed) (walks q passed)
      constructor
      · exact fun _ y queued => absurd (empty y) (Nat.ne_of_gt queued)
      · exact (home.tidy q).unused
      · exact fun _ _ y => (empty y).symm ▸ Nat.zero_le 1
      · exact fun _ _ => empty
      · rintro - (goes | ended) y
        · have goes : (s.task q).goes = [] := goes
          rw [TaskView.move_ready, if_pos goes]
          exact (home.tidy q).registered (coroutines q passed) (.inl goes) y
        · cases (Progress.ended_eq_false (walks q passed)).symm.trans ended
    · exact home.tidy q
  · intro m q plain held
    rw [(frame m).1] at plain
    rw [(frame m).2.2.1] at held
    have both : m ∈ l ↔ q ∈ l := by
      rcases sound.slot m q plain held with waits | ⟨rfl, -⟩
      · constructor
        · intro passed
          rcases (linked.forest.role m (coroutines m passed)).of_inBody (walks m passed) with
            ⟨c, own, -, -, coro, up, -⟩ | ⟨own, own', -, -, -, self, -⟩
          · cases held.symm.trans coro
            exact (linked.forest.ascent chain inBody).mem_up passed up
          · rcases self with none | self
            · cases held.symm.trans none
            · cases held.symm.trans self
              exact passed
        · exact fun passed => below q m passed waits
      · exact Iff.rfl
    by_cases passed : m ∈ l
    · simp only [moveChain, if_pos passed, if_pos (both.1 passed)]
      rfl
    · simp only [moveChain, if_neg passed, if_neg fun on => passed (both.2 on)]
      exact home.link m q plain held
  · intro q m waits
    rw [(frame q).2.1] at waits
    have asked := home.asked q m waits
    have out : q ∉ l := by
      intro passed
      have waits : s.progress q = .transformed m ∨ s.progress q = .unready m := waits
      rcases chain.exists_below passed with rfl | ⟨c, -, -, waits'⟩
      · simp [now] at waits
      · have waits' : s.progress q = .awaiting c := waits'
        simp [waits'] at waits
    have away : m ∉ l := by
      intro passed
      have initial := (linked.forest.called q m (coroutines m passed) waits).progress
      exact Progress.not_initial (walks m passed) initial
    simp only [moveChain, if_neg out, if_neg away]
    exact asked

theorem Settled.via (settled : s.Settled) {target : Nat} (here : s.IsCoroutine p)
    (now : s.progress p = .running) : AtHome (s.via sch p target).task := by
  obtain ⟨sound, linked, home⟩ := id settled
  have inBody : (s.task p).progress.inBody = true := by
    change (s.progress p).inBody = true
    rw [now]
    rfl
  obtain ⟨l, chain⟩ := linked.forest.exists_chain (suspended_of_sound sound) here inBody
  by_cases own : (s.states p).scheduler = some target
  · rw [linked.via_here sound chain now own]
    exact home
  obtain ⟨u, via, handles, tasks, -⟩ := linked.via_away sound chain now own
  have progress : u.progress = s.progress := congrArg Handles.progress handles
  have classes : u.classes = s.classes := congrArg Handles.classes handles
  have settled' : u.Settled := by
    refine ⟨handles ▸ sound, (linked.shift sound chain now handles tasks).linked, ?_⟩
    rw [tasks]
    exact settled.move chain now
  rw [via]
  apply settled'.pause
  · rw [IsCoroutine, classes, progress]
    exact here
  · rw [progress]
    exact now

theorem Settled.leave (settled : s.Settled) (begun : s.progress p ≠ .initial)
    (present : s.progress p ≠ .absent) (left : (t.progress p).left = true)
    (view : ∃ x coro entries ready, t.task p = { s.task p with progress := x, coro, entries, ready } ∧
      (∀ q, coro = some q → q ≠ p → (s.states p).coro = some q))
    (entries : s.IsCoroutine p → ∀ y, 0 < t.schedulers.entries y p →
      0 < s.schedulers.entries y p ∨ (s.states p).scheduler = some y)
    (once : s.IsCoroutine p → (t.progress p).ended = false → ∀ y, t.schedulers.entries y p ≤ 1)
    (ready : s.IsCoroutine p → s.goes p = [] ∨ (t.progress p).ended = true →
      ∀ y, t.schedulers.ready y p = false)
    (same : ∀ x, x ≠ p → t.task x = s.task x) : AtHome t.task := by
  obtain ⟨sound, linked, home⟩ := settled
  obtain ⟨x, coro, entries', ready', view, slot⟩ := view
  have cls : (t.task p).cls = (s.task p).cls := by rw [view]
  have goes : t.goes p = s.goes p := by
    change (t.task p).goes = (s.task p).goes
    rw [view]
  have awaits : t.awaits p = s.awaits p := by
    change (t.task p).awaits = (s.task p).awaits
    rw [view]
  have was (here : t.IsCoroutine p) : s.IsCoroutine p := by
    obtain ⟨⟨kind, future⟩, -⟩ := here
    exact ⟨⟨kind, cls.symm.trans future⟩, present⟩
  have scheduler : (t.states p).scheduler = (s.states p).scheduler := by
    change (t.task p).scheduler = (s.task p).scheduler
    rw [view]
  rw [tasks_of_ne same]
  apply home.stay
  · constructor
    · intro plain y queued
      by_cases here : s.IsCoroutine p
      · rcases entries here y queued with before | own
        · exact scheduler.trans ((home.tidy p).home (cls ▸ plain) y before)
        · exact scheduler.trans own
      · have future := (sound.coroutine p present).resolve_left fun class_ => plain (cls.trans class_)
        exact absurd ⟨future, present⟩ here
    · rintro ⟨kind, future⟩ empty unstarted
      have here : t.IsCoroutine p := by
        refine ⟨⟨kind, future⟩, fun absent => ?_⟩
        rw [absent] at left
        cases left
      exact absurd (goes.symm.trans (unstarted here))
        (linked.used (was here) begun (awaits.symm.trans empty))
    · exact fun here open_ => once (was here) open_
    · intro _ inBody
      cases (Progress.left_eq_false inBody).symm.trans left
    · intro here over_
      exact ready (was here) (over_.imp (fun none_ => goes.symm.trans none_) id)
  · exact scheduler
  · exact cls
  · intro q held other
    rw [view] at held
    exact slot q held other
  · intro m waits
    have waits : t.progress p = .transformed m ∨ t.progress p = .unready m := waits
    rcases waits with waits | waits <;> rw [waits] at left <;> cases left
  · intro q _ waits
    obtain ⟨kind, future⟩ := sound.target q p waits
    exact absurd (linked.forest.called q p ⟨⟨kind, future⟩, present⟩ waits).progress begun

theorem Settled.yieldValue (settled : s.Settled) (v : α) (now : s.progress p = .running) :
    AtHome (s.yieldValue sch p v).task := by
  have progress : (s.yieldValue sch p v).progress p = .yielded := by
    unfold Runtime.yieldValue
    split <;> simp [setProgress, setBusy]
  have empty (here : s.IsCoroutine p) : ∀ y, s.schedulers.entries y p = 0 :=
    (settled.home.tidy p).body here (by rw [show (s.task p).progress = _ from now]; rfl)
  have entries (here : s.IsCoroutine p) (y : Nat) : (s.yieldValue sch p v).schedulers.entries y p =
      if (s.states p).scheduler = some y then 1 else 0 := by
    obtain ⟨own, scheduler, getScheduler⟩ := settled.running here (by rw [now]; rfl)
    have class_ := class_ne_generator here
    unfold Runtime.yieldValue
    split
    · exact absurd ‹_› class_
    · have inside : (s.states p).getScheduler (s.rootScheduler p) = some own := getScheduler
      simp only [setBusy, Schedulers.entries_setBusy, setProgress, update_entries, empty here,
        FutureState.promiseYieldValue_calls, inside, scheduler]
      simp [List.count_singleton]
  refine settled.leave (t := s.yieldValue sch p v) (by simp [now]) (by simp [now])
    (by rw [progress]; rfl) ?_ ?_ ?_ ?_ fun x out => yieldValue_task_of_ne out v
  · by_cases generator : s.classes p = .generator
    · refine ⟨.yielded, (s.states p).coro, ((s.yieldValue sch p v).task p).entries,
        ((s.yieldValue sch p v).task p).ready, ?_, fun _ held _ => held⟩
      simp only [task]
      unfold Runtime.yieldValue
      rw [generator]
      cases own : (s.states p).scheduler <;> simp [setProgress, setBusy, generator, own]
    · refine ⟨.yielded, (s.states p).coro.or (some p), ((s.yieldValue sch p v).task p).entries,
        (s.task p).ready, yieldValue_task_self generator v, fun q held other => ?_⟩
      cases coro : (s.states p).coro with
      | none =>
          simp only [coro, Option.none_or, Option.some.injEq] at held
          exact absurd held.symm other
      | some c => simpa [coro] using held
  · intro here y queued
    rw [entries here] at queued
    split at queued
    · next own => exact .inr own
    · cases queued
  · intro here _ y
    rw [entries here]
    split <;> decide
  · intro here over_ y
    rcases over_ with goes | ended
    · have ready : ((s.yieldValue sch p v).task p).ready = (s.task p).ready := by
        rw [yieldValue_task_self (class_ne_generator here) v]
      exact (congrFun ready y).trans ((settled.home.tidy p).registered here (.inl goes) y)
    · rw [progress] at ended
      cases ended

theorem finish_eq (plain : s.classes p ≠ .generator) (o : Outcome α ε) : s.finish p o =
    (s.update p ((s.states p).complete (s.kind p) o (s.rootScheduler p))).setProgress p
      (afterFinish o) := by
  unfold finish
  split
  · exact absurd ‹_› plain
  · rfl

theorem Settled.finish (settled : s.Settled) (o : Outcome α ε)
    (now : s.progress p = .running ∨ s.progress p = .returned) : AtHome (s.finish p o).task := by
  have begun : s.progress p ≠ .initial := by rcases now with now | now <;> simp [now]
  have present : s.progress p ≠ .absent := by rcases now with now | now <;> simp [now]
  have progress : (s.finish p o).progress p = afterFinish o := by
    unfold Runtime.finish
    split <;> simp [setProgress]
  have ended : ((s.finish p o).progress p).ended = true := by rw [progress, afterFinish_ended]
  refine settled.leave (t := s.finish p o) begun present ?_ ?_ ?_ ?_ ?_
    fun x out => finish_task_of_ne out o
  · rw [Progress.left, ended]
    rfl
  · refine ⟨afterFinish o, (s.states p).coro, ((s.finish p o).task p).entries,
      ((s.finish p o).task p).ready, ?_, fun _ held _ => held⟩
    simp only [task]
    unfold Runtime.finish
    split <;> simp [update, setState, setProgress, FutureState.complete_state]
  · intro here y queued
    obtain ⟨own, scheduler⟩ := (settled.linked.forest.role p here).scheduler_of_begun begun
    have inside : (s.states p).getScheduler (s.rootScheduler p) = some own :=
      getScheduler_of_some scheduler
    rw [finish_eq (class_ne_generator here)] at queued
    simp only [setProgress, update_entries, FutureState.complete_calls, inside] at queued
    by_cases same : own = y
    · exact .inr (same ▸ scheduler)
    · left
      split at queued <;> simpa [same] using queued
  · intro _ open_
    cases ended.symm.trans open_
  · intro here _ y
    rw [finish_eq (class_ne_generator here)]
    change (s.update p _).schedulers.ready y p = false
    by_cases before : s.goes p = [] ∨ (s.progress p).ended = true
    · apply Bool.eq_false_of_not_eq_true
      intro registered
      cases ((settled.home.tidy p).registered here before y).symm.trans (update_ready registered)
    · rw [not_or] at before
      obtain ⟨goes, open_⟩ := before
      have running : s.progress p = .running := by
        rcases now with now | now
        · exact now
        · exact absurd (by rw [now]; rfl) open_
      have inBody : (s.task p).progress.inBody = true := by
        change (s.progress p).inBody = true
        rw [running]
        rfl
      rcases (settled.linked.forest.role p here).of_inBody inBody with
        ⟨_, _, -, -, -, -, none_, -⟩ | ⟨_, own, -, -, -, self, scheduler, -, ready⟩
      · exact absurd none_ goes
      have plain : s.handles.classes p ≠ .generator := class_ne_generator here
      have coro : (s.states p).coro = none := by
        apply self.resolve_right
        intro held
        rcases settled.sound.slot p p plain held with waits | ⟨-, yields⟩
        · cases running.symm.trans waits
        · cases running.symm.trans yields
      have isInitor := isInitor_eq_none settled.sound plain (by simp [running]) (by simp [running])
      have inside : (s.states p).getScheduler (s.rootScheduler p) = some own :=
        getScheduler_of_some scheduler
      simp only [update, FutureState.complete_calls, inside, FutureState.hasHandlerSkipLock, coro,
        isInitor]
      have ready : s.schedulers.ready y p = decide (y = own) := ready y
      simp [Schedulers.call, Schedulers.ready_delFinal_self, ready]

theorem Settled.finalSuspend (settled : s.Settled)
    (now : s.progress p = .returned ∨ s.progress p = .failed)
    (done : s.finalSuspend sch p = .ok t) : AtHome t.task := by
  have begun : s.progress p ≠ .initial := by rcases now with now | now <;> simp [now]
  have present : s.progress p ≠ .absent := by rcases now with now | now <;> simp [now]
  have over_ : (s.progress p).ended = true := by rcases now with now | now <;> rw [now] <;> rfl
  have same := fun x out => finalSuspend_task_of_ne (s := s) (t := t) (n := x) out done
  by_cases generator : s.classes p = .generator
  · have never : ¬ s.IsCoroutine p := fun here => class_ne_generator here generator
    have progress : t.progress p = .destroyed := by
      rcases finalSuspend_handles done with ⟨-, handles⟩ | ⟨plain, -⟩
      · exact (congrFun (congrArg Handles.progress handles) p).trans (Function.update_self ..)
      · exact absurd generator plain
    refine settled.leave begun present (by rw [progress]; rfl) ?_ (fun here => absurd here never)
      (fun here => absurd here never) (fun here => absurd here never) same
    refine ⟨.destroyed, none, (t.task p).entries, (t.task p).ready, ?_, fun _ held => by cases held⟩
    simp only [Runtime.finalSuspend, generator, Except.ok.injEq] at done
    subst done
    cases own : (s.states p).scheduler <;>
      simp [task, setState, setProgress, setBusy, destroy, generator, own]
  · have future := (settled.sound.coroutine p present).resolve_left generator
    have here : s.IsCoroutine p := ⟨future, present⟩
    obtain ⟨own, scheduler⟩ := (settled.linked.forest.role p here).scheduler_of_begun begun
    obtain ⟨updated, state, calls, after⟩ : ∃ updated : FutureState α ε × List Call,
        updated.1 = { s.states p with isInitor := .final } ∧
        updated.2 = [.addGenerator own, .delFinal own] ∧
        t = ((s.update p updated).setProgress p .final).setBusy sch none := by
      refine ⟨({ s.states p with isInitor := .final }, [.addGenerator own, .delFinal own]), rfl, rfl,
        ?_⟩
      have inside : (s.states p).getScheduler (s.rootScheduler p) = some own :=
        getScheduler_of_some scheduler
      unfold Runtime.finalSuspend at done
      split at done
      · exact absurd ‹_› generator
      · simp only [FutureState.promiseFinalSuspend_eq, inside, bind, Except.bind,
          Except.ok.injEq] at done
        exact done.symm
    have progress : t.progress p = .final := by simp [after, setProgress, setBusy]
    refine settled.leave begun present (by rw [progress]; rfl) ?_ ?_ ?_ ?_ same
    · refine ⟨.final, (s.states p).coro, (t.task p).entries, (t.task p).ready, ?_,
        fun _ held _ => held⟩
      rw [after]
      simp [task, update, setState, setProgress, setBusy, state]
    · intro _ y queued
      have queued : 0 < (s.update p updated).schedulers.entries y p := by
        simpa [after, setProgress, setBusy] using queued
      rw [update_entries, calls] at queued
      by_cases here : own = y
      · exact .inr (here ▸ scheduler)
      · exact .inl (by simpa [here] using queued)
    · intro _ open_
      rw [progress] at open_
      cases open_
    · intro _ _ y
      apply Bool.eq_false_of_not_eq_true
      intro registered
      have registered : (s.update p updated).schedulers.ready y p = true := by
        simpa [after, setProgress, setBusy] using registered
      cases ((settled.home.tidy p).registered here (.inr over_) y).symm.trans
        (update_ready registered)

/-! ## Every run -/

theorem Settled.body (settled : s.Settled) {action : BodyAction α ε}
    (allowed : Exclusive s (.body sch action)) (h : s.body sch p action = some t) :
    AtHome t.task := by
  rcases body_cases h with ⟨m, kind, kind', rfl, now, class_p, class_m, rfl⟩ | ⟨m, -, now, rfl⟩ |
    ⟨m, -, now, rfl⟩ | ⟨kind, -, now, class_p, rfl⟩ | ⟨kind, -, now, class_p, rfl⟩ |
    ⟨target, kind, -, now, class_p, rfl⟩ | ⟨v, -, now, rfl⟩ | ⟨v, -, now, rfl⟩ |
    ⟨e, -, now, -, rfl⟩ | ⟨-, now, done⟩
  · exact settled.beginAwait ⟨⟨kind, class_p⟩, by simp [now]⟩ now class_m allowed
  · exact settled.testReady now
  · exact settled.suspendAwait now
  · exact settled.pause ⟨⟨kind, class_p⟩, by simp [now]⟩ now
  · exact settled.park ⟨⟨kind, class_p⟩, by simp [now]⟩ now
  · exact settled.via ⟨⟨kind, class_p⟩, by simp [now]⟩ now
  · exact settled.yieldValue v now
  · exact settled.finish (.value v) (.inl now)
  · exact settled.finish (.exception e) now
  · exact settled.finalSuspend now done

theorem Settled.step (settled : s.Settled) {action : RuntimeAction α ε}
    (allowed : Exclusive s action) (h : s.step action = some t) : AtHome t.task := by
  rcases step_cases h with ⟨kind, -, rfl⟩ | ⟨-, rfl⟩ | ⟨kind, -, rfl⟩ |
    ⟨sch, n, rfl, -, class_n, rfl⟩ | ⟨n, o, kind, -, class_n, awaitable, rfl⟩ |
    ⟨w, sch, -, class_w, own, rfl⟩ | ⟨sch, -, empty, -, rfl⟩ | ⟨sch, n, rest, -, -, next, rfl⟩ |
    ⟨sch, p, next, rfl, -, action⟩
  · exact settled.add (fun _ => rfl) (.inl rfl)
  · exact settled.add (fun plain => absurd rfl plain) (.inl rfl)
  · exact settled.add (fun _ => rfl) (.inr rfl)
  · exact settled.newTask class_n allowed
  · exact settled.complete class_n awaitable o
  · exact settled.notify class_w own
  · have same : (s.swap sch).task = s.task := funext fun x => swap_task empty x
    rw [same]
    exact settled.home
  · exact settled.resume next
  · exact settled.body allowed action

theorem initial_atHome : AtHome ({} : Runtime α ε).task := by
  constructor
  · exact fun n => .other (fun kind => by simp [task]) fun _ y queued => absurd queued (Nat.not_lt_zero _)
  · exact fun _ p _ held => by cases held
  · rintro p m (waits | waits) <;> cases waits

theorem settled_of_reachable (reachable : (system α ε).ReachableBy Exclusive s) : s.Settled := by
  have chained {s : Runtime α ε} (reachable : (system α ε).ReachableBy Exclusive s) :
      (system α ε).ReachableBy Chained s :=
    reachable.mono fun _ _ => Exclusive.chained
  have inductive_ : (system α ε).Inductive Exclusive fun s => AtHome s.task := by
    constructor
    · exact initial_atHome
    · intro s e t reached home allowed h
      exact Settled.step ⟨sound_of_reachable reached, linked_of_reachable (chained reached), home⟩
        allowed h
  exact ⟨sound_of_reachable reachable, linked_of_reachable (chained reachable),
    inductive_.holds reachable⟩

end Runtime

end Librf
