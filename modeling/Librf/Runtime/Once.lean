import Librf.Runtime.Resume

/-!
# Each frame is destroyed once, behind the resumption of its awaiter
-/

namespace Librf

section Stage

variable {home n : Nat} {r : Record}

theorem Stage.counts (stage : Stage home n r) : r.wakeups ≤ 1 ∧ r.destroyed ≤ 1 := by
  cases stage <;> exact ⟨by simp, by simp⟩

theorem Stage.destroyed_eq_zero (stage : Stage home n r) (alive : r.progress ≠ .destroyed) :
    r.destroyed = 0 := by
  cases stage with
  | destroyed | taskDestroyed => exact absurd rfl alive
  | _ => rfl

theorem Stage.of_wake (stage : Stage home n r) (queued : 0 < r.entries) {p : Nat}
    (isInitor : r.isInitor ≠ .initial) (coro : r.coro = some p) (other : p ≠ n)
    (passive : r.progress.active = false) :
    r.awaits = [p] ∧ r.progress = .final ∧ r.wakeups = 0 ∧ r.destroyed = 0 := by
  cases stage with
  | final q k more =>
      cases coro
      exact ⟨rfl, rfl, rfl, rfl⟩
  | queued => exact absurd rfl isInitor
  | yielded =>
      cases coro
      exact absurd rfl other
  | body => cases queued
  | ended q k x atEnd =>
      dsimp only at passive
      cases x <;> simp_all [Progress.atEnd, Progress.active]
  | _ => cases coro

theorem Stage.of_destroy (stage : Stage home n r) (isInitor : r.isInitor = .final)
    (coro : r.coro = none) :
    r.progress = .final ∧ r.destroyed = 0 ∧ r.wakeups = r.awaits.length := by
  cases stage with
  | woken | taskFinal => exact ⟨rfl, rfl, rfl⟩
  | final => cases coro
  | _ => cases isInitor

theorem Stage.drained (stage : Stage home n r) (drained : r.entries = 0)
    (ended : r.progress = .final ∨ r.progress = .destroyed) :
    r.destroyed = 1 ∧ r.wakeups = r.awaits.length := by
  cases stage with
  | destroyed | taskDestroyed => exact ⟨rfl, rfl⟩
  | final p k queued | woken p k queued =>
      dsimp only at drained
      subst drained
      exact absurd queued (by simp)
  | taskFinal => cases drained
  | body p x inBody | taskBody x inBody =>
      dsimp only at ended
      rcases ended with rfl | rfl <;> cases inBody
  | ended p k x atEnd | taskEnded x atEnd =>
      dsimp only at ended
      rcases ended with rfl | rfl <;> cases atEnd
  | _ => rcases ended with ended | ended <;> cases ended

end Stage

def Resumption.handle (n : Nat) : Resumption → Option Nat
  | .start => some n
  | .wake p => some p
  | .destroy | .nothing => none

namespace Runtime

variable {α ε : Type*} {s t : Runtime α ε} {home : Nat}

theorem created_of_future (sound : s.handles.Sound) {m : Nat} {kind : Kind}
    (class_ : s.classes m = .future kind) : m < s.created := by
  by_contra new
  have unborn : s.classes m = .waiter := (sound.fresh m (Nat.le_of_not_lt new)).2
  rw [class_] at unborn
  cases unborn

theorem coroutine_of_inAwait (sound : s.handles.Sound) {p : Nat}
    (inAwait : (s.progress p).inAwait = true) : s.IsCoroutine p := by
  have present : s.progress p ≠ .absent := by
    intro absent
    rw [absent] at inAwait
    cases inAwait
  refine ⟨(sound.coroutine p present).resolve_left ?_, present⟩
  intro generator
  have outside : (s.progress p).inAwait = false := (sound.generator p generator).2.1
  rw [inAwait] at outside
  cases outside

theorem Framed.body (framed : s.Framed home) (sound : s.handles.Sound) {p : Nat}
    {action : BodyAction α ε} (busy : (s.schedulers home).busy = some p)
    (allowed : OnceEach home s (.body home action)) (h : s.body home p action = some t) :
    t.Framed home := by
  have born : (s.progress p).active = true → p < s.created := fun active => sound.of_active active
  rcases body_cases h with ⟨m, kind, kind', rfl, now, class_p, class_m, rfl⟩ | ⟨m, rfl, now, rfl⟩ |
    ⟨m, rfl, now, rfl⟩ | ⟨kind, rfl, now, class_p, rfl⟩ | ⟨kind, rfl, now, class_p, rfl⟩ |
    ⟨target, kind, rfl, now, class_p, rfl⟩ | ⟨v, rfl, now, rfl⟩ | ⟨v, rfl, now, rfl⟩ |
    ⟨e, rfl, now, class_p, rfl⟩ | ⟨rfl, now, done⟩
  · exact framed.beginAwait ⟨⟨kind, class_p⟩, by simp [now]⟩ busy now
      ⟨created_of_future sound class_p, created_of_future sound class_m⟩ allowed
  · exact framed.testReady (coroutine_of_inAwait sound (by simp [now, Progress.inAwait])) busy now
      (born (by simp [now, Progress.active]))
  · obtain ⟨kind, class_m⟩ := sound.target p m (.inr now)
    exact framed.suspendAwait (coroutine_of_inAwait sound (by simp [now, Progress.inAwait])) busy now
      ⟨born (by simp [now, Progress.active]), created_of_future sound class_m⟩
  · exact framed.pause sound ⟨⟨kind, class_p⟩, by simp [now]⟩ busy now
      (created_of_future sound class_p)
  · exact framed.park sound ⟨⟨kind, class_p⟩, by simp [now]⟩ busy now
      (created_of_future sound class_p)
  · exact absurd allowed id
  · exact framed.yieldValue v busy now (born (by simp [now, Progress.active])) (allowed p busy)
  · exact framed.finish (.value v) busy (.inl now) (born (by simp [now, Progress.active]))
  · refine framed.finish (.exception e) busy now (born ?_)
    rcases now with now | now <;> simp [now, Progress.active]
  · refine framed.finalSuspend busy now (born ?_) done
    rcases now with now | now <;> simp [now, Progress.active]

theorem Framed.step (framed : s.Framed home) (sound : s.handles.Sound) {action : RuntimeAction α ε}
    (allowed : OnceEach home s action) (h : s.step action = some t) : t.Framed home := by
  rcases step_cases h with ⟨kind, -, rfl⟩ | ⟨-, rfl⟩ | ⟨kind, -, rfl⟩ | ⟨sch, n, rfl, born, -, rfl⟩ |
    ⟨n, o, kind, -, class_n, awaitable, rfl⟩ | ⟨w, sch, -, class_w, own, rfl⟩ |
    ⟨sch, -, empty, -, rfl⟩ | ⟨sch, n, rest, rfl, idle, next, rfl⟩ | ⟨sch, p, next, rfl, busy, action⟩
  · exact framed.add sound rfl fun _ _ => .fresh
  · refine framed.add sound rfl ?_
    rintro ⟨kind, other⟩
    cases other
  · exact framed.add sound rfl fun _ present => absurd rfl present
  · obtain ⟨rfl, unused⟩ := allowed
    exact framed.newTask born unused
  · exact framed.complete kind o (created_of_future sound class_n) awaitable
  · refine framed.notify sch ?_ class_w
    by_contra new
    have unborn := (framed.unborn w (Nat.le_of_not_lt new)).scheduler
    rw [own] at unborn
    cases unborn
  · exact framed.swap sch empty
  · obtain rfl : sch = home := allowed
    exact framed.resume sound idle next
  · obtain rfl := framed.only sch p busy
    exact framed.body sound busy allowed action

theorem initial_framed : ({} : Runtime α ε).Framed home := by
  constructor
  · rintro n ⟨⟨kind, class_⟩, -⟩
    cases class_
  · rintro p m ⟨⟨kind, class_⟩, -⟩
    cases class_
  · intro p active
    cases active
  · intro sch p busy
    cases busy
  · exact fun n _ => ⟨rfl, ⟨rfl, rfl⟩, rfl, rfl, rfl⟩

theorem framed_of_reachable (reachable : (system α ε).ReachableBy (OnceEach home) s) :
    s.Framed home := by
  have inductive_ : (system α ε).Inductive (OnceEach home) (Framed home) := by
    constructor
    · exact initial_framed
    · intro s e t reached framed allowed h
      exact framed.step (sound_of_reachable reached) allowed h
  exact inductive_.holds reachable

/-! ### What is promised -/

/-- `run_one_batch` of `home` is about to resume state `n`. -/
def Next (home n : Nat) (s : Runtime α ε) : Prop :=
  (s.schedulers home).busy = none ∧ (s.schedulers home).cachedStates.head? = some n

structure LivesOnce (home : Nat) (s : Runtime α ε) : Prop where
  suspended : ∀ n p, s.Next home n → s.classes n ≠ .generator →
    (s.resumption n).handle n = some p →
    (s.progress p = .initial ∨ s.progress p = .awaiting n ∨ s.progress p = .yielded) ∧
      s.destroyed p = 0
  awaiter : ∀ n p, s.Next home n → s.IsCoroutine n → s.resumption n = .wake p → p ≠ n →
    s.awaits n = [p] ∧ s.progress n = .final ∧ s.wakeups n = 0 ∧ s.destroyed n = 0
  destroy : ∀ n, s.Next home n → s.IsCoroutine n → s.resumption n = .destroy →
    s.progress n = .final ∧ s.destroyed n = 0 ∧ s.wakeups n = (s.awaits n).length
  once : ∀ n, s.IsCoroutine n → s.wakeups n ≤ 1 ∧ s.destroyed n ≤ 1
  drained : (s.schedulers home).cachedStates = [] → (s.schedulers home).runingStates = [] →
    (s.schedulers home).busy = none → ∀ n, s.IsCoroutine n →
    s.progress n = .final ∨ s.progress n = .destroyed →
    s.destroyed n = 1 ∧ s.wakeups n = (s.awaits n).length

theorem Next.entries {n : Nat} (next : s.Next home n) : 0 < s.schedulers.entries home n := by
  obtain ⟨-, first⟩ := next
  cases cached : (s.schedulers home).cachedStates with
  | nil => simp [cached] at first
  | cons m rest =>
      obtain rfl : m = n := by simpa [cached] using first
      simp [Schedulers.entries, cached]

theorem of_resumption_start {n : Nat} (start : s.resumption n = .start) :
    (s.states n).isInitor = .initial := by
  by_cases future : s.classes n = .generator ∨ s.classes n = .waiter
  · rcases future with class_ | class_
    all_goals
      simp only [resumption, class_] at start
      split at start <;> cases start
  · rw [not_or] at future
    rw [(resume_future s 0 n future.1 future.2).1] at start
    rcases resume_cases (s.states n) with ⟨tag, -⟩ | ⟨p, -, -, result⟩ | ⟨-, -, result⟩ |
      ⟨-, -, result⟩
    · exact tag
    all_goals
      rw [result] at start
      cases start

theorem of_resumption_wake {n p : Nat} (wake : s.resumption n = .wake p) :
    (s.states n).coro = some p ∧ (s.IsCoroutine n → (s.states n).isInitor ≠ .initial) := by
  by_cases future : s.classes n = .generator ∨ s.classes n = .waiter
  · have plain : ¬ s.IsCoroutine n := by
      rintro ⟨⟨kind, class_⟩, -⟩
      simp [class_] at future
    refine ⟨?_, fun here => absurd here plain⟩
    rcases future with class_ | class_
    all_goals
      simp only [resumption, class_] at wake
      split at wake
      · cases wake
        assumption
      · cases wake
  · rw [not_or] at future
    rw [(resume_future s 0 n future.1 future.2).1] at wake
    rcases resume_cases (s.states n) with ⟨-, result⟩ | ⟨q, later, held, result⟩ | ⟨-, -, result⟩ |
      ⟨-, -, result⟩ <;> rw [result] at wake
    · cases wake
    · cases wake
      exact ⟨held, fun _ => later⟩
    all_goals cases wake

theorem of_resumption_destroy {n : Nat} (coroutine : s.IsCoroutine n)
    (destroy : s.resumption n = .destroy) :
    (s.states n).isInitor = .final ∧ (s.states n).coro = none := by
  obtain ⟨⟨kind, class_⟩, -⟩ := coroutine
  rw [(resume_future s 0 n (by simp [class_]) (by simp [class_])).1] at destroy
  rcases resume_cases (s.states n) with ⟨-, result⟩ | ⟨p, -, -, result⟩ | ⟨tag, held, result⟩ |
    ⟨-, -, result⟩ <;> rw [result] at destroy
  · cases destroy
  · cases destroy
  · exact ⟨tag, held⟩
  · cases destroy

theorem Framed.suspended (framed : s.Framed home) (sound : s.handles.Sound) {n p : Nat}
    (plain : s.classes n ≠ .generator) (handled : (s.resumption n).handle n = some p) :
    (s.progress p = .initial ∨ s.progress p = .awaiting n ∨ s.progress p = .yielded) ∧
      s.destroyed p = 0 := by
  have waits : s.IsCoroutine p ∧
      (s.progress p = .initial ∨ s.progress p = .awaiting n ∨ s.progress p = .yielded) := by
    cases resumption : s.resumption n with
    | start =>
        rw [resumption] at handled
        cases handled
        have initial : s.progress n = .initial :=
          (sound.initial n plain).1 (of_resumption_start resumption)
        have class_ := (sound.coroutine n (by simp [handles, initial])).resolve_left plain
        exact ⟨⟨class_, by simp [initial]⟩, .inl initial⟩
    | wake q =>
        rw [resumption] at handled
        cases handled
        rcases sound.slot n p plain (of_resumption_wake resumption).1 with waits | ⟨rfl, yields⟩
        · have waits : s.progress p = .awaiting n := waits
          exact ⟨coroutine_of_inAwait sound (by simp [waits, Progress.inAwait]), .inr (.inl waits)⟩
        · have yields : s.progress p = .yielded := yields
          have class_ := (sound.coroutine p (by simp [handles, yields])).resolve_left plain
          exact ⟨⟨class_, by simp [yields]⟩, .inr (.inr yields)⟩
    | destroy =>
        rw [resumption] at handled
        cases handled
    | nothing =>
        rw [resumption] at handled
        cases handled
  refine ⟨waits.2, (framed.stage p waits.1).destroyed_eq_zero ?_⟩
  rcases waits.2 with x | x | x <;> simp [record, x]

theorem lives_once (reachable : (system α ε).ReachableBy (OnceEach home) s) : s.LivesOnce home := by
  have framed := framed_of_reachable reachable
  have sound := sound_of_reachable reachable
  constructor
  · exact fun n p _ plain handled => framed.suspended sound plain handled
  · intro n p next coroutine wake other
    obtain ⟨coro, later⟩ := of_resumption_wake wake
    exact (framed.stage n coroutine).of_wake next.entries (later coroutine) coro other
      (framed.idle next.1 n)
  · intro n next coroutine destroy
    obtain ⟨isInitor, coro⟩ := of_resumption_destroy coroutine destroy
    exact (framed.stage n coroutine).of_destroy isInitor coro
  · exact fun n coroutine => (framed.stage n coroutine).counts
  · intro cached queued idle n coroutine ended
    have entries : s.schedulers.entries home n = 0 := by
      simp [Schedulers.entries, cached, queued]
    exact (framed.stage n coroutine).drained entries ended

def awaitedCall : List (RuntimeAction Unit Unit) :=
  [.newCoroutine .unit, .newCoroutine .unit, .go 0 0, .swap 0, .resume 0, .body 0 (.transform 1),
    .body 0 .test, .body 0 .suspend, .swap 0, .resume 0, .body 0 (.finish (.value ())),
    .body 0 .finalSuspend, .swap 0, .resume 0, .body 0 (.finish (.value ())), .body 0 .finalSuspend,
    .resume 0, .swap 0, .resume 0]

theorem lives_once_awaited :
    ∃ s, (system Unit Unit).ReachableBy (OnceEach 0) s ∧ s.progress 1 = .destroyed ∧
      s.destroyed 1 = 1 ∧ s.wakeups 1 = 1 := by
  obtain ⟨s, reachable, test⟩ := Transition.System.reachableBy_of_replay (system Unit Unit)
    (OnceEach 0) awaitedCall (fun s => s.classes 1 = .future .unit ∧ s.progress 1 = .destroyed ∧
      (s.schedulers 0).cachedStates = [] ∧ (s.schedulers 0).runingStates = [] ∧
      (s.schedulers 0).busy = none ∧ s.awaits 1 = [0]) (by decide)
  simp only [decide_eq_true_eq] at test
  obtain ⟨class_, progress, cached, queued, idle, awaits⟩ := test
  have promised := (lives_once reachable).drained cached queued idle 1
    ⟨⟨_, class_⟩, by simp [progress]⟩ (.inr progress)
  rw [awaits] at promised
  exact ⟨s, reachable, progress, promised⟩

end Runtime

end Librf
