import Mathlib.Data.Prod.Lex
import Librf.Runtime.Stopping

/-!
# Stopping everything cannot lock up the scheduler

The thread holds one spinlock throughout. That it ends follows from a measure: what is left of the
loop it is in, of the callbacks of this turn, of the callback, and of the operation.
-/

namespace Librf

def TimerSection.clears : TimerSection → Prop
  | .idle | .clearingAdded _ _ | .clearingRuning _ _ => True
  | _ => False

/-- The loops of `clear` that are left. -/
def TimerSection.loops : TimerSection → Nat
  | .clearingAdded _ _ => 3
  | .clearingRuning _ _ => 2
  | _ => 1

/-- The timers that this loop has still to call. -/
def TimerSection.left : TimerSection → Nat
  | .clearingAdded _ rest => rest.length
  | .clearingRuning _ rest => rest.length
  | _ => 0

def SchedulerCall.work : SchedulerCall → Nat
  | .testHandler _ _ => 2
  | _ => 1

namespace Stopping

variable {α ε : Type*} {s t : Stopping α ε} {program : StopProgram α ε} {sch n : Nat}

/-! ## What is held and what is asked for -/

def TimerReady (s : Stopping α ε) : Prop :=
  match s.stopSection with
  | .outside => True
  | .tasks sch _ | .signalling sch _ _ => (s.timers sch).timerSection = .idle
  | .clearing sch => (s.timers sch).timerSection.clears

structure Sound (s : Stopping α ε) : Prop where
  outside : s.stopSection = .outside → s.held = [] ∧ s.ops = [] ∧ s.pending = []
  held : ∀ sch, s.stopSection.scheduler = some sch → s.held = [.ready sch]
  timer : s.TimerReady
  requested : ∀ sch n rest, s.stopSection = .signalling sch n rest → (s.stops n).requested = true
  pending : ∀ sch, s.stopSection.scheduler = some sch →
    ∀ call ∈ s.pending, call.lock ≠ some (.ready sch)

theorem begin_pending (s : Stopping α ε) (op : StopOp α ε)
    (harmless : match op with
      | .complete n _ => s.runtime.getScheduler n = some sch →
          (s.runtime.states n).hasHandlerSkipLock = true
      | .go target _ => target ≠ sch
      | _ => True) (empty : s.pending = []) :
    ∀ call ∈ (s.begin op).pending, call.lock ≠ some (.ready sch) := by
  intro call member
  cases op with
  | go target n =>
      simp only [begin, List.mem_cons, List.not_mem_nil, or_false] at member
      rcases member with rfl | rfl
      · simpa [SchedulerCall.lock] using harmless
      · simp [SchedulerCall.lock]
  | complete n o =>
      simp only [begin, FutureState.complete_calls, List.mem_map] at member
      obtain ⟨call, member, rfl⟩ := member
      split at member
      · rename_i target scheduler
        have scheduler_ : s.runtime.getScheduler n = some target := scheduler
        split at member
        · obtain rfl := List.mem_singleton.1 member
          simp [SchedulerCall.lock, Call.lock]
        · rename_i unhandled
          obtain rfl := List.mem_singleton.1 member
          simp only [SchedulerCall.lock, Call.lock, ne_eq, Option.some.injEq,
            SchedulerLock.ready.injEq]
          rintro rfl
          exact unhandled (harmless scheduler_)
      · cases member
  | addTimer target tp =>
      obtain rfl := List.mem_singleton.1 member
      simp [SchedulerCall.lock]
  | _ =>
      rw [show (s.begin _).pending = s.pending from rfl, empty] at member
      cases member

theorem Sound.foreign (sound : s.Sound) (foreign : Foreign s t) : t.Sound := by
  refine ⟨?_, ?_, ?_, ?_, ?_⟩
  · rw [foreign.stopSection, foreign.held, foreign.ops, foreign.pending]
    exact sound.outside
  · rw [foreign.stopSection, foreign.held]
    exact sound.held
  · have timer := sound.timer
    unfold TimerReady at timer ⊢
    rw [foreign.stopSection]
    split at timer <;> simp_all [foreign.timerSection]
  · intro sch n rest there
    rw [foreign.stopSection] at there
    exact (foreign.stops n (sound.requested sch n rest there)).1
  · rw [foreign.stopSection, foreign.pending]
    exact sound.pending

theorem Sound.requestStopAll (sound : s.Sound) (there : s.stopSection = .outside)
    (idle : (s.timers sch).timerSection = .idle) : Sound { s with
      held := .ready sch :: s.held
      stopSection := .tasks sch (s.runtime.schedulers sch).readyTask } := by
  obtain ⟨held, -, pending⟩ := sound.outside there
  refine ⟨fun outside => ?_, fun sch' same => ?_, idle, fun _ _ _ there => ?_,
    fun sch' _ call member => ?_⟩
  · cases outside
  · cases same
    rw [held]
  · cases there
  · have none : call ∈ s.pending := member
    rw [pending] at none
    cases none

theorem perform_frame (s : Stopping α ε) (call : SchedulerCall) :
    (s.perform call).stopSection = s.stopSection ∧ (s.perform call).held = s.held ∧
      (s.perform call).ops = s.ops ∧ (s.perform call).stops = s.stops ∧
      ∀ sch, ((s.perform call).timers sch).timerSection = (s.timers sch).timerSection := by
  cases call with
  | testHandler sch n =>
      simp only [Stopping.perform]
      split <;> exact ⟨rfl, rfl, rfl, rfl, fun _ => rfl⟩
  | addTimer sch tp => exact ⟨rfl, rfl, rfl, rfl, timerSection_setTimer rfl⟩
  | _ => exact ⟨rfl, rfl, rfl, rfl, fun _ => rfl⟩

theorem perform_pending (s : Stopping α ε) (call : SchedulerCall) :
    (s.perform call).pending = s.pending ∨
      (∃ sch n, call = .testHandler sch n ∧
        (s.perform call).pending = .call (.addGenerator sch) n :: s.pending) := by
  cases call with
  | testHandler sch n =>
      simp only [Stopping.perform]
      split
      · exact .inr ⟨sch, n, rfl, rfl⟩
      · exact .inl rfl
  | _ => exact .inl rfl

theorem begin_frame (s : Stopping α ε) (op : StopOp α ε) :
    (s.begin op).stopSection = s.stopSection ∧ (s.begin op).held = s.held ∧
      (s.begin op).ops = s.ops ∧ (s.begin op).stops = s.stops ∧
      (s.begin op).timers = s.timers := by
  cases op <;> exact ⟨rfl, rfl, rfl, rfl, rfl⟩

theorem Sound.perform {call : SchedulerCall} {rest : List SchedulerCall} (sound : s.Sound)
    (pending : s.pending = call :: rest) : ({ s with pending := rest }.perform call).Sound := by
  obtain ⟨section_, held, ops, stops, timers⟩ := perform_frame { s with pending := rest } call
  refine ⟨?_, ?_, ?_, ?_, ?_⟩
  · rw [section_]
    intro outside
    rw [(sound.outside outside).2.2] at pending
    cases pending
  · rw [section_, held]
    exact sound.held
  · have timer := sound.timer
    unfold TimerReady at timer ⊢
    rw [section_]
    dsimp only
    split at timer <;> simp_all
  · rw [section_, stops]
    exact sound.requested
  · rw [section_]
    intro sch there c member
    have asks := sound.pending sch there
    rw [pending] at asks
    rcases perform_pending { s with pending := rest } call with same | ⟨target, n, rfl, more⟩
    · rw [same] at member
      exact asks c (List.mem_cons_of_mem _ member)
    · rw [more] at member
      rcases List.mem_cons.1 member with rfl | member
      · simp [SchedulerCall.lock, Call.lock]
      · exact asks c (List.mem_cons_of_mem _ member)

theorem Sound.begin {op : StopOp α ε} {rest : List (StopOp α ε)} (sound : s.Sound)
    (pending : s.pending = []) (ops : s.ops = op :: rest) (harmless : Harmless s .next) :
    ({ s with ops := rest }.begin op).Sound := by
  obtain ⟨section_, held, -, stops, timers⟩ := begin_frame { s with ops := rest } op
  refine ⟨?_, ?_, ?_, ?_, ?_⟩
  · rw [section_]
    intro outside
    rw [(sound.outside outside).2.1] at ops
    cases ops
  · rw [section_, held]
    exact sound.held
  · have timer := sound.timer
    unfold TimerReady at timer ⊢
    rw [section_, timers]
    exact timer
  · rw [section_, stops]
    exact sound.requested
  · rw [section_]
    intro sch there
    refine begin_pending _ op ?_ pending
    have there' : s.stopSection.scheduler = some sch := there
    simp only [Harmless, pending, ops, there'] at harmless
    cases op with
    | go | complete => exact harmless
    | _ => trivial

theorem sound_inside (here : s.stopSection.scheduler = some sch) (held : s.held = [.ready sch])
    (timer : s.TimerReady) (pending : s.pending = [])
    (requested : ∀ sch n rest, s.stopSection = .signalling sch n rest →
      (s.stops n).requested = true) : s.Sound := by
  refine ⟨fun outside => ?_, fun sch' same => ?_, timer, requested, fun _ _ c member => ?_⟩
  · rw [outside] at here
    cases here
  · rw [here] at same
    cases same
    exact held
  · rw [pending] at member
    cases member

theorem Sound.requestStop {rest : List Nat} (sound : s.Sound) (pending : s.pending = [])
    (there : s.stopSection = .tasks sch (n :: rest)) : (s.requestStop sch n rest).Sound := by
  have held := sound.held sch (by rw [there]; rfl)
  have timer : (s.timers sch).timerSection = .idle := by
    have timer := sound.timer
    rwa [TimerReady, there] at timer
  unfold Stopping.requestStop
  dsimp only
  split
  · refine sound_inside rfl held timer pending fun sch' n' rest' here => ?_
    cases here
    simp [setStop]
  · exact sound_inside rfl held timer pending fun _ _ _ here => by cases here

theorem Sound.signal {rest : List Nat} (sound : s.Sound) (pending : s.pending = [])
    (there : s.stopSection = .signalling sch n rest) : (s.signal program sch n rest).Sound := by
  have here : s.stopSection.scheduler = some sch := by
    rw [there]
    rfl
  have held := sound.held sch here
  have requested := sound.requested sch n rest there
  have timer : (s.timers sch).timerSection = .idle := by
    have timer := sound.timer
    rwa [TimerReady, there] at timer
  unfold Stopping.signal
  dsimp only
  split
  · exact sound_inside rfl held timer pending fun _ _ _ here => by cases here
  · refine sound_inside here held sound.timer pending ?_
    · intro sch' n' rest' here
      have same : s.stopSection = .signalling sch' n' rest' := here
      rw [there] at same
      cases same
      simpa [setStop] using requested

theorem clear_turn {m m' : TimerManager} (clears : m.timerSection.clears)
    (next : m.step .next = some m') : m'.timerSection.clears ∧
      (m'.timerSection.loops < m.timerSection.loops ∨
        m'.timerSection.loops = m.timerSection.loops ∧
          m'.timerSection.left < m.timerSection.left) := by
  cases section_ : m.timerSection with
  | idle => simp [TimerManager.step, section_] at next
  | moving older rest => simp [section_, TimerSection.clears] at clears
  | firing older now iter => simp [section_, TimerSection.clears] at clears
  | clearingAdded older rest =>
      cases rest <;> simp only [TimerManager.step, section_, Option.some.injEq] at next <;>
        subst next
      · exact ⟨trivial, .inl (Nat.lt_succ_self _)⟩
      · exact ⟨trivial, .inr ⟨rfl, Nat.lt_succ_self _⟩⟩
  | clearingRuning older rest =>
      cases rest <;> simp only [TimerManager.step, section_, Option.some.injEq] at next <;>
        subst next
      · exact ⟨trivial, .inl (Nat.lt_succ_self _)⟩
      · exact ⟨trivial, .inr ⟨rfl, Nat.lt_succ_self _⟩⟩

theorem exists_next {m : TimerManager} (clears : m.timerSection.clears)
    (busy : m.timerSection ≠ .idle) : ∃ m', m.step .next = some m' := by
  cases section_ : m.timerSection with
  | idle => exact absurd section_ busy
  | moving older rest => simp [section_, TimerSection.clears] at clears
  | firing older now iter => simp [section_, TimerSection.clears] at clears
  | clearingAdded older rest | clearingRuning older rest =>
      cases rest <;> exact ⟨_, by simp only [TimerManager.step, section_]; rfl⟩

theorem Sound.step {action : StopAction α ε} (sound : s.Sound) (harmless : Harmless s action)
    (h : s.step program action = some t) : t.Sound := by
  cases action with
  | requestStopAll sch =>
      simp only [Stopping.step, Option.ite_none_right_eq_some, Option.some.injEq] at h
      obtain ⟨⟨there, idle⟩, rfl⟩ := h
      exact sound.requestStopAll there idle
  | next =>
      simp only [Stopping.step, Option.ite_none_left_eq_some] at h
      cases proceeds_of_proceed h.2 with
      | perform call rest pending => exact sound.perform pending
      | begin op rest pending ops => exact sound.begin pending ops harmless
      | requestStop sch n rest pending ops there => exact sound.requestStop pending there
      | clear sch m pending ops there clear =>
          have held := sound.held sch (by rw [there]; rfl)
          refine sound_inside rfl held ?_ pending fun _ _ _ here => by cases here
          simp only [TimerManager.step, Option.ite_none_right_eq_some, Option.some.injEq] at clear
          obtain ⟨-, rfl⟩ := clear
          simp [TimerReady, setTimer, TimerSection.clears]
      | signal sch n rest pending ops there => exact sound.signal pending there
      | leave sch pending ops there idle =>
          have held := sound.held sch (by rw [there]; rfl)
          refine ⟨fun _ => ⟨?_, ops, pending⟩, fun _ here => ?_, trivial, fun _ _ _ here => ?_,
            fun _ here => ?_⟩
          · simp [held]
          all_goals cases here
      | callback sch m pending ops there busy next =>
          have held := sound.held sch (by rw [there]; rfl)
          refine sound_inside ?_ held ?_ pending fun _ _ _ here => ?_
          · show s.stopSection.scheduler = some sch
            rw [there]
            rfl
          · have clears : (s.timers sch).timerSection.clears := by
              have timer := sound.timer
              rwa [TimerReady, there] at timer
            show TimerReady { s.setTimer sch m with ops := _ }
            simp only [TimerReady, setTimer, there, Function.update_self]
            exact (clear_turn clears next).1
          · have same : s.stopSection = _ := here
            rw [there] at same
            cases same
  | _ => exact sound.foreign (foreign_of_step h (by simp) (by simp))

theorem sound_of_reachable {runtime : Runtime α ε} {timers : Nat → TimerManager}
    {stops : Nat → StopState} {allowed : Stopping α ε → StopAction α ε → Prop}
    (harmless : ∀ s action, allowed s action → Harmless s action)
    (reachable : (system program runtime timers stops).ReachableBy allowed s) : s.Sound := by
  refine Transition.System.Inductive.holds (M := system program runtime timers stops) (I := Sound)
    ⟨?_, fun s action t _ sound permitted h => ?_⟩ reachable
  · refine ⟨fun _ => ⟨rfl, rfl, rfl⟩, fun _ here => ?_, trivial, fun _ _ _ here => ?_,
      fun _ here => ?_⟩
    all_goals cases here
  · exact sound.step (harmless s action permitted) h

theorem Sound.not_selfLocked (sound : s.Sound) : s.selfLocked = false := by
  cases there : s.stopSection.scheduler with
  | none =>
      have outside : s.stopSection = .outside := by
        cases section_ : s.stopSection <;> simp_all [StopSection.scheduler]
      obtain ⟨held, -, -⟩ := sound.outside outside
      simp [selfLocked, held]
  | some sch =>
      have asks := sound.pending sch there
      unfold selfLocked
      rw [sound.held sch there]
      unfold wants
      split
      · rename_i call rest pending
        rw [pending] at asks
        have free := asks call List.mem_cons_self
        cases lock : call.lock with
        | none => rfl
        | some l =>
            rw [lock] at free
            simpa using free
      · simp
      · rfl

theorem Sound.goesOn (sound : s.Sound) (inside : s.stopSection ≠ .outside) :
    ∃ t, s.step program .next = some t := by
  simp only [Stopping.step, sound.not_selfLocked, Bool.false_eq_true, if_false]
  have timer := sound.timer
  unfold proceed
  split
  · exact ⟨_, rfl⟩
  · exact ⟨_, rfl⟩
  · exact absurd ‹_› inside
  · exact ⟨_, rfl⟩
  · rename_i sch _ _ there
    rw [TimerReady, there] at timer
    simp [TimerManager.step, timer]
  · exact ⟨_, rfl⟩
  · rename_i sch _ _ there
    split
    · exact ⟨_, rfl⟩
    · rename_i busy
      rw [TimerReady, there] at timer
      obtain ⟨m, next⟩ := exists_next timer busy
      exact ⟨_, by rw [clearNext, next]; rfl⟩

/-! ## The measure -/

def rank (s : Stopping α ε) : Nat :=
  match s.stopSection with
  | .outside => 0
  | .clearing sch => (s.timers sch).timerSection.loops
  | .tasks _ rest => 2 * rest.length + 4
  | .signalling _ _ rest => 2 * rest.length + 5

def callbacks (s : Stopping α ε) : Nat :=
  match s.stopSection with
  | .signalling _ n _ => (s.stops n).callbacks.length
  | .clearing sch => (s.timers sch).timerSection.left
  | _ => 0

def work (s : Stopping α ε) : Nat ×ₗ Nat ×ₗ Nat ×ₗ Nat :=
  toLex (s.rank, toLex (s.callbacks, toLex (s.ops.length, (s.pending.map SchedulerCall.work).sum)))

theorem work_lt (less : t.rank < s.rank ∨ t.rank = s.rank ∧ (t.callbacks < s.callbacks ∨
    t.callbacks = s.callbacks ∧ (t.ops.length < s.ops.length ∨ t.ops.length = s.ops.length ∧
      (t.pending.map SchedulerCall.work).sum < (s.pending.map SchedulerCall.work).sum))) :
    t.work < s.work := by
  simpa only [work, Prod.Lex.toLex_lt_toLex] using less

theorem rank_of_frame (section_ : t.stopSection = s.stopSection)
    (timers : ∀ sch, (t.timers sch).timerSection = (s.timers sch).timerSection) :
    t.rank = s.rank := by
  simp only [rank, section_, timers]

theorem callbacks_of_frame (section_ : t.stopSection = s.stopSection) (stops : t.stops = s.stops)
    (timers : ∀ sch, (t.timers sch).timerSection = (s.timers sch).timerSection) :
    t.callbacks = s.callbacks := by
  simp only [callbacks, section_, stops, timers]

theorem Sound.work_foreign (sound : s.Sound) (foreign : Foreign s t) : t.work ≤ s.work := by
  have rank := rank_of_frame foreign.stopSection foreign.timerSection
  have fewer : t.callbacks ≤ s.callbacks := by
    unfold callbacks
    rw [foreign.stopSection]
    split
    · rename_i sch n rest there
      exact (foreign.stops n (sound.requested sch n rest there)).2
    · simp only [foreign.timerSection]
      exact Nat.le_refl _
    · exact Nat.le_refl _
  rcases Nat.lt_or_eq_of_le fewer with less | same
  · exact le_of_lt (work_lt (.inr ⟨rank, .inl less⟩))
  · have equal : t.work = s.work := by
      rw [work, work, rank, same, foreign.ops, foreign.pending]
    exact equal.le

theorem Sound.work_falls (sound : s.Sound) (h : s.step program .next = some t) :
    t.work < s.work := by
  simp only [Stopping.step, Option.ite_none_left_eq_some] at h
  apply work_lt
  cases proceeds_of_proceed h.2 with
  | perform call rest pending =>
      obtain ⟨section_, -, ops, stops, timers⟩ := perform_frame { s with pending := rest } call
      refine .inr ⟨rank_of_frame section_ timers, .inr ⟨callbacks_of_frame section_ stops timers,
        .inr ⟨congrArg List.length ops, ?_⟩⟩⟩
      rw [pending]
      rcases perform_pending { s with pending := rest } call with same | ⟨target, n, rfl, more⟩
      · rw [same]
        cases call <;> simp [SchedulerCall.work]
      · rw [more]
        simp [SchedulerCall.work]
  | begin op rest pending ops =>
      obtain ⟨section_, -, ops', stops, timers⟩ := begin_frame { s with ops := rest } op
      have sections : ∀ sch, ((({ s with ops := rest } : Stopping α ε).begin op).timers
          sch).timerSection = (s.timers sch).timerSection := fun sch => by rw [timers]
      refine .inr ⟨rank_of_frame section_ sections,
        .inr ⟨callbacks_of_frame section_ stops sections, .inl ?_⟩⟩
      rw [ops', ops]
      exact Nat.lt_succ_self _
  | requestStop sch n rest pending ops there =>
      left
      unfold Stopping.requestStop
      dsimp only
      split <;> simp only [rank, there, List.length_cons] <;> omega
  | clear sch m pending ops there clear =>
      left
      simp only [TimerManager.step, Option.ite_none_right_eq_some, Option.some.injEq] at clear
      obtain ⟨-, rfl⟩ := clear
      simp [rank, there, setTimer, TimerSection.loops]
  | signal sch n rest pending ops there =>
      unfold Stopping.signal
      dsimp only
      split
      · left
        simp [rank, there]
      · rename_i c rest' callbacks_
        right
        constructor
        · simp only [rank, setStop]
        · left
          simp [callbacks, setStop, there, callbacks_]
  | leave sch pending ops there idle =>
      left
      simp [rank, there, idle, TimerSection.loops]
  | callback sch m pending ops there busy next =>
      have clears : (s.timers sch).timerSection.clears := by
        have timer := sound.timer
        rwa [TimerReady, there] at timer
      have falls := (clear_turn clears next).2
      simp only [rank, callbacks, setTimer, there, Function.update_self]
      exact falls.imp_right fun less => ⟨less.1, .inl less.2⟩

/-! ## Harmful callbacks -/

theorem begin_harmful {op : StopOp α ε} {rest : List (StopOp α ε)} (sound : s.Sound)
    (pending : s.pending = []) (ops : s.ops = op :: rest) (harmful : ¬ Harmless s .next) :
    ({ s with ops := rest }.begin op).selfLocked = true := by
  cases there : s.stopSection.scheduler with
  | none => simp [Harmless, pending, ops, there] at harmful
  | some sch =>
      have held := sound.held sch there
      simp only [Harmless, pending, ops, there] at harmful
      cases op with
      | go target n =>
          obtain rfl : target = sch := by simpa using harmful
          simp [selfLocked, wants, Stopping.begin, SchedulerCall.lock, held]
      | complete n o =>
          simp only [Classical.not_imp, Bool.not_eq_true] at harmful
          obtain ⟨scheduler, unhandled⟩ := harmful
          have calls := FutureState.complete_calls (s.runtime.kind n) o (s.runtime.states n)
            (s.runtime.rootScheduler n)
          have scheduler' : (s.runtime.states n).getScheduler (s.runtime.rootScheduler n) =
              some sch := scheduler
          rw [scheduler', unhandled] at calls
          simp only [Bool.false_eq_true, if_false] at calls
          simp [selfLocked, wants, Stopping.begin, calls, SchedulerCall.lock, Call.lock, held]
      | _ => exact absurd trivial harmful

theorem begins_of_harmful (harmful : ¬ Harmless s .next) (h : s.step program .next = some t) :
    ∃ op rest, s.pending = [] ∧ s.ops = op :: rest ∧ t = { s with ops := rest }.begin op := by
  simp only [Stopping.step, Option.ite_none_left_eq_some] at h
  cases proceeds_of_proceed h.2 with
  | begin op rest pending ops => exact ⟨op, rest, pending, ops, rfl⟩
  | perform call rest pending => simp [Harmless, pending] at harmful
  | requestStop _ _ _ _ ops | clear _ _ _ ops | signal _ _ _ _ ops | leave _ _ ops
  | callback _ _ _ ops => simp [Harmless, ops] at harmful

theorem selfLocked_of_step {action : StopAction α ε} (locked : s.selfLocked = true)
    (inside : s.stopSection ≠ .outside) (h : s.step program action = some t) :
    t.selfLocked = true ∧ t.stopSection ≠ .outside := by
  cases action with
  | requestStopAll sch =>
      simp only [Stopping.step, Option.ite_none_right_eq_some] at h
      exact absurd h.1.1 inside
  | next => simp [Stopping.step, locked] at h
  | _ =>
      have foreign := foreign_of_step h (by simp) (by simp)
      have same : t.wants = s.wants := by
        simp only [wants, foreign.pending, foreign.ops, foreign.stopSection]
      rw [selfLocked, same, foreign.held, foreign.stopSection]
      exact ⟨locked, inside⟩

/-- A step of the call that is in progress, or of another thread. -/
def Within (s : Stopping α ε) (action : StopAction α ε) : Prop :=
  Harmless s action ∧ ∀ sch, action ≠ .requestStopAll sch

structure Ends (M : Transition.System (Stopping α ε) (StopAction α ε)) (s : Stopping α ε) :
    Prop where
  notSelfLocked : s.selfLocked = false
  goesOn : s.stopSection ≠ .outside → ∃ t, M.step s .next = some t
  -- The thread takes finitely many steps in the call, as long as the others may go on.
  finite : ∀ run : (M.after s).Endless Within s, {i | run.events i = .next}.Finite
  -- Any other operation locks up the thread.
  harmful : ∀ t, ¬ Harmless s .next → M.step s .next = some t →
    ∀ u, (M.after t).Reachable u → u.selfLocked = true ∧ M.step u .next = none

theorem stop_all_ends (program : StopProgram α ε) (runtime : Runtime α ε)
    (timers : Nat → TimerManager) (stops : Nat → StopState) (s : Stopping α ε)
    (reachable : (system program runtime timers stops).ReachableBy Harmless s) :
    s.Ends (system program runtime timers stops) := by
  have sound := sound_of_reachable (fun _ _ harmless => harmless) reachable
  refine ⟨sound.not_selfLocked, sound.goesOn, fun run => ?_, fun t harmful h u later => ?_⟩
  · refine run.finite work (fun action => action = .next) .init ?_
    intro s' action t later within h
    have harmless := later.mono fun _ _ (within : Within _ _) => within.1
    have sound' := sound_of_reachable (fun _ _ harmless => harmless) (reachable.after harmless)
    by_cases next : action = .next
    · subst next
      have falls := sound'.work_falls h
      exact ⟨le_of_lt falls, fun _ => falls⟩
    · exact ⟨sound'.work_foreign (foreign_of_step h next within.2), fun same => absurd same next⟩
  · obtain ⟨op, rest, pending, ops, rfl⟩ := begins_of_harmful harmful h
    have locked := begin_harmful sound pending ops harmful
    have inside : ({ s with ops := rest }.begin op).stopSection ≠ .outside := by
      rw [(begin_frame _ op).1]
      intro outside
      rw [(sound.outside outside).2.1] at ops
      cases ops
    have kept : u.selfLocked = true ∧ u.stopSection ≠ .outside := by
      refine Transition.System.Inductive.holds
        (I := fun u : Stopping α ε => u.selfLocked = true ∧ u.stopSection ≠ .outside)
        ⟨⟨locked, inside⟩, ?_⟩ later
      exact fun s action t _ known _ h => selfLocked_of_step known.1 known.2 h
    exact ⟨kept.1, if_pos kept.1⟩

/-- The timer of a sleeping coroutine. -/
theorem stop_all_ends_asleep : ∃ (program : StopProgram Nat Nat) (runtime : Runtime Nat Nat)
    (timers : Nat → TimerManager) (stops : Nat → StopState) (s : Stopping Nat Nat),
      (s.runtime.schedulers 0).runingStates = [3] ∧ (s.timers 0).calls = [⟨0, true, .cleared⟩] ∧
        s.Ends (system program runtime timers stops) := by
  let program : StopProgram Nat Nat :=
    { onStop := fun _ => [], onTimer := fun _ _ _ => [.complete 3 (.exception 5)] }
  let runtime : Runtime Nat Nat :=
    { states := fun _ => { isFuture := false, scheduler := some 0, coro := some 2, parent := some 2 } }
  let timers : Nat → TimerManager := fun _ => TimerManager.add {} 7
  let stops : Nat → StopState := fun _ => {}
  have start : (system program runtime timers stops).ReachableBy Harmless
    { runtime, timers, stops } := .init
  have cleared := ((start.next (.requestStopAll 0) rfl trivial).next .next rfl trivial).next
    .next rfl trivial
  have begun := cleared.next .next rfl fun _ => rfl
  have performed := begun.next .next rfl trivial
  exact ⟨_, _, _, _, _, rfl, rfl, stop_all_ends _ _ _ _ _ performed⟩

/-- The future of a sleep has been started as a coroutine. -/
theorem sleep_locks_up : ∃ (program : StopProgram Nat Nat) (runtime : Runtime Nat Nat)
    (timers : Nat → TimerManager) (stops : Nat → StopState) (s : Stopping Nat Nat),
      (Runtime.system Nat Nat).Reachable runtime ∧ (runtime.schedulers 0).readyTask = [0] ∧
        (∀ sch, program.onTimer sch 0 true = [.complete 0 (.exception 5)]) ∧
        (system program runtime timers stops).Reachable s ∧ s.held = [.ready 0] ∧
        s.wants = some (.ready 0) ∧ (system program runtime timers stops).step s .next = none ∧
        ¬ s.Ends (system program runtime timers stops) := by
  let program : StopProgram Nat Nat :=
    { onStop := fun _ => [], onTimer := fun _ _ _ => [.complete 0 (.exception 5)] }
  let runtime : Runtime Nat Nat := (Runtime.add {} (.future .unit) { isFuture := false }
    .absent).newTask 0 0
  let timers : Nat → TimerManager := fun _ => TimerManager.add {} 7
  let stops : Nat → StopState := fun _ => {}
  have empty : (Runtime.system Nat Nat).Reachable {} := .init
  have started : (Runtime.system Nat Nat).Reachable runtime :=
    (empty.next (.newAwaitable .unit) rfl trivial).next (.go 0 0) rfl trivial
  have start : (system program runtime timers stops).Reachable { runtime, timers, stops } := .init
  have stopping := (start.next (.requestStopAll 0) rfl trivial).next .next rfl trivial
  have cleared := (stopping.next .next rfl trivial).next .next rfl trivial
  have begun := cleared.next .next rfl trivial
  refine ⟨program, runtime, timers, stops, _, started, rfl, fun _ => rfl, begun, rfl, rfl, rfl,
    fun ends => ?_⟩
  cases ends.notSelfLocked

end Stopping

end Librf
