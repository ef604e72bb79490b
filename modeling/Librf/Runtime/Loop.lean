import Librf.Runtime.Threads
import Librf.Timer.Runs

/-!
# `run_one_batch` and `run_until_notask` in one thread

The thread calls them for one scheduler after the other, from outside of its coroutines. Code of
the program runs outside of the loops, in the callbacks of the timers and in the coroutines.
-/

namespace Librf

inductive LoopSection
  | outside
  -- `run_one_batch`, in `timer_manager::update`; `again` if called by `run_until_notask`
  | updating (sch : Nat) (again : Bool)
  -- in its loop over `_cached_states`
  | resuming (sch : Nat) (again : Bool)
  -- `run_until_notask`, behind a `run_one_batch` that has returned false
  | testReady (sch : Nat)
  | testTimer (sch : Nat)
  deriving DecidableEq, Repr

inductive LoopAction (α ε : Type*)
  | runOneBatch (sch : Nat)
  | runUntilNotask (sch : Nat)
  -- the loop goes on
  | next
  -- code of the program
  | runtime (action : RuntimeAction α ε)
  -- also `update` itself
  | timer (sch : Nat) (action : TimerAction)
  deriving DecidableEq, Repr

def RuntimeAction.foreign {α ε : Type*} : RuntimeAction α ε → Bool
  | .swap _ | .resume _ => false
  | _ => true

structure Loop (α ε : Type*) where
  runtime : Runtime α ε := {}
  timers : Nat → TimerManager := fun _ => {}
  loopSection : LoopSection := .outside

namespace Loop

variable {α ε : Type*}

def setTimer (l : Loop α ε) (sch : Nat) (m : TimerManager) : Loop α ε :=
  { l with timers := Function.update l.timers sch m }

def program (l : Loop α ε) : Bool :=
  match l.loopSection with
  | .outside | .updating _ _ => true
  | .resuming sch _ => (l.runtime.schedulers sch).busy.isSome
  | .testReady _ | .testTimer _ => false

def runOneBatch (l : Loop α ε) (sch : Nat) (again : Bool) : Option (Loop α ε) :=
  ((l.timers sch).step .update).map fun m =>
    { l.setTimer sch m with loopSection := .updating sch again }

def next (l : Loop α ε) : Option (Loop α ε) :=
  match l.loopSection with
  | .outside => none
  | .updating sch again =>
      if (l.timers sch).timerSection ≠ .idle then none
      else if (l.runtime.schedulers sch).runingStates = [] then
        some { l with loopSection := if again then .testReady sch else .outside }
      else (l.runtime.step (.swap sch)).map fun s =>
        { l with runtime := s, loopSection := .resuming sch again }
  | .resuming sch again =>
      if (l.runtime.schedulers sch).busy ≠ none then none
      else if (l.runtime.schedulers sch).cachedStates = [] then
        if again then l.runOneBatch sch true else some { l with loopSection := .outside }
      else (l.runtime.step (.resume sch)).map fun s => { l with runtime := s }
  | .testReady sch =>
      if (l.runtime.schedulers sch).readyTask ≠ [] then l.runOneBatch sch true
      else some { l with loopSection := .testTimer sch }
  | .testTimer sch =>
      if (l.timers sch).runingTimers ≠ [] ∨ (l.timers sch).addedTimers ≠ [] then
        l.runOneBatch sch true
      else some { l with loopSection := .outside }

def step (l : Loop α ε) : LoopAction α ε → Option (Loop α ε)
  | .runOneBatch sch => if l.loopSection = .outside then l.runOneBatch sch false else none
  | .runUntilNotask sch => if l.loopSection = .outside then l.runOneBatch sch true else none
  | .next => l.next
  | .runtime action =>
      if l.program ∧ action.foreign then
        (l.runtime.step action).map fun s => { l with runtime := s }
      else none
  | .timer sch action =>
      if l.program then ((l.timers sch).step action).map fun m => l.setTimer sch m else none

def system (α ε : Type*) : Transition.System (Loop α ε) (LoopAction α ε) where
  init := {}
  step := step

variable {l l' : Loop α ε}

/-- `run_one_batch` is called where the thread is outside of the loops, or by `run_until_notask`. -/
def Calls (l : Loop α ε) (sch : Nat) : Prop :=
  l.loopSection = .outside ∨
  (l.loopSection = .resuming sch true ∧ (l.runtime.schedulers sch).busy = none ∧
    (l.runtime.schedulers sch).cachedStates = []) ∨
  l.loopSection = .testReady sch ∨ l.loopSection = .testTimer sch

theorem runOneBatch_eq_some {sch : Nat} {again : Bool} (h : l.runOneBatch sch again = some l') :
    ∃ m, (l.timers sch).step .update = some m ∧
      l' = { l.setTimer sch m with loopSection := .updating sch again } := by
  obtain ⟨m, update, rfl⟩ := Option.map_eq_some_iff.1 h
  exact ⟨m, update, rfl⟩

theorem step_cases {action : LoopAction α ε} (h : l.step action = some l') :
    (∃ sch again m, l.Calls sch ∧ (l.timers sch).step .update = some m ∧
      l' = { l.setTimer sch m with loopSection := .updating sch again }) ∨
    (∃ sch again, l.loopSection = .updating sch again ∧ (l.timers sch).timerSection = .idle ∧
      (l.runtime.schedulers sch).runingStates = [] ∧
      l' = { l with loopSection := if again then .testReady sch else .outside }) ∨
    (∃ sch again s, l.loopSection = .updating sch again ∧
      l.runtime.step (.swap sch) = some s ∧
      l' = { l with runtime := s, loopSection := .resuming sch again }) ∨
    (∃ sch, l.loopSection = .resuming sch false ∧ (l.runtime.schedulers sch).busy = none ∧
      (l.runtime.schedulers sch).cachedStates = [] ∧ l' = { l with loopSection := .outside }) ∨
    (∃ sch again s, l.loopSection = .resuming sch again ∧
      l.runtime.step (.resume sch) = some s ∧ l' = { l with runtime := s }) ∨
    (∃ sch, l.loopSection = .testReady sch ∧ (l.runtime.schedulers sch).readyTask = [] ∧
      l' = { l with loopSection := .testTimer sch }) ∨
    (∃ sch, l.loopSection = .testTimer sch ∧ (l.timers sch).runingTimers = [] ∧
      (l.timers sch).addedTimers = [] ∧ l' = { l with loopSection := .outside }) ∨
    (∃ action s, l.program = true ∧ action.foreign = true ∧ l.runtime.step action = some s ∧
      l' = { l with runtime := s }) ∨
    (∃ sch action m, l.program = true ∧ (l.timers sch).step action = some m ∧
      l' = l.setTimer sch m) := by
  cases action with
  | runOneBatch sch =>
      left
      simp only [step] at h
      split at h
      · obtain ⟨m, update, rfl⟩ := runOneBatch_eq_some h
        exact ⟨sch, false, m, .inl ‹_›, update, rfl⟩
      · cases h
  | runUntilNotask sch =>
      left
      simp only [step] at h
      split at h
      · obtain ⟨m, update, rfl⟩ := runOneBatch_eq_some h
        exact ⟨sch, true, m, .inl ‹_›, update, rfl⟩
      · cases h
  | next =>
      simp only [step, next] at h
      cases here : l.loopSection with
      | outside => simp [here] at h
      | updating sch again =>
          simp only [here] at h
          split at h
          · cases h
          · rename_i idle
            split at h
            · exact .inr (.inl ⟨sch, again, rfl, not_not.1 idle, ‹_›, (Option.some.inj h).symm⟩)
            · obtain ⟨s, swap, rfl⟩ := Option.map_eq_some_iff.1 h
              exact .inr (.inr (.inl ⟨sch, again, s, rfl, swap, rfl⟩))
      | resuming sch again =>
          simp only [here] at h
          split at h
          · cases h
          · rename_i idle
            split at h
            · rename_i empty
              cases again with
              | true =>
                  obtain ⟨m, update, rfl⟩ := runOneBatch_eq_some h
                  exact .inl ⟨sch, true, m, .inr (.inl ⟨here, not_not.1 idle, empty⟩), update, rfl⟩
              | false =>
                  exact .inr (.inr (.inr (.inl
                    ⟨sch, rfl, not_not.1 idle, empty, (Option.some.inj h).symm⟩)))
            · obtain ⟨s, resume, rfl⟩ := Option.map_eq_some_iff.1 h
              exact .inr (.inr (.inr (.inr (.inl ⟨sch, again, s, rfl, resume, rfl⟩))))
      | testReady sch =>
          simp only [here] at h
          split at h
          · obtain ⟨m, update, rfl⟩ := runOneBatch_eq_some h
            exact .inl ⟨sch, true, m, .inr (.inr (.inl here)), update, rfl⟩
          · iterate 5 apply Or.inr
            exact .inl ⟨sch, rfl, not_not.1 ‹_›, (Option.some.inj h).symm⟩
      | testTimer sch =>
          simp only [here] at h
          split at h
          · obtain ⟨m, update, rfl⟩ := runOneBatch_eq_some h
            exact .inl ⟨sch, true, m, .inr (.inr (.inr here)), update, rfl⟩
          · rename_i empty
            rw [not_or, not_not, not_not] at empty
            iterate 6 apply Or.inr
            exact .inl ⟨sch, rfl, empty.1, empty.2, (Option.some.inj h).symm⟩
  | runtime action =>
      iterate 7 apply Or.inr
      left
      simp only [step] at h
      split at h
      · obtain ⟨s, action', rfl⟩ := Option.map_eq_some_iff.1 h
        exact ⟨action, s, And.left ‹_›, And.right ‹_›, action', rfl⟩
      · cases h
  | timer sch action =>
      iterate 8 apply Or.inr
      simp only [step] at h
      split at h
      · obtain ⟨m, action', rfl⟩ := Option.map_eq_some_iff.1 h
        exact ⟨sch, action, m, ‹_›, action', rfl⟩
      · cases h

/-! ### Where the thread is -/

theorem foreign_thread {s t : Runtime α ε} {action : RuntimeAction α ε}
    (foreign : action.foreign = true) (h : s.step action = some t) {x : Nat}
    (idle : s.schedulers.thread x = ([], none)) : t.schedulers.thread x = ([], none) := by
  rcases Runtime.step_cases h with ⟨kind, -, rfl⟩ | ⟨-, rfl⟩ | ⟨kind, -, rfl⟩ |
    ⟨sch, n, -, -, -, rfl⟩ | ⟨n, o, kind, -, -, -, rfl⟩ | ⟨w, sch, -, -, -, rfl⟩ |
    ⟨sch, rfl, -, -, rfl⟩ | ⟨sch, n, rest, rfl, -, -, rfl⟩ | ⟨sch, p, next, -, busy, action⟩
  · exact idle
  · exact idle
  · exact idle
  · rw [Runtime.newTask_thread]
    exact idle
  · simpa [Runtime.update] using idle
  · simpa using idle
  · cases foreign
  · cases foreign
  · have away : x ≠ sch := by
      rintro rfl
      have here : (s.schedulers x).busy = none := congrArg Prod.snd idle
      rw [here] at busy
      cases busy
    rw [(Runtime.body_thread action).others x away]
    exact idle

theorem swap_away {s t : Runtime α ε} {sch x : Nat} (h : s.step (.swap sch) = some t)
    (away : x ≠ sch) : t.schedulers.thread x = s.schedulers.thread x := by
  simp only [Runtime.step] at h
  split at h
  · cases h
    exact Runtime.swap_thread away
  · cases h

theorem resume_away {s t : Runtime α ε} {sch x : Nat} (h : s.step (.resume sch) = some t)
    (away : x ≠ sch) : t.schedulers.thread x = s.schedulers.thread x := by
  simp only [Runtime.step] at h
  split at h
  · cases h
    exact (Runtime.resume_thread sch _ _ s).others x away
  · cases h

structure Alone (l : Loop α ε) : Prop where
  runtime : (Runtime.system α ε).Reachable l.runtime
  timers : ∀ sch, TimerManager.system.Reachable (l.timers sch)
  idle : ∀ sch, (∀ again, l.loopSection ≠ .resuming sch again) →
    l.runtime.schedulers.thread sch = ([], none)
  tested : ∀ sch, l.loopSection = .testReady sch ∨ l.loopSection = .testTimer sch →
    (l.runtime.schedulers sch).runingStates = [] ∧ (l.timers sch).timerSection = .idle
  ready : ∀ sch, l.loopSection = .testTimer sch → (l.runtime.schedulers sch).readyTask = []

theorem Alone.setTimer (alone : l.Alone) {sch : Nat} {m : TimerManager} {action : TimerAction}
    (h : (l.timers sch).step action = some m) :
    ∀ x, TimerManager.system.Reachable ((l.setTimer sch m).timers x) := by
  intro x
  by_cases here : x = sch
  · subst here
    have reached := (alone.timers x).next action h trivial
    simpa [Loop.setTimer] using reached
  · simpa [Loop.setTimer, here] using alone.timers x

theorem Alone.idle_of_calls (alone : l.Alone) {sch : Nat} (calls : l.Calls sch) (x : Nat) :
    l.runtime.schedulers.thread x = ([], none) := by
  rcases calls with here | ⟨here, busy, cached⟩ | here | here
  · exact alone.idle x (by simp [here])
  · by_cases self : x = sch
    · subst self
      exact Prod.ext cached busy
    · exact alone.idle x (by simp [here, Ne.symm self])
  · exact alone.idle x (by simp [here])
  · exact alone.idle x (by simp [here])

theorem Alone.step (alone : l.Alone) {action : LoopAction α ε} (h : l.step action = some l') :
    l'.Alone := by
  rcases step_cases h with ⟨sch, again, m, calls, update, rfl⟩ |
    ⟨sch, again, here, idle, empty, rfl⟩ | ⟨sch, again, s, here, swap, rfl⟩ |
    ⟨sch, here, busy, cached, rfl⟩ | ⟨sch, again, s, here, resume, rfl⟩ | ⟨sch, here, ready, rfl⟩ |
    ⟨sch, here, runing, added, rfl⟩ | ⟨action, s, program, foreign, action', rfl⟩ |
    ⟨sch, action, m, program, action', rfl⟩
  · exact ⟨alone.runtime, alone.setTimer update, fun x _ => alone.idle_of_calls calls x, by simp,
      by simp⟩
  · have thread : ∀ x, l.runtime.schedulers.thread x = ([], none) :=
      fun x => alone.idle x (by simp [here])
    cases again with
    | true =>
        refine ⟨alone.runtime, alone.timers, fun x _ => thread x, ?_, by simp⟩
        rintro x (equal | equal)
        · cases equal
          exact ⟨empty, idle⟩
        · cases equal
    | false => exact ⟨alone.runtime, alone.timers, fun x _ => thread x, by simp, by simp⟩
  · refine ⟨alone.runtime.next (.swap sch) swap trivial, alone.timers, ?_, by simp, by simp⟩
    intro x outside
    have away : x ≠ sch := by
      rintro rfl
      exact outside again rfl
    rw [swap_away swap away]
    exact alone.idle x (by simp [here])
  · refine ⟨alone.runtime, alone.timers, fun x _ => ?_, by simp, by simp⟩
    by_cases self : x = sch
    · subst self
      exact Prod.ext cached busy
    · exact alone.idle x (by simp [here, Ne.symm self])
  · refine ⟨alone.runtime.next (.resume sch) resume trivial, alone.timers, ?_, by simp [here],
      by simp [here]⟩
    intro x outside
    have away : x ≠ sch := by
      rintro rfl
      exact outside again here
    rw [resume_away resume away]
    exact alone.idle x outside
  · refine ⟨alone.runtime, alone.timers, fun x _ => alone.idle x (by simp [here]), ?_, ?_⟩
    · rintro x (equal | equal)
      · cases equal
      · cases equal
        exact alone.tested sch (.inl here)
    · rintro x ⟨⟩
      exact ready
  · exact ⟨alone.runtime, alone.timers, fun x _ => alone.idle x (by simp [here]), by simp, by simp⟩
  · refine ⟨alone.runtime.next action action' trivial, alone.timers,
      fun x outside => foreign_thread foreign action' (alone.idle x outside), ?_, ?_⟩
    · rintro x (here | here)
      · simp [Loop.program, show l.loopSection = _ from here] at program
      · simp [Loop.program, show l.loopSection = _ from here] at program
    · intro x here
      simp [Loop.program, show l.loopSection = _ from here] at program
  · refine ⟨alone.runtime, alone.setTimer action', alone.idle, ?_, alone.ready⟩
    rintro x (here | here)
    · simp [Loop.program, show l.loopSection = _ from here] at program
    · simp [Loop.program, show l.loopSection = _ from here] at program

theorem alone_of_reachable (reachable : (system α ε).Reachable l) : l.Alone := by
  have inductive_ : (system α ε).Inductive (fun _ _ => True) Alone := by
    constructor
    · refine ⟨.init, fun _ => .init, fun _ _ => rfl, ?_, ?_⟩
      · rintro sch (here | here) <;> cases here
      · rintro sch ⟨⟩
    · exact fun _ _ _ _ alone _ h => alone.step h
  exact inductive_.holds reachable

/-! ### The end of `run_until_notask` -/

/-- `go` has started coroutine `n` on `sch`; it has been neither awaited nor moved away. -/
def StartedOn (l : Loop α ε) (sch n : Nat) : Prop :=
  l.runtime.progress n ≠ .absent ∧ l.runtime.goes n = [sch] ∧ l.runtime.awaits n = [] ∧
    l.runtime.moves n = []

def Returns (l : Loop α ε) (sch : Nat) (l' : Loop α ε) : Prop :=
  l.loopSection = .testTimer sch ∧ l.step .next = some l' ∧ l'.loopSection = .outside

structure Done (l : Loop α ε) (sch : Nat) : Prop where
  destroyed : ∀ n, l.StartedOn sch n → l.runtime.progress n = .destroyed
  runingStates : (l.runtime.schedulers sch).runingStates = []
  cachedStates : (l.runtime.schedulers sch).cachedStates = []
  readyTask : (l.runtime.schedulers sch).readyTask = []
  runingTimers : (l.timers sch).runingTimers = []
  addedTimers : (l.timers sch).addedTimers = []
  -- no timer is pending
  called : ∀ t < (l.timers sch).created, (l.timers sch).Called t

theorem StartedOn.ready {sch n : Nat} (started : l.StartedOn sch n)
    (registered : l.runtime.Registered) (open_ : (l.runtime.task n).finished = false) :
    n ∈ (l.runtime.schedulers sch).readyTask := by
  obtain ⟨present, goes, awaits, moves⟩ := started
  exact of_decide_eq_true ((registered.kept n present awaits moves).ready sch goes open_)

theorem StartedOn.destroyed {sch n : Nat} (started : l.StartedOn sch n) (alone : l.Alone)
    (idle : ∀ x, l.runtime.schedulers.thread x = ([], none))
    (queue : (l.runtime.schedulers sch).runingStates = [])
    (ready : (l.runtime.schedulers sch).readyTask = []) : l.runtime.progress n = .destroyed := by
  have registered := Runtime.registered_of_reachable alone.runtime
  have running := Runtime.running_of_reachable alone.runtime
  have finished : (l.runtime.task n).finished = true := by
    by_contra open_
    have listed := started.ready registered (Bool.eq_false_of_not_eq_true open_)
    rw [ready] at listed
    cases listed
  obtain ⟨present, goes, awaits, moves⟩ := started
  have kept := registered.kept n present awaits moves
  have passive : (l.runtime.progress n).active = false := by
    by_contra active
    obtain ⟨x, busy⟩ := running n (Bool.eq_true_of_not_eq_false active)
    have none : (l.runtime.schedulers x).busy = none := congrArg Prod.snd (idle x)
    rw [busy] at none
    cases none
  have entries : l.runtime.schedulers.entries sch n = 0 := by
    have cached : (l.runtime.schedulers sch).cachedStates = [] := congrArg Prod.fst (idle sch)
    simp [Schedulers.entries, cached, queue]
  have unfinal : l.runtime.progress n ≠ .final := by
    intro final
    have queued : 0 < l.runtime.schedulers.entries sch n := kept.final sch goes final
    rw [entries] at queued
    cases queued
  unfold TaskView.finished at finished
  split at finished
  · exact beq_iff_eq.1 finished
  · have ended : (l.runtime.progress n).ended = true := finished
    cases progress : l.runtime.progress n <;> simp_all [Progress.ended, Progress.active]

theorem run_until_notask_done (reachable : (system α ε).Reachable l) :
    (∀ sch n, l.StartedOn sch n → (l.runtime.progress n).ended = false →
      n ∈ (l.runtime.schedulers sch).readyTask) ∧
    ∀ sch l', l.Returns sch l' → l'.Done sch := by
  have alone := alone_of_reachable reachable
  constructor
  · intro sch n started open_
    exact started.ready (Runtime.registered_of_reachable alone.runtime)
      (TaskView.finished_eq_false open_)
  · rintro sch l' ⟨here, h, left_⟩
    have idle : ∀ x, l.runtime.schedulers.thread x = ([], none) :=
      fun x => alone.idle x (by simp [here])
    obtain ⟨queue, timerIdle⟩ := alone.tested sch (.inr here)
    have ready := alone.ready sch here
    simp only [step, next, here] at h
    split at h
    · obtain ⟨m, -, rfl⟩ := runOneBatch_eq_some h
      cases left_
    · rename_i empty
      rw [not_or, not_not, not_not] at empty
      cases h
      have good := TimerManager.good_of_reachable (alone.timers sch)
      refine ⟨?_, queue, congrArg Prod.fst (idle sch), ready, empty.1, empty.2, ?_⟩
      · exact fun n started => StartedOn.destroyed (l := l) started alone idle queue ready
      · intro t created
        apply good.called_of_gone created
        · simp [TimerManager.waitingAdded, timerIdle, empty.2]
        · simp [TimerManager.waitingRuning, timerIdle, empty.1]

def oneTask : List (LoopAction Unit Unit) :=
  [.runtime (.newCoroutine .unit), .runtime (.go 0 0), .runUntilNotask 0, .timer 0 (.clock 0), .next,
    .next, .runtime (.body 0 (.finish (.value ()))), .runtime (.body 0 .finalSuspend), .next,
    .timer 0 (.clock 0), .next, .next, .next, .timer 0 (.clock 0), .next, .next]

theorem run_until_notask_done_one : ∃ l l' : Loop Unit Unit, (system Unit Unit).Reachable l ∧
    l.Returns 0 l' ∧ l'.runtime.goes 0 = [0] ∧ l'.runtime.progress 0 = .destroyed := by
  obtain ⟨l, reachable, test⟩ := Transition.System.reachable_of_replay (M := system Unit Unit)
    oneTask (fun l => l.loopSection = .testTimer 0 ∧ (l.timers 0).runingTimers = [] ∧
      (l.timers 0).addedTimers = [] ∧ l.runtime.progress 0 ≠ .absent ∧ l.runtime.goes 0 = [0] ∧
      l.runtime.awaits 0 = [] ∧ l.runtime.moves 0 = []) (by decide)
  simp only [decide_eq_true_eq] at test
  obtain ⟨here, runing, added, started⟩ := test
  have returns : l.Returns 0 { l with loopSection := .outside } :=
    ⟨here, by simp [step, next, here, runing, added], rfl⟩
  have done := (run_until_notask_done reachable).2 0 _ returns
  exact ⟨l, _, reachable, returns, started.2.1, done.destroyed 0 started⟩

end Loop

end Librf
