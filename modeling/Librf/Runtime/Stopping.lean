import Librf.Base.Fading
import Librf.Runtime.Model
import Librf.Timer.Model

/-!
# `request_stop_all_if_possible`

One thread calls it, while other threads go on. What callbacks do is taken apart at the acquisitions
of the schedulers' spinlocks; a thread that wants a spinlock that it holds spins for ever.
-/

namespace Librf

inductive SchedulerLock
  -- `_lock_ready`, `_lock_running` and the timer's `_added_mtx`
  | ready (sch : Nat)
  | running (sch : Nat)
  | added (sch : Nat)
  deriving DecidableEq, Repr

def Call.lock : Call → SchedulerLock
  | .addGenerator sch => .running sch
  | .delFinal sch => .ready sch

inductive StopOp (α ε : Type*)
  | newCoroutine (kind : Kind)
  | newGenerator
  | newAwaitable (kind : Kind)
  | go (sch n : Nat)
  -- `set_value` or `set_exception`
  | complete (n : Nat) (o : Outcome α ε)
  | addTimer (sch : Nat) (tp : Int)
  deriving DecidableEq, Repr

/-- The parts of an operation that a callback has begun. -/
inductive SchedulerCall
  | emplace (sch n : Nat)
  -- `new_task` asks `has_handler`
  | testHandler (sch n : Nat)
  | call (c : Call) (n : Nat)
  | addTimer (sch : Nat) (tp : Int)
  deriving DecidableEq, Repr

def SchedulerCall.lock : SchedulerCall → Option SchedulerLock
  | .emplace sch _ => some (.ready sch)
  | .testHandler _ _ => none
  | .call c _ => some c.lock
  | .addTimer sch _ => some (.added sch)

/-- The code of the callbacks: of the stop callbacks by number, of the timers by scheduler and
number, where the flag says that the timer is canceled. -/
structure StopProgram (α ε : Type*) where
  onStop : Nat → List (StopOp α ε)
  onTimer : Nat → Nat → Bool → List (StopOp α ε)

/-- `stop_state` of a task; the last callback that has been added comes first. -/
structure StopState where
  possible : Bool := false
  requested : Bool := false
  callbacks : List Nat := []
  deriving DecidableEq, Repr

inductive StopSection
  | outside
  -- the loop over `_ready_task`
  | tasks (sch : Nat) (rest : List Nat)
  -- in `request_stop` of the task of `n`
  | signalling (sch n : Nat) (rest : List Nat)
  -- in `timer_manager::clear`
  | clearing (sch : Nat)
  deriving DecidableEq, Repr

def StopSection.scheduler : StopSection → Option Nat
  | .outside => none
  | .tasks sch _ | .signalling sch _ _ | .clearing sch => some sch

inductive StopAction (α ε : Type*)
  | requestStopAll (sch : Nat)
  | next
  -- other threads
  | runtime (action : RuntimeAction α ε)
  | addTimer (sch : Nat) (tp : Int)
  | stopTimer (sch t : Nat)
  | register (n callback : Nat)
  | unregister (n callback : Nat)
  | requestStop (n : Nat)

structure Stopping (α ε : Type*) where
  runtime : Runtime α ε
  timers : Nat → TimerManager
  -- by the state of the task
  stops : Nat → StopState
  stopSection : StopSection := .outside
  -- the spinlocks that the thread holds
  held : List SchedulerLock := []
  -- what the callback has still to do
  ops : List (StopOp α ε) := []
  pending : List SchedulerCall := []

namespace Stopping

variable {α ε : Type*}

def setSchedulers (s : Stopping α ε) (schedulers : Schedulers) : Stopping α ε :=
  { s with runtime := { s.runtime with schedulers } }

def setTimer (s : Stopping α ε) (sch : Nat) (m : TimerManager) : Stopping α ε :=
  { s with timers := Function.update s.timers sch m }

def setStop (s : Stopping α ε) (n : Nat) (stop : StopState) : Stopping α ε :=
  { s with stops := Function.update s.stops n stop }

/-- The spinlock that the next step of the thread acquires. -/
def wants (s : Stopping α ε) : Option SchedulerLock :=
  match s.pending, s.ops, s.stopSection with
  | call :: _, _, _ => call.lock
  | [], [], .tasks sch [] => some (.added sch)
  | _, _, _ => none

def selfLocked (s : Stopping α ε) : Bool := s.wants.any fun l => l ∈ s.held

def perform (s : Stopping α ε) : SchedulerCall → Stopping α ε
  | .emplace sch n => s.setSchedulers (s.runtime.schedulers.emplace sch n)
  | .testHandler sch n =>
      if s.runtime.hasHandler n then { s with pending := .call (.addGenerator sch) n :: s.pending }
      else s
  | .call c n => s.setSchedulers (s.runtime.schedulers.call n c)
  | .addTimer sch tp => s.setTimer sch ((s.timers sch).add tp)

/-- An operation up to its first call into a scheduler. -/
def begin (s : Stopping α ε) : StopOp α ε → Stopping α ε
  | .newCoroutine kind =>
      let st := FutureState.promiseInitialSuspend { isFuture := true }
      { s with runtime := s.runtime.add (.future kind) st .initial }
  | .newGenerator =>
      let st : FutureState α ε := { isFuture := false, coro := some s.runtime.created }
      { s with runtime := s.runtime.add .generator st .initial }
  | .newAwaitable kind =>
      { s with runtime := s.runtime.add (.future kind) { isFuture := false } .absent }
  | .go sch n => { s with
      runtime := { s.runtime.setState n { s.runtime.states n with scheduler := some sch } with
        goes := Function.update s.runtime.goes n (s.runtime.goes n ++ [sch])
        switched := Function.update s.runtime.switched n (some sch) }
      pending := [.emplace sch n, .testHandler sch n] }
  | .complete n o =>
      let completed := (s.runtime.states n).complete (s.runtime.kind n) o (s.runtime.rootScheduler n)
      { s with
        runtime := s.runtime.setState n completed.1
        pending := completed.2.map fun c => .call c n }
  | .addTimer sch tp => { s with pending := [.addTimer sch tp] }

def requestStop (s : Stopping α ε) (sch n : Nat) (rest : List Nat) : Stopping α ε :=
  let stop := s.stops n
  if stop.possible && !stop.requested then
    { s.setStop n { stop with requested := true } with stopSection := .signalling sch n rest }
  else { s with stopSection := .tasks sch rest }

def signal (s : Stopping α ε) (program : StopProgram α ε) (sch n : Nat) (rest : List Nat) :
    Stopping α ε :=
  let stop := s.stops n
  match stop.callbacks with
  | [] => { s with stopSection := .tasks sch rest }
  | c :: callbacks => { s.setStop n { stop with callbacks } with ops := program.onStop c }

/-- A turn of `clear`; the callback that it has called is executed next. -/
def clearNext (s : Stopping α ε) (program : StopProgram α ε) (sch : Nat) : Option (Stopping α ε) :=
  ((s.timers sch).step .next).map fun m => { s.setTimer sch m with
    ops := (m.calls.drop (s.timers sch).calls.length).flatMap fun call =>
      program.onTimer sch call.timer call.canceled }

def proceed (s : Stopping α ε) (program : StopProgram α ε) : Option (Stopping α ε) :=
  match s.pending, s.ops, s.stopSection with
  | call :: rest, _, _ => some ({ s with pending := rest }.perform call)
  | [], op :: rest, _ => some ({ s with ops := rest }.begin op)
  | [], [], .outside => none
  | [], [], .tasks sch (n :: rest) => some (s.requestStop sch n rest)
  | [], [], .tasks sch [] => ((s.timers sch).step .clear).map fun m =>
      { s.setTimer sch m with stopSection := .clearing sch }
  | [], [], .signalling sch n rest => some (s.signal program sch n rest)
  | [], [], .clearing sch =>
      if (s.timers sch).timerSection = .idle then
        some { s with stopSection := .outside, held := s.held.erase (.ready sch) }
      else s.clearNext program sch

def step (program : StopProgram α ε) (s : Stopping α ε) : StopAction α ε → Option (Stopping α ε)
  | .requestStopAll sch =>
      if s.stopSection = .outside ∧ (s.timers sch).timerSection = .idle then some { s with
        held := .ready sch :: s.held
        stopSection := .tasks sch (s.runtime.schedulers sch).readyTask }
      else none
  | .next => if s.selfLocked then none else s.proceed program
  | .runtime action => (s.runtime.step action).map fun runtime => { s with runtime }
  | .addTimer sch tp => some (s.setTimer sch ((s.timers sch).add tp))
  | .stopTimer sch t => some (s.setTimer sch ((s.timers sch).stop t).2)
  | .register n callback =>
      let stop := s.stops n
      if stop.possible && !stop.requested then
        some (s.setStop n { stop with callbacks := callback :: stop.callbacks })
      else none
  | .unregister n callback =>
      let stop := s.stops n
      some (s.setStop n { stop with callbacks := stop.callbacks.erase callback })
  -- it executes the callbacks itself
  | .requestStop n =>
      let stop := s.stops n
      if stop.possible && !stop.requested then
        some (s.setStop n { stop with requested := true, callbacks := [] })
      else none

def system (program : StopProgram α ε) (runtime : Runtime α ε) (timers : Nat → TimerManager)
    (stops : Nat → StopState) : Transition.System (Stopping α ε) (StopAction α ε) where
  init := { runtime, timers, stops }
  step := step program

/-- No callback completes an awaitable of this scheduler that has no handler, or starts a coroutine
on this scheduler. -/
def Harmless (s : Stopping α ε) : StopAction α ε → Prop
  | .next => match s.pending, s.ops, s.stopSection.scheduler with
      | [], .complete n _ :: _, some sch => s.runtime.getScheduler n = some sch →
          (s.runtime.states n).hasHandlerSkipLock = true
      | [], .go target _ :: _, some sch => target ≠ sch
      | _, _, _ => True
  | _ => True

/-! ## Operations without an interruption -/

/-- The thread goes on alone until the operation is over, or `fuel` runs out. -/
def settle : Nat → Stopping α ε → Stopping α ε
  | 0, s => s
  | fuel + 1, s => match s.pending with
      | [] => s
      | call :: rest => settle fuel ({ s with pending := rest }.perform call)

theorem settle_go (s : Stopping α ε) (sch n : Nat) :
    (settle 3 (s.begin (.go sch n))).runtime = s.runtime.newTask sch n ∧
      (settle 3 (s.begin (.go sch n))).pending = [] := by
  obtain ⟨named, named_⟩ : ∃ named, named =
    s.runtime.setState n { s.runtime.states n with scheduler := some sch } := ⟨_, rfl⟩
  have same : named.schedulers = s.runtime.schedulers ∧ named.goes = s.runtime.goes ∧
      named.switched = s.runtime.switched := by
    rw [named_]
    exact ⟨rfl, rfl, rfl⟩
  have asked (goes schedulers switched) : Runtime.hasHandler { named with
      goes, schedulers, switched } n = named.hasHandler n := rfl
  simp only [settle, Stopping.begin, perform, setSchedulers, Runtime.newTask, ← named_, asked]
  cases named.hasHandler n <;> simp [same, Schedulers.call]

theorem settle_complete (s : Stopping α ε) (n : Nat) (o : Outcome α ε) :
    (settle 3 (s.begin (.complete n o))).runtime = s.runtime.update n
      ((s.runtime.states n).complete (s.runtime.kind n) o (s.runtime.rootScheduler n)) ∧
      (settle 3 (s.begin (.complete n o))).pending = [] := by
  have calls : ∀ updated : FutureState α ε × List Call, updated.2.length ≤ 1 →
      (settle 3 { s with
        runtime := s.runtime.setState n updated.1
        pending := updated.2.map fun c => .call c n }).runtime = s.runtime.update n updated ∧
      (settle 3 { s with
        runtime := s.runtime.setState n updated.1
        pending := updated.2.map fun c => .call c n }).pending = [] := by
    rintro ⟨st, _ | ⟨c, _ | ⟨c', rest⟩⟩⟩ short
    · exact ⟨rfl, rfl⟩
    · exact ⟨rfl, rfl⟩
    · simp at short
  refine calls _ ?_
  unfold FutureState.complete
  dsimp only
  split
  · split <;> simp
  · simp

/-! ## The steps of the thread and of the others -/

variable {s t : Stopping α ε} {program : StopProgram α ε}

inductive Proceeds (program : StopProgram α ε) (s : Stopping α ε) : Stopping α ε → Prop
  | perform (call : SchedulerCall) (rest : List SchedulerCall) (pending : s.pending = call :: rest) :
      Proceeds program s ({ s with pending := rest }.perform call)
  | begin (op : StopOp α ε) (rest : List (StopOp α ε)) (pending : s.pending = [])
      (ops : s.ops = op :: rest) : Proceeds program s ({ s with ops := rest }.begin op)
  | requestStop (sch n : Nat) (rest : List Nat) (pending : s.pending = []) (ops : s.ops = [])
      (there : s.stopSection = .tasks sch (n :: rest)) :
      Proceeds program s (s.requestStop sch n rest)
  | clear (sch : Nat) (m : TimerManager) (pending : s.pending = []) (ops : s.ops = [])
      (there : s.stopSection = .tasks sch []) (clear : (s.timers sch).step .clear = some m) :
      Proceeds program s { s.setTimer sch m with stopSection := .clearing sch }
  | signal (sch n : Nat) (rest : List Nat) (pending : s.pending = []) (ops : s.ops = [])
      (there : s.stopSection = .signalling sch n rest) :
      Proceeds program s (s.signal program sch n rest)
  | leave (sch : Nat) (pending : s.pending = []) (ops : s.ops = [])
      (there : s.stopSection = .clearing sch) (idle : (s.timers sch).timerSection = .idle) :
      Proceeds program s { s with stopSection := .outside, held := s.held.erase (.ready sch) }
  | callback (sch : Nat) (m : TimerManager) (pending : s.pending = []) (ops : s.ops = [])
      (there : s.stopSection = .clearing sch) (busy : (s.timers sch).timerSection ≠ .idle)
      (next : (s.timers sch).step .next = some m) :
      Proceeds program s { s.setTimer sch m with
        ops := (m.calls.drop (s.timers sch).calls.length).flatMap fun call =>
          program.onTimer sch call.timer call.canceled }

theorem proceeds_of_proceed (h : s.proceed program = some t) : s.Proceeds program t := by
  unfold proceed at h
  split at h
  · rename_i call rest pending
    cases h
    exact .perform call rest pending
  · rename_i op rest pending ops
    cases h
    exact .begin op rest pending ops
  · cases h
  · rename_i sch n rest pending ops there
    cases h
    exact .requestStop sch n rest pending ops there
  · rename_i sch pending ops there
    obtain ⟨m, clear, rfl⟩ := Option.map_eq_some_iff.1 h
    exact .clear sch m pending ops there clear
  · rename_i sch n rest pending ops there
    cases h
    exact .signal sch n rest pending ops there
  · rename_i sch pending ops there
    split at h
    · rename_i idle
      cases h
      exact .leave sch pending ops there idle
    · rename_i busy
      obtain ⟨m, next, rfl⟩ := Option.map_eq_some_iff.1 h
      exact .callback sch m pending ops there busy next

structure Foreign (s t : Stopping α ε) : Prop where
  stopSection : t.stopSection = s.stopSection
  held : t.held = s.held
  ops : t.ops = s.ops
  pending : t.pending = s.pending
  timerSection : ∀ sch, (t.timers sch).timerSection = (s.timers sch).timerSection
  stops : ∀ n, (s.stops n).requested = true → (t.stops n).requested = true ∧
    (t.stops n).callbacks.length ≤ (s.stops n).callbacks.length

theorem timerSection_setTimer {sch : Nat} {m : TimerManager}
    (same : m.timerSection = (s.timers sch).timerSection) (sch' : Nat) :
    ((s.setTimer sch m).timers sch').timerSection = (s.timers sch').timerSection := by
  rcases eq_or_ne sch' sch with rfl | other
  · simpa [setTimer] using same
  · simp [setTimer, Function.update_of_ne other]

theorem foreign_of_setTimer {sch : Nat} {m : TimerManager}
    (same : m.timerSection = (s.timers sch).timerSection) : Foreign s (s.setTimer sch m) :=
  ⟨rfl, rfl, rfl, rfl, timerSection_setTimer same, fun _ requested => ⟨requested, Nat.le_refl _⟩⟩

theorem foreign_of_setStop {n : Nat} {stop : StopState}
    (kept : (s.stops n).requested = true → stop.requested = true ∧
      stop.callbacks.length ≤ (s.stops n).callbacks.length) : Foreign s (s.setStop n stop) := by
  refine ⟨rfl, rfl, rfl, rfl, fun _ => rfl, fun n' requested => ?_⟩
  rcases eq_or_ne n' n with rfl | other
  · simpa [setStop] using kept requested
  · simpa [setStop, Function.update_of_ne other] using requested

theorem foreign_of_step {action : StopAction α ε} (h : s.step program action = some t)
    (other : action ≠ .next) (inside : ∀ sch, action ≠ .requestStopAll sch) : Foreign s t := by
  cases action with
  | requestStopAll sch => exact absurd rfl (inside sch)
  | next => exact absurd rfl other
  | runtime action =>
      obtain ⟨runtime, -, rfl⟩ := Option.map_eq_some_iff.1 h
      exact ⟨rfl, rfl, rfl, rfl, fun _ => rfl, fun _ requested => ⟨requested, Nat.le_refl _⟩⟩
  | addTimer sch tp =>
      cases h
      exact foreign_of_setTimer rfl
  | stopTimer sch timer =>
      cases h
      refine foreign_of_setTimer ?_
      unfold TimerManager.stop
      split <;> rfl
  | register n callback | requestStop n =>
      simp only [step, Option.ite_none_right_eq_some, Bool.and_eq_true, Bool.not_eq_true'] at h
      obtain ⟨⟨-, unrequested⟩, h⟩ := h
      cases h
      refine foreign_of_setStop fun requested => ?_
      rw [unrequested] at requested
      cases requested
  | unregister n callback =>
      cases h
      exact foreign_of_setStop fun requested => ⟨requested, List.length_erase_le⟩

end Stopping

end Librf
