import Mathlib.Data.List.Basic
import Librf.Runtime.Steps

/-!
# A coroutine on one scheduler

`Record` is what a runtime says about one coroutine of a `future_t`, `Stage` the records that there
are when each such coroutine is started by `go` once or awaited once before it was started.
-/

namespace Librf

namespace Schedulers

/-- How often state `n` is in the run queue of `home`. -/
def entries (x : Schedulers) (home n : Nat) : Nat :=
  ((x home).cachedStates ++ (x home).runingStates).count n

variable (x : Schedulers) (home sch m n : Nat)

theorem entries_addGenerator :
    (x.addGenerator sch m).entries home n =
      x.entries home n + if sch = home ∧ m = n then 1 else 0 := by
  by_cases here : home = sch
  · subst here
    by_cases same : m = n <;>
      simp [entries, addGenerator, modify, same, List.count_append, Nat.add_assoc]
  · simp [entries, addGenerator, modify, here, Ne.symm here]

@[simp] theorem entries_delFinal : (x.delFinal sch m).entries home n = x.entries home n := by
  by_cases here : home = sch
  · subst here
    simp [entries, delFinal, modify]
  · simp [entries, delFinal, modify, here]

@[simp] theorem entries_emplace : (x.emplace sch m).entries home n = x.entries home n := by
  by_cases here : home = sch
  · subst here
    simp [entries, emplace, modify]
  · simp [entries, emplace, modify, here]

@[simp] theorem entries_setBusy (busy : Option Nat) :
    (x.setBusy sch busy).entries home n = x.entries home n := by
  by_cases here : home = sch
  · subst here
    simp [entries, setBusy, modify]
  · simp [entries, setBusy, modify, here]

theorem entries_calls (calls : List Call) :
    Schedulers.entries (calls.foldl (Schedulers.call m) x) home n =
      x.entries home n + if m = n then calls.count (.addGenerator home) else 0 := by
  induction calls generalizing x with
  | nil => simp
  | cons c rest ih =>
      rw [List.foldl_cons, ih]
      cases c with
      | addGenerator sch =>
          rw [call, entries_addGenerator, List.count_cons]
          by_cases same : m = n <;> by_cases here : sch = home <;> simp [same, here]
          omega
      | delFinal sch =>
          rw [call, entries_delFinal, List.count_cons]
          simp

@[simp] theorem busy_addGenerator : (x.addGenerator sch m home).busy = (x home).busy := by
  by_cases here : home = sch <;> simp [addGenerator, modify, here]

@[simp] theorem busy_delFinal : (x.delFinal sch m home).busy = (x home).busy := by
  by_cases here : home = sch <;> simp [delFinal, modify, here]

@[simp] theorem busy_emplace : (x.emplace sch m home).busy = (x home).busy := by
  by_cases here : home = sch <;> simp [emplace, modify, here]

theorem busy_setBusy (busy : Option Nat) :
    (x.setBusy sch busy home).busy = if home = sch then busy else (x home).busy := by
  by_cases here : home = sch <;> simp [setBusy, modify, here]

@[simp] theorem busy_calls (calls : List Call) :
    (calls.foldl (Schedulers.call m) x home).busy = (x home).busy := by
  induction calls generalizing x with
  | nil => rfl
  | cons c rest ih =>
      rw [List.foldl_cons, ih]
      cases c <;> simp [call]

end Schedulers

structure Record where
  progress : Progress
  isInitor : InitorType
  coro : Option Nat
  scheduler : Option Nat
  isFuture : Bool
  goes : List Nat
  awaits : List Nat
  wakeups : Nat
  destroyed : Nat
  -- in the run queue
  entries : Nat

def Progress.inBody : Progress → Bool
  | .running | .transformed _ | .unready _ | .awaiting _ => true
  | _ => false

def Progress.atEnd : Progress → Bool
  | .returned | .failed => true
  | _ => false

inductive Stage (home n : Nat) : Record → Prop
  | fresh : Stage home n ⟨.initial, .initial, none, none, true, [], [], 0, 0, 0⟩
  -- awaited by `p`
  | called (p : Nat) : Stage home n ⟨.initial, .initial, none, some home, true, [], [p], 0, 0, 0⟩
  | queued (p : Nat) : Stage home n ⟨.initial, .initial, some p, some home, true, [], [p], 0, 0, 1⟩
  | body (p : Nat) (x : Progress) : x.inBody = true →
      Stage home n ⟨x, .none, some p, some home, true, [], [p], 0, 0, 0⟩
  | ended (p k : Nat) (x : Progress) : x.atEnd = true → 0 < k →
      Stage home n ⟨x, .none, some p, some home, true, [], [p], 0, 0, k⟩
  | final (p k : Nat) : 1 < k → Stage home n ⟨.final, .final, some p, some home, true, [], [p], 0, 0, k⟩
  | woken (p k : Nat) : 0 < k → Stage home n ⟨.final, .final, none, some home, true, [], [p], 1, 0, k⟩
  | destroyed (p k : Nat) : Stage home n ⟨.destroyed, .none, none, some home, true, [], [p], 1, 1, k⟩
  -- started by `go`
  | started : Stage home n ⟨.initial, .initial, none, some home, true, [home], [], 0, 0, 1⟩
  | taskBody (x : Progress) : x.inBody = true →
      Stage home n ⟨x, .none, none, some home, true, [home], [], 0, 0, 0⟩
  | yielded : Stage home n ⟨.yielded, .none, some n, some home, true, [home], [], 0, 0, 1⟩
  | taskEnded (x : Progress) : x.atEnd = true →
      Stage home n ⟨x, .none, none, some home, true, [home], [], 0, 0, 0⟩
  | taskFinal : Stage home n ⟨.final, .final, none, some home, true, [home], [], 0, 0, 1⟩
  | taskDestroyed : Stage home n ⟨.destroyed, .none, none, some home, true, [home], [], 0, 1, 0⟩

variable {home n : Nat} {r : Record}

theorem Stage.walk (stage : Stage home n r) (before : r.progress.inBody = true) {x : Progress}
    (after : x.inBody = true) : Stage home n { r with progress := x } := by
  cases stage with
  | body p y => exact .body p x after
  | taskBody y => exact .taskBody x after
  | ended p k y atEnd =>
      dsimp only at before
      cases y <;> simp_all [Progress.inBody, Progress.atEnd]
  | taskEnded y atEnd =>
      dsimp only at before
      cases y <;> simp_all [Progress.inBody, Progress.atEnd]
  | _ => cases before

theorem Stage.isFuture (stage : Stage home n r) : r.isFuture = true := by
  cases stage <;> rfl

theorem Stage.scheduler_of_active (stage : Stage home n r) (active : r.progress.active = true) :
    r.scheduler = some home := by
  cases stage with
  | fresh => cases active
  | _ => rfl

theorem Stage.of_inBody (stage : Stage home n r) (inBody : r.progress.inBody = true) :
    (∃ p, r = ⟨r.progress, .none, some p, some home, true, [], [p], 0, 0, 0⟩) ∨
      r = ⟨r.progress, .none, none, some home, true, [home], [], 0, 0, 0⟩ := by
  cases stage with
  | body p x => exact .inl ⟨p, rfl⟩
  | taskBody x => exact .inr rfl
  | ended p k x atEnd =>
      dsimp only at inBody
      cases x <;> simp_all [Progress.inBody, Progress.atEnd]
  | taskEnded x atEnd =>
      dsimp only at inBody
      cases x <;> simp_all [Progress.inBody, Progress.atEnd]
  | _ => cases inBody

theorem Stage.of_atEnd (stage : Stage home n r) (atEnd : r.progress.atEnd = true) :
    (∃ p k, 0 < k ∧ r = ⟨r.progress, .none, some p, some home, true, [], [p], 0, 0, k⟩) ∨
      r = ⟨r.progress, .none, none, some home, true, [home], [], 0, 0, 0⟩ := by
  cases stage with
  | ended p k x _ queued => exact .inl ⟨p, k, queued, rfl⟩
  | taskEnded x => exact .inr rfl
  | body p x inBody =>
      dsimp only at atEnd
      cases x <;> simp_all [Progress.inBody, Progress.atEnd]
  | taskBody x inBody =>
      dsimp only at atEnd
      cases x <;> simp_all [Progress.inBody, Progress.atEnd]
  | _ => cases atEnd

theorem Stage.of_called (stage : Stage home n r) {p : Nat} (progress : r.progress = .initial)
    (coro : r.coro = none) (awaits : r.awaits = [p]) :
    r = ⟨.initial, .initial, none, some home, true, [], [p], 0, 0, 0⟩ := by
  cases stage with
  | called q =>
      cases awaits
      rfl
  | fresh => cases awaits
  | started => cases awaits
  | queued q => cases coro
  | body q x inBody =>
      dsimp only at progress
      subst progress
      cases inBody
  | taskBody x inBody =>
      dsimp only at progress
      subst progress
      cases inBody
  | ended q k x atEnd =>
      dsimp only at progress
      subst progress
      cases atEnd
  | taskEnded x atEnd =>
      dsimp only at progress
      subst progress
      cases atEnd
  | _ => cases progress

theorem Stage.of_unused (stage : Stage home n r) (goes : r.goes = []) (awaits : r.awaits = []) :
    r = ⟨.initial, .initial, none, none, true, [], [], 0, 0, 0⟩ := by
  cases stage with
  | fresh => rfl
  | started => cases goes
  | taskBody x => cases goes
  | yielded => cases goes
  | taskEnded x => cases goes
  | taskFinal => cases goes
  | taskDestroyed => cases goes
  | _ => cases awaits

/-! What `resume` finds when an entry is taken out of the run queue. -/

theorem Stage.nothing (stage : Stage home n r) (queued : 0 < r.entries)
    (isInitor : r.isInitor = .none) (coro : r.coro = none) :
    Stage home n { r with entries := r.entries - 1 } := by
  cases stage with
  | destroyed p k => exact .destroyed p (k - 1)
  | body | ended | yielded | final => cases coro
  | taskBody | taskEnded | taskDestroyed | fresh | called => cases queued
  | queued | woken | started | taskFinal => cases isInitor

theorem Stage.start (stage : Stage home n r) (queued : 0 < r.entries)
    (isInitor : r.isInitor = .initial) :
    Stage home n { r with
      progress := .running
      isInitor := .none
      entries := r.entries - 1 } := by
  cases stage with
  | queued p => exact .body p .running rfl
  | started => exact .taskBody .running rfl
  | fresh | called => cases queued
  | _ => cases isInitor

theorem Stage.wake (stage : Stage home n r) (queued : 0 < r.entries) {p : Nat}
    (isInitor : r.isInitor ≠ .initial) (coro : r.coro = some p)
    (passive : r.progress.active = false) :
    p = n ∧ r.progress = .yielded ∧ Stage home n { r with
      progress := .running
      coro := none
      entries := r.entries - 1 } ∨
    r.progress = .final ∧ Stage home n { r with
      coro := none
      wakeups := r.wakeups + 1
      entries := r.entries - 1 } := by
  cases stage with
  | yielded =>
      cases coro
      exact .inl ⟨rfl, rfl, .taskBody .running rfl⟩
  | final q k more => exact .inr ⟨rfl, .woken q (k - 1) (Nat.sub_pos_of_lt more)⟩
  | queued | started => exact absurd rfl isInitor
  | body => cases queued
  | ended q k x atEnd =>
      dsimp only at passive
      cases x <;> simp_all [Progress.atEnd, Progress.active]
  | _ => cases coro

theorem Stage.destroy (stage : Stage home n r) (queued : 0 < r.entries)
    (isInitor : r.isInitor = .final) (coro : r.coro = none) :
    Stage home n { r with
      progress := .destroyed
      isInitor := .none
      destroyed := r.destroyed + 1
      entries := r.entries - 1 } := by
  cases stage with
  | woken p k => exact .destroyed p (k - 1)
  | taskFinal => exact .taskDestroyed
  | final => cases coro
  | _ => cases isInitor

namespace Runtime

variable {α ε : Type*} {s t : Runtime α ε} {home : Nat}

def record (s : Runtime α ε) (home n : Nat) : Record where
  progress := s.progress n
  isInitor := (s.states n).isInitor
  coro := (s.states n).coro
  scheduler := (s.states n).scheduler
  isFuture := (s.states n).isFuture
  goes := s.goes n
  awaits := s.awaits n
  wakeups := s.wakeups n
  destroyed := s.destroyed n
  entries := s.schedulers.entries home n

end Runtime

end Librf
