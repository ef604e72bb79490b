import Librf.Base.Transition
import Librf.Batch.Locks

/-!
# `spinlock`, at its atomic operations

The debug build, whose assertion is recorded and does not end the run. The other build does the same
without `owner_thread_id`. A thread calls `unlock` when it has the lock; it can call `lock` then,
too.
-/

namespace Librf

def MAX_ACTIVE_SPIN : Nat := 4000
def MAX_YIELD_SPIN : Nat := 8000
def FREE_VALUE : Int := 0
def LOCKED_VALUE : Int := 1

inductive SpinStage
  -- `lock`: its first exchange, the assertion, and the load and the exchange of its loop
  | exchange
  | check
  | load (spinCount dt : Nat)
  | retry (spinCount dt : Nat)
  | tryExchange
  -- the last step of `lock` and of `try_lock`
  | own
  -- `unlock`: its two stores
  | disown
  | release
  deriving DecidableEq, Repr

inductive SpinEvent
  | acquire (t : Nat)
  | refuse (t : Nat)
  | release (t : Nat)
  deriving DecidableEq, Repr

structure AtomicSpinlock where
  lck : Int := FREE_VALUE
  ownerThreadId : Option Nat := none
  stages : Nat → Option SpinStage := fun _ => none
  -- `lock` or `try_lock` has given the lock to the thread, which has not called `unlock`
  held : Nat → Bool := fun _ => false
  -- history: the exchanges that succeed, those of `try_lock` that fail, and the stores of
  -- `unlock`; and the threads for which the assertion fails
  log : List SpinEvent := []
  failures : List Nat := []

inductive SpinAction
  | lock (t : Nat)
  | tryLock (t : Nat)
  | unlock (t : Nat)
  -- the next step, where `compare_exchange_weak` can fail
  | step (t : Nat) (spurious : Bool)
  deriving DecidableEq, Repr

namespace AtomicSpinlock

def goTo (s : AtomicSpinlock) (t : Nat) (stage : Option SpinStage) : AtomicSpinlock :=
  { s with stages := Function.update s.stages t stage }

def acquire (s : AtomicSpinlock) (t : Nat) : AtomicSpinlock :=
  { s.goTo t (some .own) with lck := LOCKED_VALUE, log := s.log ++ [.acquire t] }

/-- A turn of the inner loop of `lock`; `dt` is in milliseconds. -/
def spin (spinCount dt : Nat) : SpinStage :=
  if spinCount < MAX_ACTIVE_SPIN then .load (spinCount + 1) dt
  else if spinCount < MAX_YIELD_SPIN then .load (spinCount + 1) dt
  else .load spinCount (min 128 (dt * 2))

def runStage (s : AtomicSpinlock) (t : Nat) (spurious : Bool) : SpinStage → AtomicSpinlock
  | .exchange =>
      if s.lck = FREE_VALUE ∧ spurious = false then s.acquire t else s.goTo t (some .check)
  | .check =>
      { s.goTo t (some (.load 0 1)) with
        failures := if s.ownerThreadId = some t then s.failures ++ [t] else s.failures }
  | .load spinCount dt =>
      s.goTo t (some (if s.lck ≠ FREE_VALUE then spin spinCount dt else .retry spinCount dt))
  | .retry spinCount dt =>
      if s.lck = FREE_VALUE ∧ spurious = false then s.acquire t
      else s.goTo t (some (.load spinCount dt))
  | .tryExchange =>
      if s.lck = FREE_VALUE then s.acquire t
      else { s.goTo t none with log := s.log ++ [.refuse t] }
  | .own => { s.goTo t none with
      ownerThreadId := some t, held := Function.update s.held t true }
  | .disown => { s.goTo t (some .release) with ownerThreadId := none }
  | .release => { s.goTo t none with lck := FREE_VALUE, log := s.log ++ [.release t] }

def step (s : AtomicSpinlock) : SpinAction → Option AtomicSpinlock
  | .lock t => if s.stages t = none then some (s.goTo t (some .exchange)) else none
  | .tryLock t => if s.stages t = none then some (s.goTo t (some .tryExchange)) else none
  | .unlock t =>
      if s.stages t = none ∧ s.held t = true then
        some { s.goTo t (some .disown) with held := Function.update s.held t false }
      else none
  | .step t spurious => (s.stages t).map (s.runStage t spurious)

def system : Transition.System AtomicSpinlock SpinAction where
  init := {}
  step := step

end AtomicSpinlock

namespace Batch.Spinlock

/-- What a lock is for: one holder, who alone gives it back. -/
def events : Transition.System Spinlock SpinEvent where
  init := {}
  step
    | k, .acquire t => if (k.tryLock t).1 then some (k.tryLock t).2 else none
    | k, .refuse t => if (k.tryLock t).1 then none else some k
    | k, .release t => if k.ownerThreadId = some t then some k.unlock else none

end Batch.Spinlock

namespace AtomicSpinlock

open Batch (Spinlock)

/-- In the last step of `lock`, or in `unlock`. -/
def Passing (s : AtomicSpinlock) (t : Nat) : Prop :=
  s.stages t = some .own ∨ s.stages t = some .disown ∨ s.stages t = some .release

/-- The thread has set `lck` and not cleared it yet. -/
def Has (s : AtomicSpinlock) (t : Nat) : Prop := s.held t = true ∨ s.Passing t

structure Represents (s : AtomicSpinlock) (k : Spinlock) : Prop where
  lck : s.lck = if k.ownerThreadId = none then FREE_VALUE else LOCKED_VALUE
  has : ∀ t, s.Has t ↔ k.ownerThreadId = some t
  apart : ∀ t, s.held t = true → ¬ s.Passing t
  owner : ∀ t, s.ownerThreadId = some t ↔ s.held t = true ∨ s.stages t = some .disown

namespace Represents

variable {s s' : AtomicSpinlock} {k k' : Spinlock} {t : Nat} {spurious : Bool}

theorem initial : Represents {} {} where
  lck := rfl
  has t := by simp [Has, Passing]
  apart t held := by cases held
  owner t := by simp

theorem of_thread (r : Represents s k)
    (others : ∀ u, u ≠ t → s'.stages u = s.stages u ∧ s'.held u = s.held u)
    (lck : s'.lck = if k'.ownerThreadId = none then FREE_VALUE else LOCKED_VALUE)
    (hasOthers : ∀ u, u ≠ t → (k'.ownerThreadId = some u ↔ k.ownerThreadId = some u))
    (has : s'.Has t ↔ k'.ownerThreadId = some t) (apart : s'.held t = true → ¬ s'.Passing t)
    (ownerOthers : ∀ u, u ≠ t → (s'.ownerThreadId = some u ↔ s.ownerThreadId = some u))
    (owner : s'.ownerThreadId = some t ↔ s'.held t = true ∨ s'.stages t = some .disown) :
    Represents s' k' where
  lck := lck
  has u := by
    by_cases here : u = t
    · rw [here]
      exact has
    · rw [hasOthers u here, ← r.has u, Has, Has, Passing, Passing, (others u here).1,
        (others u here).2]
  apart u := by
    by_cases here : u = t
    · rw [here]
      exact apart
    · rw [Passing, (others u here).1, (others u here).2]
      exact r.apart u
  owner u := by
    by_cases here : u = t
    · rw [here]
      exact owner
    · rw [ownerOthers u here, r.owner u, (others u here).1, (others u here).2]

theorem others_goTo {x : Option SpinStage} (stages : s'.stages = Function.update s.stages t x)
    (held : ∀ u, u ≠ t → s'.held u = s.held u) (u : Nat) (other : u ≠ t) :
    s'.stages u = s.stages u ∧ s'.held u = s.held u := by
  rw [stages, Function.update_of_ne other]
  exact ⟨rfl, held u other⟩

theorem quiet {stage' : Option SpinStage} (r : Represents s k) (before : ¬ s.Passing t)
    (stages : s'.stages = Function.update s.stages t stage')
    (after : stage' ≠ some .own ∧ stage' ≠ some .disown ∧ stage' ≠ some .release)
    (held : s'.held = s.held)
    (lck : s'.lck = s.lck) (owner : s'.ownerThreadId = s.ownerThreadId) : Represents s' k := by
  have here : s'.stages t = stage' := by rw [stages, Function.update_self]
  have apart : ¬ s'.Passing t := by
    rw [Passing, here]
    exact fun passing => passing.elim after.1 fun passing => passing.elim after.2.1 after.2.2
  have disown : s.stages t ≠ some .disown := fun is => before (Or.inr (Or.inl is))
  apply r.of_thread (others_goTo stages fun u _ => by rw [held])
  · rw [lck]
    exact r.lck
  · exact fun _ _ => Iff.rfl
  · rw [← r.has t, Has, Has, held, or_iff_left apart, or_iff_left before]
  · exact fun _ => apart
  · exact fun _ _ => by rw [owner]
  · rw [owner, r.owner t, held, here, or_iff_left disown, or_iff_left after.2.1]

theorem free_iff (r : Represents s k) : s.lck = FREE_VALUE ↔ k.ownerThreadId = none := by
  rw [r.lck]
  constructor
  · intro free
    by_contra taken
    rw [if_neg taken] at free
    cases free
  · exact fun free => if_pos free

theorem not_has (r : Represents s k) (free : s.lck = FREE_VALUE) (u : Nat) : ¬ s.Has u := by
  rw [r.has u, r.free_iff.1 free]
  exact nofun

theorem acquire (r : Represents s k) (free : s.lck = FREE_VALUE) :
    Represents (s.acquire t) { ownerThreadId := some t } := by
  have nobody := r.not_has free
  have none_ := r.free_iff.1 free
  have unheld : s.held t ≠ true := fun held => nobody t (Or.inl held)
  have stage : (s.acquire t).stages t = some .own := Function.update_self ..
  refine r.of_thread (others_goTo rfl fun _ _ => rfl) rfl ?_ ?_ ?_ ?_ ?_
  · intro u other
    rw [none_]
    exact iff_of_false (fun same => other (Option.some.inj same).symm) nofun
  · exact iff_of_true (Or.inr (Or.inl stage)) rfl
  · exact fun held => absurd held unheld
  · exact fun _ _ => Iff.rfl
  · rw [stage]
    apply iff_of_false
    · intro owner
      exact nobody t (((r.owner t).1 owner).imp id fun disown => Or.inr (Or.inl disown))
    · exact fun owns => owns.elim unheld nofun

theorem own (r : Represents s k) (top : s.stages t = some .own) :
    Represents (s.runStage t spurious .own) k := by
  have mine : k.ownerThreadId = some t := (r.has t).1 (Or.inr (Or.inl top))
  have stage : (s.runStage t spurious .own).stages t = none := Function.update_self ..
  have held : (s.runStage t spurious .own).held t = true := Function.update_self ..
  apply r.of_thread (others_goTo rfl fun u other => Function.update_of_ne other ..)
  · exact r.lck
  · exact fun _ _ => Iff.rfl
  · exact iff_of_true (Or.inl held) mine
  · rw [Passing, stage]
    exact fun _ passing => by simp at passing
  · intro u other
    apply iff_of_false
    · exact fun same => other (Option.some.inj same).symm
    · intro owner
      have has : s.Has u := ((r.owner u).1 owner).imp id fun disown => Or.inr (Or.inl disown)
      exact other (Option.some.inj (((r.has u).1 has).symm.trans mine))
  · exact iff_of_true rfl (Or.inl held)

theorem beginUnlock (r : Represents s k) (held : s.held t = true) :
    Represents { s.goTo t (some .disown) with held := Function.update s.held t false } k := by
  have mine : k.ownerThreadId = some t := (r.has t).1 (Or.inl held)
  apply r.of_thread (others_goTo rfl fun u other => Function.update_of_ne other ..)
  · exact r.lck
  · exact fun _ _ => Iff.rfl
  · exact iff_of_true (Or.inr (Or.inr (Or.inl (Function.update_self ..)))) mine
  · intro still
    cases (Function.update_self t false s.held).symm.trans still
  · exact fun _ _ => Iff.rfl
  · exact iff_of_true ((r.owner t).2 (Or.inl held)) (Or.inr (Function.update_self ..))

theorem disown (r : Represents s k) (top : s.stages t = some .disown) :
    Represents (s.runStage t spurious .disown) k := by
  have mine : k.ownerThreadId = some t := (r.has t).1 (Or.inr (Or.inr (Or.inl top)))
  have unheld : s.held t ≠ true := fun held => r.apart t held (Or.inr (Or.inl top))
  have stage : (s.runStage t spurious .disown).stages t = some .release :=
    Function.update_self ..
  refine r.of_thread (others_goTo rfl fun _ _ => rfl) ?_ ?_ ?_ ?_ ?_ ?_
  · exact r.lck
  · exact fun _ _ => Iff.rfl
  · exact iff_of_true (Or.inr (Or.inr (Or.inr stage))) mine
  · exact fun held => absurd held unheld
  · intro u other
    apply iff_of_false nofun
    intro owner
    have has : s.Has u := ((r.owner u).1 owner).imp id fun disown => Or.inr (Or.inl disown)
    exact other (Option.some.inj (((r.has u).1 has).symm.trans mine))
  · rw [stage]
    exact iff_of_false nofun fun owns => owns.elim unheld nofun

theorem release (r : Represents s k) (top : s.stages t = some .release) :
    Represents (s.runStage t spurious .release) k.unlock := by
  have mine : k.ownerThreadId = some t := (r.has t).1 (Or.inr (Or.inr (Or.inr top)))
  have unheld : s.held t ≠ true := fun held => r.apart t held (Or.inr (Or.inr top))
  have stage : (s.runStage t spurious .release).stages t = none := Function.update_self ..
  refine r.of_thread (others_goTo rfl fun _ _ => rfl) rfl ?_ ?_ ?_ ?_ ?_
  · intro u other
    rw [mine]
    exact iff_of_false nofun fun same => other (Option.some.inj same).symm
  · apply iff_of_false _ nofun
    rw [Has, Passing, stage]
    exact fun has => has.elim unheld fun passing => by simp at passing
  · exact fun held => absurd held unheld
  · exact fun _ _ => Iff.rfl
  · rw [stage]
    have disowned : s.stages t ≠ some .disown := by rw [top]; nofun
    exact iff_of_false (fun owner => ((r.owner t).1 owner).elim unheld disowned)
      fun owns => owns.elim unheld nofun

end Represents

def Logs (s : AtomicSpinlock) (k : Spinlock) : Prop :=
  Spinlock.events.replay Spinlock.events.init s.log = some k

theorem Logs.add {s s' : AtomicSpinlock} {k k' : Spinlock} {e : SpinEvent} (logs : s.Logs k)
    (log : s'.log = s.log ++ [e]) (legal : Spinlock.events.step k e = some k') : s'.Logs k' := by
  rw [Logs, log, Transition.System.replay_append, logs]
  simpa [Transition.System.replay] using legal

variable {s s' : AtomicSpinlock} {k : Spinlock} {t : Nat} {e : SpinAction} {spurious : Bool}
  {stage : SpinStage}

theorem not_passing (top : s.stages t = some stage)
    (outside : stage ≠ .own ∧ stage ≠ .disown ∧ stage ≠ .release) : ¬ s.Passing t := by
  rw [Passing, top]
  simp only [Option.some.injEq, not_or]
  exact outside

theorem not_passing_of_idle (idle : s.stages t = none) : ¬ s.Passing t := by
  rw [Passing, idle]
  simp

theorem spin_ne (spinCount dt : Nat) : spin spinCount dt ≠ .own ∧ spin spinCount dt ≠ .disown ∧
    spin spinCount dt ≠ .release := by
  unfold spin
  split
  · exact ⟨nofun, nofun, nofun⟩
  · split <;> exact ⟨nofun, nofun, nofun⟩

theorem Represents.acquired (r : Represents s k) (logs : s.Logs k) (free : s.lck = FREE_VALUE) :
    ∃ k', Represents (s.acquire t) k' ∧ (s.acquire t).Logs k' := by
  refine ⟨_, r.acquire free, logs.add rfl ?_⟩
  simp [Spinlock.events, Spinlock.tryLock, r.free_iff.1 free]

theorem Represents.runStage (r : Represents s k) (logs : s.Logs k) (top : s.stages t = some stage) :
    ∃ k', Represents (s.runStage t spurious stage) k' ∧ (s.runStage t spurious stage).Logs k' := by
  cases stage with
  | exchange =>
      simp only [AtomicSpinlock.runStage]
      split
      · next both => exact r.acquired logs both.1
      · exact ⟨k, r.quiet (not_passing top ⟨nofun, nofun, nofun⟩) rfl ⟨nofun, nofun, nofun⟩ rfl rfl
          rfl, logs⟩
  | check =>
      exact ⟨k, r.quiet (not_passing top ⟨nofun, nofun, nofun⟩) rfl ⟨nofun, nofun, nofun⟩ rfl rfl
        rfl, logs⟩
  | load spinCount dt =>
      refine ⟨k, r.quiet (not_passing top ⟨nofun, nofun, nofun⟩) rfl ?_ rfl rfl rfl, logs⟩
      simp only [ne_eq, Option.some.injEq]
      split
      · exact spin_ne spinCount dt
      · exact ⟨nofun, nofun, nofun⟩
  | retry spinCount dt =>
      simp only [AtomicSpinlock.runStage]
      split
      · next both => exact r.acquired logs both.1
      · exact ⟨k, r.quiet (not_passing top ⟨nofun, nofun, nofun⟩) rfl ⟨nofun, nofun, nofun⟩ rfl rfl
          rfl, logs⟩
  | tryExchange =>
      simp only [AtomicSpinlock.runStage]
      split
      · next free => exact r.acquired logs free
      · next taken =>
          refine ⟨k, r.quiet (not_passing top ⟨nofun, nofun, nofun⟩) rfl ⟨nofun, nofun, nofun⟩ rfl
            rfl rfl, logs.add rfl ?_⟩
          obtain ⟨owner, mine⟩ := Option.ne_none_iff_exists'.1 (mt r.free_iff.2 taken)
          simp [Spinlock.events, Spinlock.tryLock, mine]
  | own => exact ⟨k, r.own top, logs⟩
  | disown => exact ⟨k, r.disown top, logs⟩
  | release =>
      have mine : k.ownerThreadId = some t := (r.has t).1 (Or.inr (Or.inr (Or.inr top)))
      exact ⟨_, r.release top, logs.add rfl (if_pos mine)⟩

theorem Represents.step (r : Represents s k) (logs : s.Logs k)
    (action : system.step s e = some s') : ∃ k', Represents s' k' ∧ s'.Logs k' := by
  cases e with
  | lock t =>
      obtain ⟨idle, made⟩ := Option.ite_none_right_eq_some.1 action
      cases made
      exact ⟨k, r.quiet (not_passing_of_idle idle) rfl ⟨nofun, nofun, nofun⟩ rfl rfl rfl, logs⟩
  | tryLock t =>
      obtain ⟨idle, made⟩ := Option.ite_none_right_eq_some.1 action
      cases made
      exact ⟨k, r.quiet (not_passing_of_idle idle) rfl ⟨nofun, nofun, nofun⟩ rfl rfl rfl, logs⟩
  | unlock t =>
      obtain ⟨⟨-, held⟩, made⟩ := Option.ite_none_right_eq_some.1 action
      cases made
      exact ⟨k, r.beginUnlock held, logs⟩
  | step t spurious =>
      obtain ⟨stage, top, rfl⟩ := Option.map_eq_some_iff.1 action
      exact r.runStage logs top

theorem represented (reachable : system.Reachable s) : ∃ k, s.Logs k ∧ s.Represents k := by
  induction reachable with
  | init => exact ⟨{}, rfl, .initial⟩
  | step _ _ action ih =>
      obtain ⟨k, logs, r⟩ := ih
      obtain ⟨k', r', logs'⟩ := r.step logs action
      exact ⟨k', logs', r'⟩

/-- The exchanges and the last stores of the threads, in their order, are a run of one lock: it is
given to a thread only while it is free, refused only while it is taken, and given back by its
holder. `lck` and the threads agree with it at every moment. -/
theorem linearizable (reachable : system.Reachable s) :
    ∃ k, Spinlock.events.replay Spinlock.events.init s.log = some k ∧
      s.lck = (if k.ownerThreadId = none then FREE_VALUE else LOCKED_VALUE) ∧
      ∀ t, s.Has t ↔ k.ownerThreadId = some t := by
  obtain ⟨k, logs, r⟩ := represented reachable
  exact ⟨k, logs, r.lck, r.has⟩

theorem linearizable_handover : ∃ s : AtomicSpinlock,
    s.log = [.acquire 1, .refuse 3, .release 1, .acquire 2] ∧
      ∃ k, Spinlock.events.replay Spinlock.events.init s.log = some k ∧
        s.lck = (if k.ownerThreadId = none then FREE_VALUE else LOCKED_VALUE) ∧
        ∀ t, s.Has t ↔ k.ownerThreadId = some t := by
  obtain ⟨s, reachable, log⟩ := system.reachable_of_replay
    [.lock 1, .step 1 false, .lock 2, .step 2 false, .step 2 false, .tryLock 3, .step 3 false,
      .step 1 false, .unlock 1, .step 1 false, .step 1 false, .step 2 false, .step 2 true,
      .step 2 false, .step 2 false]
    (fun s => decide (s.log = [.acquire 1, .refuse 3, .release 1, .acquire 2])) (by decide)
  exact ⟨s, of_decide_eq_true log, linearizable reachable⟩

/-! ## The assertion -/

/-- The assertion of `lock` fails for a thread that has the lock, and for no other. -/
theorem assertion_exact (reachable : system.Reachable s) (checks : s.stages t = some .check)
    (action : system.step s (.step t spurious) = some s') :
    s'.failures = if s.held t then s.failures ++ [t] else s.failures := by
  obtain ⟨k, -, r⟩ := represented reachable
  have owner : s.ownerThreadId = some t ↔ s.held t = true := by
    rw [r.owner t, checks, or_iff_left (by simp)]
  obtain ⟨stage, top, rfl⟩ := Option.map_eq_some_iff.1 action
  cases checks.symm.trans top
  simp only [runStage, owner]

theorem assertion_exact_twice : ∃ s s' : AtomicSpinlock,
    system.step s (.step 1 false) = some s' ∧ s'.failures = [1] := by
  obtain ⟨s, reachable, test⟩ := system.reachable_of_replay
    [.lock 1, .step 1 false, .step 1 false, .lock 1, .step 1 false]
    (fun s => decide (s.stages 1 = some .check ∧ s.held 1 = true ∧ s.failures = [] ∧
      (system.step s (.step 1 false)).isSome)) (by decide)
  obtain ⟨checks, held, none_, enabled⟩ := of_decide_eq_true test
  obtain ⟨s', action⟩ := Option.isSome_iff_exists.1 enabled
  refine ⟨s, s', action, ?_⟩
  rw [assertion_exact reachable checks action, held, none_]
  rfl

def SpinStage.waits : SpinStage → Bool
  | .exchange | .check | .load .. | .retry .. => true
  | _ => false

/-- The thread is in `lock` and has the lock already. -/
def Stuck (s : AtomicSpinlock) (t : Nat) : Prop :=
  s.held t = true ∧ ∃ stage, s.stages t = some stage ∧ SpinStage.waits stage = true

theorem waits_spin (spinCount dt : Nat) : SpinStage.waits (spin spinCount dt) = true := by
  unfold spin
  split
  · rfl
  · split <;> rfl

theorem Stuck.owner (stuck : s.Stuck t) (r : Represents s k) : k.ownerThreadId = some t :=
  (r.has t).1 (Or.inl stuck.1)

theorem Stuck.of_other {u : Nat} {stage' : Option SpinStage} (stuck : s.Stuck t) (other : t ≠ u)
    (stages : s'.stages = Function.update s.stages u stage') (held : s'.held t = s.held t) :
    s'.Stuck t := by
  obtain ⟨mine, stage, top, waits⟩ := stuck
  refine ⟨held.trans mine, stage, ?_, waits⟩
  rw [stages, Function.update_of_ne other]
  exact top

theorem Stuck.step (stuck : s.Stuck t) (r : Represents s k)
    (action : system.step s e = some s') :
    s'.Stuck t ∧ ∃ refused : List Nat, s'.log = s.log ++ refused.map .refuse := by
  have owner := stuck.owner r
  have locked : s.lck ≠ FREE_VALUE := by
    rw [ne_eq, r.free_iff, owner]
    exact nofun
  have same : s.log = s.log ++ ([] : List Nat).map SpinEvent.refuse := (List.append_nil _).symm
  obtain ⟨held, stage, top, waits⟩ := stuck
  have idle {u : Nat} (idle : s.stages u = none) : t ≠ u := by
    rintro rfl
    cases idle.symm.trans top
  cases e with
  | lock u =>
      obtain ⟨free, made⟩ := Option.ite_none_right_eq_some.1 action
      cases made
      exact ⟨Stuck.of_other ⟨held, stage, top, waits⟩ (idle free) rfl rfl, [], same⟩
  | tryLock u =>
      obtain ⟨free, made⟩ := Option.ite_none_right_eq_some.1 action
      cases made
      exact ⟨Stuck.of_other ⟨held, stage, top, waits⟩ (idle free) rfl rfl, [], same⟩
  | unlock u =>
      obtain ⟨⟨free, theirs⟩, -⟩ := Option.ite_none_right_eq_some.1 action
      exact absurd (Option.some.inj (owner.symm.trans ((r.has u).1 (Or.inl theirs)))) (idle free)
  | step u spurious =>
      obtain ⟨stage', top', rfl⟩ := Option.map_eq_some_iff.1 action
      by_cases here : t = u
      · subst here
        cases top.symm.trans top'
        have moved {x : SpinStage} {s' : AtomicSpinlock} (next : SpinStage.waits x = true)
            (stages : s'.stages = Function.update s.stages t (some x)) (kept : s'.held = s.held) :
            s'.Stuck t :=
          ⟨by rw [kept, held], x, by rw [stages, Function.update_self], next⟩
        cases stage with
        | exchange =>
            simp only [runStage, locked, false_and, if_false]
            exact ⟨moved rfl rfl rfl, [], same⟩
        | check => exact ⟨moved rfl rfl rfl, [], same⟩
        | load spinCount dt =>
            simp only [runStage, ne_eq, locked, not_false_eq_true, if_true]
            exact ⟨moved (waits_spin spinCount dt) rfl rfl, [], same⟩
        | retry spinCount dt =>
            simp only [runStage, locked, false_and, if_false]
            exact ⟨moved rfl rfl rfl, [], same⟩
        | tryExchange | own | disown | release => cases waits
      · have stuck : s.Stuck t := ⟨held, stage, top, waits⟩
        have foreign (passing : s.Passing u) : False :=
          here (Option.some.inj (owner.symm.trans ((r.has u).1 (Or.inr passing))))
        cases stage' with
        | exchange =>
            simp only [runStage, locked, false_and, if_false]
            exact ⟨stuck.of_other here rfl rfl, [], same⟩
        | check => exact ⟨stuck.of_other here rfl rfl, [], same⟩
        | load spinCount dt => exact ⟨stuck.of_other here rfl rfl, [], same⟩
        | retry spinCount dt =>
            simp only [runStage, locked, false_and, if_false]
            exact ⟨stuck.of_other here rfl rfl, [], same⟩
        | tryExchange =>
            simp only [runStage, locked, if_false]
            exact ⟨stuck.of_other here rfl rfl, [u], rfl⟩
        | own => exact (foreign (Or.inl top')).elim
        | disown => exact (foreign (Or.inr (Or.inl top'))).elim
        | release => exact (foreign (Or.inr (Or.inr top'))).elim

/-- A thread that calls `lock` while it has the lock never returns, and nobody gets the lock any
more; `try_lock` is refused to everybody. -/
theorem self_deadlock (reachable : system.Reachable s) (stuck : s.Stuck t)
    (later : (system.after s).Reachable s') :
    s'.Stuck t ∧ ∃ refused : List Nat, s'.log = s.log ++ refused.map .refuse := by
  induction later with
  | init => exact ⟨stuck, [], (List.append_nil _).symm⟩
  | step previous _ action ih =>
      obtain ⟨stuck, refused, log⟩ := ih
      obtain ⟨k, -, r⟩ := represented (reachable.after previous)
      obtain ⟨stuck', more, log'⟩ := stuck.step r action
      exact ⟨stuck', refused ++ more, by rw [log', log, List.map_append, List.append_assoc]⟩

theorem self_deadlock_waiting : ∃ s s' : AtomicSpinlock, s.log = [.acquire 1] ∧ s'.Stuck 1 ∧
    ∃ refused : List Nat, s'.log = s.log ++ refused.map .refuse := by
  obtain ⟨s, reachable, test⟩ := system.reachable_of_replay
    [.lock 1, .step 1 false, .step 1 false, .lock 1, .lock 2]
    (fun s => decide (s.log = [.acquire 1] ∧ s.held 1 = true ∧ s.stages 1 = some .exchange ∧
      ((system.after s).replay s [.step 1 false, .step 2 false, .tryLock 3, .step 3 false,
        .step 1 false, .step 2 false, .step 1 false]).isSome)) (by decide)
  obtain ⟨log, held, top, goes⟩ := of_decide_eq_true test
  obtain ⟨s', run⟩ := Option.isSome_iff_exists.1 goes
  have later : (system.after s).Reachable s' :=
    Transition.System.Reachable.replay (system.reachable_after s) run
  exact ⟨s, s', log, self_deadlock reachable ⟨held, _, top, rfl⟩ later⟩

/-! ## The loop of `lock` -/

def SpinStage.Counted : SpinStage → Prop
  | .load spinCount dt | .retry spinCount dt => spinCount ≤ MAX_YIELD_SPIN ∧ (∃ i ≤ 7, dt = 2 ^ i) ∧
      (1 < dt → spinCount = MAX_YIELD_SPIN)
  | _ => True

theorem counted_spin {spinCount dt : Nat} (counted : SpinStage.Counted (.load spinCount dt)) :
    SpinStage.Counted (spin spinCount dt) := by
  obtain ⟨bound, ⟨i, small, rfl⟩, slept⟩ := counted
  unfold spin
  split
  · next active =>
      refine ⟨Nat.le_trans active (by decide), ⟨i, small, rfl⟩, fun more => ?_⟩
      rw [slept more] at active
      exact absurd active (by decide)
  · split
    · next yielding =>
        refine ⟨yielding, ⟨i, small, rfl⟩, fun more => ?_⟩
        rw [slept more] at yielding
        exact absurd yielding (Nat.lt_irrefl _)
    · next full =>
        refine ⟨bound, ?_, fun _ => Nat.le_antisymm bound (Nat.not_lt.1 full)⟩
        rcases Nat.lt_or_ge i 7 with more | most
        · have least : 2 ^ i * 2 ≤ 128 := by
            rw [← Nat.pow_succ]
            exact Nat.pow_le_pow_right (by decide) more
          exact ⟨i + 1, more, by rw [Nat.min_eq_right least, Nat.pow_succ]⟩
        · cases Nat.le_antisymm small most
          exact ⟨7, Nat.le_refl 7, rfl⟩

theorem counted_step (counted : ∀ u stage, s.stages u = some stage → SpinStage.Counted stage)
    (action : system.step s e = some s') :
    ∀ u stage, s'.stages u = some stage → SpinStage.Counted stage := by
  have moved {t : Nat} {x : Option SpinStage}
      (stages : s'.stages = Function.update s.stages t x)
      (good : ∀ stage ∈ x, SpinStage.Counted stage) (u : Nat) (stage : SpinStage)
      (top : s'.stages u = some stage) : SpinStage.Counted stage := by
    rw [stages] at top
    by_cases here : u = t
    · subst here
      rw [Function.update_self] at top
      exact good stage top
    · rw [Function.update_of_ne here] at top
      exact counted u stage top
  have plain {x : SpinStage} (good : SpinStage.Counted x) :
      ∀ stage ∈ some x, SpinStage.Counted stage := by
    intro stage member
    cases member
    exact good
  cases e with
  | lock t =>
      obtain ⟨-, made⟩ := Option.ite_none_right_eq_some.1 action
      cases made
      exact moved rfl (plain trivial)
  | tryLock t =>
      obtain ⟨-, made⟩ := Option.ite_none_right_eq_some.1 action
      cases made
      exact moved rfl (plain trivial)
  | unlock t =>
      obtain ⟨-, made⟩ := Option.ite_none_right_eq_some.1 action
      cases made
      exact moved rfl (plain trivial)
  | step t spurious =>
      obtain ⟨stage, top, rfl⟩ := Option.map_eq_some_iff.1 action
      have here := counted t stage top
      cases stage with
      | exchange =>
          by_cases both : s.lck = FREE_VALUE ∧ spurious = false
          · exact moved (x := some .own) (by rw [runStage, if_pos both]; rfl) (plain trivial)
          · exact moved (x := some .check) (by rw [runStage, if_neg both]; rfl) (plain trivial)
      | check =>
          exact moved rfl (plain ⟨Nat.zero_le _, ⟨0, Nat.zero_le 7, rfl⟩,
            fun more => absurd more (Nat.lt_irrefl 1)⟩)
      | load spinCount dt =>
          apply moved rfl
          apply plain
          split
          · exact counted_spin here
          · exact here
      | retry spinCount dt =>
          by_cases both : s.lck = FREE_VALUE ∧ spurious = false
          · exact moved (x := some .own) (by rw [runStage, if_pos both]; rfl) (plain trivial)
          · exact moved (x := some (.load spinCount dt)) (by rw [runStage, if_neg both]; rfl)
              (plain here)
      | tryExchange =>
          by_cases free : s.lck = FREE_VALUE
          · exact moved (x := some .own) (by rw [runStage, if_pos free]; rfl) (plain trivial)
          · exact moved (x := none) (by rw [runStage, if_neg free]; rfl) nofun
      | own => exact moved rfl nofun
      | disown => exact moved rfl (plain trivial)
      | release => exact moved rfl nofun

theorem counted (reachable : system.Reachable s) :
    ∀ u stage, s.stages u = some stage → SpinStage.Counted stage := by
  induction reachable with
  | init => exact fun _ _ top => by cases top
  | step _ _ action ih => exact counted_step ih action

/-- `n` steps of `t` alone give it the lock. -/
def TakesIn (s : AtomicSpinlock) (t n : Nat) : Prop :=
  ∃ s', system.replay s (List.replicate n (.step t false)) = some s' ∧ s'.stages t = some .own ∧
    s'.log = s.log ++ [.acquire t]

theorem TakesIn.acquire {stage : SpinStage} (top : s.stages t = some stage)
    (takes : s.runStage t false stage = s.acquire t) : s.TakesIn t 1 := by
  refine ⟨s.acquire t, ?_, Function.update_self .., rfl⟩
  simp [Transition.System.replay, system, step, top, takes]

theorem TakesIn.succ {n : Nat} (top : s.stages t = some stage)
    (log : (s.runStage t false stage).log = s.log)
    (takes : (s.runStage t false stage).TakesIn t n) : s.TakesIn t (n + 1) := by
  obtain ⟨s', run, own, acquired⟩ := takes
  refine ⟨s', ?_, own, by rw [acquired, log]⟩
  simpa [List.replicate_succ, Transition.System.replay, system, step, top] using run

theorem takesIn_retry {spinCount dt : Nat} (free : s.lck = FREE_VALUE)
    (top : s.stages t = some (.retry spinCount dt)) : s.TakesIn t 1 :=
  .acquire top (if_pos ⟨free, rfl⟩)

theorem takesIn_load {spinCount dt : Nat} (free : s.lck = FREE_VALUE)
    (top : s.stages t = some (.load spinCount dt)) : s.TakesIn t 2 := by
  have next : (s.runStage t false (.load spinCount dt)).stages t = some (.retry spinCount dt) := by
    simp [runStage, goTo, free]
  exact .succ top rfl (takesIn_retry free next)

theorem takesIn_check (free : s.lck = FREE_VALUE) (top : s.stages t = some .check) :
    s.TakesIn t 3 :=
  .succ top rfl (takesIn_load free (Function.update_self ..))

/-- A thread in `lock` polls at most 8000 times before it sleeps, it sleeps for a power of two
milliseconds up to 128, and when it finds the lock free three steps give it the lock. -/
theorem lock_proceeds (reachable : system.Reachable s) (top : s.stages t = some stage)
    (waits : SpinStage.waits stage = true) :
    SpinStage.Counted stage ∧ (s.lck = FREE_VALUE → ∃ n ≤ 3, s.TakesIn t n) := by
  refine ⟨counted reachable t stage top, fun free => ?_⟩
  cases stage with
  | exchange => exact ⟨1, by decide, .acquire top (if_pos ⟨free, rfl⟩)⟩
  | check => exact ⟨3, by decide, takesIn_check free top⟩
  | load spinCount dt => exact ⟨2, by decide, takesIn_load free top⟩
  | retry spinCount dt => exact ⟨1, by decide, takesIn_retry free top⟩
  | tryExchange | own | disown | release => cases waits

theorem lock_proceeds_spinning : ∃ s : AtomicSpinlock, s.stages 2 = some (.load 1 1) ∧
    ∃ n ≤ 3, s.TakesIn 2 n := by
  obtain ⟨s, reachable, test⟩ := system.reachable_of_replay
    [.lock 1, .step 1 false, .step 1 false, .lock 2, .step 2 false, .step 2 false, .step 2 false,
      .unlock 1, .step 1 false, .step 1 false]
    (fun s => decide (s.stages 2 = some (.load 1 1) ∧ s.lck = FREE_VALUE)) (by decide)
  obtain ⟨top, free⟩ := of_decide_eq_true test
  exact ⟨s, top, (lock_proceeds reachable top rfl).2 free⟩

end AtomicSpinlock

end Librf
