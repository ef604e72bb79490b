import Librf.Base.Transition

/-!
# The two vectors of a scheduler

`run_one_batch` swaps them under `_lock_running`, then goes through `_cached_states` and clears it
without the lock. `add_generator` may be called at any time from anywhere, so also by the timers and
the states that the batch runs. The batches of a scheduler are run by one thread, one after the
other.
-/

namespace Librf

inductive BatchSection
  | outside
  -- in `timer_manager::update`
  | updating
  -- behind it, holding `_lock_running`
  | testing
  -- at the head of the loop
  | looping (i : Nat)
  -- in `resume` of the `i`-th state of `_cached_states`
  | resuming (i : Nat)
  deriving DecidableEq, Repr

inductive QueueAction
  -- `add_generator` takes `_lock_running`
  | acquire (n : Nat)
  | emplaceBack
  | runOneBatch
  | lock
  -- `return false`
  | leave
  | swap
  | resume
  -- `resume` has returned
  | next
  | clear
  deriving DecidableEq, Repr

structure RunQueue where
  runingStates : List Nat := []
  cachedStates : List Nat := []
  batchSection : BatchSection := .outside
  -- what `add_generator` has taken `_lock_running` for
  adding : Option Nat := none
  -- history
  -- in the order in which `_lock_running` was taken
  added : List Nat := []
  resumed : List Nat := []
  -- all that had been added before the last swap
  swapped : List Nat := []
  deriving DecidableEq, Repr

namespace RunQueue

def step (q : RunQueue) : QueueAction → Option RunQueue
  | .acquire n =>
      if q.adding = none ∧ q.batchSection ≠ .testing then
        some { q with adding := some n, added := q.added ++ [n] }
      else none
  | .emplaceBack => q.adding.map fun n =>
      { q with runingStates := q.runingStates ++ [n], adding := none }
  | .runOneBatch =>
      if q.batchSection = .outside then some { q with batchSection := .updating } else none
  | .lock =>
      if q.batchSection = .updating ∧ q.adding = none then
        some { q with batchSection := .testing }
      else none
  | .leave =>
      if q.batchSection = .testing ∧ q.runingStates = [] then
        some { q with batchSection := .outside }
      else none
  | .swap =>
      if q.batchSection = .testing ∧ q.runingStates ≠ [] then
        some { q with
          runingStates := q.cachedStates
          cachedStates := q.runingStates
          batchSection := .looping 0
          swapped := q.added }
      else none
  | .resume => match q.batchSection with
      | .looping i => q.cachedStates[i]?.map fun n =>
          { q with batchSection := .resuming i, resumed := q.resumed ++ [n] }
      | _ => none
  | .next => match q.batchSection with
      | .resuming i => some { q with batchSection := .looping (i + 1) }
      | _ => none
  | .clear => match q.batchSection with
      | .looping i =>
          if i = q.cachedStates.length then
            some { q with cachedStates := [], batchSection := .outside }
          else none
      | _ => none

def system : Transition.System RunQueue QueueAction where
  init := {}
  step := step

/-- What the batch has still to resume. -/
def rest (q : RunQueue) : List Nat :=
  match q.batchSection with
  | .outside | .updating | .testing => []
  | .looping i => q.cachedStates.drop i
  | .resuming i => q.cachedStates.drop (i + 1)

/-- How many of `_cached_states` have been resumed. -/
def position (q : RunQueue) : Nat :=
  match q.batchSection with
  | .outside | .updating | .testing => 0
  | .looping i => i
  | .resuming i => i + 1

def inLoop (q : RunQueue) : Bool :=
  match q.batchSection with
  | .looping _ | .resuming _ => true
  | _ => false

variable {q q' u : RunQueue}

structure Aligned (q : RunQueue) : Prop where
  cached : q.inLoop = false → q.cachedStates = []
  swapped : q.swapped = q.resumed ++ q.rest
  added : q.added = q.swapped ++ q.runingStates ++ q.adding.toList
  testing : q.batchSection = .testing → q.adding = none
  position : q.position ≤ q.cachedStates.length

theorem Aligned.step (aligned : q.Aligned) {action : QueueAction} (h : q.step action = some q') :
    q'.Aligned := by
  obtain ⟨cached, swapped, added, testing, position⟩ := aligned
  cases action with
  | acquire n =>
      simp only [RunQueue.step, Option.ite_none_right_eq_some, Option.some.injEq] at h
      obtain ⟨⟨free, section_⟩, rfl⟩ := h
      refine ⟨cached, swapped, ?_, fun here => absurd here section_, position⟩
      simp [added, free]
  | emplaceBack =>
      obtain ⟨n, adding, rfl⟩ := Option.map_eq_some_iff.1 h
      refine ⟨cached, swapped, ?_, fun _ => rfl, position⟩
      simp [added, adding]
  | runOneBatch =>
      simp only [RunQueue.step, Option.ite_none_right_eq_some, Option.some.injEq] at h
      obtain ⟨section_, rfl⟩ := h
      refine ⟨fun _ => cached (by simp [inLoop, section_]), ?_, added, by simp, Nat.zero_le _⟩
      simpa [rest, section_] using swapped
  | lock =>
      simp only [RunQueue.step, Option.ite_none_right_eq_some, Option.some.injEq] at h
      obtain ⟨⟨section_, free⟩, rfl⟩ := h
      refine ⟨fun _ => cached (by simp [inLoop, section_]), ?_, added, fun _ => free, Nat.zero_le _⟩
      simpa [rest, section_] using swapped
  | leave =>
      simp only [RunQueue.step, Option.ite_none_right_eq_some, Option.some.injEq] at h
      obtain ⟨⟨section_, -⟩, rfl⟩ := h
      refine ⟨fun _ => cached (by simp [inLoop, section_]), ?_, added, by simp, Nat.zero_le _⟩
      simpa [rest, section_] using swapped
  | swap =>
      simp only [RunQueue.step, Option.ite_none_right_eq_some, Option.some.injEq] at h
      obtain ⟨⟨section_, -⟩, rfl⟩ := h
      have empty := cached (by simp [inLoop, section_])
      have free := testing section_
      have resumed : q.swapped = q.resumed := by simpa [rest, section_] using swapped
      refine ⟨by simp [inLoop], ?_, ?_, by simp, Nat.zero_le _⟩
      · simp [rest, added, resumed, free]
      · simp [empty, free]
  | resume =>
      simp only [RunQueue.step] at h
      split at h
      · rename_i i section_
        obtain ⟨n, next, rfl⟩ := Option.map_eq_some_iff.1 h
        obtain ⟨within, rfl⟩ := List.getElem?_eq_some_iff.1 next
        refine ⟨by simp [inLoop], ?_, added, by simp, within⟩
        have split : q.rest = q.cachedStates[i] :: q.cachedStates.drop (i + 1) := by
          simp only [rest, section_]
          exact List.drop_eq_getElem_cons within
        change q.swapped = q.resumed ++ [q.cachedStates[i]] ++ q.cachedStates.drop (i + 1)
        rw [swapped, split, List.append_assoc, List.singleton_append]
      · cases h
  | next =>
      simp only [RunQueue.step] at h
      split at h
      · rename_i i section_
        cases h
        refine ⟨by simp [inLoop], ?_, added, by simp, ?_⟩
        · simpa [rest, section_] using swapped
        · simpa [RunQueue.position, section_] using position
      · cases h
  | clear =>
      simp only [RunQueue.step] at h
      split at h
      · rename_i i section_
        simp only [Option.ite_none_right_eq_some, Option.some.injEq] at h
        obtain ⟨rfl, rfl⟩ := h
        refine ⟨fun _ => rfl, ?_, added, by simp, Nat.zero_le _⟩
        simpa [rest, section_] using swapped
      · cases h

theorem aligned {allowed : RunQueue → QueueAction → Prop} (reachable : system.ReachableBy allowed q) :
    q.Aligned := by
  apply Transition.System.Inductive.holds (M := system) (I := Aligned)
    ⟨?_, fun _ _ _ _ known _ h => known.step h⟩ reachable
  exact ⟨fun _ => rfl, rfl, rfl, (fun here => nomatch here), Nat.le_refl 0⟩

theorem Aligned.pending (aligned : q.Aligned) :
    q.added = q.resumed ++ q.rest ++ q.runingStates ++ q.adding.toList := by
  rw [aligned.added, aligned.swapped]

theorem rest_of_not_inLoop (outside : q.inLoop = false) : q.rest = [] := by
  cases section_ : q.batchSection with
  | looping i | resuming i => simp [inLoop, section_] at outside
  | _ => simp [rest, section_]

theorem step_swapped {action : QueueAction} (h : q.step action = some q') (other : action ≠ .swap) :
    q'.swapped = q.swapped := by
  cases action with
  | swap => exact absurd rfl other
  | emplaceBack =>
      obtain ⟨n, -, rfl⟩ := Option.map_eq_some_iff.1 h
      rfl
  | resume =>
      simp only [RunQueue.step] at h
      split at h
      · obtain ⟨n, -, rfl⟩ := Option.map_eq_some_iff.1 h
        rfl
      · cases h
  | next =>
      simp only [RunQueue.step] at h
      split at h
      · cases h
        rfl
      · cases h
  | clear =>
      simp only [RunQueue.step] at h
      split at h
      · simp only [Option.ite_none_right_eq_some, Option.some.injEq] at h
        obtain ⟨-, rfl⟩ := h
        rfl
      · cases h
  | _ =>
      simp only [RunQueue.step, Option.ite_none_right_eq_some, Option.some.injEq] at h
      obtain ⟨-, rfl⟩ := h
      rfl

structure InOrder (q : RunQueue) : Prop where
  prefix_ : q.resumed <+: q.added
  -- nothing is lost, and nothing is resumed twice
  pending : q.added = q.resumed ++ q.rest ++ q.runingStates ++ q.adding.toList
  -- From a swap to the next one: what was queued before it is resumed, and nothing else.
  batch : ∀ t u, q.step .swap = some t → (system.after t).ReachableBy (fun _ e => e ≠ .swap) u →
    q.added = q.resumed ++ q.runingStates ∧ u.resumed <+: q.added ∧
      (u.inLoop = false → u.resumed = q.added)
  -- `run_one_batch` returns false only if all has been resumed.
  refused : ∀ t, q.step .leave = some t → q.resumed = q.added

theorem Aligned.batch (aligned : q.Aligned) {t : RunQueue} (h : q.step .swap = some t)
    (later : (system.after t).ReachableBy (fun _ e => e ≠ .swap) u) :
    q.added = q.resumed ++ q.runingStates ∧ u.resumed <+: q.added ∧
      (u.inLoop = false → u.resumed = q.added) := by
  have swap := h
  simp only [RunQueue.step, Option.ite_none_right_eq_some, Option.some.injEq] at swap
  obtain ⟨⟨section_, -⟩, after⟩ := swap
  have queued : q.added = q.resumed ++ q.runingStates := by
    have empty : q.rest = [] := rest_of_not_inLoop (by simp [inLoop, section_])
    simp [aligned.added, aligned.swapped, empty, aligned.testing section_]
  have inductive_ : (system.after t).Inductive (fun _ e => e ≠ .swap)
      fun u => u.Aligned ∧ u.swapped = q.added := by
    refine ⟨⟨aligned.step h, by rw [← after]; rfl⟩, ?_⟩
    intro u e v _ known other next
    exact ⟨known.1.step next, (step_swapped next other).trans known.2⟩
  obtain ⟨aligned', swapped⟩ := inductive_.holds later
  have split : q.added = u.resumed ++ u.rest := swapped.symm.trans aligned'.swapped
  refine ⟨queued, ?_, fun outside => ?_⟩
  · rw [split]
    exact List.prefix_append _ _
  · rw [split, rest_of_not_inLoop outside, List.append_nil]

theorem resumed_in_order (reachable : system.Reachable q) : q.InOrder := by
  have known := aligned reachable
  have pending := known.pending
  constructor
  · rw [pending, List.append_assoc, List.append_assoc]
    exact List.prefix_append _ _
  · exact pending
  · exact fun t u h later => known.batch h later
  · intro t h
    simp only [step, Option.ite_none_right_eq_some] at h
    obtain ⟨⟨section_, empty⟩, -⟩ := h
    simp [pending, rest, section_, empty, known.testing section_]

/-- States are added before a batch, by a timer and while the batch is in `resume`. -/
theorem resumed_in_order_late : ∃ q, system.Reachable q ∧ q.resumed = [5] ∧ q.added = [5, 6, 7] ∧
    q.batchSection = .resuming 0 ∧ q.InOrder := by
  obtain ⟨q, reachable, test⟩ := Transition.System.reachable_of_replay (M := system)
    [.acquire 5, .emplaceBack, .runOneBatch, .acquire 6, .emplaceBack, .lock, .swap, .resume,
      .acquire 7, .emplaceBack]
    (fun q => q.resumed = [5] ∧ q.added = [5, 6, 7] ∧ q.batchSection = .resuming 0) (by decide)
  simp only [decide_eq_true_eq] at test
  exact ⟨q, reachable, test.1, test.2.1, test.2.2, resumed_in_order reachable⟩

end RunQueue

end Librf
