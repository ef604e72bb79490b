import Librf.RingQueue

/-!
# A `ring_queue` is a bounded FIFO
-/

namespace Librf

inductive RingAction (α : Type*)
  | tryPush (x : α)
  -- `value` is what the object passed by reference holds
  | tryPop (value : Option α)
  deriving DecidableEq, Repr

abbrev RingResult (α : Type*) := Bool × Option α

namespace RingQueue

variable {useOption : Bool} {bits : Nat} {α : Type*}

def capacity (q : RingQueue useOption bits α) : Nat := sizeCast bits (sizeSub bits q.bufferSize 1)

/-! With `_WITH_LOCK_FREE_Q_KEEP_REAL_SIZE`, the size is counted. -/

def countedSize (q : RingQueue useOption bits α) : Nat := q.count

def countedEmpty (q : RingQueue useOption bits α) : Bool := q.count == 0

def countedFull (q : RingQueue useOption bits α) : Bool := q.count == sizeSub bits q.bufferSize 1

def step (q : RingQueue useOption bits α) :
    RingAction α → Except Fault (RingResult α × RingQueue useOption bits α)
  | .tryPush x => do
      let attempt ← q.tryPush (some x)
      return ((attempt.accepted, attempt.value), attempt.state)
  | .tryPop value => do
      let attempt ← q.tryPop value
      return ((attempt.accepted, attempt.value), attempt.state)

def run : RingQueue useOption bits α → List (RingAction α) →
    Except Fault (List (RingResult α) × RingQueue useOption bits α)
  | q, [] => .ok ([], q)
  | q, action :: rest => do
      let (result, q) ← q.step action
      let (results, q) ← q.run rest
      return (result :: results, q)

end RingQueue

/-! ## The bounded FIFO -/

namespace BoundedFifo

variable {α : Type*}

def step (capacity : Nat) (items : List α) : RingAction α → RingResult α × List α
  | .tryPush x =>
      if items.length < capacity then ((true, none), items ++ [x]) else ((false, some x), items)
  | .tryPop value => match items with
      | [] => ((false, value), [])
      | x :: rest => ((true, some x), rest)

def run (capacity : Nat) : List α → List (RingAction α) → List (RingResult α) × List α
  | items, [] => ([], items)
  | items, action :: rest =>
      let (result, items) := step capacity items action
      let (results, items) := run capacity items rest
      (result :: results, items)

end BoundedFifo

namespace RingQueue

variable {useOption : Bool} {bits : Nat} {α : Type*}

structure Fifo (q : RingQueue useOption bits α) (capacity : Nat) (items : List α) : Prop where
  contents : ∀ i (h : i < items.length),
    q.buffer[(q.readIndex + i) % q.bufferSize]? = some (some items[i])
  bounded : items.length ≤ capacity
  capacity_eq : q.capacity = capacity
  indices : q.readIndex < q.bufferSize ∧ q.writeIndex < q.bufferSize
  -- an index is incremented without a wrap-around
  unwrapped : q.bufferSize < 2 ^ bits
  size : q.size = items.length ∧ q.countedSize = items.length
  empty : q.empty = items.isEmpty ∧ q.countedEmpty = items.isEmpty
  full : q.full = (items.length == capacity) ∧ q.countedFull = (items.length == capacity)
  push : ∀ x, if items.length < capacity then ∃ q', q.tryPush (some x) = .ok ⟨true, none, q'⟩
    else q.tryPush (some x) = .ok ⟨false, some x, q⟩
  pop : ∀ value, match items with
    | [] => q.tryPop value = .ok ⟨false, value, q⟩
    | x :: _ => ∃ q', q.tryPop value = .ok ⟨true, some x, q'⟩

variable {q : RingQueue useOption bits α} {capacity : Nat} {items : List α}

theorem Holds.sizeSub_one (h : q.Holds capacity items) : sizeSub bits q.bufferSize 1 = capacity := by
  have fits := h.fits
  have wide : 2 ^ bits ≤ 2 ^ max bits 32 :=
    Nat.pow_le_pow_right (by omega) (Nat.le_max_left bits 32)
  rw [h.modulus, sizeSub, sizeArith,
    show capacity + 1 + (2 ^ max bits 32 - 1) = capacity + 2 ^ max bits 32 by omega,
    Nat.add_mod_right, Nat.mod_eq_of_lt (by omega)]

theorem Holds.fifo (h : q.Holds capacity items) : q.Fifo capacity items where
  contents i bound := by
    have cell := h.segment i (by simpa using bound)
    rw [h.cells, ← h.modulus] at cell
    simpa using cell
  bounded := h.bounded
  capacity_eq := by
    have fits := h.fits
    rw [RingQueue.capacity, h.sizeSub_one, sizeCast, Nat.mod_eq_of_lt (by omega)]
  indices := by
    rw [h.modulus]
    exact ⟨h.read, h.writeIndex_lt⟩
  unwrapped := by
    rw [h.modulus]
    exact h.fits
  size := ⟨h.size_eq, h.counted⟩
  empty := by
    refine ⟨h.empty_eq, ?_⟩
    rw [countedEmpty, h.counted]
    cases items <;> rfl
  full := by
    refine ⟨h.full_eq, ?_⟩
    rw [countedFull, h.counted, h.sizeSub_one]
  push x := by
    split
    · rename_i room
      obtain ⟨q', pushes, -⟩ := h.tryPush_room room x
      exact ⟨q', pushes⟩
    · rename_i full
      exact h.tryPush_full (Nat.le_antisymm h.bounded (Nat.not_lt.1 full)) (some x)
  pop value := by
    cases items with
    | nil => exact h.tryPop_empty value
    | cons x rest =>
        obtain ⟨q', pops, -⟩ := h.tryPop_cons value
        exact ⟨q', pops⟩

theorem Holds.step (h : q.Holds capacity items) (action : RingAction α) : ∃ q',
    q.step action = .ok ((BoundedFifo.step capacity items action).1, q') ∧
      q'.Holds capacity (BoundedFifo.step capacity items action).2 := by
  cases action with
  | tryPush x =>
      rw [BoundedFifo.step]
      split
      · rename_i room
        obtain ⟨q', pushes, holds⟩ := h.tryPush_room room x
        refine ⟨q', ?_, holds⟩
        rw [RingQueue.step, pushes]
        rfl
      · rename_i full
        refine ⟨q, ?_, h⟩
        rw [RingQueue.step, h.tryPush_full (Nat.le_antisymm h.bounded (Nat.not_lt.1 full)) (some x)]
        rfl
  | tryPop value =>
      cases items with
      | nil =>
          refine ⟨q, ?_, h⟩
          rw [RingQueue.step, h.tryPop_empty value]
          rfl
      | cons x rest =>
          obtain ⟨q', pops, holds⟩ := h.tryPop_cons value
          refine ⟨q', ?_, holds⟩
          rw [RingQueue.step, pops]
          rfl

theorem Holds.run (h : q.Holds capacity items) (actions : List (RingAction α)) : ∃ q',
    q.run actions = .ok ((BoundedFifo.run capacity items actions).1, q') ∧
      q'.Holds capacity (BoundedFifo.run capacity items actions).2 := by
  induction actions generalizing q items with
  | nil => exact ⟨q, rfl, h⟩
  | cons action rest ih =>
      obtain ⟨next, stepped, holds⟩ := h.step action
      obtain ⟨last, runs, holds⟩ := ih holds
      refine ⟨last, ?_, holds⟩
      rw [RingQueue.run, stepped]
      exact congrArg (fun results => results >>= fun r => pure (_ :: r.1, r.2)) runs

/-- A new queue answers every history as the bounded FIFO of its capacity does. -/
theorem run_fifo (useOption : Bool) (bits : Nat) (α : Type*) (sz : Nat) (below : sz < 2 ^ bits - 1)
    (actions : List (RingAction α)) : ∃ q q', new useOption bits α sz = .ok q ∧
      q.run actions = .ok ((BoundedFifo.run sz [] actions).1, q') ∧
      q'.Fifo sz (BoundedFifo.run sz [] actions).2 := by
  obtain ⟨q, made, holds⟩ : ∃ q, new useOption bits α sz = .ok q ∧ q.Holds sz [] := new_holds below
  obtain ⟨q', runs, holds⟩ := holds.run actions
  exact ⟨q, q', made, runs, holds.fifo⟩

theorem run_fifo_two : ∃ q q', new true 2 Nat 2 = .ok q ∧
    q.run [.tryPush 7, .tryPush 8, .tryPush 9, .tryPop none, .tryPush 9, .tryPop (some 0)] =
      .ok ([(true, none), (true, none), (false, some 9), (true, some 7), (true, none),
        (true, some 8)], q') ∧ q'.Fifo 2 [9] :=
  run_fifo true 2 Nat 2 (by decide) _

end RingQueue

end Librf
