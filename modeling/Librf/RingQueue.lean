import Librf.Base.Circular

/-!
# `ring_queue`

The queue over its buffer and indices, and the bounded FIFO its operations implement. An object
that holds no value of the user (an empty optional, a default-constructed or a moved-from object)
is `none`.
-/

namespace Librf

/-- Ways in which the source can go wrong: a failed `assert`, `std::optional::value` on an empty
optional, an index outside a buffer. -/
inductive Fault
  | assertion
  | badOptionalAccess
  | outOfBounds
  deriving DecidableEq, Repr

/-- The outcome of an attempt on an object passed by reference: the boolean result, what the
object holds afterwards, and the new state. -/
structure Attempt (κ τ : Type*) where
  accepted : Bool
  value : τ
  state : κ

def sizeCast (bits n : Nat) : Nat := n % 2 ^ bits

/-- Arithmetic on the size type: types narrower than `int` are promoted to it. -/
def sizeArith (bits n : Nat) : Nat := n % 2 ^ max bits 32

def sizeSub (bits a b : Nat) : Nat := sizeArith bits (a + (2 ^ max bits 32 - b))

structure RingQueue (useOption : Bool) (bits : Nat) (α : Type*) where
  buffer : List (Option α)
  bufferSize : Nat
  writeIndex : Nat
  readIndex : Nat
  count : Nat

namespace RingQueue

variable {useOption : Bool} {bits : Nat} {α : Type*}

def new (useOption : Bool) (bits : Nat) (α : Type*) (sz : Nat) :
    Except Fault (RingQueue useOption bits α) :=
  if sz < 2 ^ bits - 1 then
    .ok { buffer := List.replicate (sz + 1) none, bufferSize := sizeCast bits (sz + 1),
          writeIndex := 0, readIndex := 0, count := 0 }
  else .error .assertion

def nextIndex (q : RingQueue useOption bits α) (a_count : Nat) : Nat :=
  sizeCast bits (sizeArith bits (a_count + 1) % q.bufferSize)

def size (q : RingQueue useOption bits α) : Nat :=
  if q.writeIndex ≥ q.readIndex then sizeCast bits (q.writeIndex - q.readIndex)
  else sizeCast bits (sizeSub bits (sizeArith bits (q.bufferSize + q.writeIndex)) q.readIndex)

def empty (q : RingQueue useOption bits α) : Bool := q.writeIndex == q.readIndex

def full (q : RingQueue useOption bits α) : Bool := q.nextIndex q.writeIndex == q.readIndex

def tryPush (q : RingQueue useOption bits α) (value : Option α) :
    Except Fault (Attempt (RingQueue useOption bits α) (Option α)) :=
  let nextWriteIndex := q.nextIndex q.writeIndex
  if nextWriteIndex = q.readIndex then .ok ⟨false, value, q⟩
  else if q.writeIndex < q.bufferSize then
    .ok ⟨true, none, { q with
      buffer := q.buffer.set q.writeIndex value
      writeIndex := nextWriteIndex
      count := sizeCast bits (q.count + 1) }⟩
  else .error .assertion

/-- The value moved out of a slot: `value()` throws on an empty optional, a plain object is
moved whatever it holds. -/
def takeSlot (useOption : Bool) (slot : Option α) : Except Fault (Option α) :=
  match useOption, slot with
  | true, none => .error .badOptionalAccess
  | _, slot => .ok slot

def tryPop (q : RingQueue useOption bits α) (value : Option α) :
    Except Fault (Attempt (RingQueue useOption bits α) (Option α)) :=
  if q.readIndex = q.writeIndex then .ok ⟨false, value, q⟩
  else match q.buffer[q.readIndex]? with
    | none => .error .outOfBounds
    | some ov => do
        let taken ← takeSlot useOption ov
        -- with `_Option` the slot is reset, otherwise it keeps a moved-from object
        .ok ⟨true, taken, { q with
          buffer := q.buffer.set q.readIndex none
          readIndex := q.nextIndex q.readIndex
          count := sizeCast bits (q.count + (2 ^ bits - 1)) }⟩

/-! ## The bounded FIFO -/

structure Holds (q : RingQueue useOption bits α) (capacity : Nat) (items : List α) : Prop where
  modulus : q.bufferSize = capacity + 1
  cells : q.buffer.length = capacity + 1
  fits : capacity + 1 < 2 ^ bits
  bounded : items.length ≤ capacity
  read : q.readIndex < capacity + 1
  write : q.writeIndex = (q.readIndex + items.length) % (capacity + 1)
  segment : Circular.Segment q.buffer q.readIndex (items.map some)
  counted : q.count = items.length

theorem sizeArith_of_lt {bits n : Nat} (h : n < 2 ^ bits) : sizeArith bits n = n :=
  Nat.mod_eq_of_lt (h.trans_le (Nat.pow_le_pow_right (by omega) (Nat.le_max_left bits 32)))

theorem new_holds {capacity : Nat} (h : capacity < 2 ^ bits - 1) :
    ∃ q, new useOption bits α capacity = .ok q ∧ q.Holds capacity [] := by
  have fits : capacity + 1 < 2 ^ bits := by omega
  refine ⟨_, if_pos h, ?_⟩
  constructor
  · exact Nat.mod_eq_of_lt fits
  · simp
  · exact fits
  · simp
  · simp
  · simp
  · exact Circular.Segment.nil _ _
  · rfl

variable {q : RingQueue useOption bits α} {capacity : Nat} {items : List α}

theorem Holds.nextIndex_eq (h : q.Holds capacity items) {i : Nat} (bound : i < capacity + 1) :
    q.nextIndex i = (i + 1) % (capacity + 1) := by
  have fits := h.fits
  have small : (i + 1) % (capacity + 1) < capacity + 1 := Nat.mod_lt _ (by omega)
  rw [nextIndex, h.modulus, sizeArith_of_lt (by omega), sizeCast, Nat.mod_eq_of_lt (by omega)]

theorem Holds.writeIndex_lt (h : q.Holds capacity items) : q.writeIndex < capacity + 1 := by
  rw [h.write]
  exact Nat.mod_lt _ (by omega)

theorem Holds.next_writeIndex (h : q.Holds capacity items) :
    q.nextIndex q.writeIndex = (q.readIndex + (items.length + 1)) % (capacity + 1) := by
  rw [h.nextIndex_eq h.writeIndex_lt, h.write, Nat.mod_add_mod]
  rfl

theorem Holds.full_iff (h : q.Holds capacity items) :
    q.nextIndex q.writeIndex = q.readIndex ↔ items.length = capacity := by
  rw [h.next_writeIndex]
  constructor
  · intro same
    rcases Nat.lt_or_ge items.length capacity with room | full
    · have start : (q.readIndex + (items.length + 1)) % (capacity + 1) =
          (q.readIndex + 0) % (capacity + 1) := by
        simpa [Nat.mod_eq_of_lt h.read] using same
      have := Circular.offset_injective (by omega) (by omega) start
      omega
    · exact le_antisymm h.bounded full
  · rintro rfl
    rw [Nat.add_mod_right, Nat.mod_eq_of_lt h.read]

theorem Holds.empty_iff (h : q.Holds capacity items) :
    q.readIndex = q.writeIndex ↔ items = [] := by
  constructor
  · intro same
    rw [h.write] at same
    have bounded := h.bounded
    have start : (q.readIndex + 0) % (capacity + 1) =
        (q.readIndex + items.length) % (capacity + 1) := by
      simpa [Nat.mod_eq_of_lt h.read] using same
    have := Circular.offset_injective (by omega) (by omega) start
    exact List.eq_nil_of_length_eq_zero this.symm
  · rintro rfl
    rw [h.write]
    simp [Nat.mod_eq_of_lt h.read]

theorem Holds.empty_eq (h : q.Holds capacity items) : q.empty = items.isEmpty := by
  rw [Bool.eq_iff_iff, List.isEmpty_iff, ← h.empty_iff, empty, beq_iff_eq, eq_comm]

theorem Holds.full_eq (h : q.Holds capacity items) :
    q.full = (items.length == capacity) := by
  rw [Bool.eq_iff_iff, full, beq_iff_eq, beq_iff_eq, h.full_iff]

theorem Holds.size_eq (h : q.Holds capacity items) : q.size = items.length := by
  have read := h.read
  have bounded := h.bounded
  have fits := h.fits
  have wide : 2 ^ bits ≤ 2 ^ max bits 32 :=
    Nat.pow_le_pow_right (by omega) (Nat.le_max_left bits 32)
  rw [size]
  rcases Nat.lt_or_ge (q.readIndex + items.length) (capacity + 1) with straight | wrapped
  · rw [h.write, Nat.mod_eq_of_lt straight, if_pos (Nat.le_add_right _ _), Nat.add_sub_cancel_left,
      sizeCast, Nat.mod_eq_of_lt (by omega)]
  · have position : q.writeIndex = q.readIndex + items.length - (capacity + 1) := by
      rw [h.write, Nat.mod_eq_sub_mod wrapped, Nat.mod_eq_of_lt (by omega)]
    have behind : ¬ q.writeIndex ≥ q.readIndex := by omega
    have total : capacity + 1 + q.writeIndex + (2 ^ max bits 32 - q.readIndex) =
        items.length + 2 ^ max bits 32 := by omega
    rw [if_neg behind, h.modulus, sizeSub, sizeArith, sizeArith, Nat.mod_add_mod, total,
      Nat.add_mod_right, Nat.mod_eq_of_lt (by omega), sizeCast, Nat.mod_eq_of_lt (by omega)]

theorem Holds.tryPush_full (h : q.Holds capacity items) (full : items.length = capacity)
    (value : Option α) : q.tryPush value = .ok ⟨false, value, q⟩ :=
  if_pos (h.full_iff.mpr full)

theorem Holds.tryPush_room (h : q.Holds capacity items) (room : items.length < capacity) (x : α) :
    ∃ q', q.tryPush (some x) = .ok ⟨true, none, q'⟩ ∧ q'.Holds capacity (items ++ [x]) := by
  have open_ : ¬ q.nextIndex q.writeIndex = q.readIndex := by
    rw [h.full_iff]
    omega
  have inside : q.writeIndex < q.bufferSize := by
    rw [h.modulus]
    exact h.writeIndex_lt
  have fits := h.fits
  refine ⟨_, by rw [tryPush, if_neg open_, if_pos inside], ?_⟩
  constructor
  · exact h.modulus
  · simpa using h.cells
  · exact h.fits
  · simpa using Nat.succ_le_of_lt room
  · exact h.read
  · simpa using h.next_writeIndex
  · have pushed := h.segment.push (some x) (by simpa [h.cells] using room.trans (Nat.lt_succ_self _))
    rw [h.cells, List.length_map, ← h.write] at pushed
    simpa using pushed
  · rw [h.counted, sizeCast, Nat.mod_eq_of_lt (by omega)]
    simp

theorem Holds.tryPop_empty (h : q.Holds capacity []) (value : Option α) :
    q.tryPop value = .ok ⟨false, value, q⟩ :=
  if_pos (h.empty_iff.mpr rfl)

theorem Holds.tryPop_cons {x : α} (h : q.Holds capacity (x :: items)) (value : Option α) :
    ∃ q', q.tryPop value = .ok ⟨true, some x, q'⟩ ∧ q'.Holds capacity items := by
  have occupied : ¬ q.readIndex = q.writeIndex := by simp [h.empty_iff]
  have inside : q.readIndex < q.buffer.length := by
    rw [h.cells]
    exact h.read
  have slot : q.buffer[q.readIndex]? = some (some x) := h.segment.head inside
  have taken : takeSlot useOption (some x) = .ok (some x) := by cases useOption <;> rfl
  have bounded : items.length + 1 ≤ capacity := by simpa using h.bounded
  have fits := h.fits
  refine ⟨_, by rw [tryPop, if_neg occupied, slot]; simp only [taken]; rfl, ?_⟩
  constructor
  · exact h.modulus
  · simpa using h.cells
  · exact h.fits
  · omega
  · rw [h.nextIndex_eq h.read]
    exact Nat.mod_lt _ (by omega)
  · simp only
    rw [h.nextIndex_eq h.read, Circular.offset_succ, h.write, List.length_cons]
  · have popped := h.segment.pop none inside (by simp [h.cells]; omega)
    rw [h.cells] at popped
    simpa [h.nextIndex_eq h.read] using popped
  · simp only
    rw [h.counted, sizeCast, List.length_cons,
      show items.length + 1 + (2 ^ bits - 1) = items.length + 2 ^ bits by omega,
      Nat.add_mod_right, Nat.mod_eq_of_lt (by omega)]

end RingQueue

end Librf
