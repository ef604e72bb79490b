import Librf.Channel.Model

/-!
# What an attempt does

With `stored` the writes whose values lie in the ring and `writeAwakes` the suspended writers, a
read attempt takes the value of the first write of `stored ++ writeAwakes`, whichever path carries
it; a write attempt serves the first suspended reader or fills the ring.
-/

namespace Librf

def Awaiter.Suspended {α : Type*} (a : Awaiter α) : Prop := a.scheduler.isSome ∧ a.coro.isSome

namespace Channel

variable {useOption : Bool} {α : Type*}

def wakeWriter (c : Channel useOption α) : Channel useOption α :=
  match c.writeAwakes with
  | [] => c
  | w :: rest =>
      { c with writeAwakes := rest
               writers := Function.update c.writers w { c.writers w with value := none }
               notified := c.notified ++ [.writer w] }

def wakeReader (c : Channel useOption α) (x : α) : Channel useOption α :=
  match c.readAwakes with
  | [] => c
  | r :: rest =>
      { c with readAwakes := rest
               readers := Function.update c.readers r { c.readers r with value := some x }
               notified := c.notified ++ [.reader r] }

section Wake

variable (c : Channel useOption α) (x : α)

@[simp] theorem wakeWriter_values : c.wakeWriter.values = c.values := by
  unfold wakeWriter
  split <;> rfl

@[simp] theorem wakeWriter_readers : c.wakeWriter.readers = c.readers := by
  unfold wakeWriter
  split <;> rfl

@[simp] theorem wakeWriter_readAwakes : c.wakeWriter.readAwakes = c.readAwakes := by
  unfold wakeWriter
  split <;> rfl

@[simp] theorem wakeWriter_writeAwakes : c.wakeWriter.writeAwakes = c.writeAwakes.tail := by
  unfold wakeWriter
  split <;> simp [*]

theorem wakeWriter_notified :
    c.wakeWriter.notified = c.notified ++ c.writeAwakes.head?.toList.map .writer := by
  unfold wakeWriter
  split <;> simp [*]

theorem wakeWriter_writers (w : Nat) : c.wakeWriter.writers w =
    if c.writeAwakes.head? = some w then { c.writers w with value := none } else c.writers w := by
  unfold wakeWriter
  split
  · simp [*]
  · rename_i first rest waiting
    rcases eq_or_ne w first with rfl | other
    · simp [waiting]
    · simp [waiting, Function.update_of_ne other, other.symm]

@[simp] theorem wakeReader_values : (c.wakeReader x).values = c.values := by
  unfold wakeReader
  split <;> rfl

@[simp] theorem wakeReader_writers : (c.wakeReader x).writers = c.writers := by
  unfold wakeReader
  split <;> rfl

@[simp] theorem wakeReader_writeAwakes : (c.wakeReader x).writeAwakes = c.writeAwakes := by
  unfold wakeReader
  split <;> rfl

@[simp] theorem wakeReader_readAwakes : (c.wakeReader x).readAwakes = c.readAwakes.tail := by
  unfold wakeReader
  split <;> simp [*]

theorem wakeReader_notified :
    (c.wakeReader x).notified = c.notified ++ c.readAwakes.head?.toList.map .reader := by
  unfold wakeReader
  split <;> simp [*]

theorem wakeReader_readers (r : Nat) : (c.wakeReader x).readers r =
    if c.readAwakes.head? = some r then { c.readers r with value := some x } else c.readers r := by
  unfold wakeReader
  split
  · simp [*]
  · rename_i first rest waiting
    rcases eq_or_ne r first with rfl | other
    · simp [waiting]
    · simp [waiting, Function.update_of_ne other, other.symm]

end Wake

variable {c : Channel useOption α} {n : Nat}

theorem onNotify_suspended {who : Waiter} {a : Awaiter α} (suspended : a.Suspended) :
    c.onNotify who a = .ok { c with notified := c.notified ++ [who] } := by
  obtain ⟨scheduled, handler⟩ := suspended
  rw [Option.isSome_iff_ne_none] at scheduled
  simp [onNotify, handler, scheduled]

theorem tryReadNolock_unchanged {val result : Option α} {c' : Channel useOption α}
    (refused : c.tryReadNolock val = .ok ⟨false, result, c'⟩) : result = val ∧ c' = c := by
  unfold tryReadNolock at refused
  cases popped : c.values.tryPop val with
  | error fault => simp [popped, bind, Except.bind] at refused
  | ok attempt =>
      simp only [popped, bind, Except.bind] at refused
      cases taken : attempt.accepted with
      | true =>
          simp only [taken, if_true] at refused
          cases woken : awakeOneWriter { c with values := attempt.state } <;>
            simp [woken] at refused
      | false =>
          simp only [taken, Bool.false_eq_true, if_false, awakeOneWriterTo] at refused
          split at refused
          · cases refused
            exact ⟨rfl, rfl⟩
          · simp only [bind, Except.bind] at refused
            split at refused <;> cases refused

theorem tryWriteNolock_unchanged {val result : Option α} {c' : Channel useOption α}
    (refused : c.tryWriteNolock val = .ok ⟨false, result, c'⟩) : result = val ∧ c' = c := by
  unfold tryWriteNolock at refused
  cases pushed : c.values.tryPush val with
  | error fault => simp [pushed, bind, Except.bind] at refused
  | ok attempt =>
      simp only [pushed, bind, Except.bind] at refused
      cases stored : attempt.accepted with
      | true =>
          simp only [stored, if_true] at refused
          cases woken : awakeOneReader { c with values := attempt.state } <;>
            simp [woken] at refused
      | false =>
          simp only [stored, Bool.false_eq_true, if_false, awakeOneReaderWith] at refused
          split at refused
          · cases refused
            exact ⟨rfl, rfl⟩
          · simp only [bind, Except.bind] at refused
            split at refused <;> cases refused

/-! ## Reads -/

theorem tryReadNolock_refused (held : c.values.Holds n []) (idle : c.writeAwakes = [])
    (val : Option α) : c.tryReadNolock val = .ok ⟨false, val, c⟩ := by
  simp [tryReadNolock, held.tryPop_empty, awakeOneWriterTo, idle, bind, Except.bind]

theorem tryReadNolock_direct {w : Nat} {rest : List Nat} (held : c.values.Holds n [])
    (waiting : c.writeAwakes = w :: rest) (suspended : (c.writers w).Suspended)
    (val : Option α) :
    c.tryReadNolock val = .ok ⟨true, (c.writers w).value, c.wakeWriter⟩ := by
  simp [tryReadNolock, held.tryPop_empty, awakeOneWriterTo, waiting, bind, Except.bind,
    onNotify_suspended suspended, wakeWriter, setWriter]

theorem tryReadNolock_ring {x : α} {items : List α} (held : c.values.Holds n (x :: items))
    (idle : c.writeAwakes = []) (val : Option α) :
    ∃ q, c.tryReadNolock val = .ok ⟨true, some x, { c with values := q }⟩ ∧ q.Holds n items := by
  obtain ⟨q, popped, holds⟩ := held.tryPop_cons val
  refine ⟨q, ?_, holds⟩
  simp [tryReadNolock, popped, awakeOneWriter, idle, bind, Except.bind]

theorem tryReadNolock_refill {x y : α} {items : List α} {w : Nat} {rest : List Nat}
    (held : c.values.Holds n (x :: items)) (waiting : c.writeAwakes = w :: rest)
    (suspended : (c.writers w).Suspended) (carried : (c.writers w).value = some y)
    (val : Option α) :
    ∃ q, c.tryReadNolock val =
        .ok ⟨true, some x, wakeWriter { c with values := q }⟩ ∧ q.Holds n (items ++ [y]) := by
  obtain ⟨popped, pop, afterPop⟩ := held.tryPop_cons val
  have room : items.length < n := by simpa using Nat.lt_of_succ_le held.bounded
  obtain ⟨q, push, holds⟩ := afterPop.tryPush_room room y
  refine ⟨q, ?_, holds⟩
  simp [tryReadNolock, pop, awakeOneWriter, waiting, carried, push, bind, Except.bind,
    onNotify_suspended suspended, wakeWriter, setWriter]

variable {vals : Nat → α} {stored : List Nat}

theorem tryReadNolock_accepts {w : Nat} {rest : List Nat}
    (held : c.values.Holds n (stored.map vals))
    (full : c.writeAwakes ≠ [] → stored.length = n)
    (suspended : ∀ w ∈ c.writeAwakes, (c.writers w).Suspended)
    (carried : ∀ w ∈ c.writeAwakes, (c.writers w).value = some (vals w))
    (first : stored ++ c.writeAwakes = w :: rest) (val : Option α) :
    ∃ q kept, c.tryReadNolock val =
        .ok ⟨true, some (vals w), wakeWriter { c with values := q }⟩ ∧
      q.Holds n (kept.map vals) ∧ rest = kept ++ c.writeAwakes.tail ∧
      (c.writeAwakes.tail ≠ [] → kept.length = n) := by
  cases stored with
  | nil =>
      have empty : n = 0 := (full (by simp_all)).symm
      simp only [List.nil_append] at first
      have here : w ∈ c.writeAwakes := by simp [first]
      refine ⟨c.values, [], ?_, held, by simp [first], by simp [empty]⟩
      rw [tryReadNolock_direct held first (suspended w here), carried w here]
  | cons head tail =>
      simp only [List.cons_append, List.cons.injEq] at first
      obtain ⟨rfl, rfl⟩ := first
      cases waiting : c.writeAwakes with
      | nil =>
          obtain ⟨q, attempt, holds⟩ := tryReadNolock_ring held waiting val
          refine ⟨q, tail, ?_, holds, by simp, by simp⟩
          simpa [wakeWriter, waiting] using attempt
      | cons writer others =>
          have here : writer ∈ c.writeAwakes := by simp [waiting]
          obtain ⟨q, attempt, holds⟩ := tryReadNolock_refill held waiting (suspended writer here)
            (carried writer here) val
          have length : tail.length + 1 = n := by simpa using full (by simp [waiting])
          exact ⟨q, tail ++ [writer], by simpa only [waiting] using attempt, by simpa using holds, by simp,
            fun _ => by simpa using length⟩

/-! ## Writes -/

theorem tryWriteNolock_refused {items : List α} (held : c.values.Holds n items)
    (full : items.length = n) (idle : c.readAwakes = []) (val : Option α) :
    c.tryWriteNolock val = .ok ⟨false, val, c⟩ := by
  simp [tryWriteNolock, held.tryPush_full full, awakeOneReaderWith, idle, bind, Except.bind]

theorem tryWriteNolock_store {items : List α} (held : c.values.Holds n items)
    (room : items.length < n) (idle : c.readAwakes = []) (x : α) :
    ∃ q, c.tryWriteNolock (some x) = .ok ⟨true, none, { c with values := q }⟩ ∧
      q.Holds n (items ++ [x]) := by
  obtain ⟨q, pushed, holds⟩ := held.tryPush_room room x
  refine ⟨q, ?_, holds⟩
  simp [tryWriteNolock, pushed, awakeOneReader, idle, bind, Except.bind]

theorem tryWriteNolock_wake {r : Nat} {rest : List Nat} (held : c.values.Holds n [])
    (waiting : c.readAwakes = r :: rest) (suspended : (c.readers r).Suspended) (x : α) :
    ∃ q, c.tryWriteNolock (some x) = .ok ⟨true, none, wakeReader { c with values := q } x⟩ ∧
      q.Holds n [] := by
  rcases Nat.eq_zero_or_pos n with rfl | room
  · refine ⟨c.values, ?_, held⟩
    simp [tryWriteNolock, held.tryPush_full rfl, awakeOneReaderWith, waiting, bind, Except.bind,
      onNotify_suspended suspended, wakeReader, setReader]
  · obtain ⟨pushed, push, afterPush⟩ := held.tryPush_room room x
    obtain ⟨q, pop, holds⟩ := afterPush.tryPop_cons (c.readers r).value
    refine ⟨q, ?_, holds⟩
    simp [tryWriteNolock, push, awakeOneReader, waiting, afterPush.empty_eq, pop, bind,
      Except.bind, onNotify_suspended suspended, wakeReader, setReader]

end Channel

end Librf
