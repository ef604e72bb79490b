import Mathlib.Data.List.Basic

/-!
# `generator_t`

A body yields operands and returns one; what it does in between is left out. `_CurrentValue` points
to an operand, and reading it after the end of the operand's life is undefined behaviour, as is
resuming a body that is done: both are `none`.
-/

namespace Librf

/-- How long the operand of a `co_yield` or a `co_return` lives. -/
inductive OperandKind
  -- to the end of the full expression, which for a `co_yield` is when the body goes on
  | temporary
  -- a variable of the body, to the end of the body
  | variable
  -- a parameter, or an object from outside of the body
  | lasting
  deriving DecidableEq, Repr

structure Operand (α : Type*) where
  value : α
  kind : OperandKind
  deriving DecidableEq, Repr

structure GeneratorObject (α : Type*) extends Operand α where
  alive : Bool := true
  deriving DecidableEq, Repr

structure GeneratorBody (α : Type*) where
  yields : List (Operand α)
  result : Operand α
  deriving DecidableEq, Repr

structure GeneratorFrame (α : Type*) where
  -- what the body has ahead
  body : GeneratorBody α
  atFinalSuspend : Bool := false
  -- the index of an object
  currentValue : Option Nat := none
  objects : List (GeneratorObject α) := []
  -- history
  resumes : Nat := 0
  deriving DecidableEq, Repr

/-- `coro` is null or the handle of the generator's coroutine. -/
structure GeneratorIterator where
  coro : Option Nat
  deriving DecidableEq, Repr

inductive GeneratorLoop (α : Type*)
  | unfinished
  | undefined
  | finished (seen : List α) (frame : GeneratorFrame α)
  deriving DecidableEq, Repr

namespace GeneratorObject

variable {α : Type*}

def endExpression (o : GeneratorObject α) : GeneratorObject α :=
  { o with alive := o.alive && o.kind != .temporary }

def endBody (o : GeneratorObject α) : GeneratorObject α :=
  { o with alive := o.alive && o.kind == .lasting }

end GeneratorObject

namespace GeneratorFrame

variable {α : Type*}

def setCurrentValue (operand : Operand α) (frame : GeneratorFrame α) : GeneratorFrame α :=
  { frame with
      currentValue := some frame.objects.length
      objects := frame.objects ++ [{ operand with }] }

def yieldValue (operand : Operand α) (frame : GeneratorFrame α) : GeneratorFrame α :=
  frame.setCurrentValue operand

def returnValue (operand : Operand α) (frame : GeneratorFrame α) : GeneratorFrame α :=
  frame.setCurrentValue operand

def isDone (frame : GeneratorFrame α) : Bool := frame.atFinalSuspend

/-- `coroutine_handle::resume`: the body runs to its next `co_yield` or to its end. -/
def resume (frame : GeneratorFrame α) : Option (GeneratorFrame α) :=
  if frame.isDone then none
  else
    let frame := { frame with
      objects := frame.objects.map GeneratorObject.endExpression
      resumes := frame.resumes + 1 }
    match frame.body.yields with
    | operand :: rest => some { frame.yieldValue operand with body.yields := rest }
    | [] =>
        let frame := frame.returnValue frame.body.result
        some { frame with
          objects := (frame.objects.map GeneratorObject.endExpression).map GeneratorObject.endBody
          atFinalSuspend := true }

end GeneratorFrame

namespace GeneratorIterator

variable {α : Type*}

def increment (iter : GeneratorIterator) (frame : GeneratorFrame α) :
    Option (GeneratorIterator × GeneratorFrame α) :=
  if iter.coro.isNone then none
  else if frame.isDone then some (⟨none⟩, frame)
  else frame.resume.map fun frame => (iter, frame)

def dereference (iter : GeneratorIterator) (frame : GeneratorFrame α) : Option α :=
  if iter.coro.isNone then none
  else (frame.currentValue.bind fun i => frame.objects[i]?).bind fun o =>
    if o.alive then some o.value else none

end GeneratorIterator

namespace GeneratorBody

variable {α : Type*}

/-- The coroutine is suspended before its body. -/
def call (body : GeneratorBody α) : GeneratorFrame α := { body }

/-- `generator_t::begin`, where `coro` is `_Coro`. -/
def begin (coro : Option Nat) (frame : GeneratorFrame α) :
    Option (GeneratorIterator × GeneratorFrame α) :=
  if coro.isNone then some (⟨coro⟩, frame)
  else frame.resume.map fun frame => if frame.isDone then (⟨none⟩, frame) else (⟨coro⟩, frame)

def end_ : GeneratorIterator := ⟨none⟩

/-- What comes after `begin()`, with at most `fuel` comparisons. -/
def loop : Nat → GeneratorIterator → GeneratorFrame α → List α → GeneratorLoop α
  | 0, _, _, _ => .unfinished
  | fuel + 1, iter, frame, seen =>
      if iter = end_ then .finished seen frame
      else match iter.dereference frame with
        | none => .undefined
        | some v => match iter.increment frame with
            | none => .undefined
            | some (iter, frame) => loop fuel iter frame (seen ++ [v])

/-- `for (auto& v : generator)` over a new generator. -/
def iterate (body : GeneratorBody α) (fuel : Nat) : GeneratorLoop α :=
  match begin (some 0) body.call with
  | none => .undefined
  | some (iter, frame) => loop fuel iter frame []

/-- The loop sees the yielded values and the returned one, resumes the body once for each, and
ends. -/
def Visited (body : GeneratorBody α) : Prop :=
  ∃ enough, ∀ fuel ≥ enough, ∃ frame,
    body.iterate fuel = .finished (body.yields.map (·.value) ++ [body.result.value]) frame ∧
      frame.resumes = body.yields.length + 1

/-! ## The suspended body -/

structure Yielding (frame : GeneratorFrame α) (v : α) : Prop where
  suspended : frame.isDone = false
  current : ∃ i o, frame.currentValue = some i ∧ frame.objects[i]? = some o ∧ o.alive = true ∧
    o.value = v

variable {frame : GeneratorFrame α} {v : α} {rest : List (Operand α)} {result : Operand α}

theorem Yielding.dereference (yielding : Yielding frame v) (coro : Nat) :
    GeneratorIterator.dereference ⟨some coro⟩ frame = some v := by
  obtain ⟨i, o, current, located, alive, rfl⟩ := yielding.current
  simp [GeneratorIterator.dereference, current, located, alive]

theorem resume_yield (suspended : frame.isDone = false) {operand : Operand α}
    (ahead : frame.body = ⟨operand :: rest, result⟩) :
    ∃ after, frame.resume = some after ∧ Yielding after operand.value ∧
      after.body = ⟨rest, result⟩ ∧ after.resumes = frame.resumes + 1 := by
  obtain ⟨body, atFinalSuspend, currentValue, objects, resumes⟩ := frame
  cases ahead
  cases suspended
  refine ⟨_, rfl, ⟨rfl, ?_⟩, rfl, rfl⟩
  refine ⟨(objects.map GeneratorObject.endExpression).length, { operand with }, rfl, ?_, rfl, rfl⟩
  exact List.getElem?_concat_length

theorem resume_return (suspended : frame.isDone = false) (ahead : frame.body = ⟨[], result⟩) :
    ∃ after, frame.resume = some after ∧ after.isDone = true ∧ after.resumes = frame.resumes + 1 ∧
      ∀ coro, GeneratorIterator.dereference ⟨some coro⟩ after =
        if result.kind = .lasting then some result.value else none := by
  obtain ⟨body, atFinalSuspend, currentValue, objects, resumes⟩ := frame
  cases ahead
  cases suspended
  refine ⟨_, rfl, rfl, rfl, fun coro => ?_⟩
  cases kind : result.kind <;>
    simp [GeneratorIterator.dereference, GeneratorFrame.returnValue,
      GeneratorFrame.setCurrentValue, GeneratorObject.endExpression, GeneratorObject.endBody, kind]

theorem increment_suspended {after : GeneratorFrame α} (suspended : frame.isDone = false)
    (resumed : frame.resume = some after) (coro : Nat) :
    GeneratorIterator.increment ⟨some coro⟩ frame = some (⟨some coro⟩, after) := by
  simp [GeneratorIterator.increment, suspended, resumed]

theorem increment_done {coro : Nat} (done_ : frame.isDone = true) :
    GeneratorIterator.increment ⟨some coro⟩ frame = some (end_, frame) := by
  simp [GeneratorIterator.increment, done_, end_]

/-! ## The loop -/

variable {coro fuel : Nat} {seen : List α}

theorem loop_end : loop (fuel + 1) end_ frame seen = .finished seen frame := by
  rw [loop, if_pos rfl]

theorem loop_turn {w : α} {iter : GeneratorIterator} {after : GeneratorFrame α}
    (read : GeneratorIterator.dereference ⟨some coro⟩ frame = some w)
    (moved : GeneratorIterator.increment ⟨some coro⟩ frame = some (iter, after)) :
    loop (fuel + 1) ⟨some coro⟩ frame seen = loop fuel iter after (seen ++ [w]) := by
  rw [loop, if_neg (by simp [end_]), read]
  dsimp only
  rw [moved]

theorem loop_dangling (read : GeneratorIterator.dereference ⟨some coro⟩ frame = none) :
    loop (fuel + 1) ⟨some coro⟩ frame seen = .undefined := by
  rw [loop, if_neg (by simp [end_]), read]

theorem loop_finishes (lasting : result.kind = .lasting) (yielding : Yielding frame v)
    (ahead : frame.body = ⟨rest, result⟩) (coro fuel : Nat) (seen : List α) :
    ∃ after, loop (rest.length + 3 + fuel) ⟨some coro⟩ frame seen =
        .finished (seen ++ v :: (rest.map (·.value) ++ [result.value])) after ∧
      after.resumes = frame.resumes + rest.length + 1 := by
  induction rest generalizing frame v seen with
  | nil =>
      obtain ⟨after, resumed, over_, count, read⟩ := resume_return yielding.suspended ahead
      refine ⟨after, ?_, count⟩
      have moved := increment_suspended yielding.suspended resumed coro
      rw [show ([] : List (Operand α)).length + 3 + fuel = fuel + 1 + 1 + 1 by simp; omega,
        loop_turn (yielding.dereference coro) moved,
        loop_turn ((read coro).trans (if_pos lasting)) (increment_done over_), loop_end]
      simp
  | cons operand rest ih =>
      obtain ⟨after, resumed, next, left, count⟩ := resume_yield yielding.suspended ahead
      have moved := increment_suspended yielding.suspended resumed coro
      obtain ⟨final, finished, total⟩ := ih next left (seen ++ [v])
      refine ⟨final, ?_, ?_⟩
      · rw [show (operand :: rest).length + 3 + fuel = rest.length + 3 + fuel + 1 by simp; omega,
          loop_turn (yielding.dereference coro) moved, finished]
        simp
      · rw [total, count, List.length_cons]
        omega

theorem loop_undefined (short : result.kind ≠ .lasting) (yielding : Yielding frame v)
    (ahead : frame.body = ⟨rest, result⟩) :
    loop (rest.length + 3 + fuel) ⟨some coro⟩ frame seen = .undefined := by
  induction rest generalizing frame v seen with
  | nil =>
      obtain ⟨after, resumed, -, -, read⟩ := resume_return yielding.suspended ahead
      have moved := increment_suspended yielding.suspended resumed coro
      rw [show ([] : List (Operand α)).length + 3 + fuel = fuel + 1 + 1 + 1 by simp; omega,
        loop_turn (yielding.dereference coro) moved,
        loop_dangling ((read coro).trans (if_neg short))]
  | cons operand rest ih =>
      obtain ⟨after, resumed, next, left, -⟩ := resume_yield yielding.suspended ahead
      have moved := increment_suspended yielding.suspended resumed coro
      rw [show (operand :: rest).length + 3 + fuel = rest.length + 3 + fuel + 1 by simp; omega,
        loop_turn (yielding.dereference coro) moved, ih next left]

theorem iterate_return (result : Operand α) (fuel : Nat) :
    ∃ frame, iterate ⟨[], result⟩ (fuel + 1) = .finished [] frame := by
  obtain ⟨after, resumed, over_, -⟩ :=
    resume_return (rfl : (call ⟨[], result⟩).isDone = false) rfl
  refine ⟨after, ?_⟩
  simp only [iterate, begin, Option.isNone_some, Bool.false_eq_true, if_false, resumed,
    Option.map_some, over_, if_true]
  exact loop_end

theorem iterate_yield (operand : Operand α) (rest : List (Operand α)) (result : Operand α) :
    ∃ frame, Yielding frame operand.value ∧ frame.body = ⟨rest, result⟩ ∧ frame.resumes = 1 ∧
      ∀ fuel, iterate ⟨operand :: rest, result⟩ fuel = loop fuel ⟨some 0⟩ frame [] := by
  obtain ⟨after, resumed, yielding, left, count⟩ :=
    resume_yield (rfl : (call ⟨operand :: rest, result⟩).isDone = false) rfl
  refine ⟨after, yielding, left, count, fun fuel => ?_⟩
  simp only [iterate, begin, Option.isNone_some, Bool.false_eq_true, if_false, resumed,
    Option.map_some, yielding.suspended]

/-- A loop over a generator sees what its body yields and returns exactly if the body yields
something and returns an object that outlives it. -/
theorem visited_iff (body : GeneratorBody α) :
    body.Visited ↔ body.yields ≠ [] ∧ body.result.kind = .lasting := by
  obtain ⟨yields, result⟩ := body
  cases yields with
  | nil =>
      refine iff_of_false ?_ fun holds => holds.1 rfl
      rintro ⟨enough, sees⟩
      obtain ⟨frame, ended⟩ := iterate_return result enough
      obtain ⟨frame', saw, -⟩ := sees (enough + 1) (Nat.le_succ enough)
      rw [ended] at saw
      cases saw
  | cons operand rest =>
      obtain ⟨frame, yielding, left, count, same⟩ := iterate_yield operand rest result
      constructor
      · rintro ⟨enough, sees⟩
        refine ⟨List.cons_ne_nil _ _, by_contra fun short => ?_⟩
        obtain ⟨frame', saw, -⟩ := sees (rest.length + 3 + enough) (Nat.le_add_left _ _)
        rw [same, loop_undefined short yielding left] at saw
        cases saw
      · rintro ⟨-, lasting⟩
        refine ⟨rest.length + 3, fun fuel enough => ?_⟩
        obtain ⟨more, rfl⟩ := Nat.exists_eq_add_of_le enough
        obtain ⟨final, finished, total⟩ := loop_finishes lasting yielding left 0 more []
        refine ⟨final, ?_, ?_⟩
        · rw [same, finished]
          rfl
        · rw [total, count, List.length_cons]
          omega

theorem return_skipped : ¬ Visited (⟨[], ⟨4, .lasting⟩⟩ : GeneratorBody Nat) := by
  rintro ⟨enough, sees⟩
  obtain ⟨frame, saw, -⟩ := sees (enough + 1) (Nat.le_succ enough)
  cases saw

/-- `test_yield_int` returns a temporary. -/
example : iterate ⟨[⟨1, .temporary⟩, ⟨2, .temporary⟩, ⟨3, .temporary⟩], ⟨4, .temporary⟩⟩ 9 =
    (.undefined : GeneratorLoop Nat) := by decide

end GeneratorBody

end Librf
