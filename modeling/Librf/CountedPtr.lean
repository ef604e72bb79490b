import Librf.Base.Totals
import Librf.Base.Transition
import Mathlib.Algebra.GroupWithZero.Nat

/-!
# `counted_ptr`

Objects and states are numbered in the order of their construction. A counted pointer takes as many
bytes as `_count` has, so that the count cannot overflow.
-/

namespace Librf

inductive CountedPtrAction
  -- a state without a pointer to it
  | newState
  | default
  -- from a raw pointer
  | construct (p : Option Nat)
  | copy (cp : Nat)
  | move (cp : Nat)
  | copyAssign (this cp : Nat)
  | moveAssign (this cp : Nat)
  | swap (this cp : Nat)
  | reset (this : Nat)
  | destroy (this : Nat)
  deriving DecidableEq, Repr

structure CountedPtrs where
  -- `_p` of the objects that are alive
  objects : Nat → Option (Option Nat) := fun _ => none
  built : Nat := 0
  counts : Nat → Int := fun _ => 0
  made : Nat := 0
  -- history: the calls of `destroy_deallocate`, and by how many objects the state was held
  destroyed : List (Nat × Nat) := []

namespace CountedPtrs

def holds (n : Nat) (object : Option (Option Nat)) : Nat := if object = some (some n) then 1 else 0

def holders (s : CountedPtrs) (n : Nat) : Nat := Totals.total (holds n) s.objects s.built

def gone (s : CountedPtrs) : List Nat := s.destroyed.map Prod.fst

def pointer (s : CountedPtrs) (this : Nat) : Option Nat := (s.objects this).join

def alive (s : CountedPtrs) (this : Nat) : Bool := (s.objects this).isSome

def setPointer (s : CountedPtrs) (this : Nat) (p : Option Nat) : CountedPtrs :=
  { s with objects := Function.update s.objects this (some p) }

def build (s : CountedPtrs) (p : Option Nat) : CountedPtrs :=
  { s with objects := Function.update s.objects s.built (some p), built := s.built + 1 }

def lockState (s : CountedPtrs) (n : Nat) : CountedPtrs :=
  { s with counts := Function.update s.counts n (s.counts n + 1) }

def unlockState (s : CountedPtrs) (n : Nat) : CountedPtrs :=
  let old := s.counts n
  let s := { s with counts := Function.update s.counts n (old - 1) }
  if old = 1 then { s with destroyed := s.destroyed ++ [(n, s.holders n)] } else s

def lock (s : CountedPtrs) (this : Nat) : CountedPtrs :=
  match s.pointer this with
  | some n => s.lockState n
  | none => s

def unlock (s : CountedPtrs) (this : Nat) : CountedPtrs :=
  match s.pointer this with
  | some n => (s.setPointer this none).unlockState n
  | none => s

def construct (s : CountedPtrs) (p : Option Nat) : CountedPtrs := (s.build p).lock s.built

def copy (s : CountedPtrs) (cp : Nat) : CountedPtrs := (s.build (s.pointer cp)).lock s.built

def move (s : CountedPtrs) (cp : Nat) : CountedPtrs := (s.setPointer cp none).build (s.pointer cp)

def swap (s : CountedPtrs) (this cp : Nat) : CountedPtrs :=
  (s.setPointer this (s.pointer cp)).setPointer cp (s.pointer this)

def destroy (s : CountedPtrs) (this : Nat) : CountedPtrs :=
  { s.unlock this with objects := Function.update (s.unlock this).objects this none }

/-- By a temporary object, which takes the old pointer along. -/
def copyAssign (s : CountedPtrs) (this cp : Nat) : CountedPtrs :=
  if cp = this then s else ((s.copy cp).swap this s.built).destroy s.built

def moveAssign (s : CountedPtrs) (this cp : Nat) : CountedPtrs :=
  if cp = this then s else (s.swap this cp).unlock cp

def step (s : CountedPtrs) : CountedPtrAction → Option CountedPtrs
  | .newState => some { s with made := s.made + 1 }
  | .default => some (s.build none)
  | .construct p =>
      if ∀ n ∈ p, n < s.made ∧ n ∉ s.gone then some (s.construct p) else none
  | .copy cp => if s.alive cp then some (s.copy cp) else none
  | .move cp => if s.alive cp then some (s.move cp) else none
  | .copyAssign this cp => if s.alive this ∧ s.alive cp then some (s.copyAssign this cp) else none
  | .moveAssign this cp => if s.alive this ∧ s.alive cp then some (s.moveAssign this cp) else none
  | .swap this cp => if s.alive this ∧ s.alive cp then some (s.swap this cp) else none
  | .reset this => if s.alive this then some (s.unlock this) else none
  | .destroy this => if s.alive this then some (s.destroy this) else none

def system : Transition.System CountedPtrs CountedPtrAction where
  init := {}
  step := step

/-! ## Holders -/

variable {s t u : CountedPtrs} {this cp n : Nat} {p : Option Nat}

def points (p : Option Nat) (n : Nat) : Nat := if p = some n then 1 else 0

theorem holds_some (n : Nat) (p : Option Nat) : holds n (some p) = points p n := by
  simp [holds, points]

@[simp] theorem points_none (n : Nat) : points none n = 0 := by simp [points]

@[simp] theorem points_self (n : Nat) : points (some n) n = 1 := by simp [points]

theorem points_of_ne {m : Nat} (other : m ≠ n) : points (some m) n = 0 := by simp [points, other]

theorem pointer_eq (alive : s.alive this = true) : s.objects this = some (s.pointer this) := by
  obtain ⟨p, object⟩ := Option.isSome_iff_exists.1 alive
  simp [pointer, object]

theorem holders_build (s : CountedPtrs) (p : Option Nat) (n : Nat) :
    (s.build p).holders n = s.holders n + points p n := by
  rw [← holds_some]
  exact Totals.total_push (holds n) s.objects (some p)

theorem holders_setPointer (bound : this < s.built) (alive : s.alive this = true) (p : Option Nat)
    (n : Nat) :
    (s.setPointer this p).holders n + points (s.pointer this) n = s.holders n + points p n := by
  rw [← holds_some, ← holds_some, ← pointer_eq alive]
  exact Totals.total_update (holds n) s.objects (some p) bound

theorem points_le_holders (bound : this < s.built) (alive : s.alive this = true) (n : Nat) :
    points (s.pointer this) n ≤ s.holders n := by
  rw [← holds_some, ← pointer_eq alive]
  exact Totals.weight_le_total (holds n) bound

structure Counted (s : CountedPtrs) : Prop where
  bounded : ∀ a, s.alive a = true → a < s.built
  count : ∀ n, s.counts n = s.holders n
  living : ∀ n, 0 < s.holders n → n < s.made ∧ n ∉ s.gone
  once : s.gone.Nodup
  unheld : ∀ d ∈ s.destroyed, d.2 = 0
  old : ∀ n ∈ s.gone, n < s.made

/-- Exactly the states that lose their last holder have been destroyed in between. -/
structure Releases (s t : CountedPtrs) : Prop where
  kept : ∀ n ∈ s.gone, n ∈ t.gone
  last : ∀ n, n ∈ t.gone ∧ n ∉ s.gone ↔ 0 < s.holders n ∧ t.holders n = 0

theorem Counted.initial : Counted {} := by
  have none_ (n : Nat) : ({} : CountedPtrs).holders n = 0 := rfl
  refine ⟨?_, ?_, ?_, .nil, ?_, ?_⟩ <;> simp [alive, gone, none_]

theorem Releases.of_same (gone : t.gone = s.gone)
    (held : ∀ n, 0 < s.holders n → 0 < t.holders n) : Releases s t where
  kept n member := gone ▸ member
  last n := by
    rw [gone]
    constructor
    · exact fun both => absurd both.1 both.2
    · exact fun both => absurd (held n both.1) (Nat.not_lt.2 (Nat.le_of_eq both.2))

theorem Releases.after (releases : Releases t u) (gone : t.gone = s.gone)
    (held : ∀ n, 0 < s.holders n ↔ 0 < t.holders n) : Releases s u where
  kept n member := releases.kept n (gone ▸ member)
  last n := by
    rw [← gone, releases.last n, held]

/-! ## The operations -/

theorem Counted.same (counted : s.Counted) (bounded : ∀ a, t.alive a = true → a < t.built)
    (holders : ∀ n, t.holders n = s.holders n) (counts : t.counts = s.counts)
    (made : s.made ≤ t.made) (destroyed : t.destroyed = s.destroyed) : t.Counted := by
  have gone : t.gone = s.gone := congrArg (List.map Prod.fst) destroyed
  constructor
  · exact bounded
  · intro n
    rw [counts, holders]
    exact counted.count n
  · intro n held
    rw [holders] at held
    obtain ⟨old, present⟩ := counted.living n held
    exact ⟨Nat.lt_of_lt_of_le old made, gone ▸ present⟩
  · exact gone ▸ counted.once
  · exact destroyed ▸ counted.unheld
  · exact fun n member => Nat.lt_of_lt_of_le (counted.old n (gone ▸ member)) made

theorem construct_eq (s : CountedPtrs) (p : Option Nat) : s.construct p =
    { s.build p with counts := fun n => s.counts n + points p n } := by
  have built : (s.build p).pointer s.built = p := by simp [pointer, build]
  rw [construct, lock, built]
  cases p with
  | none => simp [build]
  | some m =>
      simp only [lockState, build]
      congr 1
      funext n
      by_cases same : n = m
      · subst same
        simp
      · simp [same, points_of_ne (Ne.symm same)]

theorem Counted.construct (counted : s.Counted) (live : ∀ n ∈ p, n < s.made ∧ n ∉ s.gone) :
    (s.construct p).Counted := by
  have holders (n : Nat) : (s.construct p).holders n = s.holders n + points p n := by
    rw [construct_eq]
    exact holders_build s p n
  have counts (n : Nat) : (s.construct p).counts n = s.counts n + points p n := by
    rw [construct_eq]
  have made : (s.construct p).made = s.made := by rw [construct_eq]; rfl
  have destroyed : (s.construct p).destroyed = s.destroyed := by rw [construct_eq]; rfl
  have gone : (s.construct p).gone = s.gone := congrArg (List.map Prod.fst) destroyed
  constructor
  · intro a alive
    rw [construct_eq] at alive ⊢
    by_cases new : a = s.built
    · exact new ▸ Nat.lt_succ_self _
    · refine Nat.lt_succ_of_lt (counted.bounded a ?_)
      simpa [CountedPtrs.alive, build, new] using alive
  · intro n
    rw [counts, holders, counted.count, Int.natCast_add]
  · intro n held
    rw [made, gone]
    by_cases new : p = some n
    · exact live n new
    · rw [holders, points, if_neg new] at held
      exact counted.living n held
  · exact gone ▸ counted.once
  · exact destroyed ▸ counted.unheld
  · intro n member
    rw [made]
    exact counted.old n (gone ▸ member)

theorem Releases.construct (s : CountedPtrs) (p : Option Nat) : Releases s (s.construct p) := by
  rw [construct_eq]
  refine .of_same rfl fun n held => ?_
  exact Nat.lt_of_lt_of_le held ((Nat.le_add_right _ _).trans_eq (holders_build s p n).symm)

theorem alive_setPointer (s : CountedPtrs) (this : Nat) (p : Option Nat) (a : Nat) :
    (s.setPointer this p).alive a = (a == this || s.alive a) := by
  by_cases same : a = this
  · subst same
    simp [alive, setPointer]
  · simp [alive, setPointer, same]

theorem pointer_setPointer (s : CountedPtrs) (this : Nat) (p : Option Nat) (a : Nat) :
    (s.setPointer this p).pointer a = if a = this then p else s.pointer a := by
  by_cases same : a = this
  · subst same
    simp [pointer, setPointer]
  · simp [pointer, setPointer, same]

theorem Counted.bounded_setPointer (counted : s.Counted) (alive : s.alive this = true)
    (p : Option Nat) : ∀ a, (s.setPointer this p).alive a = true → a < s.built := by
  intro a living
  rw [alive_setPointer, Bool.or_eq_true, beq_iff_eq] at living
  rcases living with rfl | living
  · exact counted.bounded a alive
  · exact counted.bounded a living

theorem holders_move (counted : s.Counted) (alive : s.alive cp = true) (n : Nat) :
    (s.move cp).holders n = s.holders n := by
  have emptied := holders_setPointer (counted.bounded cp alive) alive none n
  rw [points_none, Nat.add_zero] at emptied
  rw [move, holders_build, emptied]

theorem Counted.move (counted : s.Counted) (alive : s.alive cp = true) : (s.move cp).Counted := by
  refine counted.same ?_ (holders_move counted alive) rfl (Nat.le_refl _) rfl
  intro a living
  by_cases new : a = s.built
  · exact new ▸ Nat.lt_succ_self _
  · refine Nat.lt_succ_of_lt (counted.bounded_setPointer alive none a ?_)
    have other : a ≠ (s.setPointer cp none).built := new
    simpa [CountedPtrs.alive, CountedPtrs.move, build, other] using living

theorem holders_swap (counted : s.Counted) (first : s.alive this = true) (second : s.alive cp = true)
    (n : Nat) : (s.swap this cp).holders n = s.holders n := by
  have here := holders_setPointer (counted.bounded this first) first (s.pointer cp) n
  have alive : (s.setPointer this (s.pointer cp)).alive cp = true := by
    rw [alive_setPointer, second, Bool.or_true]
  have there := holders_setPointer (s := s.setPointer this (s.pointer cp))
    (counted.bounded cp second) alive (s.pointer this) n
  have pointer_cp : (s.setPointer this (s.pointer cp)).pointer cp = s.pointer cp := by
    rw [pointer_setPointer, ite_self]
  rw [pointer_cp] at there
  rw [CountedPtrs.swap]
  omega

theorem Counted.swap (counted : s.Counted) (first : s.alive this = true)
    (second : s.alive cp = true) : (s.swap this cp).Counted := by
  refine counted.same ?_ (holders_swap counted first second) rfl (Nat.le_refl _) rfl
  intro a living
  rw [CountedPtrs.swap, alive_setPointer, Bool.or_eq_true, beq_iff_eq] at living
  rcases living with rfl | living
  · exact counted.bounded a second
  · exact counted.bounded_setPointer first _ a living

theorem unlock_eq (held : s.pointer this = some n) : s.unlock this =
    { s.setPointer this none with
      counts := Function.update s.counts n (s.counts n - 1)
      destroyed := s.destroyed ++
        if s.counts n = 1 then [(n, (s.setPointer this none).holders n)] else [] } := by
  simp only [unlock, held, unlockState]
  by_cases last : s.counts n = 1
  · simp only [setPointer, last, if_true]
    rfl
  · simp only [setPointer, last, if_false, List.append_nil]

theorem holders_unlock (counted : s.Counted) (alive : s.alive this = true) (m : Nat) :
    (s.unlock this).holders m + points (s.pointer this) m = s.holders m := by
  cases held : s.pointer this with
  | none => simp [unlock, held]
  | some n =>
      have emptied := holders_setPointer (counted.bounded this alive) alive none m
      rw [points_none, Nat.add_zero, held] at emptied
      rw [unlock_eq held]
      exact emptied

theorem gone_unlock (held : s.pointer this = some n) :
    (s.unlock this).gone = s.gone ++ if s.counts n = 1 then [n] else [] := by
  rw [unlock_eq held, gone, List.map_append]
  congr 1
  split <;> rfl

theorem last_iff (counted : s.Counted) (alive : s.alive this = true)
    (held : s.pointer this = some n) : s.counts n = 1 ↔ (s.unlock this).holders n = 0 := by
  have rest := holders_unlock counted alive n
  rw [held, points_self] at rest
  rw [counted.count n, ← rest]
  omega

theorem mem_gone_unlock (counted : s.Counted) (alive : s.alive this = true)
    (held : s.pointer this = some n) {m : Nat} :
    m ∈ (s.unlock this).gone ↔ m ∈ s.gone ∨ m = n ∧ (s.unlock this).holders n = 0 := by
  rw [gone_unlock held, List.mem_append, ← last_iff counted alive held]
  split <;> simp [*]

theorem Counted.pointed (counted : s.Counted) (alive : s.alive this = true)
    (held : s.pointer this = some n) : 0 < s.holders n := by
  have rest := holders_unlock counted alive n
  rw [held, points_self] at rest
  omega

theorem Counted.unlock (counted : s.Counted) (alive : s.alive this = true) :
    (s.unlock this).Counted := by
  cases held : s.pointer this with
  | none =>
      have same : s.unlock this = s := by simp [CountedPtrs.unlock, held]
      rwa [same]
  | some n =>
      have rest := holders_unlock counted alive
      have last := last_iff counted alive held
      obtain ⟨old, present⟩ := counted.living n (counted.pointed alive held)
      have made : (s.unlock this).made = s.made := by rw [unlock_eq held]; rfl
      constructor
      · intro a living
        rw [unlock_eq held] at living ⊢
        exact counted.bounded_setPointer alive none a living
      · intro m
        have left := rest m
        rw [held] at left
        have counts : (s.unlock this).counts m = s.counts m - points (some n) m := by
          rw [unlock_eq held]
          by_cases same : m = n
          · subst same
            simp
          · simp [same, points_of_ne (Ne.symm same)]
        rw [counts, counted.count]
        omega
      · intro m living
        have left := rest m
        obtain ⟨bound, out⟩ := counted.living m (by omega)
        refine ⟨made ▸ bound, ?_⟩
        rw [mem_gone_unlock counted alive held]
        rintro (before | ⟨rfl, zero⟩)
        · exact out before
        · omega
      · rw [gone_unlock held]
        split
        · have once := List.nodup_cons.2 ⟨present, counted.once⟩
          exact (List.perm_append_singleton n s.gone).nodup_iff.2 once
        · rw [List.append_nil]
          exact counted.once
      · intro d member
        rw [unlock_eq held] at member
        rcases List.mem_append.1 member with before | new
        · exact counted.unheld d before
        · split at new
          · rename_i one
            rw [List.mem_singleton.1 new]
            have zero := last.1 one
            rw [unlock_eq held] at zero
            exact zero
          · simp at new
      · intro m member
        rw [made]
        rcases (mem_gone_unlock counted alive held).1 member with before | ⟨rfl, -⟩
        · exact counted.old m before
        · exact old

theorem Releases.unlock (counted : s.Counted) (alive : s.alive this = true) :
    Releases s (s.unlock this) := by
  cases held : s.pointer this with
  | none =>
      have same : s.unlock this = s := by simp [CountedPtrs.unlock, held]
      rw [same]
      exact .of_same rfl fun _ => id
  | some n =>
      have positive := counted.pointed alive held
      have present := (counted.living n positive).2
      constructor
      · exact fun m member => (mem_gone_unlock counted alive held).2 (.inl member)
      · intro m
        have left := holders_unlock counted alive m
        rw [mem_gone_unlock counted alive held]
        by_cases same : m = n
        · subst same
          constructor
          · rintro ⟨before | ⟨-, zero⟩, out⟩
            · exact absurd before out
            · exact ⟨positive, zero⟩
          · rintro ⟨-, zero⟩
            exact ⟨.inr ⟨rfl, zero⟩, present⟩
        · rw [held, points_of_ne (Ne.symm same)] at left
          constructor
          · rintro ⟨before | ⟨mine, -⟩, out⟩
            · exact absurd before out
            · exact absurd mine same
          · rintro ⟨positive, zero⟩
            omega

theorem pointer_unlock (s : CountedPtrs) (this : Nat) : (s.unlock this).pointer this = none := by
  cases held : s.pointer this with
  | none => simp [unlock, held]
  | some n =>
      rw [unlock_eq held]
      exact (pointer_setPointer s this none this).trans (if_pos rfl)

theorem holders_destroy (s : CountedPtrs) (this n : Nat) :
    (s.destroy this).holders n = (s.unlock this).holders n := by
  refine Totals.total_update_of_same none ?_
  cases object : (s.unlock this).objects this with
  | none => rfl
  | some p =>
      have pointer := pointer_unlock s this
      rw [CountedPtrs.pointer, object] at pointer
      cases pointer
      simp [holds]

theorem Counted.destroy (counted : s.Counted) (alive : s.alive this = true) :
    (s.destroy this).Counted := by
  have unlocked := counted.unlock alive
  refine unlocked.same ?_ (holders_destroy s this) rfl (Nat.le_refl _) rfl
  intro a living
  by_cases same : a = this
  · subst same
    simp [CountedPtrs.alive, CountedPtrs.destroy] at living
  · refine unlocked.bounded a ?_
    simpa [CountedPtrs.alive, CountedPtrs.destroy, same] using living

theorem Releases.destroy (counted : s.Counted) (alive : s.alive this = true) :
    Releases s (s.destroy this) where
  kept := (Releases.unlock counted alive).kept
  last n := by
    rw [holders_destroy]
    exact (Releases.unlock counted alive).last n

theorem Counted.live (counted : s.Counted) (alive : s.alive this = true) :
    ∀ n ∈ s.pointer this, n < s.made ∧ n ∉ s.gone := by
  intro n held
  have bound := points_le_holders (counted.bounded this alive) alive n
  rw [held, points_self] at bound
  exact counted.living n bound

theorem Counted.copy (counted : s.Counted) (alive : s.alive cp = true) : (s.copy cp).Counted :=
  counted.construct (counted.live alive)

theorem copyAssign_kept (counted : s.Counted) (first : s.alive this = true)
    (second : s.alive cp = true) :
    (s.copyAssign this cp).Counted ∧ Releases s (s.copyAssign this cp) := by
  unfold copyAssign
  split
  · exact ⟨counted, .of_same rfl fun _ => id⟩
  · have copied := counted.copy second
    have alive (a : Nat) : (s.copy cp).alive a = (a == s.built || s.alive a) := by
      rw [copy, ← construct, construct_eq]
      by_cases new : a = s.built
      · subst new
        simp [CountedPtrs.alive, build]
      · simp [CountedPtrs.alive, build, new]
    have this_alive : (s.copy cp).alive this = true := by rw [alive, first, Bool.or_true]
    have temporary : (s.copy cp).alive s.built = true := by rw [alive, beq_self_eq_true, Bool.true_or]
    have swapped := copied.swap this_alive temporary
    have last : ((s.copy cp).swap this s.built).alive s.built = true := by
      rw [CountedPtrs.swap, alive_setPointer, beq_self_eq_true, Bool.true_or]
    refine ⟨swapped.destroy last, (Releases.destroy swapped last).after ?_ fun n => ?_⟩
    · have destroyed : ((s.copy cp).swap this s.built).destroyed = s.destroyed := by
        rw [copy, ← construct, construct_eq]
        rfl
      exact congrArg (List.map Prod.fst) destroyed
    · have holders : (s.copy cp).holders n = s.holders n + points (s.pointer cp) n := by
        rw [copy, ← construct, construct_eq]
        exact holders_build s _ n
      have bound := points_le_holders (counted.bounded cp second) second n
      rw [holders_swap copied this_alive temporary, holders]
      omega

theorem moveAssign_kept (counted : s.Counted) (first : s.alive this = true)
    (second : s.alive cp = true) :
    (s.moveAssign this cp).Counted ∧ Releases s (s.moveAssign this cp) := by
  unfold moveAssign
  split
  · exact ⟨counted, .of_same rfl fun _ => id⟩
  · have swapped := counted.swap first second
    have last : (s.swap this cp).alive cp = true := by
      rw [CountedPtrs.swap, alive_setPointer, beq_self_eq_true, Bool.true_or]
    refine ⟨swapped.unlock last, (Releases.unlock swapped last).after rfl fun n => ?_⟩
    rw [holders_swap counted first second]

/-! ## Every sequence of operations -/

theorem step_kept {action : CountedPtrAction} (counted : s.Counted) (h : s.step action = some t) :
    t.Counted ∧ Releases s t := by
  cases action with
  | newState =>
      cases h
      exact ⟨counted.same counted.bounded (fun _ => rfl) rfl (Nat.le_succ _) rfl,
        .of_same rfl fun _ => id⟩
  | default =>
      cases h
      have empty : s.construct none = s.build none := by
        rw [construct_eq]
        simp [build]
      rw [← empty]
      exact ⟨counted.construct (by simp), .construct s none⟩
  | construct p =>
      obtain ⟨live, h⟩ := Option.ite_none_right_eq_some.1 h
      cases h
      exact ⟨counted.construct live, .construct s p⟩
  | copy cp =>
      obtain ⟨alive, h⟩ := Option.ite_none_right_eq_some.1 h
      cases h
      exact ⟨counted.copy alive, .construct s _⟩
  | move cp =>
      obtain ⟨alive, h⟩ := Option.ite_none_right_eq_some.1 h
      cases h
      exact ⟨counted.move alive, .of_same rfl fun n held => (holders_move counted alive n).symm ▸ held⟩
  | copyAssign this cp =>
      obtain ⟨⟨first, second⟩, h⟩ := Option.ite_none_right_eq_some.1 h
      cases h
      exact copyAssign_kept counted first second
  | moveAssign this cp =>
      obtain ⟨⟨first, second⟩, h⟩ := Option.ite_none_right_eq_some.1 h
      cases h
      exact moveAssign_kept counted first second
  | swap this cp =>
      obtain ⟨⟨first, second⟩, h⟩ := Option.ite_none_right_eq_some.1 h
      cases h
      exact ⟨counted.swap first second,
        .of_same rfl fun n held => (holders_swap counted first second n).symm ▸ held⟩
  | reset this =>
      obtain ⟨alive, h⟩ := Option.ite_none_right_eq_some.1 h
      cases h
      exact ⟨counted.unlock alive, .unlock counted alive⟩
  | destroy this =>
      obtain ⟨alive, h⟩ := Option.ite_none_right_eq_some.1 h
      cases h
      exact ⟨counted.destroy alive, .destroy counted alive⟩

theorem counted_of_reachable (reachable : system.Reachable s) : s.Counted := by
  have inductive_ : system.Inductive (fun _ _ => True) Counted :=
    ⟨.initial, fun _ _ _ _ counted _ h => (step_kept counted h).1⟩
  exact inductive_.holds reachable

structure Exact (s : CountedPtrs) : Prop where
  count : ∀ n, s.counts n = s.holders n
  -- `destroy_deallocate` runs once, for a state that nothing holds then or later
  once : s.gone.Nodup
  unheld : ∀ d ∈ s.destroyed, d.2 = 0
  released : ∀ n ∈ s.gone, s.holders n = 0
  releases : ∀ action t, s.step action = some t → Releases s t

theorem exact_of_reachable (reachable : system.Reachable s) : s.Exact := by
  have counted := counted_of_reachable reachable
  constructor
  · exact counted.count
  · exact counted.once
  · exact counted.unheld
  · intro n member
    refine Nat.eq_zero_of_not_pos fun held => ?_
    exact (counted.living n held).2 member
  · exact fun _ _ h => (step_kept counted h).2

/-- Two pointers to one state are assigned to each other and to themselves, then reset. -/
theorem exact_of_reachable_shared : ∃ s, system.Reachable s ∧ s.destroyed = [(0, 0)] ∧ s.Exact := by
  obtain ⟨s, reachable, last⟩ := system.reachable_of_replay
    [.newState, .construct (some 0), .copy 0, .copyAssign 0 1, .copyAssign 1 1, .moveAssign 0 1,
      .moveAssign 0 0, .swap 0 1, .reset 0, .destroy 1]
    (fun s => s.destroyed == [(0, 0)]) (by decide)
  exact ⟨s, reachable, by simpa using last, exact_of_reachable reachable⟩

end CountedPtrs

end Librf
