import Librf.Runtime.Model

/-!
# Who holds which handle

`Handles` is what a runtime says about handles: the handle in each state, and where each coroutine
is. `Handles.Move` is what can happen to it. The runtime's steps are such moves; that a handle is
resumed only while its coroutine is suspended is a fact about the moves alone.
-/

namespace Librf

def Progress.active : Progress → Bool
  | .running | .transformed _ | .unready _ | .returned | .failed => true
  | _ => false

def Progress.inAwait : Progress → Bool
  | .transformed _ | .unready _ | .awaiting _ => true
  | _ => false

theorem Progress.ne_absent {x : Progress} (active : x.active = true) : x ≠ .absent := by
  rintro rfl
  cases active

@[ext] structure Handles where
  classes : Nat → StateClass
  coro : Nat → Option Nat
  isInitor : Nat → InitorType
  progress : Nat → Progress
  created : Nat

namespace Handles

def add (h : Handles) (cls : StateClass) (coro : Option Nat) (isInitor : InitorType)
    (progress : Progress) : Handles where
  classes := Function.update h.classes h.created cls
  coro := Function.update h.coro h.created coro
  isInitor := Function.update h.isInitor h.created isInitor
  progress := Function.update h.progress h.created progress
  created := h.created + 1

inductive Move (h : Handles) : Handles → Prop
  | stay : Move h h
  | newCoroutine (kind : Kind) : Move h (h.add (.future kind) none .initial .initial)
  | newAwaitable (kind : Kind) : Move h (h.add (.future kind) none .none .absent)
  | newGenerator : Move h (h.add .generator (some h.created) .none .initial)
  | walk (p : Nat) (progress : Progress) :
      (h.progress p).active = true → progress.active = true →
      (h.classes p = .generator → progress.inAwait = false) →
      (∀ m, progress = .transformed m ∨ progress = .unready m → ∃ kind, h.classes m = .future kind) →
      Move h { h with progress := Function.update h.progress p progress }
  -- `p` waits in a state that there is
  | suspend (p m : Nat) : h.progress p = .unready m → h.classes m ≠ .generator →
      Move h { h with
        coro := Function.update h.coro m ((h.coro m).or (some p))
        progress := Function.update h.progress p (.awaiting m) }
  -- `p` waits in a new state
  | park (p : Nat) (cls : StateClass) : (h.progress p).active = true →
      h.classes p ≠ .generator → cls ≠ .generator →
      Move h { h.add cls (some p) .none .absent with
        progress := Function.update h.progress p (.awaiting h.created) }
  | yield (p : Nat) : (h.progress p).active = true → h.classes p ≠ .generator →
      Move h { h with
        coro := Function.update h.coro p ((h.coro p).or (some p))
        progress := Function.update h.progress p .yielded }
  | yieldGenerator (p : Nat) : (h.progress p).active = true → h.classes p = .generator →
      Move h { h with progress := Function.update h.progress p .yielded }
  | final (p : Nat) : (h.progress p).active = true → h.classes p ≠ .generator →
      Move h { h with
        isInitor := Function.update h.isInitor p .final
        progress := Function.update h.progress p .final }
  | endGenerator (p : Nat) : (h.progress p).active = true → h.classes p = .generator →
      Move h { h with
        coro := Function.update h.coro p none
        progress := Function.update h.progress p .destroyed }
  | start (n : Nat) : h.isInitor n = .initial → h.classes n ≠ .generator →
      Move h { h with
        isInitor := Function.update h.isInitor n .none
        progress := Function.update h.progress n .running }
  | wake (n p : Nat) : h.coro n = some p → h.classes n ≠ .generator →
      Move h { h with
        coro := Function.update h.coro n none
        progress := Function.update h.progress p .running }
  | wakeGenerator (n p : Nat) : h.coro n = some p → h.classes n = .generator →
      Move h { h with progress := Function.update h.progress p .running }
  | destroy (n : Nat) : h.isInitor n = .final → h.classes n ≠ .generator →
      Move h { h with
        isInitor := Function.update h.isInitor n .none
        progress := Function.update h.progress n .destroyed }

structure Sound (h : Handles) : Prop where
  slot : ∀ n p, h.classes n ≠ .generator → h.coro n = some p →
    h.progress p = .awaiting n ∨ p = n ∧ h.progress n = .yielded
  generator_slot : ∀ n p, h.classes n = .generator → h.coro n = some p →
    p = n ∧ h.progress n ≠ .destroyed
  initial : ∀ n, h.classes n ≠ .generator → (h.isInitor n = .initial ↔ h.progress n = .initial)
  final : ∀ n, h.classes n ≠ .generator → (h.isInitor n = .final ↔ h.progress n = .final)
  generator : ∀ n, h.classes n = .generator →
    n < h.created ∧ (h.progress n).inAwait = false ∧ h.progress n ≠ .final ∧ h.progress n ≠ .absent
  coroutine : ∀ n, h.progress n ≠ .absent →
    h.classes n = .generator ∨ ∃ kind, h.classes n = .future kind
  target : ∀ p m, h.progress p = .transformed m ∨ h.progress p = .unready m →
    ∃ kind, h.classes m = .future kind
  fresh : ∀ n, h.created ≤ n → h.progress n = .absent ∧ h.classes n = .waiter

variable {h : Handles}

theorem Sound.of_active (sound : h.Sound) {p : Nat} (active : (h.progress p).active = true) :
    p < h.created := by
  by_contra new
  rw [(sound.fresh p (Nat.le_of_not_lt new)).1] at active
  cases active

theorem Sound.no_slot (sound : h.Sound) {n p : Nat} (active : (h.progress p).active = true)
    (plain : h.classes n ≠ .generator) : h.coro n ≠ some p := by
  intro held
  rcases sound.slot n p plain held with waits | ⟨rfl, yields⟩
  · rw [waits] at active
    cases active
  · rw [yields] at active
    cases active

theorem Sound.add (sound : h.Sound) {cls : StateClass} {coro : Option Nat} {isInitor : InitorType}
    {progress : Progress} (slot : ∀ p, coro = some p → cls = .generator ∧ p = h.created)
    (coroutine : progress ≠ .absent → cls = .generator ∨ ∃ kind, cls = .future kind)
    (start : progress = .absent ∧ cls ≠ .generator ∨ progress = .initial)
    (initial : cls ≠ .generator → (isInitor = .initial ↔ progress = .initial))
    (final : cls ≠ .generator → (isInitor = .final ↔ progress = .final)) :
    (h.add cls coro isInitor progress).Sound := by
  obtain ⟨slots, own, initials, finals, generators, coroutines, targets, fresh⟩ := sound
  constructor <;> simp only [Handles.add, Function.update_apply] <;> grind [Progress.inAwait]

theorem Sound.walk (sound : h.Sound) {p : Nat} {progress : Progress}
    (before : (h.progress p).active = true) (after : progress.active = true)
    (class_ : h.classes p = .generator → progress.inAwait = false)
    (target : ∀ m, progress = .transformed m ∨ progress = .unready m →
      ∃ kind, h.classes m = .future kind) :
    Sound { h with progress := Function.update h.progress p progress } := by
  have present := Progress.ne_absent before
  obtain ⟨slots, own, initials, finals, generators, coroutines, targets, fresh⟩ := sound
  constructor <;> simp only [Function.update_apply] <;> grind [Progress.active, Progress.inAwait]

theorem Sound.suspend (sound : h.Sound) {p m : Nat} (unready : h.progress p = .unready m)
    (plain : h.classes m ≠ .generator) :
    Sound { h with
      coro := Function.update h.coro m ((h.coro m).or (some p))
      progress := Function.update h.progress p (.awaiting m) } := by
  have active : (h.progress p).active = true := by rw [unready]; rfl
  have unheld := fun n => sound.no_slot (n := n) active
  obtain ⟨slots, own, initials, finals, generators, coroutines, targets, fresh⟩ := sound
  constructor
  case slot =>
    intro n q class_n held
    simp only [Function.update_apply] at held ⊢
    by_cases here : n = m
    · subst here
      cases taken : h.coro n with
      | none =>
          have : q = p := by simpa [taken] using held.symm
          simp [this]
      | some x =>
          have : q = x := by simpa [taken] using held.symm
          grind [Progress.active, Progress.inAwait]
    · grind [Progress.active, Progress.inAwait]
  all_goals simp only [Function.update_apply]
  all_goals grind [Progress.active, Progress.inAwait]

theorem Sound.park (sound : h.Sound) {p : Nat} {cls : StateClass}
    (active : (h.progress p).active = true) (class_ : h.classes p ≠ .generator)
    (plain : cls ≠ .generator) :
    Sound { h.add cls (some p) .none .absent with
      progress := Function.update h.progress p (.awaiting h.created) } := by
  have present := Progress.ne_absent active
  have bound := sound.of_active active
  obtain ⟨slots, own, initials, finals, generators, coroutines, targets, fresh⟩ := sound
  constructor <;> simp only [Handles.add, Function.update_apply] <;> grind [Progress.active, Progress.inAwait]

theorem Sound.yield (sound : h.Sound) {p : Nat} (active : (h.progress p).active = true)
    (plain : h.classes p ≠ .generator) :
    Sound { h with
      coro := Function.update h.coro p ((h.coro p).or (some p))
      progress := Function.update h.progress p .yielded } := by
  have present := Progress.ne_absent active
  have unheld := fun n => sound.no_slot (n := n) active
  obtain ⟨slots, own, initials, finals, generators, coroutines, targets, fresh⟩ := sound
  constructor
  case slot =>
    intro n q class_n held
    simp only [Function.update_apply] at held ⊢
    by_cases here : n = p
    · subst here
      cases taken : h.coro n with
      | none =>
          have : q = n := by simpa [taken] using held.symm
          simp [this]
      | some x =>
          have : q = x := by simpa [taken] using held.symm
          grind [Progress.active, Progress.inAwait]
    · grind [Progress.active, Progress.inAwait]
  all_goals simp only [Function.update_apply]
  all_goals grind [Progress.active, Progress.inAwait]

theorem Sound.yieldGenerator (sound : h.Sound) {p : Nat} (class_ : h.classes p = .generator)
    (active : (h.progress p).active = true) :
    Sound { h with progress := Function.update h.progress p .yielded } := by
  obtain ⟨slots, own, initials, finals, generators, coroutines, targets, fresh⟩ := sound
  constructor <;> simp only [Function.update_apply] <;> grind [Progress.active, Progress.inAwait]

theorem Sound.finish (sound : h.Sound) {p : Nat} (active : (h.progress p).active = true)
    (plain : h.classes p ≠ .generator) :
    Sound { h with
      isInitor := Function.update h.isInitor p .final
      progress := Function.update h.progress p .final } := by
  have present := Progress.ne_absent active
  obtain ⟨slots, own, initials, finals, generators, coroutines, targets, fresh⟩ := sound
  constructor <;> simp only [Function.update_apply] <;> grind [Progress.active, Progress.inAwait]

theorem Sound.endGenerator (sound : h.Sound) {p : Nat} (class_ : h.classes p = .generator)
    (active : (h.progress p).active = true) :
    Sound { h with
      coro := Function.update h.coro p none
      progress := Function.update h.progress p .destroyed } := by
  obtain ⟨slots, own, initials, finals, generators, coroutines, targets, fresh⟩ := sound
  constructor <;> simp only [Function.update_apply] <;> grind [Progress.active, Progress.inAwait]

theorem Sound.start (sound : h.Sound) {n : Nat} (tag : h.isInitor n = .initial)
    (plain : h.classes n ≠ .generator) :
    Sound { h with
      isInitor := Function.update h.isInitor n .none
      progress := Function.update h.progress n .running } := by
  obtain ⟨slots, own, initials, finals, generators, coroutines, targets, fresh⟩ := sound
  constructor <;> simp only [Function.update_apply] <;> grind [Progress.inAwait]

theorem Sound.wake (sound : h.Sound) {n p : Nat} (held : h.coro n = some p)
    (plain : h.classes n ≠ .generator) :
    Sound { h with
      coro := Function.update h.coro n none
      progress := Function.update h.progress p .running } := by
  obtain ⟨slots, own, initials, finals, generators, coroutines, targets, fresh⟩ := sound
  constructor <;> simp only [Function.update_apply] <;> grind [Progress.inAwait]

theorem Sound.wakeGenerator (sound : h.Sound) {n p : Nat} (held : h.coro n = some p)
    (class_ : h.classes n = .generator) :
    Sound { h with progress := Function.update h.progress p .running } := by
  obtain ⟨slots, own, initials, finals, generators, coroutines, targets, fresh⟩ := sound
  constructor <;> simp only [Function.update_apply] <;> grind [Progress.inAwait]

theorem Sound.destroy (sound : h.Sound) {n : Nat} (tag : h.isInitor n = .final)
    (plain : h.classes n ≠ .generator) :
    Sound { h with
      isInitor := Function.update h.isInitor n .none
      progress := Function.update h.progress n .destroyed } := by
  obtain ⟨slots, own, initials, finals, generators, coroutines, targets, fresh⟩ := sound
  constructor <;> simp only [Function.update_apply] <;> grind [Progress.inAwait]

theorem Sound.move {h' : Handles} (sound : h.Sound) (move : h.Move h') : h'.Sound := by
  cases move with
  | stay => exact sound
  | newCoroutine kind => exact sound.add (by simp) (by simp) (by simp) (by simp) (by simp)
  | newAwaitable kind => exact sound.add (by simp) (by simp) (by simp) (by simp) (by simp)
  | newGenerator => exact sound.add (by simp) (by simp) (by simp) (by simp) (by simp)
  | walk p progress before after class_ target => exact sound.walk before after class_ target
  | suspend p m unready plain => exact sound.suspend unready plain
  | park p cls active class_ plain => exact sound.park active class_ plain
  | yield p active plain => exact sound.yield active plain
  | yieldGenerator p active class_ => exact sound.yieldGenerator class_ active
  | final p active plain => exact sound.finish active plain
  | endGenerator p active class_ => exact sound.endGenerator class_ active
  | start n tag plain => exact sound.start tag plain
  | wake n p held plain => exact sound.wake held plain
  | wakeGenerator n p held class_ => exact sound.wakeGenerator held class_
  | destroy n tag plain => exact sound.destroy tag plain

end Handles

end Librf
