import Mathlib.Data.Nat.ModEq
import Mathlib.Data.List.Basic

/-! # Segments of a circular buffer -/

namespace Librf.Circular

variable {β : Type*}

/-- The cells of a circular buffer hold `items`, one after the other, from `start` on. -/
def Segment (cells : List β) (start : Nat) (items : List β) : Prop :=
  ∀ i (h : i < items.length), cells[(start + i) % cells.length]? = some items[i]

theorem offset_injective {size start i j : Nat} (hi : i < size) (hj : j < size)
    (same : (start + i) % size = (start + j) % size) : i = j := by
  have cancelled : i ≡ j [MOD size] := Nat.ModEq.add_left_cancel' start same
  rwa [Nat.ModEq, Nat.mod_eq_of_lt hi, Nat.mod_eq_of_lt hj] at cancelled

theorem offset_succ (size start i : Nat) :
    ((start + 1) % size + i) % size = (start + (i + 1)) % size := by
  rw [Nat.mod_add_mod]
  congr 1
  omega

theorem Segment.nil (cells : List β) (start : Nat) : Segment cells start [] :=
  fun i h => absurd h (by simp)

theorem Segment.head {cells : List β} {start : Nat} {item : β} {items : List β}
    (segment : Segment cells start (item :: items)) (bound : start < cells.length) :
    cells[start]? = some item := by
  have first := segment 0 (by simp)
  simpa [Nat.mod_eq_of_lt bound] using first

theorem Segment.tail {cells : List β} {start : Nat} {item : β} {items : List β}
    (segment : Segment cells start (item :: items)) :
    Segment cells ((start + 1) % cells.length) items := by
  intro i h
  rw [offset_succ]
  exact segment (i + 1) (Nat.succ_lt_succ h)

theorem Segment.set_outside {cells : List β} {start k : Nat} {items : List β} (x : β)
    (segment : Segment cells start items)
    (outside : ∀ i < items.length, k ≠ (start + i) % cells.length) :
    Segment (cells.set k x) start items := by
  intro i h
  rw [List.length_set, List.getElem?_set_ne (outside i h)]
  exact segment i h

theorem Segment.push {cells : List β} {start : Nat} {items : List β} (x : β)
    (segment : Segment cells start items) (room : items.length < cells.length) :
    Segment (cells.set ((start + items.length) % cells.length) x) start (items ++ [x]) := by
  have kept : Segment (cells.set ((start + items.length) % cells.length) x) start items := by
    apply segment.set_outside
    intro i h same
    have := offset_injective room (h.trans room) same
    omega
  intro i h
  rcases Nat.lt_or_ge i items.length with old | last
  · rw [List.getElem_append_left old]
    exact kept i old
  · have here : i = items.length := by
      simp only [List.length_append, List.length_singleton] at h
      omega
    subst here
    have bound : (start + items.length) % cells.length < cells.length :=
      Nat.mod_lt _ (by omega)
    rw [List.length_set, List.getElem?_set_self bound]
    simp

theorem Segment.pop {cells : List β} {start : Nat} {item : β} {items : List β} (x : β)
    (segment : Segment cells start (item :: items)) (bound : start < cells.length)
    (room : items.length < cells.length) :
    Segment (cells.set start x) ((start + 1) % cells.length) items := by
  apply segment.tail.set_outside
  intro i h same
  rw [offset_succ] at same
  have wrapped : (start + 0) % cells.length = (start + (i + 1)) % cells.length := by
    simpa [Nat.mod_eq_of_lt bound] using same
  have := offset_injective (by omega) (by omega) wrapped
  omega

end Librf.Circular
