import Mathlib.Data.List.Nodup
import Mathlib.Data.List.Induction

/-!
# Doubly linked segments

Nodes are linked by two partial functions, and a null link is `none`. A segment is cut and joined
where it is a concatenation.
-/

namespace Librf.Links

variable {κ : Type*}

/-- `items` are linked both ways, with `before` in front of them and `after` behind. -/
def Segment (next prev : κ → Option κ) : Option κ → List κ → Option κ → Prop
  | _, [], _ => True
  | before, a :: rest, after =>
      prev a = before ∧ next a = rest.head?.or after ∧ Segment next prev (some a) rest after

/-- The nodes met from `start` on, in at most `fuel` steps. -/
def follow (link : κ → Option κ) : Nat → Option κ → List κ
  | 0, _ => []
  | _ + 1, none => []
  | fuel + 1, some a => a :: follow link fuel (link a)

variable {next prev next' prev' : κ → Option κ} {before after before' after' : Option κ}
  {items items' : List κ} {a : κ}

theorem head?_or_append (items items' : List κ) (after : Option κ) :
    (items ++ items').head?.or after = items.head?.or (items'.head?.or after) := by
  cases items <;> simp

theorem getLast?_or_cons (a : κ) (items : List κ) (before : Option κ) :
    (a :: items).getLast?.or before = items.getLast?.or (some a) := by
  cases last : items.getLast? <;> simp [List.getLast?_cons, last]

theorem segment_append : Segment next prev before (items ++ items') after ↔
    Segment next prev before items (items'.head?.or after) ∧
      Segment next prev (items.getLast?.or before) items' after := by
  induction items generalizing before with
  | nil => simp [Segment]
  | cons a items ih =>
      simp only [List.cons_append, Segment, ih, head?_or_append, getLast?_or_cons, and_assoc]

theorem segment_singleton : Segment next prev before [a] after ↔ prev a = before ∧ next a = after := by
  simp [Segment]

theorem Segment.congr (segment : Segment next prev before items after)
    (sameNext : ∀ a ∈ items, next' a = next a) (samePrev : ∀ a ∈ items, prev' a = prev a) :
    Segment next' prev' before items after := by
  induction items generalizing before with
  | nil => trivial
  | cons a items ih =>
      obtain ⟨back, forth, rest⟩ := segment
      refine ⟨(samePrev a List.mem_cons_self).trans back,
        (sameNext a List.mem_cons_self).trans forth, ih rest ?_ ?_⟩
      · exact fun b member => sameNext b (List.mem_cons_of_mem _ member)
      · exact fun b member => samePrev b (List.mem_cons_of_mem _ member)

theorem Segment.joinBefore (segment : Segment next prev before items after)
    (sameNext : ∀ a ∈ items, next' a = next a) (samePrev : ∀ a ∈ items.tail, prev' a = prev a)
    (joined : ∀ a ∈ items.head?, prev' a = before') : Segment next' prev' before' items after := by
  cases items with
  | nil => trivial
  | cons a items =>
      obtain ⟨-, forth, rest⟩ := segment
      refine ⟨joined a rfl, (sameNext a List.mem_cons_self).trans forth, ?_⟩
      exact rest.congr (fun b member => sameNext b (List.mem_cons_of_mem _ member)) samePrev

theorem Segment.joinAfter (segment : Segment next prev before items after)
    (sameNext : ∀ a ∈ items.dropLast, next' a = next a) (samePrev : ∀ a ∈ items, prev' a = prev a)
    (joined : ∀ a ∈ items.getLast?, next' a = after') : Segment next' prev' before items after' := by
  induction items using List.reverseRecOn with
  | nil => trivial
  | append_singleton items a _ =>
      rw [List.dropLast_concat] at sameNext
      rw [segment_append, segment_singleton] at segment ⊢
      obtain ⟨front, back, -⟩ := segment
      have samePrev' : ∀ b ∈ items, prev' b = prev b := fun b member =>
        samePrev b (List.mem_append_left _ member)
      refine ⟨front.congr sameNext samePrev', ?_, joined a List.getLast?_concat⟩
      exact (samePrev a (List.mem_append_right _ List.mem_cons_self)).trans back

theorem Segment.follow_next (segment : Segment next prev before items none) {fuel : Nat}
    (enough : items.length ≤ fuel) : follow next fuel items.head? = items := by
  induction items generalizing before fuel with
  | nil => cases fuel <;> rfl
  | cons a items ih =>
      obtain ⟨-, forth, rest⟩ := segment
      rw [Option.or_none] at forth
      obtain ⟨fuel, rfl⟩ := Nat.exists_eq_add_one_of_ne_zero (Nat.ne_zero_of_lt enough)
      rw [List.head?_cons, follow, forth, ih rest (Nat.le_of_succ_le_succ enough)]

theorem Segment.follow_prev (segment : Segment next prev none items after) {fuel : Nat}
    (enough : items.length ≤ fuel) : follow prev fuel items.getLast? = items.reverse := by
  induction items using List.reverseRecOn generalizing after fuel with
  | nil => cases fuel <;> rfl
  | append_singleton items a ih =>
      rw [segment_append, segment_singleton, Option.or_none] at segment
      obtain ⟨front, back, -⟩ := segment
      rw [List.length_append, List.length_singleton] at enough
      obtain ⟨fuel, rfl⟩ := Nat.exists_eq_add_one_of_ne_zero (Nat.ne_zero_of_lt enough)
      rw [List.getLast?_concat, follow, back, ih front (Nat.le_of_succ_le_succ enough),
        List.reverse_append, List.reverse_singleton, List.singleton_append]

end Librf.Links
