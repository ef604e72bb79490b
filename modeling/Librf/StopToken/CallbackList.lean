import Librf.Base.Links
import Librf.StopToken.Model

/-!
# The list of callbacks

`prev` points to the pointer that points to the callback, so that a callback is unlinked without
the head.
-/

namespace Librf.StopToken

namespace CallbackList

def next (l : CallbackList) (a : Nat) : Option Nat := (l.callbacks a).next

/-- The callback in which `prev` points, where it is not `head_`. -/
def prevNode (l : CallbackList) (a : Nat) : Option Nat :=
  match (l.callbacks a).prev with
  | some (.next b) => some b
  | _ => none

structure Lists (l : CallbackList) (items : List Nat) : Prop where
  head : l.head = items.head?
  linked : Links.Segment l.next l.prevNode none items none
  slots : ∀ a ∈ items, (l.callbacks a).prev ≠ none
  nodup : items.Nodup

variable {l : CallbackList} {items : List Nat} {a cb : Nat} {slot : Slot}

/-! ## What the operations write -/

section Fields

variable (l : CallbackList) (a cb : Nat) (p : Option Nat) (prev : Option Slot) (slot : Slot)

theorem setPrev_head : (l.setPrev p prev).head = l.head := by cases p <;> rfl

theorem setPrev_callbacks : (l.setPrev p prev).callbacks a =
    if p = some a then { l.callbacks a with prev } else l.callbacks a := by
  cases p with
  | none => rfl
  | some b =>
      by_cases here : b = a
      · subst here
        simp [setPrev, modify]
      · simp [setPrev, modify, here, Function.update_of_ne (Ne.symm here)]

theorem modify_callbacks (f : Callback → Callback) : (l.modify cb f).callbacks a =
    if cb = a then f (l.callbacks a) else l.callbacks a := by
  by_cases here : cb = a
  · subst here
    simp [modify]
  · simp [modify, here, Function.update_of_ne (Ne.symm here)]

theorem store_callbacks : (l.store slot p).callbacks a =
    if slot = .next a then { l.callbacks a with next := p } else l.callbacks a := by
  cases slot with
  | head => rfl
  | next b => simp only [store, modify_callbacks, Slot.next.injEq]

theorem store_head : (l.store slot p).head = if slot = .head then p else l.head := by
  cases slot <;> rfl

theorem push_callbacks : (l.push cb).callbacks a =
    if a = cb then { l.callbacks cb with next := l.head, prev := some .head }
    else if l.head = some a then { l.callbacks a with prev := some (.next cb) }
    else l.callbacks a := by
  simp only [push, setPrev_callbacks, modify_callbacks]
  grind

theorem pop_callbacks : (l.pop cb).callbacks a =
    if a = cb then { l.callbacks cb with prev := none }
    else if (l.callbacks cb).next = some a then { l.callbacks a with prev := some .head }
    else l.callbacks a := by
  simp only [pop, setPrev_callbacks]
  grind

theorem pop_head : (l.pop cb).head = (l.callbacks cb).next := by
  simp only [pop, setPrev_head]

theorem remove_callbacks : (l.remove cb slot).callbacks a =
    { l.callbacks a with
      next := if slot = .next a then (l.callbacks cb).next else (l.callbacks a).next
      prev := if (l.callbacks cb).next = some a then (l.callbacks cb).prev
        else (l.callbacks a).prev } := by
  have stored : ((l.store slot (l.callbacks cb).next).callbacks cb).next = (l.callbacks cb).next ∧
      ((l.store slot (l.callbacks cb).next).callbacks cb).prev = (l.callbacks cb).prev := by
    rw [store_callbacks]
    split <;> exact ⟨rfl, rfl⟩
  simp only [remove]
  rw [setPrev_callbacks, stored.1, stored.2, store_callbacks]
  split <;> split <;> rfl

theorem remove_head :
    (l.remove cb slot).head = if slot = .head then (l.callbacks cb).next else l.head := by
  simp only [remove, setPrev_head, store_head]

end Fields

/-! ## What the operations do to the list -/

theorem not_head_of_mem_tail (nodup : items.Nodup) (member : a ∈ items.tail) :
    items.head? ≠ some a := by
  cases items with
  | nil => cases member
  | cons b items =>
      intro same
      cases same
      exact (List.nodup_cons.1 nodup).1 member

theorem Lists.nil : Lists {} [] := ⟨rfl, trivial, nofun, List.nodup_nil⟩

theorem Lists.push (lists : Lists l items) (new : cb ∉ items) : Lists (l.push cb) (cb :: items) := by
  have others : ∀ a ∈ items, a ≠ cb := fun a member same => new (same ▸ member)
  constructor
  · rfl
  · apply And.intro
    · simp [prevNode, push_callbacks]
    · apply And.intro
      · simp [next, push_callbacks, lists.head]
      · apply lists.linked.joinBefore
        · intro a member
          simp only [next, push_callbacks, others a member, if_false]
          split <;> rfl
        · intro a member
          have distinct : l.head ≠ some a :=
            lists.head ▸ not_head_of_mem_tail lists.nodup member
          simp only [prevNode, push_callbacks, others a (List.mem_of_mem_tail member), distinct,
            if_false]
        · intro a first
          have member : a ∈ items := List.mem_of_mem_head? first
          rw [← lists.head] at first
          simp only [prevNode, push_callbacks, others a member, if_false]
          rw [if_pos (Option.mem_def.1 first)]
  · intro a member
    rw [push_callbacks]
    rcases List.mem_cons.1 member with rfl | member
    · simp
    · rw [if_neg (others a member)]
      split
      · simp
      · exact lists.slots a member
  · exact List.nodup_cons.2 ⟨new, lists.nodup⟩

theorem Lists.pop (lists : Lists l (cb :: items)) : Lists (l.pop cb) items := by
  obtain ⟨fresh, nodup⟩ := List.nodup_cons.1 lists.nodup
  have others : ∀ a ∈ items, a ≠ cb := fun a member same => fresh (same ▸ member)
  obtain ⟨-, second, linked⟩ := lists.linked
  rw [Option.or_none] at second
  change (l.callbacks cb).next = items.head? at second
  constructor
  · rw [pop_head, second]
  · apply linked.joinBefore
    · intro a member
      simp only [next, pop_callbacks, others a member, if_false]
      split <;> rfl
    · intro a member
      have distinct : (l.callbacks cb).next ≠ some a := second ▸ not_head_of_mem_tail nodup member
      simp only [prevNode, pop_callbacks, others a (List.mem_of_mem_tail member), distinct, if_false]
    · intro a first
      have member : a ∈ items := List.mem_of_mem_head? first
      rw [← second] at first
      simp only [prevNode, pop_callbacks, others a member, if_false]
      rw [if_pos (Option.mem_def.1 first)]
  · intro a member
    rw [pop_callbacks, if_neg (others a member)]
    split
    · simp
    · exact lists.slots a (List.mem_cons_of_mem _ member)
  · exact nodup

theorem Lists.slot_eq {front back : List Nat} (lists : Lists l (front ++ cb :: back))
    (stored : (l.callbacks cb).prev = some slot) (a : Nat) :
    slot = .next a ↔ front.getLast? = some a := by
  have linked := lists.linked
  rw [Links.segment_append] at linked
  obtain ⟨-, previous, -⟩ := linked
  rw [Option.or_none, prevNode, stored] at previous
  rw [← previous]
  cases slot with
  | head => simp
  | next b => simp

theorem Lists.next_eq {front back : List Nat} (lists : Lists l (front ++ cb :: back)) :
    (l.callbacks cb).next = back.head? := by
  have linked := lists.linked
  rw [Links.segment_append] at linked
  obtain ⟨-, -, second, -⟩ := linked
  rwa [Option.or_none] at second

theorem not_last_of_mem_dropLast (nodup : items.Nodup) (member : a ∈ items.dropLast) :
    items.getLast? ≠ some a := by
  induction items using List.reverseRecOn with
  | nil => cases member
  | append_singleton items b _ =>
      rw [List.dropLast_concat] at member
      rw [List.getLast?_concat]
      intro same
      cases same
      exact (List.nodup_append.1 nodup).2.2 a member a List.mem_cons_self rfl

theorem Lists.remove (lists : Lists l items) (member : cb ∈ items)
    (stored : (l.callbacks cb).prev = some slot) : Lists (l.remove cb slot) (items.erase cb) := by
  obtain ⟨front, back, rfl⟩ := List.append_of_mem member
  obtain ⟨nodupFront, nodupBack, apart⟩ := List.nodup_append.1 lists.nodup
  obtain ⟨freshBack, nodupBack⟩ := List.nodup_cons.1 nodupBack
  have freshFront : cb ∉ front := fun h => apart cb h cb List.mem_cons_self rfl
  have below : ∀ a ∈ back, front.getLast? ≠ some a := fun a inBack last =>
    apart a (List.mem_of_mem_getLast? last) a (List.mem_cons_of_mem cb inBack) rfl
  have above : ∀ a ∈ front, back.head? ≠ some a := fun a inFront first =>
    apart a inFront a (List.mem_cons_of_mem cb (List.mem_of_mem_head? first)) rfl
  have slotEq := lists.slot_eq stored
  have nextEq := lists.next_eq
  have linked := lists.linked
  rw [Links.segment_append] at linked
  obtain ⟨linkedFront, previous, -, linkedBack⟩ := linked
  rw [List.erase_append_right _ freshFront, List.erase_cons_head]
  constructor
  · rw [remove_head, lists.head, nextEq]
    cases front with
    | nil =>
        cases slot with
        | head => rfl
        | next b => cases (slotEq b).1 rfl
    | cons b front =>
        rw [if_neg]
        · rfl
        · intro atHead
          cases last : (b :: front).getLast? with
          | none => simp at last
          | some c => cases ((slotEq c).2 last).symm.trans atHead
  · rw [Links.segment_append, Option.or_none]
    constructor
    · apply linkedFront.joinAfter
      · intro a inFront
        have other : slot ≠ .next a := fun same =>
          not_last_of_mem_dropLast nodupFront inFront ((slotEq a).1 same)
        simp only [next, remove_callbacks, other, if_false]
      · intro a inFront
        simp only [prevNode, remove_callbacks, nextEq, above a inFront, if_false]
      · intro a last
        simp only [next, remove_callbacks, (slotEq a).2 last, if_true, nextEq]
    · apply linkedBack.joinBefore
      · intro a inBack
        have other : slot ≠ .next a := fun same => below a inBack ((slotEq a).1 same)
        simp only [next, remove_callbacks, other, if_false]
      · intro a inBack
        simp only [prevNode, remove_callbacks, nextEq, not_head_of_mem_tail nodupBack inBack,
          if_false]
      · intro a first
        simp only [prevNode, remove_callbacks, nextEq, Option.mem_def.1 first, if_true]
        exact previous
  · intro a inEither
    rw [remove_callbacks]
    dsimp only
    split
    · rw [stored]
      simp
    · apply lists.slots a
      rcases List.mem_append.1 inEither with inFront | inBack
      · exact List.mem_append_left _ inFront
      · exact List.mem_append_right _ (List.mem_cons_of_mem _ inBack)
  · apply List.nodup_append.2
    exact ⟨nodupFront, nodupBack, fun a inFront b inBack =>
      apart a inFront b (List.mem_cons_of_mem _ inBack)⟩

theorem Lists.slot_mem (lists : Lists l items) (member : cb ∈ items)
    (stored : (l.callbacks cb).prev = some (.next a)) : a ∈ items := by
  obtain ⟨front, back, rfl⟩ := List.append_of_mem member
  exact List.mem_append_left _ (List.mem_of_mem_getLast? ((lists.slot_eq stored a).1 rfl))

theorem Lists.next_mem (lists : Lists l items) (member : cb ∈ items)
    (link : (l.callbacks cb).next = some a) : a ∈ items := by
  obtain ⟨front, back, rfl⟩ := List.append_of_mem member
  rw [lists.next_eq] at link
  exact List.mem_append_right _ (List.mem_cons_of_mem cb (List.mem_of_mem_head? link))

theorem Lists.modify (lists : Lists l items) {f : Callback → Callback}
    (next : ∀ c, (f c).next = c.next) (prev : ∀ c, (f c).prev = c.prev) :
    Lists (l.modify cb f) items := by
  have same (a : Nat) : ((l.modify cb f).callbacks a).next = (l.callbacks a).next ∧
      ((l.modify cb f).callbacks a).prev = (l.callbacks a).prev := by
    rw [modify_callbacks]
    split
    · exact ⟨next _, prev _⟩
    · exact ⟨rfl, rfl⟩
  constructor
  · exact lists.head
  · apply lists.linked.congr
    · exact fun a _ => (same a).1
    · intro a _
      simp only [prevNode, (same a).2]
  · intro a member
    rw [(same a).2]
    exact lists.slots a member
  · exact lists.nodup

/-! ## What the operations leave alone -/

section Flags

variable (l : CallbackList) (a cb : Nat) (slot : Slot)

theorem push_flags : ((l.push cb).callbacks a).isRemoved = (l.callbacks a).isRemoved ∧
    ((l.push cb).callbacks a).finishedExecuting = (l.callbacks a).finishedExecuting := by
  rw [push_callbacks]
  split
  · next same =>
      subst same
      exact ⟨rfl, rfl⟩
  · split <;> exact ⟨rfl, rfl⟩

theorem pop_flags : ((l.pop cb).callbacks a).isRemoved = (l.callbacks a).isRemoved ∧
    ((l.pop cb).callbacks a).finishedExecuting = (l.callbacks a).finishedExecuting := by
  rw [pop_callbacks]
  split
  · next same =>
      subst same
      exact ⟨rfl, rfl⟩
  · split <;> exact ⟨rfl, rfl⟩

theorem remove_flags : ((l.remove cb slot).callbacks a).isRemoved = (l.callbacks a).isRemoved ∧
    ((l.remove cb slot).callbacks a).finishedExecuting = (l.callbacks a).finishedExecuting := by
  rw [remove_callbacks]
  exact ⟨rfl, rfl⟩

end Flags

theorem Lists.push_prev (lists : Lists l items) (other : a ≠ cb) :
    ((l.push cb).callbacks a).prev = none ↔ (l.callbacks a).prev = none := by
  rw [push_callbacks, if_neg other]
  split
  · next first =>
      rw [lists.head] at first
      simp [lists.slots a (List.mem_of_mem_head? first)]
  · rfl

theorem Lists.pop_prev (lists : Lists l (cb :: items)) (other : a ≠ cb) :
    ((l.pop cb).callbacks a).prev = none ↔ (l.callbacks a).prev = none := by
  rw [pop_callbacks, if_neg other]
  split
  · next second => simp [lists.slots a (lists.next_mem List.mem_cons_self second)]
  · rfl

theorem Lists.remove_prev (lists : Lists l items) (member : cb ∈ items) :
    ((l.remove cb slot).callbacks a).prev = none ↔ (l.callbacks a).prev = none := by
  rw [remove_callbacks]
  dsimp only
  split
  · next second => simp [lists.slots a (lists.next_mem member second), lists.slots cb member]
  · rfl

theorem Lists.push_outside (lists : Lists l items) (other : a ≠ cb) (outside : a ∉ items) :
    (l.push cb).callbacks a = l.callbacks a := by
  rw [push_callbacks, if_neg other, if_neg]
  rw [lists.head]
  exact fun first => outside (List.mem_of_mem_head? first)

theorem Lists.pop_outside (lists : Lists l (cb :: items)) (outside : a ∉ cb :: items) :
    (l.pop cb).callbacks a = l.callbacks a := by
  have other : a ≠ cb := by
    intro same
    exact outside (same ▸ List.mem_cons_self)
  rw [pop_callbacks, if_neg other, if_neg]
  exact fun second => outside (lists.next_mem List.mem_cons_self second)

theorem Lists.remove_outside (lists : Lists l items) (member : cb ∈ items)
    (stored : (l.callbacks cb).prev = some slot) (outside : a ∉ items) :
    (l.remove cb slot).callbacks a = l.callbacks a := by
  rw [remove_callbacks, if_neg, if_neg]
  · exact fun second => outside (lists.next_mem member second)
  · intro same
    subst same
    exact outside (lists.slot_mem member stored)

end CallbackList

end Librf.StopToken
