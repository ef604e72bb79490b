import Librf.Base.Links
import Librf.RingQueue
import Mathlib.Data.Fintype.Card

/-!
# `intrusive_link_queue`

The links are in the nodes. A pointer has as many bits as `std::size_t`, so that a queue cannot
have more nodes than `_count` can count.
-/

namespace Librf

/-- The pointers that are not null. -/
abbrev Address (bits : Nat) := Fin (2 ^ bits - 1)

structure LinkNode (bits : Nat) where
  prev : Option (Address bits)
  next : Option (Address bits)
  deriving DecidableEq, Repr

structure IntrusiveLinkQueue (bits : Nat) where
  count : Nat := 0
  header : Option (Address bits) := none
  tailer : Option (Address bits) := none
  deriving DecidableEq, Repr

structure Linkage (bits : Nat) where
  nodes : Address bits → LinkNode bits
  queue : IntrusiveLinkQueue bits

namespace Linkage

variable {bits : Nat}

def next (s : Linkage bits) (a : Address bits) : Option (Address bits) := (s.nodes a).next

def prev (s : Linkage bits) (a : Address bits) : Option (Address bits) := (s.nodes a).prev

def setNext (s : Linkage bits) (a : Address bits) (link : Option (Address bits)) : Linkage bits :=
  { s with nodes := Function.update s.nodes a { s.nodes a with next := link } }

def setPrev (s : Linkage bits) (a : Address bits) (link : Option (Address bits)) : Linkage bits :=
  { s with nodes := Function.update s.nodes a { s.nodes a with prev := link } }

def setHeader (s : Linkage bits) (link : Option (Address bits)) : Linkage bits :=
  { s with queue.header := link }

def setTailer (s : Linkage bits) (link : Option (Address bits)) : Linkage bits :=
  { s with queue.tailer := link }

def fetchAdd (s : Linkage bits) : Linkage bits :=
  { s with queue.count := (s.queue.count + 1) % 2 ^ bits }

def fetchSub (s : Linkage bits) : Linkage bits :=
  { s with queue.count := (s.queue.count + (2 ^ bits - 1)) % 2 ^ bits }

def size (s : Linkage bits) : Nat := s.queue.count

def empty (s : Linkage bits) : Bool := s.queue.header.isNone

def pushBack (e : Address bits) (s : Linkage bits) : Linkage bits :=
  let s := s.setPrev e s.queue.tailer
  let s := s.setNext e none
  let s := if s.queue.header = none then s.setHeader (some e) else s
  let s := match s.queue.tailer with
    | some t => s.setNext t (some e)
    | none => s
  let s := s.setTailer (some e)
  s.fetchAdd

def pushFront (e : Address bits) (s : Linkage bits) : Linkage bits :=
  let s := s.setPrev e none
  let s := s.setNext e s.queue.header
  let s := match s.queue.header with
    | some h => s.setPrev h (some e)
    | none => s
  let s := s.setHeader (some e)
  let s := if s.queue.tailer = none then s.setTailer (some e) else s
  s.fetchAdd

def erase (e : Address bits) (s : Linkage bits) : Linkage bits :=
  let s := if s.queue.header = some e then s.setHeader (s.next e) else s
  let s := if s.queue.tailer = some e then s.setTailer (s.prev e) else s
  let s := match s.next e with
    | some n => s.setPrev n (s.prev e)
    | none => s
  let s := match s.prev e with
    | some p => s.setNext p (s.next e)
    | none => s
  let s := s.setPrev e none
  let s := s.setNext e none
  s.fetchSub

def tryPop (s : Linkage bits) : Except Fault (Option (Address bits) × Linkage bits) :=
  match s.queue.header with
  | none => .ok (none, s)
  | some node =>
      let s := s.setHeader (s.next node)
      let s := match s.queue.header with
        | some h => s.setPrev h none
        | none => s
      if s.queue.tailer = some node ∧ s.next node ≠ none then .error .assertion
      else
        let s := if s.queue.tailer = some node then s.setTailer none else s
        let s := s.setPrev node none
        let s := s.setNext node none
        .ok (some node, s.fetchSub)

/-! ## What a queue holds -/

/-- The queue links `items`; `size` is what `_count` would be without a wrap-around. -/
structure Holds (s : Linkage bits) (items : List (Address bits)) (size : Int) : Prop where
  linked : Links.Segment s.next s.prev none items none
  header : s.queue.header = items.head?
  tailer : s.queue.tailer = items.getLast?
  nodup : items.Nodup
  count : (s.queue.count : Int) = size % 2 ^ bits

variable {s : Linkage bits} {items : List (Address bits)} {size : Int} {e : Address bits}

@[simp] theorem setNext_next (s : Linkage bits) (a : Address bits) (link : Option (Address bits)) :
    (s.setNext a link).next = Function.update s.next a link := by
  funext b
  by_cases same : b = a
  · subst same
    simp [next, setNext]
  · simp [next, setNext, same]

@[simp] theorem setNext_prev (s : Linkage bits) (a : Address bits) (link : Option (Address bits)) :
    (s.setNext a link).prev = s.prev := by
  funext b
  by_cases same : b = a
  · subst same
    simp [prev, setNext]
  · simp [prev, setNext, same]

@[simp] theorem setPrev_prev (s : Linkage bits) (a : Address bits) (link : Option (Address bits)) :
    (s.setPrev a link).prev = Function.update s.prev a link := by
  funext b
  by_cases same : b = a
  · subst same
    simp [prev, setPrev]
  · simp [prev, setPrev, same]

@[simp] theorem setPrev_next (s : Linkage bits) (a : Address bits) (link : Option (Address bits)) :
    (s.setPrev a link).next = s.next := by
  funext b
  by_cases same : b = a
  · subst same
    simp [next, setPrev]
  · simp [next, setPrev, same]

section Fields

variable (s : Linkage bits) (a : Address bits) (link : Option (Address bits))

@[simp] theorem setNext_queue : (s.setNext a link).queue = s.queue := rfl

@[simp] theorem setPrev_queue : (s.setPrev a link).queue = s.queue := rfl

@[simp] theorem setHeader_next : (s.setHeader link).next = s.next := rfl

@[simp] theorem setHeader_prev : (s.setHeader link).prev = s.prev := rfl

@[simp] theorem setHeader_queue :
    (s.setHeader link).queue = { s.queue with header := link } := rfl

@[simp] theorem setTailer_next : (s.setTailer link).next = s.next := rfl

@[simp] theorem setTailer_prev : (s.setTailer link).prev = s.prev := rfl

@[simp] theorem setTailer_queue :
    (s.setTailer link).queue = { s.queue with tailer := link } := rfl

@[simp] theorem fetchAdd_next : s.fetchAdd.next = s.next := rfl

@[simp] theorem fetchAdd_prev : s.fetchAdd.prev = s.prev := rfl

@[simp] theorem fetchAdd_queue :
    s.fetchAdd.queue = { s.queue with count := (s.queue.count + 1) % 2 ^ bits } := rfl

@[simp] theorem fetchSub_next : s.fetchSub.next = s.next := rfl

@[simp] theorem fetchSub_prev : s.fetchSub.prev = s.prev := rfl

@[simp] theorem fetchSub_queue :
    s.fetchSub.queue = { s.queue with count := (s.queue.count + (2 ^ bits - 1)) % 2 ^ bits } := rfl

end Fields

theorem length_lt (nodup : items.Nodup) : items.length < 2 ^ bits := by
  have bound := nodup.length_le_card
  rw [Fintype.card_fin] at bound
  have positive := Nat.two_pow_pos bits
  omega

theorem Holds.size_eq (holds : s.Holds items items.length) : s.size = items.length := by
  have bound := length_lt holds.nodup
  have count := holds.count
  rw [Int.emod_eq_of_lt (Int.natCast_nonneg _) (by exact_mod_cast bound)] at count
  exact_mod_cast count

theorem count_added {count : Nat} (counts : (count : Int) = size % 2 ^ bits) :
    (((count + 1) % 2 ^ bits : Nat) : Int) = (size + 1) % 2 ^ bits := by
  push_cast
  rw [counts, Int.emod_add_emod]

theorem count_removed {count : Nat} (counts : (count : Int) = size % 2 ^ bits) :
    (((count + (2 ^ bits - 1)) % 2 ^ bits : Nat) : Int) = (size - 1) % 2 ^ bits := by
  push_cast [Nat.one_le_two_pow]
  rw [counts, Int.emod_add_emod, show size + (2 ^ bits - 1) = size - 1 + 2 ^ bits by omega,
    Int.add_emod_right]

theorem ne_last {t a : Address bits} (nodup : items.Nodup) (last : items.getLast? = some t)
    (member : a ∈ items.dropLast) : a ≠ t := by
  have split := List.dropLast_append_getLast? t last
  rw [← split, List.nodup_append] at nodup
  exact nodup.2.2 a member t List.mem_cons_self

theorem ne_first {h a : Address bits} (nodup : items.Nodup) (first : items.head? = some h)
    (member : a ∈ items.tail) : a ≠ h := by
  have split := List.cons_head?_tail first
  rw [← split, List.nodup_cons] at nodup
  rintro rfl
  exact nodup.1 member

theorem pushBack_next (s : Linkage bits) (e : Address bits) :
    (s.pushBack e).next = s.queue.tailer.elim (Function.update s.next e none)
      fun t => Function.update (Function.update s.next e none) t (some e) := by
  cases header : s.queue.header <;> cases tailer : s.queue.tailer <;>
    simp [pushBack, header, tailer]

theorem pushBack_prev (s : Linkage bits) (e : Address bits) :
    (s.pushBack e).prev = Function.update s.prev e s.queue.tailer := by
  cases header : s.queue.header <;> cases tailer : s.queue.tailer <;>
    simp [pushBack, header, tailer]

theorem pushBack_queue (s : Linkage bits) (e : Address bits) :
    (s.pushBack e).queue = {
      count := (s.queue.count + 1) % 2 ^ bits
      header := s.queue.header.or (some e)
      tailer := some e } := by
  cases header : s.queue.header <;> cases tailer : s.queue.tailer <;>
    simp [pushBack, header, tailer]

theorem Holds.pushBack (holds : s.Holds items size) (new : e ∉ items) :
    (s.pushBack e).Holds (items ++ [e]) (size + 1) := by
  have other : ∀ a ∈ items, a ≠ e := fun a member same => new (same ▸ member)
  have nodup : (items ++ [e]).Nodup := by
    rw [List.nodup_append]
    exact ⟨holds.nodup, List.nodup_singleton e, by simpa using other⟩
  constructor
  · rw [pushBack_next, pushBack_prev, holds.tailer, Links.segment_append, Links.segment_singleton]
    have samePrev : ∀ a ∈ items, Function.update s.prev e items.getLast? a = s.prev a :=
      fun a member => Function.update_of_ne (other a member) _ _
    cases last : items.getLast? with
    | none =>
        obtain rfl := List.getLast?_eq_none_iff.1 last
        exact ⟨trivial, by simp, by simp⟩
    | some t =>
        have distinct : e ≠ t := (other t (List.mem_of_getLast? last)).symm
        rw [last] at samePrev
        refine ⟨holds.linked.joinAfter ?_ samePrev ?_, by simp, by simp [distinct]⟩
        · intro a member
          simp [ne_last holds.nodup last member, other a (List.mem_of_mem_dropLast member)]
        · intro a ends
          cases last.symm.trans ends
          simp
  · rw [pushBack_queue, List.head?_append, holds.header]
    rfl
  · rw [pushBack_queue, List.getLast?_concat]
  · exact nodup
  · rw [pushBack_queue]
    exact count_added holds.count

theorem pushFront_next (s : Linkage bits) (e : Address bits) :
    (s.pushFront e).next = Function.update s.next e s.queue.header := by
  cases header : s.queue.header <;> cases tailer : s.queue.tailer <;>
    simp [pushFront, header, tailer]

theorem pushFront_prev (s : Linkage bits) (e : Address bits) :
    (s.pushFront e).prev = s.queue.header.elim (Function.update s.prev e none)
      fun h => Function.update (Function.update s.prev e none) h (some e) := by
  cases header : s.queue.header <;> cases tailer : s.queue.tailer <;>
    simp [pushFront, header, tailer]

theorem pushFront_queue (s : Linkage bits) (e : Address bits) :
    (s.pushFront e).queue = {
      count := (s.queue.count + 1) % 2 ^ bits
      header := some e
      tailer := s.queue.tailer.or (some e) } := by
  cases header : s.queue.header <;> cases tailer : s.queue.tailer <;>
    simp [pushFront, header, tailer]

theorem Holds.pushFront (holds : s.Holds items size) (new : e ∉ items) :
    (s.pushFront e).Holds (e :: items) (size + 1) := by
  have other : ∀ a ∈ items, a ≠ e := fun a member same => new (same ▸ member)
  have nodup : (e :: items).Nodup := List.nodup_cons.2 ⟨new, holds.nodup⟩
  constructor
  · rw [pushFront_next, pushFront_prev, holds.header, Links.Segment]
    have sameNext : ∀ a ∈ items, Function.update s.next e items.head? a = s.next a :=
      fun a member => Function.update_of_ne (other a member) _ _
    cases first : items.head? with
    | none =>
        obtain rfl := List.head?_eq_none_iff.1 first
        exact ⟨by simp, by simp, trivial⟩
    | some h =>
        have distinct : e ≠ h := (other h (List.mem_of_head? first)).symm
        rw [first] at sameNext
        refine ⟨by simp [distinct], by simp, holds.linked.joinBefore sameNext ?_ ?_⟩
        · intro a member
          simp [ne_first holds.nodup first member, other a (List.mem_of_mem_tail member)]
        · intro a starts
          cases first.symm.trans starts
          simp
  · rw [pushFront_queue, List.head?_cons]
  · rw [pushFront_queue, holds.tailer, List.getLast?_cons]
    cases items.getLast? <;> rfl
  · exact nodup
  · rw [pushFront_queue]
    exact count_added holds.count

theorem update_read {β γ : Type*} [DecidableEq β] (f : β → γ) (a b : β) :
    Function.update f a (f b) b = f b := by
  by_cases same : b = a
  · subst same
    exact Function.update_self ..
  · exact Function.update_of_ne same ..

theorem erase_next (s : Linkage bits) (e : Address bits) : (s.erase e).next =
    Function.update ((s.prev e).elim s.next fun p => Function.update s.next p (s.next e)) e none := by
  by_cases header : s.queue.header = some e <;> by_cases tailer : s.queue.tailer = some e <;>
    cases next : s.next e <;> simp [erase, header, tailer, next, update_read] <;>
    cases s.prev e <;> simp

theorem erase_prev (s : Linkage bits) (e : Address bits) : (s.erase e).prev =
    Function.update ((s.next e).elim s.prev fun n => Function.update s.prev n (s.prev e)) e none := by
  by_cases header : s.queue.header = some e <;> by_cases tailer : s.queue.tailer = some e <;>
    cases next : s.next e <;> simp [erase, header, tailer, next, update_read] <;>
    cases s.prev e <;> simp

theorem erase_queue (s : Linkage bits) (e : Address bits) : (s.erase e).queue = {
      count := (s.queue.count + (2 ^ bits - 1)) % 2 ^ bits
      header := if s.queue.header = some e then s.next e else s.queue.header
      tailer := if s.queue.tailer = some e then s.prev e else s.queue.tailer } := by
  by_cases header : s.queue.header = some e <;> by_cases tailer : s.queue.tailer = some e <;>
    cases next : s.next e <;> simp [erase, header, tailer, next, update_read] <;>
    cases s.prev e <;> simp

theorem Holds.erase {front back : List (Address bits)}
    (holds : s.Holds (front ++ e :: back) size) : (s.erase e).Holds (front ++ back) (size - 1) := by
  have linked := holds.linked
  rw [Links.segment_append, List.head?_cons, Option.some_or, Option.or_none, Links.Segment,
    Option.or_none] at linked
  obtain ⟨before, prev, next, after⟩ := linked
  have parts := List.nodup_append.1 holds.nodup
  have kept : (e :: (front ++ back)).Nodup := (List.perm_middle.nodup_iff).1 holds.nodup
  have inFront : ∀ a ∈ front, a ≠ e := fun a member => parts.2.2 a member e List.mem_cons_self
  have inBack : ∀ a ∈ back, a ≠ e := fun a member same =>
    (List.nodup_cons.1 parts.2.1).1 (same ▸ member)
  have apart : ∀ a ∈ front, ∀ b ∈ back, a ≠ b := fun a member b listed =>
    parts.2.2 a member b (List.mem_cons_of_mem _ listed)
  have sameNext : ∀ a ∈ back, (s.erase e).next a = s.next a := by
    intro a member
    rw [erase_next, Function.update_of_ne (inBack a member), prev]
    cases last : front.getLast? with
    | none => rfl
    | some p => exact Function.update_of_ne (apart p (List.mem_of_getLast? last) a member).symm _ _
  have samePrev : ∀ a ∈ front, (s.erase e).prev a = s.prev a := by
    intro a member
    rw [erase_prev, Function.update_of_ne (inFront a member), next]
    cases first : back.head? with
    | none => rfl
    | some n => exact Function.update_of_ne (apart a member n (List.mem_of_head? first)) _ _
  constructor
  · rw [Links.segment_append, Option.or_none, Option.or_none]
    constructor
    · refine before.joinAfter ?_ samePrev ?_
      · intro a member
        rw [erase_next, Function.update_of_ne (inFront a (List.mem_of_mem_dropLast member)), prev]
        cases last : front.getLast? with
        | none => rfl
        | some p => exact Function.update_of_ne (ne_last parts.1 last member) _ _
      · intro p last
        rw [erase_next, Function.update_of_ne (inFront p (List.mem_of_getLast? last)), prev, last,
          next]
        exact Function.update_self ..
    · refine after.joinBefore sameNext ?_ ?_
      · intro a member
        rw [erase_prev, Function.update_of_ne (inBack a (List.mem_of_mem_tail member)), next]
        cases first : back.head? with
        | none => rfl
        | some n =>
            exact Function.update_of_ne
              (ne_first (List.nodup_cons.1 parts.2.1).2 first member) _ _
      · intro n first
        rw [erase_prev, Function.update_of_ne (inBack n (List.mem_of_head? first)), next, first,
          prev]
        exact Function.update_self ..
  · rw [erase_queue, holds.header, next]
    cases front with
    | nil => simp
    | cons h front => simp [inFront h List.mem_cons_self]
  · rw [erase_queue, holds.tailer, prev]
    cases last : back.getLast? with
    | none =>
        obtain rfl := List.getLast?_eq_none_iff.1 last
        simp
    | some t =>
        simp [List.getLast?_append, List.getLast?_cons, last, inBack t (List.mem_of_getLast? last)]
  · exact (List.nodup_cons.1 kept).2
  · rw [erase_queue]
    exact count_removed holds.count

theorem Holds.tryPop_nil (holds : s.Holds [] size) : s.tryPop = .ok (none, s) := by
  have header : s.queue.header = none := holds.header
  simp [Linkage.tryPop, header]

theorem tryPop_cons {node : Address bits} (header : s.queue.header = some node)
    (last : s.queue.tailer = some node → s.next node = none) : ∃ popped,
      s.tryPop = .ok (some node, popped) ∧
      popped.next = Function.update s.next node none ∧
      popped.prev = Function.update
        ((s.next node).elim s.prev fun h => Function.update s.prev h none) node none ∧
      popped.queue = {
        count := (s.queue.count + (2 ^ bits - 1)) % 2 ^ bits
        header := s.next node
        tailer := if s.queue.tailer = some node then none else s.queue.tailer } := by
  by_cases only : s.queue.tailer = some node
  · simp [Linkage.tryPop, header, only, last only]
  · cases next : s.next node <;> simp [Linkage.tryPop, header, only, next]

theorem Holds.tryPop_cons {node : Address bits} (holds : s.Holds (node :: items) size) :
    ∃ popped, s.tryPop = .ok (some node, popped) ∧ popped.Holds items (size - 1) ∧
      popped.next = Function.update s.next node none ∧
      popped.prev = Function.update
        (items.head?.elim s.prev fun h => Function.update s.prev h none) node none := by
  obtain ⟨-, next, linked⟩ := holds.linked
  rw [Option.or_none] at next
  obtain ⟨new, nodup⟩ := List.nodup_cons.1 holds.nodup
  have other : ∀ a ∈ items, a ≠ node := fun a member same => new (same ▸ member)
  have tailer := holds.tailer
  have last : s.queue.tailer = some node → s.next node = none := by
    intro only
    rw [next, List.head?_eq_none_iff]
    rw [tailer, List.getLast?_cons] at only
    cases ends : items.getLast? with
    | none => exact List.getLast?_eq_none_iff.1 ends
    | some t =>
        rw [ends] at only
        exact absurd (Option.some.inj only) (other t (List.mem_of_getLast? ends))
  obtain ⟨popped, pops, poppedNext, poppedPrev, queue⟩ := Linkage.tryPop_cons holds.header last
  rw [next] at poppedPrev queue
  refine ⟨popped, pops, ⟨?_, ?_, ?_, nodup, ?_⟩, poppedNext, poppedPrev⟩
  · refine linked.joinBefore ?_ ?_ ?_
    · intro a member
      rw [poppedNext, Function.update_of_ne (other a member)]
    · intro a member
      rw [poppedPrev, Function.update_of_ne (other a (List.mem_of_mem_tail member))]
      cases first : items.head? with
      | none => rfl
      | some h => exact Function.update_of_ne (ne_first nodup first member) _ _
    · intro h first
      rw [poppedPrev, Function.update_of_ne (other h (List.mem_of_head? first)), first]
      exact Function.update_self ..
  · rw [queue]
  · rw [queue, tailer, List.getLast?_cons]
    cases ends : items.getLast? with
    | none => simp
    | some t => simp [other t (List.mem_of_getLast? ends)]
  · rw [queue]
    exact count_removed holds.count

theorem Holds.erase_unlinked (holds : s.Holds items size) (out : e ∉ items)
    (next : s.next e = none) (prev : s.prev e = none) : (s.erase e).Holds items (size - 1) := by
  have header : s.queue.header ≠ some e := fun same =>
    out (List.mem_of_head? (holds.header.symm.trans same))
  have tailer : s.queue.tailer ≠ some e := fun same =>
    out (List.mem_of_getLast? (holds.tailer.symm.trans same))
  have sameNext : (s.erase e).next = s.next := by
    rw [erase_next, prev, Option.elim_none]
    exact (congrArg _ next.symm).trans (Function.update_eq_self e s.next)
  have samePrev : (s.erase e).prev = s.prev := by
    rw [erase_prev, next, Option.elim_none]
    exact (congrArg _ prev.symm).trans (Function.update_eq_self e s.prev)
  constructor
  · rw [sameNext, samePrev]
    exact holds.linked
  · rw [erase_queue, if_neg header]
    exact holds.header
  · rw [erase_queue, if_neg tailer]
    exact holds.tailer
  · exact holds.nodup
  · rw [erase_queue]
    exact count_removed holds.count

/-! ## What the operations leave alone -/

theorem pushBack_other (holds : s.Holds items size) {a : Address bits} (differs : a ≠ e)
    (out : a ∉ items) : (s.pushBack e).next a = s.next a ∧ (s.pushBack e).prev a = s.prev a := by
  constructor
  · rw [pushBack_next, holds.tailer]
    cases last : items.getLast? with
    | none => exact Function.update_of_ne differs _ _
    | some t =>
        have apart : a ≠ t := fun same => out (same ▸ List.mem_of_getLast? last)
        simp [apart, differs]
  · rw [pushBack_prev, Function.update_of_ne differs]

theorem pushFront_other (holds : s.Holds items size) {a : Address bits} (differs : a ≠ e)
    (out : a ∉ items) : (s.pushFront e).next a = s.next a ∧ (s.pushFront e).prev a = s.prev a := by
  constructor
  · rw [pushFront_next, Function.update_of_ne differs]
  · rw [pushFront_prev, holds.header]
    cases first : items.head? with
    | none => exact Function.update_of_ne differs _ _
    | some h =>
        have apart : a ≠ h := fun same => out (same ▸ List.mem_of_head? first)
        simp [apart, differs]

theorem erase_other {front back : List (Address bits)} (holds : s.Holds (front ++ e :: back) size)
    {a : Address bits} (differs : a ≠ e) (out : a ∉ front ++ e :: back) :
    (s.erase e).next a = s.next a ∧ (s.erase e).prev a = s.prev a := by
  have linked := holds.linked
  rw [Links.segment_append, Links.Segment, Option.or_none, Option.or_none] at linked
  obtain ⟨-, prev, next, -⟩ := linked
  rw [List.mem_append, List.mem_cons, not_or, not_or] at out
  constructor
  · rw [erase_next, Function.update_of_ne differs, prev]
    cases last : front.getLast? with
    | none => rfl
    | some p =>
        have apart : a ≠ p := fun same => out.1 (same ▸ List.mem_of_getLast? last)
        exact Function.update_of_ne apart _ _
  · rw [erase_prev, Function.update_of_ne differs, next]
    cases first : back.head? with
    | none => rfl
    | some n =>
        have apart : a ≠ n := fun same => out.2.2 (same ▸ List.mem_of_head? first)
        exact Function.update_of_ne apart _ _

theorem Holds.tryPop (holds : s.Holds items size) : ∃ popped,
    s.tryPop = .ok (items.head?, popped) ∧
      popped.Holds items.tail (if items = [] then size else size - 1) ∧
      (∀ a ∉ items, popped.next a = s.next a ∧ popped.prev a = s.prev a) ∧
      ∀ node ∈ items.head?, popped.next node = none ∧ popped.prev node = none := by
  cases items with
  | nil => exact ⟨s, holds.tryPop_nil, holds, fun _ _ => ⟨rfl, rfl⟩, by simp⟩
  | cons node items =>
      obtain ⟨popped, pops, rest, next, prev⟩ := holds.tryPop_cons
      refine ⟨popped, pops, rest, fun a out => ?_, fun b first => ?_⟩
      · rw [List.mem_cons, not_or] at out
        rw [next, prev, Function.update_of_ne out.1, Function.update_of_ne out.1]
        refine ⟨rfl, ?_⟩
        cases first : items.head? with
        | none => rfl
        | some h =>
            have apart : a ≠ h := fun same => out.2 (same ▸ List.mem_of_head? first)
            exact Function.update_of_ne apart _ _
      · cases first
        rw [next, prev]
        exact ⟨Function.update_self .., Function.update_self ..⟩

theorem erase_self (s : Linkage bits) (e : Address bits) :
    (s.erase e).next e = none ∧ (s.erase e).prev e = none := by
  rw [erase_next, erase_prev]
  exact ⟨Function.update_self .., Function.update_self ..⟩

theorem Holds.of_same {t : Linkage bits} (holds : s.Holds items size) (queue : t.queue = s.queue)
    (same : ∀ a ∈ items, t.next a = s.next a ∧ t.prev a = s.prev a) : t.Holds items size where
  linked := holds.linked.congr (fun a member => (same a member).1) fun a member => (same a member).2
  header := queue ▸ holds.header
  tailer := queue ▸ holds.tailer
  nodup := holds.nodup
  count := queue ▸ holds.count

end Linkage

end Librf
