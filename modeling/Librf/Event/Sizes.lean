import Librf.Event.Joined
import Librf.Event.WaitQueue

/-!
# The size of the wait queue

A state leaves its queue once, as long as nothing else takes it out after `on_timeout` or the
destructor of its awaiter has decided to do so.
-/

namespace Librf

namespace CountedEvent

variable {e e' : CountedEvent} {entry : EventEntry} {rest : List EventEntry}

/-! ## The queue in memory -/

def Shows {bits : Nat} (e : CountedEvent) (node : EventEntry → Address bits) (s : Linkage bits) :
    Prop :=
  s.Holds (e.waitAwakes.map node) e.size

section Linkage

variable {bits : Nat} {node : EventEntry → Address bits} {s : Linkage bits}

theorem Shows.addWaitList (shows_ : e.Shows node s) (new : node entry ∉ e.waitAwakes.map node) :
    (e.addWaitList entry).Shows node (s.pushBack (node entry)) := by
  have pushed := Linkage.Holds.pushBack shows_ new
  rwa [← List.map_singleton, ← List.map_append] at pushed

theorem Shows.tryPop (shows_ : e.Shows node s) : ∃ popped,
    s.tryPop = .ok (e.tryPop.1.map node, popped) ∧ e.tryPop.2.Shows node popped := by
  obtain ⟨popped, pops, rest, -⟩ := Linkage.Holds.tryPop shows_
  rw [List.head?_map] at pops
  cases queue : e.waitAwakes with
  | nil =>
      rw [queue] at pops rest
      have empty : e.tryPop = (none, e) := by simp [CountedEvent.tryPop, queue]
      refine ⟨popped, by rw [empty]; exact pops, ?_⟩
      rw [empty, Shows, queue]
      exact rest
  | cons entry items =>
      rw [queue] at pops rest
      have first : e.tryPop = (some entry, { e with waitAwakes := items, size := e.size - 1 }) := by
        simp [CountedEvent.tryPop, queue]
      refine ⟨popped, by rw [first]; exact pops, ?_⟩
      rw [first]
      exact rest

theorem Shows.removeWaitList (shows_ : e.Shows node s) (injective : Function.Injective node)
    (unlinked : entry ∉ e.waitAwakes → s.next (node entry) = none ∧ s.prev (node entry) = none) :
    (e.removeWaitList entry).Shows node (s.erase (node entry)) := by
  by_cases linked : entry ∈ e.waitAwakes
  · obtain ⟨front, back, split_⟩ := List.append_of_mem linked
    have nodup : e.waitAwakes.Nodup := shows_.nodup.of_map
    rw [split_] at nodup
    have before : entry ∉ front := fun member =>
      (List.nodup_append.1 nodup).2.2 entry member entry List.mem_cons_self rfl
    have holds : s.Holds (front.map node ++ node entry :: back.map node) e.size := by
      rw [← List.map_cons, ← List.map_append, ← split_]
      exact shows_
    have erased : (e.removeWaitList entry).waitAwakes = front ++ back := by
      rw [CountedEvent.removeWaitList, EventImpl.removeWaitList, split_,
        List.erase_append_right _ before, List.erase_cons_head]
    rw [Shows, erased, List.map_append]
    exact holds.erase
  · obtain ⟨next, prev⟩ := unlinked linked
    have outside : node entry ∉ e.waitAwakes.map node := by
      rwa [List.mem_map_of_injective injective]
    have erased : (e.removeWaitList entry).waitAwakes = e.waitAwakes :=
      List.erase_of_not_mem linked
    rw [Shows, erased]
    exact Linkage.Holds.erase_unlinked shows_ outside next prev

theorem Shows.size_eq (shows_ : e.Shows node s) (size : e.size = e.waitAwakes.length) :
    s.size = e.waitAwakes.length ∧ (s.size = 0 ↔ s.empty = true) := by
  have holds : s.Holds (e.waitAwakes.map node) (e.waitAwakes.map node).length := by
    rw [List.length_map, ← size]
    exact shows_
  have count := holds.size_eq
  rw [List.length_map] at count
  refine ⟨count, ?_⟩
  rw [count, Linkage.empty, shows_.header, List.head?_map, List.length_eq_zero_iff]
  cases e.waitAwakes <;> simp

end Linkage

/-! ## Its size -/

/-- No state is linked twice, and `size` is the number of the linked states. -/
structure Exact (e : CountedEvent) : Prop where
  size : e.size = e.waitAwakes.length
  nodup : e.waitAwakes.Nodup

@[simp] theorem tryWaitOne_waitAwakes (e : CountedEvent) :
    e.tryWaitOne.2.waitAwakes = e.waitAwakes :=
  Event.tryWaitOne_waitAwakes e.toEventImpl

theorem Exact.of_same (exact_ : e.Exact) (same : e'.waitAwakes = e.waitAwakes)
    (size : e'.size = e.size) : e'.Exact where
  size := by rw [size, same, exact_.size]
  nodup := same ▸ exact_.nodup

theorem Exact.tryWaitOne (exact_ : e.Exact) : e.tryWaitOne.2.Exact :=
  exact_.of_same e.tryWaitOne_waitAwakes rfl

theorem Exact.addWaitList (exact_ : e.Exact) (new : entry ∉ e.waitAwakes) :
    (e.addWaitList entry).Exact where
  size := by
    have size := exact_.size
    simp [CountedEvent.addWaitList, EventImpl.addWaitList, size]
  nodup := by
    refine List.nodup_append.2 ⟨exact_.nodup, List.nodup_singleton entry, ?_⟩
    intro a member b last same
    rw [List.mem_singleton] at last
    subst last same
    exact new member

theorem Exact.removeWaitList (exact_ : e.Exact) (linked : entry ∈ e.waitAwakes) :
    (e.removeWaitList entry).Exact where
  size := by
    have size := exact_.size
    have positive := List.length_pos_of_mem linked
    simp only [CountedEvent.removeWaitList, EventImpl.removeWaitList, List.length_erase_of_mem linked]
    omega
  nodup := exact_.nodup.erase entry

theorem tryPop_nil (empty : e.waitAwakes = []) : e.tryPop = (none, e) := by
  simp [CountedEvent.tryPop, empty]

theorem tryPop_cons (front : e.waitAwakes = entry :: rest) :
    e.tryPop = (some entry, { e with waitAwakes := rest, size := e.size - 1 }) := by
  simp [CountedEvent.tryPop, front]

theorem Exact.tryPop (exact_ : e.Exact) : e.tryPop.2.Exact := by
  cases queue : e.waitAwakes with
  | nil => rwa [tryPop_nil queue]
  | cons entry rest =>
      have size := exact_.size
      have nodup := exact_.nodup
      rw [queue] at size nodup
      rw [tryPop_cons queue]
      exact ⟨by rw [List.length_cons] at size; simp only; omega, (List.nodup_cons.1 nodup).2⟩

end CountedEvent

/-! ## The awaiters -/

/-- `linked`: the state is in its queue; `held`: it is, or a signal has it in its hand. -/
structure WaitAwaiter.Sound (a : WaitAwaiter) (linked held : Prop) : Prop where
  unclaimed : a.value = true → a.life ≠ .gone → held
  claimed : a.expiry = .claimed → linked ∧ a.value = false
  destroying : a.life = .destroying → linked ∧ a.expiry = .idle
  cause : a.life = .living → a.value = false → a.event = true →
    a.signaled = true ∨ a.expiry ≠ .idle

theorem WaitAwaiter.Sound.mono {a : WaitAwaiter} {linked held linked' held' : Prop}
    (sound : a.Sound linked held) (links : linked → linked') (holds : held → held') :
    a.Sound linked' held' where
  unclaimed := fun value life => holds (sound.unclaimed value life)
  claimed := fun expiry => (sound.claimed expiry).imp_left links
  destroying := fun life => (sound.destroying life).imp_left links
  cause := sound.cause

/-- `held` says which proxies their queues or the signals have. -/
structure JoinAwaiter.Sound (a : JoinAwaiter) (held : Nat → Nat → Prop) : Prop where
  enrolled : ∀ idx e, a.values[idx]? = some ⟨true, some e⟩ →
    0 < a.counter ∨ a.sweeping ≠ none → held idx e
  swept : a.sweeping ≠ none → a.counter ≤ 0
  blank : a.enlisted = false → ∀ (idx : Nat) sub, a.values[idx]? = some sub → sub.first = false

theorem JoinAwaiter.Sound.mono {a : JoinAwaiter} {held held' : Nat → Nat → Prop}
    (sound : a.Sound held) (holds : ∀ idx e, held idx e → held' idx e) : a.Sound held' where
  enrolled := fun idx e at_ live => holds idx e (sound.enrolled idx e at_ live)
  swept := sound.swept
  blank := sound.blank

namespace WaitQueues

variable {s t : WaitQueues} {e e' w j idx : Nat} {entry : EventEntry} {event : CountedEvent}

def Linked (s : WaitQueues) (e : Nat) (entry : EventEntry) : Prop :=
  entry ∈ (s.events e).waitAwakes

/-- A signal has taken `entry` out of the queue, and has not called `on_notify`. -/
def InHand (s : WaitQueues) (e : Nat) (entry : EventEntry) : Prop :=
  (s.sections e).hand = some entry

def Held (s : WaitQueues) (e : Nat) (entry : EventEntry) : Prop :=
  s.Linked e entry ∨ s.InHand e entry

def Known (s : WaitQueues) : EventEntry → Prop
  | .waiter w => w < s.waiting
  | .proxy j _ => j < s.joining ∧ (s.joins j).enlisted = true

def WaitSound (s : WaitQueues) (w : Nat) (a : WaitAwaiter) : Prop :=
  a.Sound (s.Linked a.target (.waiter w)) (s.Held a.target (.waiter w))

def JoinSound (s : WaitQueues) (j : Nat) (a : JoinAwaiter) : Prop :=
  a.Sound fun idx e => s.Held e (.proxy j idx)

structure Kept (s : WaitQueues) : Prop where
  exact_ : ∀ e, (s.events e).Exact
  known : ∀ e entry, s.Held e entry → s.Known entry
  waits : ∀ w < s.waiting, s.WaitSound w (s.waits w)
  joins : ∀ j < s.joining, s.JoinSound j (s.joins j)

structure Stays (s t : WaitQueues) (entry : EventEntry) : Prop where
  linked : ∀ e, s.Linked e entry → t.Linked e entry
  held : ∀ e, s.Held e entry → t.Held e entry

theorem WaitSound.stays {a : WaitAwaiter} (sound : s.WaitSound w a)
    (stays : Stays s t (.waiter w)) : t.WaitSound w a :=
  sound.mono (stays.linked _) (stays.held _)

theorem JoinSound.stays {a : JoinAwaiter} (sound : s.JoinSound j a)
    (stays : ∀ idx, Stays s t (.proxy j idx)) : t.JoinSound j a :=
  sound.mono fun idx e => (stays idx).held e

theorem Stays.of_same (linked : ∀ e, s.Linked e entry → t.Linked e entry)
    (sections : ∀ e, s.InHand e entry → t.InHand e entry) : Stays s t entry :=
  ⟨linked, fun e => Or.imp (linked e) (sections e)⟩

theorem stays_of_eq (events : ∀ e, (t.events e).waitAwakes = (s.events e).waitAwakes)
    (sections : t.sections = s.sections) (entry : EventEntry) : Stays s t entry := by
  apply Stays.of_same
  · intro e linked
    rw [Linked, events]
    exact linked
  · intro e hand
    rw [InHand, sections]
    exact hand

theorem Stays.refl (s : WaitQueues) (entry : EventEntry) : Stays s s entry :=
  ⟨fun _ => id, fun _ => id⟩

theorem Stays.setWait (stays : Stays s t entry) (w : Nat) (a : WaitAwaiter) :
    Stays s (t.setWait w a) entry :=
  ⟨stays.linked, stays.held⟩

theorem Stays.setJoin (stays : Stays s t entry) (j : Nat) (a : JoinAwaiter) :
    Stays s (t.setJoin j a) entry :=
  ⟨stays.linked, stays.held⟩

/-! ## What the steps change -/

@[simp] theorem setEvent_self (s : WaitQueues) (e : Nat) (event : CountedEvent) :
    (s.setEvent e event).events e = event :=
  Function.update_self ..

theorem setEvent_other (other : e' ≠ e) : (s.setEvent e event).events e' = s.events e' :=
  Function.update_of_ne other ..

@[simp] theorem setWait_self (s : WaitQueues) (w : Nat) (a : WaitAwaiter) :
    (s.setWait w a).waits w = a :=
  Function.update_self ..

theorem setWait_other {w' : Nat} {a : WaitAwaiter} (other : w' ≠ w) :
    (s.setWait w a).waits w' = s.waits w' :=
  Function.update_of_ne other ..

@[simp] theorem setJoin_self (s : WaitQueues) (j : Nat) (a : JoinAwaiter) :
    (s.setJoin j a).joins j = a :=
  Function.update_self ..

theorem setJoin_other {j' : Nat} {a : JoinAwaiter} (other : j' ≠ j) :
    (s.setJoin j a).joins j' = s.joins j' :=
  Function.update_of_ne other ..

@[simp] theorem enter_self (s : WaitQueues) (e : Nat) (section_ : WaitSection) :
    (s.enter e section_).sections e = section_ :=
  Function.update_self ..

theorem enter_other {section_ : WaitSection} (other : e' ≠ e) :
    (s.enter e section_).sections e' = s.sections e' :=
  Function.update_of_ne other ..

theorem linked_setEvent : (s.setEvent e event).Linked e' entry ↔
    if e' = e then entry ∈ event.waitAwakes else s.Linked e' entry := by
  by_cases same : e' = e
  · subst same
    rw [Linked, setEvent_self, if_pos rfl]
  · rw [Linked, setEvent_other same, if_neg same, Linked]

theorem inHand_enter {section_ : WaitSection} : (s.enter e section_).InHand e' entry ↔
    if e' = e then section_.hand = some entry else s.InHand e' entry := by
  by_cases same : e' = e
  · subst same
    rw [InHand, enter_self, if_pos rfl]
  · rw [InHand, enter_other same, if_neg same, InHand]

theorem stays_setEvent (keeps : entry ∈ (s.events e).waitAwakes → entry ∈ event.waitAwakes) :
    Stays s (s.setEvent e event) entry := by
  refine Stays.of_same (fun e' linked => ?_) fun _ hand => hand
  rw [linked_setEvent]
  split
  · rename_i same
    exact keeps (same ▸ linked)
  · exact linked

theorem stays_remove {x : EventEntry} (other : entry ≠ x) :
    Stays s (s.setEvent e ((s.events e).removeWaitList x)) entry :=
  stays_setEvent fun member => (List.mem_erase_of_ne other).2 member

theorem linked_of_remove {x : EventEntry}
    (member : (s.setEvent e ((s.events e).removeWaitList x)).Linked e' entry) :
    s.Linked e' entry := by
  rw [linked_setEvent] at member
  split at member
  · rename_i same
    exact same ▸ List.mem_of_mem_erase member
  · exact member

theorem linked_of_add {x : EventEntry}
    (member : (s.setEvent e ((s.events e).tryWaitOne.2.addWaitList x)).Linked e' entry) :
    s.Linked e' entry ∨ entry = x := by
  rw [linked_setEvent] at member
  split at member
  · rename_i same
    subst same
    rcases List.mem_append.1 member with before | last
    · rw [CountedEvent.tryWaitOne_waitAwakes] at before
      exact .inl before
    · exact .inr (List.mem_singleton.1 last)
  · exact .inl member

theorem exact_update {events : Nat → CountedEvent} (kept : ∀ e, (events e).Exact)
    (exact_ : event.Exact) (e' : Nat) : (Function.update events e event e').Exact := by
  by_cases same : e' = e
  · subst same
    rwa [Function.update_self]
  · rw [Function.update_of_ne same]
    exact kept e'

theorem stays_enter {section_ : WaitSection} (hand : ¬ s.InHand e entry) :
    Stays s (s.enter e section_) entry := by
  refine Stays.of_same (fun _ linked => linked) fun e' offered => ?_
  rw [inHand_enter, if_neg]
  · exact offered
  · rintro rfl
    exact hand offered

theorem Known.mono (known : s.Known entry) (waiting : s.waiting ≤ t.waiting)
    (joining : s.joining ≤ t.joining)
    (enlisted : ∀ j < s.joining, (s.joins j).enlisted = true → (t.joins j).enlisted = true) :
    t.Known entry := by
  cases entry with
  | waiter w => exact Nat.lt_of_lt_of_le known waiting
  | proxy j idx => exact ⟨Nat.lt_of_lt_of_le known.1 joining, enlisted j known.1 known.2⟩

/-! ## One step -/

namespace Kept

theorem recount (kept : Kept s) (same : event.waitAwakes = (s.events e).waitAwakes)
    (size : event.size = (s.events e).size) : Kept (s.setEvent e event) := by
  have queues : ∀ e', ((s.setEvent e event).events e').waitAwakes = (s.events e').waitAwakes := by
    intro e'
    by_cases here : e' = e
    · subst here
      rw [setEvent_self, same]
    · rw [setEvent_other here]
  have stays : ∀ entry, Stays s (s.setEvent e event) entry := stays_of_eq queues rfl
  constructor
  · exact exact_update kept.exact_ ((kept.exact_ e).of_same same size)
  · intro e' entry held
    refine (kept.known e' entry (held.imp_left fun linked => ?_)).mono le_rfl le_rfl fun _ _ => id
    rwa [Linked, queues] at linked
  · exact fun w bound => WaitSound.stays (kept.waits w bound) (stays _)
  · exact fun j bound => JoinSound.stays (kept.joins j bound) fun idx => stays _

theorem enter (kept : Kept s) {section_ : WaitSection} (empty : section_.hand = none)
    (waits : ∀ w, s.InHand e (.waiter w) → (s.waits w).value = false)
    (joins : ∀ j idx, s.InHand e (.proxy j idx) → (s.joins j).values[idx]? = some ⟨true, some e⟩ →
      ¬ (0 < (s.joins j).counter ∨ (s.joins j).sweeping ≠ none)) :
    Kept (s.enter e section_) := by
  constructor
  · exact kept.exact_
  · intro e' entry held
    refine (kept.known e' entry (held.imp_right fun hand => ?_)).mono le_rfl le_rfl fun _ _ => id
    rw [inHand_enter, empty] at hand
    split at hand
    · cases hand
    · exact hand
  · intro w bound
    have sound := kept.waits w bound
    by_cases hand : s.InHand e (.waiter w)
    · have claimed := waits w hand
      refine ⟨fun value => ?_, sound.claimed, sound.destroying, sound.cause⟩
      exact absurd (claimed.symm.trans value) Bool.false_ne_true
    · exact sound.stays (stays_enter hand)
  · intro j bound
    have sound := kept.joins j bound
    refine ⟨fun idx e' at_ live => ?_, sound.swept, sound.blank⟩
    by_cases hand : s.InHand e (.proxy j idx)
    · by_cases same : e' = e
      · subst same
        exact absurd live (joins j idx hand at_)
      · refine (sound.enrolled idx e' at_ live).imp id fun offered => ?_
        rw [InHand, enter_other same]
        exact offered
    · exact (stays_enter hand).held e' (sound.enrolled idx e' at_ live)

theorem changeWait (kept : Kept s) {a : WaitAwaiter} (exact_ : ∀ e, (t.events e).Exact)
    (held : ∀ e entry, t.Held e entry → s.Held e entry)
    (stays : ∀ entry, entry ≠ .waiter w → Stays s t entry)
    (waits : t.waits = Function.update s.waits w a) (waiting : t.waiting = s.waiting)
    (joins : t.joins = s.joins) (joining : t.joining = s.joining) (sound : t.WaitSound w a) :
    Kept t := by
  constructor
  · exact exact_
  · intro e entry member
    refine (kept.known e entry (held e entry member)).mono waiting.ge joining.ge ?_
    exact fun j _ enlisted => by rwa [joins]
  · intro w' bound
    rw [waiting] at bound
    rw [waits]
    by_cases same : w' = w
    · subst same
      rwa [Function.update_self]
    · rw [Function.update_of_ne same]
      exact (kept.waits w' bound).stays (stays _ (by simpa using same))
  · intro j bound
    rw [joining] at bound
    rw [joins]
    exact (kept.joins j bound).stays fun idx => stays _ (by simp)

theorem changeJoin (kept : Kept s) {a : JoinAwaiter} (exact_ : ∀ e, (t.events e).Exact)
    (held : ∀ e entry, t.Held e entry → s.Held e entry)
    (stays : ∀ entry, (∀ idx, entry ≠ .proxy j idx) → Stays s t entry)
    (waits : t.waits = s.waits) (waiting : t.waiting = s.waiting)
    (joins : t.joins = Function.update s.joins j a) (joining : t.joining = s.joining)
    (enlisted : (s.joins j).enlisted = true → a.enlisted = true) (sound : t.JoinSound j a) :
    Kept t := by
  constructor
  · exact exact_
  · intro e entry member
    refine (kept.known e entry (held e entry member)).mono waiting.ge joining.ge ?_
    intro j' _ before
    rw [joins]
    by_cases same : j' = j
    · subst same
      rw [Function.update_self]
      exact enlisted before
    · rwa [Function.update_of_ne same]
  · intro w bound
    rw [waiting] at bound
    rw [waits]
    exact (kept.waits w bound).stays (stays _ (by simp))
  · intro j' bound
    rw [joining] at bound
    rw [joins]
    by_cases same : j' = j
    · subst same
      rwa [Function.update_self]
    · rw [Function.update_of_ne same]
      exact (kept.joins j' bound).stays fun idx => stays _ fun _ proxy => same (by cases proxy; rfl)

theorem setWait (kept : Kept s) {a : WaitAwaiter} (sound : s.WaitSound w a) :
    Kept (s.setWait w a) :=
  kept.changeWait kept.exact_ (fun _ _ held => held)
    (fun entry _ => (Stays.refl s entry).setWait w a) rfl rfl rfl rfl sound

theorem setJoin (kept : Kept s) {a : JoinAwaiter}
    (enlisted : (s.joins j).enlisted = true → a.enlisted = true) (sound : s.JoinSound j a) :
    Kept (s.setJoin j a) :=
  kept.changeJoin kept.exact_ (fun _ _ held => held)
    (fun entry _ => (Stays.refl s entry).setJoin j a) rfl rfl rfl rfl enlisted sound

theorem removeWait (kept : Kept s) {a : WaitAwaiter} (linked : s.Linked e (.waiter w))
    (sound : ∀ linked held : Prop, a.Sound linked held) :
    Kept ((s.setEvent e ((s.events e).removeWaitList (.waiter w))).setWait w a) := by
  refine kept.changeWait (exact_update kept.exact_ ((kept.exact_ e).removeWaitList linked)) ?_ ?_
    rfl rfl rfl rfl (sound _ _)
  · exact fun e' entry held => held.imp_left linked_of_remove
  · exact fun entry other => (stays_remove other).setWait w a

end Kept

/-! ### The signals -/

theorem not_inHand (empty : (s.sections e).hand = none) (entry : EventEntry) :
    ¬ s.InHand e entry := by
  rw [InHand, empty]
  exact (Option.some_ne_none entry).symm

theorem inHand_of_offering {all : Bool} (offering : s.sections e = .offering all entry) :
    s.InHand e entry := by
  rw [InHand, offering]
  rfl

theorem eq_of_inHand {all : Bool} {x : EventEntry} (offering : s.sections e = .offering all entry)
    (hand : s.InHand e x) : x = entry := by
  rw [InHand, offering] at hand
  exact (Option.some.inj hand).symm

section Pop

variable {all : Bool} {rest : List EventEntry}

theorem held_pop (popping : s.sections e = .popping all)
    (queue : (s.events e).waitAwakes = entry :: rest) (e' : Nat) (x : EventEntry) :
    ((s.setEvent e (s.events e).tryPop.2).enter e (.offering all entry)).Held e' x ↔
      s.Held e' x := by
  have linked : ((s.setEvent e (s.events e).tryPop.2).enter e (.offering all entry)).Linked e' x ↔
      if e' = e then x ∈ rest else s.Linked e' x := by
    rw [CountedEvent.tryPop_cons queue]
    exact linked_setEvent
  rw [Held, Held, linked, inHand_enter]
  by_cases same : e' = e
  · subst same
    have empty : ¬ s.InHand e' x := not_inHand (by rw [popping]; rfl) x
    simp only [if_true, WaitSection.hand, Option.some.injEq, Linked, queue, List.mem_cons, empty,
      or_false]
    rw [or_comm, eq_comm]
  · rw [if_neg same, if_neg same]
    rfl

theorem linked_pop (queue : (s.events e).waitAwakes = entry :: rest) {x : EventEntry}
    (other : x ≠ entry) (linked : s.Linked e' x) :
    ((s.setEvent e (s.events e).tryPop.2).enter e (.offering all entry)).Linked e' x := by
  refine linked_setEvent.2 ?_
  rw [CountedEvent.tryPop_cons queue]
  split
  · rename_i same
    subst same
    rw [Linked, queue] at linked
    exact (List.mem_cons.1 linked).resolve_left other
  · exact linked

theorem Kept.pop (kept : Kept s) (popping : s.sections e = .popping all)
    (queue : (s.events e).waitAwakes = entry :: rest)
    (orderly : ∀ w, entry = .waiter w →
      (s.waits w).expiry ≠ .claimed ∧ (s.waits w).life ≠ .destroying) :
    Kept ((s.setEvent e (s.events e).tryPop.2).enter e (.offering all entry)) := by
  have held := held_pop popping queue
  constructor
  · exact exact_update kept.exact_ (kept.exact_ e).tryPop
  · exact fun e' x holds => (kept.known e' x ((held e' x).1 holds)).mono le_rfl le_rfl fun _ _ => id
  · intro w bound
    have sound := kept.waits w bound
    by_cases mine : entry = .waiter w
    · obtain ⟨unclaimed, living⟩ := orderly w mine
      exact ⟨fun value life => (held _ _).2 (sound.unclaimed value life), fun claimed =>
        absurd claimed unclaimed, fun destroying => absurd destroying living, sound.cause⟩
    · exact sound.mono (linked_pop queue (Ne.symm mine)) (held _ _).2
  · exact fun j bound => (kept.joins j bound).mono fun idx e' => (held e' _).2

end Pop

theorem Kept.enter_of_empty (kept : Kept s) {section_ : WaitSection}
    (empty : (s.sections e).hand = none) (next : section_.hand = none) : Kept (s.enter e section_) :=
  kept.enter next (fun _ hand => absurd hand (not_inHand empty _))
    fun _ _ hand => absurd hand (not_inHand empty _)

theorem Kept.leave (kept : Kept s) (all : Bool) (empty : (s.sections e).hand = none) :
    Kept (s.leave e all) := by
  unfold WaitQueues.leave
  split
  · exact kept.enter_of_empty empty rfl
  · have recounted : Kept (s.setEvent e
        { s.events e with counter := (s.events e).counter + 1 }) := by
      apply kept.recount <;> rfl
    exact recounted.enter_of_empty empty rfl

end WaitQueues

namespace EventWaiter

variable (a : EventWaiter)

@[simp] theorem schedule_toStateEvent : a.schedule.toStateEvent = a.toStateEvent := by
  unfold schedule
  split <;> rfl

@[simp] theorem schedule_expiry : a.schedule.expiry = a.expiry := by
  unfold schedule
  split <;> rfl

@[simp] theorem schedule_signaled : a.schedule.signaled = a.signaled := by
  unfold schedule
  split <;> rfl

end EventWaiter

namespace StateEventAll

variable {st : StateEventAll} {idx i : Nat} {sub : SubState}

theorem onNotify_counter_le (st : StateEventAll) (idx : Nat) :
    (st.onNotify idx).2.counter ≤ st.counter := by
  rw [onNotify]
  split
  · exact Int.le_refl _
  · have less : (st.notified idx).counter ≤ st.counter := by
      simp only [notified]
      omega
    dsimp only
    split
    · unfold schedule
      split <;> exact less
    · exact less

theorem onNotify_values (missing : 0 < st.counter) :
    (st.onNotify idx).2.values = st.values.modify idx fun sub => { sub with first := false } := by
  rw [onNotify, if_neg (Int.not_le.2 missing)]
  dsimp only
  split
  · unfold schedule
    split <;> rfl
  · rfl

theorem onNotify_other (other : i ≠ idx) : (st.onNotify idx).2.values[i]? = st.values[i]? := by
  by_cases missing : 0 < st.counter
  · simp [onNotify_values missing, other.symm]
  · rw [Joining.onNotify_over (Int.not_lt.1 missing)]

theorem onNotify_self (at_ : (st.onNotify idx).2.values[idx]? = some sub) (first : sub.first = true) :
    st.counter ≤ 0 := by
  by_contra missing
  rw [onNotify_values (Int.not_le.1 missing), List.getElem?_modify_eq, Option.map_eq_map,
    Option.map_eq_some_iff] at at_
  obtain ⟨before, -, rfl⟩ := at_
  cases first

theorem onNotify_first (at_ : (st.onNotify idx).2.values[i]? = some sub) (first : sub.first = true) :
    st.values[i]? = some sub := by
  by_cases same : i = idx
  · subst same
    rwa [Joining.onNotify_over (onNotify_self at_ first)] at at_
  · rwa [onNotify_other same] at at_

end StateEventAll

namespace WaitQueues

variable {s t : WaitQueues} {e w j idx : Nat} {entry : EventEntry} {all : Bool}

theorem claim_some {a : StateEvent} (value : a.value = true) :
    a.claim = some { a with value := false } :=
  if_pos value

theorem claim_none {a : StateEvent} (value : a.value = false) : a.claim = none := by
  simp [StateEvent.claim, value]

theorem hand_answered (all accepts : Bool) :
    (if accepts && !all then .free else .popping all : WaitSection).hand = none := by
  split <;> rfl

theorem Kept.notify_waiter (kept : Kept s) (bound : w < s.waiting)
    (offering : s.sections e = .offering all (.waiter w)) : Kept (s.notify e all (.waiter w)) := by
  have sound := kept.waits w bound
  cases value : (s.waits w).value with
  | false =>
      rw [notify, claim_none value]
      refine kept.enter (hand_answered all false) (fun w' hand => ?_) fun j idx hand => ?_
      · cases eq_of_inHand offering hand
        exact value
      · cases eq_of_inHand offering hand
  | true =>
      rw [notify, claim_some value]
      have accepted : s.WaitSound w { s.waits w with
          toEventWaiter := (s.waits w).accept { (s.waits w).toStateEvent with value := false } } := by
        constructor
        · simp [EventWaiter.accept, StateEvent.notified]
        · intro claimed
          have before := (sound.claimed (by simpa [EventWaiter.accept] using claimed)).2
          rw [value] at before
          cases before
        · intro destroying
          simpa [EventWaiter.accept] using sound.destroying destroying
        · simp [EventWaiter.accept]
      refine (kept.setWait accepted).enter (hand_answered all true) (fun w' hand => ?_)
        fun j idx hand => ?_
      · cases eq_of_inHand offering hand
        simp [EventWaiter.accept, StateEvent.notified]
      · cases eq_of_inHand offering hand

theorem Kept.notify_proxy (kept : Kept s) (bound : j < s.joining)
    (offering : s.sections e = .offering all (.proxy j idx)) (unlocked : (s.joins j).sweeping = none) :
    Kept (s.notify e all (.proxy j idx)) := by
  have sound := kept.joins j bound
  have notified : s.JoinSound j
      { s.joins j with toStateEventAll := ((s.joins j).onNotify idx).2 } := by
    constructor
    · intro i e' at_ positive
      have less := (s.joins j).onNotify_counter_le idx
      have positive := positive.resolve_right (· unlocked)
      exact sound.enrolled i e' (StateEventAll.onNotify_first at_ rfl)
        (.inl (Int.lt_of_lt_of_le positive less))
    · exact fun sweeps => absurd unlocked sweeps
    · intro blank i sub at_
      by_contra first
      rw [Bool.not_eq_false] at first
      have before := sound.blank blank i sub (StateEventAll.onNotify_first at_ first)
      exact Bool.false_ne_true (before.symm.trans first)
  refine (kept.setJoin ?_ notified).enter (hand_answered all _) (fun w hand => ?_)
    fun j' i hand at_ positive => ?_
  · exact id
  · cases eq_of_inHand offering hand
  · cases eq_of_inHand offering hand
    rw [setJoin_self] at at_ positive
    have less := (s.joins j).onNotify_counter_le idx
    have finished := StateEventAll.onNotify_self at_ rfl
    have positive := positive.resolve_right (· unlocked)
    exact absurd (Int.lt_of_lt_of_le positive less) (Int.not_lt.2 finished)

/-! ### `wait` and `wait_for` -/

theorem Kept.awaitSuspend (kept : Kept s) (e handler : Nat) (timed : Bool) :
    Kept (s.awaitSuspend e handler timed) := by
  unfold WaitQueues.awaitSuspend
  dsimp only
  split
  · exact kept.recount (s.events e).tryWaitOne_waitAwakes rfl
  · have new : .waiter s.waiting ∉ (s.events e).tryWaitOne.2.waitAwakes := by
      rw [CountedEvent.tryWaitOne_waitAwakes]
      exact fun linked => Nat.lt_irrefl _ (kept.known e _ (.inl linked))
    have stays : ∀ entry, Stays s (s.setEvent e
        ((s.events e).tryWaitOne.2.addWaitList (.waiter s.waiting))) entry := by
      intro entry
      refine stays_setEvent fun member => List.mem_append_left _ ?_
      rwa [CountedEvent.tryWaitOne_waitAwakes]
    constructor
    · exact exact_update kept.exact_ ((kept.exact_ e).tryWaitOne.addWaitList new)
    · intro e' entry held
      have before : s.Held e' entry ∨ entry = .waiter s.waiting := by
        rcases held with member | hand
        · exact (linked_of_add member).imp_left .inl
        · exact .inl (.inr hand)
      rcases before with before | rfl
      · exact (kept.known e' entry before).mono (Nat.le_succ _) le_rfl fun _ _ => id
      · exact Nat.lt_succ_self _
    · intro w bound
      by_cases last : w = s.waiting
      · subst last
        have linked : (s.setEvent e
            ((s.events e).tryWaitOne.2.addWaitList (.waiter s.waiting))).Linked e
              (.waiter s.waiting) := by
          rw [Linked, setEvent_self]
          exact List.mem_append_right _ List.mem_cons_self
        dsimp only
        rw [setWait_self]
        exact ⟨fun _ _ => .inl linked, by simp, by simp, by simp⟩
      · dsimp only
        rw [setWait_other last]
        have before := kept.waits w (Nat.lt_of_le_of_ne (Nat.le_of_lt_succ bound) last)
        exact before.mono ((stays _).linked _) ((stays _).held _)
    · exact fun j bound => (kept.joins j bound).mono fun idx => (stays _).held

theorem Kept.timeout (kept : Kept s) (bound : w < s.waiting)
    (orderly : (s.waits w).value = true → (s.waits w).life = .living ∧
      ¬ s.InHand (s.waits w).target (.waiter w)) : Kept (s.timeout w) := by
  have sound := kept.waits w bound
  cases value : (s.waits w).value with
  | false =>
      rw [WaitQueues.timeout, claim_none value]
      exact kept
  | true =>
      rw [WaitQueues.timeout, claim_some value]
      obtain ⟨living, out⟩ := orderly value
      have linked := (sound.unclaimed value (by simp [living])).resolve_right out
      refine kept.setWait ⟨?_, fun _ => ⟨linked, rfl⟩, ?_, fun _ _ _ => .inr (by simp)⟩
      · exact fun unclaimed => absurd unclaimed Bool.false_ne_true
      · intro destroying
        cases living.symm.trans destroying

theorem Kept.unlink (kept : Kept s) (bound : w < s.waiting)
    (claimed : (s.waits w).expiry = .claimed) : Kept (s.unlink w) := by
  have sound := kept.waits w bound
  obtain ⟨linked, value⟩ := sound.claimed claimed
  have after : ∀ linked held : Prop,
      WaitAwaiter.Sound { s.waits w with expiry := .unlinked } linked held := by
    intro linked held
    refine ⟨fun unclaimed => ?_, by simp, fun destroying => ?_, fun _ _ _ => .inr (by simp)⟩
    · exact absurd (value.symm.trans unclaimed) Bool.false_ne_true
    · cases claimed.symm.trans (sound.destroying destroying).2
  unfold WaitQueues.unlink
  dsimp only
  split
  · exact kept.removeWait linked after
  · exact kept.setWait (after _ _)

theorem Kept.finishTimeout (kept : Kept s) (bound : w < s.waiting)
    (unlinked : (s.waits w).expiry = .unlinked) : Kept (s.finishTimeout w) := by
  have sound := kept.waits w bound
  refine kept.setWait ⟨?_, ?_, ?_, ?_⟩
  · intro value life
    exact sound.unclaimed (by simpa [EventWaiter.finishTimeout, StateEvent.expired] using value) life
  · simp [EventWaiter.finishTimeout]
  · intro destroying
    cases unlinked.symm.trans (sound.destroying destroying).2
  · simp [EventWaiter.finishTimeout, StateEvent.expired]

theorem Kept.destroy (kept : Kept s) (bound : w < s.waiting) (living : (s.waits w).life = .living)
    (orderly : (s.waits w).event = true → (s.waits w).signaled = false ∧
      (s.waits w).expiry = .idle ∧ ¬ s.InHand (s.waits w).target (.waiter w)) :
    Kept (s.destroy w) := by
  have sound := kept.waits w bound
  have waits : (s.waits w).value = true → s.Held (s.waits w).target (.waiter w) :=
    fun value => sound.unclaimed value (by simp [living])
  refine kept.setWait ⟨fun value _ => waits value, sound.claimed, ?_, ?_⟩
  · intro destroying
    have event : (s.waits w).event = true := by
      by_contra nameless
      simp [nameless] at destroying
    obtain ⟨unsignaled, idle, out⟩ := orderly event
    refine ⟨(waits ?_).resolve_right out, idle⟩
    by_contra claimed
    rw [Bool.not_eq_true] at claimed
    rcases sound.cause living claimed event with signaled | busy
    · exact Bool.false_ne_true (unsignaled.symm.trans signaled)
    · exact busy idle
  · intro still
    dsimp only at still
    split at still <;> cases still

theorem Kept.finishDestroy (kept : Kept s) (bound : w < s.waiting)
    (destroying : (s.waits w).life = .destroying) : Kept (s.finishDestroy w) := by
  obtain ⟨linked, idle⟩ := (kept.waits w bound).destroying destroying
  refine kept.removeWait linked fun linked held => ⟨by simp, ?_, by simp, by simp⟩
  intro claimed
  cases idle.symm.trans claimed

/-! ### `wait_all` and `wait_all_for` -/

theorem Kept.waitAll (kept : Kept s) (targets : List Nat) (handler : Nat) (timed : Bool) :
    Kept (s.waitAll targets handler timed) := by
  constructor
  · exact kept.exact_
  · intro e entry member
    refine (kept.known e entry member).mono le_rfl (Nat.le_succ _) fun j bound enlisted => ?_
    simp only [WaitQueues.waitAll]
    rwa [setJoin_other (Nat.ne_of_lt bound)]
  · exact fun w bound => kept.waits w bound
  · intro j bound
    by_cases last : j = s.joining
    · subst last
      simp only [WaitQueues.waitAll, setJoin_self]
      have fresh : ∀ (idx : Nat) sub, (List.replicate targets.length ({} : SubState))[idx]? = some sub →
          sub.first = false := by
        intro idx sub at_
        cases List.eq_of_mem_replicate (List.mem_of_getElem? at_)
        rfl
      refine ⟨fun idx e at_ => ?_, by simp, fun _ => fresh⟩
      cases fresh idx _ at_
    · simp only [WaitQueues.waitAll]
      rw [setJoin_other last]
      exact kept.joins j (Nat.lt_of_le_of_ne (Nat.le_of_lt_succ bound) last)

/-- The loop of `await_suspend2` has come to the position `idx`; it began with the events `before`. -/
structure Enrolling (before : Nat → CountedEvent) (j idx : Nat) (events : Nat → CountedEvent)
    (st : StateEventAll) : Prop where
  exact_ : ∀ e, (events e).Exact
  kept : ∀ e entry, entry ∈ (before e).waitAwakes → entry ∈ (events e).waitAwakes
  added : ∀ e entry, entry ∈ (events e).waitAwakes →
    entry ∈ (before e).waitAwakes ∨ ∃ i < idx, entry = .proxy j i
  blank : ∀ i sub, idx ≤ i → st.values[i]? = some sub → sub.first = false
  enrolled : ∀ i e, st.values[i]? = some ⟨true, some e⟩ → .proxy j i ∈ (events e).waitAwakes

section Enrolling

variable {before events : Nat → CountedEvent} {st : StateEventAll}

theorem Enrolling.added_succ (loop : Enrolling before j idx events st) {e : Nat}
    (member : entry ∈ (events e).waitAwakes) :
    entry ∈ (before e).waitAwakes ∨ ∃ i < idx + 1, entry = .proxy j i := by
  rcases loop.added e entry member with earlier | ⟨i, less, same⟩
  · exact .inl earlier
  · exact .inr ⟨i, Nat.lt_succ_of_lt less, same⟩

theorem Enrolling.supply (loop : Enrolling before j idx events st) (e : Nat) :
    Enrolling before j (idx + 1) (Function.update events e (events e).tryWaitOne.2)
      (st.supply idx e) := by
  have queues : ∀ e', (Function.update events e (events e).tryWaitOne.2 e').waitAwakes =
      (events e').waitAwakes := by
    intro e'
    by_cases same : e' = e
    · subst same
      rw [Function.update_self, CountedEvent.tryWaitOne_waitAwakes]
    · rw [Function.update_of_ne same]
  have values : ∀ (i : Nat) sub, (st.supply idx e).values[i]? = some sub → sub.first = true →
      st.values[i]? = some sub := by
    intro i sub at_ first
    simp only [StateEventAll.supply, List.getElem?_modify] at at_
    obtain ⟨old, there, rfl⟩ := Option.map_eq_some_iff.1 at_
    by_cases same : idx = i
    · subst same
      rw [if_pos rfl] at first
      exact absurd ((loop.blank idx old le_rfl there).symm.trans first) Bool.false_ne_true
    · rwa [if_neg same]
  constructor
  · exact exact_update loop.exact_ (loop.exact_ e).tryWaitOne
  · intro e' entry member
    rw [queues]
    exact loop.kept e' entry member
  · intro e' entry member
    rw [queues] at member
    exact loop.added_succ member
  · intro i sub behind at_
    by_contra first
    rw [Bool.not_eq_false] at first
    have blank := loop.blank i sub (Nat.le_of_succ_le behind) (values i sub at_ first)
    exact Bool.false_ne_true (blank.symm.trans first)
  · intro i e' at_
    rw [queues]
    exact loop.enrolled i e' (values i _ at_ rfl)

theorem Enrolling.enroll (loop : Enrolling before j idx events st) (e : Nat)
    (new : ∀ e i, .proxy j i ∉ (before e).waitAwakes) :
    Enrolling before j (idx + 1)
      (Function.update events e ((events e).tryWaitOne.2.addWaitList (.proxy j idx)))
      (st.enroll idx e) := by
  have unlisted : .proxy j idx ∉ (events e).tryWaitOne.2.waitAwakes := by
    rw [CountedEvent.tryWaitOne_waitAwakes]
    intro member
    rcases loop.added e _ member with before | ⟨i, less, same⟩
    · exact new e idx before
    · cases same
      exact Nat.lt_irrefl _ less
  have joined : .proxy j idx ∈ (Function.update events e
      ((events e).tryWaitOne.2.addWaitList (.proxy j idx)) e).waitAwakes := by
    rw [Function.update_self]
    exact List.mem_append_right _ List.mem_cons_self
  have still : ∀ e' entry, entry ∈ (events e').waitAwakes → entry ∈ (Function.update events e
      ((events e).tryWaitOne.2.addWaitList (.proxy j idx)) e').waitAwakes := by
    intro e' entry member
    by_cases same : e' = e
    · subst same
      rw [Function.update_self]
      refine List.mem_append_left _ ?_
      rwa [CountedEvent.tryWaitOne_waitAwakes]
    · rwa [Function.update_of_ne same]
  constructor
  · exact exact_update loop.exact_ ((loop.exact_ e).tryWaitOne.addWaitList unlisted)
  · exact fun e' entry member => still e' entry (loop.kept e' entry member)
  · intro e' entry member
    by_cases last : entry = .proxy j idx
    · exact .inr ⟨idx, Nat.lt_succ_self idx, last⟩
    · have earlier : entry ∈ (events e').waitAwakes := by
        by_cases same : e' = e
        · subst same
          rw [Function.update_self] at member
          rcases List.mem_append.1 member with first | added
          · rwa [CountedEvent.tryWaitOne_waitAwakes] at first
          · exact absurd (List.mem_singleton.1 added) last
        · rwa [Function.update_of_ne same] at member
      exact loop.added_succ earlier
  · intro i sub behind at_
    have other : idx ≠ i := Nat.ne_of_lt behind
    simp only [StateEventAll.enroll, List.getElem?_modify, if_neg other, id_map'] at at_
    exact loop.blank i sub (Nat.le_of_succ_le behind) at_
  · intro i e' at_
    simp only [StateEventAll.enroll, List.getElem?_modify] at at_
    obtain ⟨old, there, changed⟩ := Option.map_eq_some_iff.1 at_
    by_cases same : idx = i
    · subst same
      rw [if_pos rfl] at changed
      cases changed
      exact joined
    · rw [if_neg same] at changed
      subst changed
      exact still e' _ (loop.enrolled i e' there)

theorem Enrolling.enlistFrom (loop : Enrolling before j idx events st)
    (new : ∀ e i, .proxy j i ∉ (before e).waitAwakes) (targets : List Nat) : ∃ last,
      Enrolling before j last (enlistFrom j targets idx events st).1
        (enlistFrom j targets idx events st).2 := by
  induction targets generalizing idx events st with
  | nil => exact ⟨idx, loop⟩
  | cons e rest ih =>
      rw [WaitQueues.enlistFrom]
      split
      · exact ih (loop.supply e)
      · exact ih (loop.enroll e new)

end Enrolling

theorem Kept.enlist (kept : Kept s) (bound : j < s.joining)
    (unlisted : (s.joins j).enlisted = false) (unlocked : (s.joins j).sweeping = none) :
    Kept (s.enlist j) := by
  have sound := kept.joins j bound
  have new : ∀ e i, .proxy j i ∉ (s.events e).waitAwakes := by
    intro e i linked
    have enlisted := (kept.known e _ (.inl linked)).2
    exact Bool.false_ne_true (unlisted.symm.trans enlisted)
  have start : Enrolling s.events j 0 s.events (s.joins j).toStateEventAll := by
    refine ⟨kept.exact_, fun _ _ => id, fun _ _ => .inl, fun i sub _ => sound.blank unlisted i sub, ?_⟩
    intro i e at_
    cases sound.blank unlisted i _ at_
  obtain ⟨last, loop⟩ := start.enlistFrom new (s.joins j).targets
  unfold WaitQueues.enlist
  dsimp only
  generalize enlistFrom j (s.joins j).targets 0 s.events (s.joins j).toStateEventAll = enlisted
    at loop
  have stays : ∀ entry, Stays s { s with events := enlisted.1 } entry :=
    fun entry => .of_same (fun e => loop.kept e entry) fun _ => id
  constructor
  · exact loop.exact_
  · intro e entry held
    have before : s.Held e entry ∨ ∃ i, entry = .proxy j i := by
      rcases held with member | hand
      · rcases loop.added e entry member with earlier | ⟨i, -, same⟩
        · exact .inl (.inl earlier)
        · exact .inr ⟨i, same⟩
      · exact .inl (.inr hand)
    rcases before with before | ⟨i, rfl⟩
    · refine (kept.known e entry before).mono le_rfl le_rfl fun j' _ listed => ?_
      by_cases same : j' = j
      · subst same
        rw [setJoin_self]
      · rwa [setJoin_other same]
    · refine ⟨bound, ?_⟩
      rw [setJoin_self]
  · exact fun w bound => WaitSound.stays (kept.waits w bound) ((stays _).setJoin j _)
  · intro j' bound'
    by_cases same : j' = j
    · subst same
      rw [setJoin_self]
      refine ⟨fun i e at_ _ => .inl (loop.enrolled i e at_), fun sweeps => ?_, by simp⟩
      exact absurd unlocked sweeps
    · rw [setJoin_other same]
      exact JoinSound.stays (kept.joins j' bound') fun idx => (stays _).setJoin j _

theorem Kept.timeoutAll (kept : Kept s) (bound : j < s.joining) : Kept (s.timeoutAll j) := by
  have sound := kept.joins j bound
  by_cases finished : (s.joins j).counter ≤ 0
  · have stays : (s.joins j).expire = none := if_pos finished
    rw [WaitQueues.timeoutAll, stays]
    refine kept.setJoin ?_ ⟨sound.enrolled, sound.swept, sound.blank⟩
    exact id
  · have expired : (s.joins j).expire = some { (s.joins j).toStateEventAll with
        counter := 0, result := false, timer := false, expired := true } := if_neg finished
    rw [WaitQueues.timeoutAll, expired]
    refine kept.setJoin ?_ ⟨?_, fun _ => le_rfl, sound.blank⟩
    · exact id
    · exact fun idx e at_ _ => sound.enrolled idx e at_ (.inl (Int.not_le.1 finished))

end WaitQueues

namespace StateEventAll

variable {st : StateEventAll} {idx i e : Nat} {sub : SubState}

theorem forget_first (at_ : (st.forget idx).2.values[i]? = some sub) :
    ∃ old, st.values[i]? = some old ∧ old.first = sub.first := by
  unfold forget at at_
  split at at_
  · simp only [List.getElem?_modify] at at_
    obtain ⟨old, there, rfl⟩ := Option.map_eq_some_iff.1 at_
    refine ⟨old, there, ?_⟩
    split <;> rfl
  · exact ⟨sub, at_, rfl⟩

theorem forget_enrolled (at_ : (st.forget idx).2.values[i]? = some ⟨true, some e⟩) :
    i ≠ idx ∧ st.values[i]? = some ⟨true, some e⟩ := by
  by_cases same : i = idx
  · subst same
    unfold forget at at_
    split at at_
    · simp only [List.getElem?_modify_eq] at at_
      obtain ⟨old, -, changed⟩ := Option.map_eq_some_iff.1 at_
      cases congrArg SubState.second changed
    · rename_i other
      exact absurd at_ (other (some e))
  · exact ⟨same, (forget_other same).symm.trans at_⟩

theorem forget_some (event : (st.forget idx).1 = some e) :
    st.values[idx]? = some ⟨true, some e⟩ := by
  unfold forget at event
  split at event
  · rename_i second at_
    rw [at_, ← event]
  · cases event

theorem forget_counter (st : StateEventAll) (idx : Nat) : (st.forget idx).2.counter = st.counter := by
  obtain ⟨values, forgotten⟩ := forget_frame st idx
  rw [forgotten]

end StateEventAll

namespace WaitQueues

variable {s t : WaitQueues} {e w j idx : Nat} {entry : EventEntry} {rest : List Nat}

theorem Kept.sweep (kept : Kept s) (bound : j < s.joining) (swept : s.sweep j = some t) : Kept t := by
  have sound := kept.joins j bound
  cases sweeping : (s.joins j).sweeping with
  | none =>
      simp only [WaitQueues.sweep, sweeping] at swept
      cases swept
  | some left =>
      have zero : (s.joins j).counter ≤ 0 := sound.swept (by simp [sweeping])
      cases left with
      | nil =>
          simp only [WaitQueues.sweep, sweeping] at swept
          cases swept
          have scheduled : (s.joins j).schedule.values = (s.joins j).values ∧
              (s.joins j).schedule.counter = (s.joins j).counter := by
            unfold StateEventAll.schedule
            split <;> exact ⟨rfl, rfl⟩
          refine kept.setJoin ?_ ⟨?_, by simp, ?_⟩
          · exact id
          · intro i e _ live
            rw [scheduled.2] at live
            exact absurd (live.resolve_right (· rfl)) (Int.not_lt.2 zero)
          · rw [scheduled.1]
            exact sound.blank
      | cons idx rest =>
          -- the position is behind the loop, whether or not a proxy waits for it
          have after : ∀ u : WaitQueues,
              (∀ i, i ≠ idx → Stays s u (.proxy j i)) → u.JoinSound j { s.joins j with
                toStateEventAll := ((s.joins j).forget idx).2, sweeping := some rest } := by
            intro u stays
            refine ⟨fun i e at_ _ => ?_, fun _ => ?_, fun blank i sub at_ => ?_⟩
            · obtain ⟨other, before⟩ := StateEventAll.forget_enrolled at_
              exact (stays i other).held e (sound.enrolled i e before (.inr (by simp [sweeping])))
            · exact (StateEventAll.forget_counter _ _).trans_le zero
            · obtain ⟨old, before, same⟩ := StateEventAll.forget_first at_
              exact same.symm.trans (sound.blank blank i old before)
          simp only [WaitQueues.sweep, sweeping] at swept
          split at swept
          · cases swept
            refine kept.setJoin ?_ (after s fun i _ => Stays.refl s _)
            exact id
          · rename_i e event
            split at swept
            · rename_i free
              cases swept
              have linked : s.Linked e (.proxy j idx) := by
                refine Or.resolve_right (sound.enrolled idx e (StateEventAll.forget_some event)
                  (.inr (by simp [sweeping]))) (not_inHand ?_ _)
                rw [free]
                rfl
              have stays : ∀ a entry, entry ≠ .proxy j idx → Stays s ((s.setJoin j a).setEvent e
                  ((s.events e).removeWaitList (.proxy j idx))) entry := by
                intro a entry other
                have moved := stays_remove (s := s) (e := e) other
                exact ⟨moved.linked, moved.held⟩
              refine kept.changeJoin (exact_update kept.exact_ ((kept.exact_ e).removeWaitList linked))
                ?_ ?_ rfl rfl rfl rfl ?_ ?_
              · exact fun e' entry held => held.imp_left (linked_of_remove (s := s))
              · exact fun entry other => stays _ entry (other idx)
              · exact id
              · exact after _ fun i other => stays _ _ (by simpa using other)
            · cases swept

/-! ## The runs -/

/-- What goes wrong is left out: a state leaves its queue, or `on_timeout` begins, after something
else has decided to take it out; or an awaiter or a state is gone that is still written to. -/
def Orderly (s : WaitQueues) : QueueCall → Prop
  -- `~batch_lock_t` writes to the state: the timer keeps it, or `_counter` does not reach zero
  | .enlist j => (s.joins j).timer = true ∨
      (s.joins j).expired = false ∧
        (∃ e ∈ (s.joins j).targets, (s.events e).counter < (s.joins j).targets.count e) ∨
      (s.joins j).expired = true ∧ ∃ e ∈ (s.joins j).targets, 0 < (s.events e).counter
  -- neither `on_timeout` nor `~awaiter` is about to remove the first state
  | .pop e => match (s.events e).waitAwakes with
      | .waiter w :: _ => (s.waits w).expiry ≠ .claimed ∧ (s.waits w).life ≠ .destroying
      | _ => True
  -- the timer keeps a `state_event_all_t`, but not the awaiter that the last token writes to
  | .notify e => match s.sections e with
      | .offering _ (.proxy j _) => (s.joins j).life = .living ∨
          (s.joins j).timer = true ∧ (s.joins j).counter ≠ 1
      | _ => True
  | .timeout w => (s.waits w).value = true → (s.waits w).life = .living ∧
      ¬ s.InHand (s.waits w).target (.waiter w)
  | .timeoutAll j => 0 < (s.joins j).counter → (s.joins j).life = .living
  -- the awaiter of a state that has been notified still names its event
  | .destroy w => (s.waits w).event = true → (s.waits w).signaled = false ∧
      (s.waits w).expiry = .idle ∧ ¬ s.InHand (s.waits w).target (.waiter w)
  | _ => True

theorem Kept.step (kept : Kept s) {call : QueueCall} (orderly : s.Orderly call)
    (action : s.step call = some t) : Kept t := by
  cases call with
  | awaitReady e =>
      obtain ⟨-, action⟩ := Option.ite_none_right_eq_some.1 action
      cases action
      exact kept.recount (s.events e).tryWaitOne_waitAwakes rfl
  | awaitSuspend e handler timed =>
      obtain ⟨-, action⟩ := Option.ite_none_right_eq_some.1 action
      cases action
      exact kept.awaitSuspend e handler timed
  | waitAll targets handler timed =>
      obtain ⟨-, action⟩ := Option.ite_none_right_eq_some.1 action
      cases action
      exact kept.waitAll targets handler timed
  | enlist j =>
      obtain ⟨⟨bound, unlisted, unlocked, -⟩, action⟩ := Option.ite_none_right_eq_some.1 action
      cases action
      exact kept.enlist bound unlisted unlocked
  | signal e all =>
      obtain ⟨free, action⟩ := Option.ite_none_right_eq_some.1 action
      cases action
      exact kept.enter_of_empty (by rw [free]; rfl) rfl
  | pop e =>
      simp only [WaitQueues.step] at action
      split at action
      · rename_i all entry popped popping pops
        cases action
        cases queue : (s.events e).waitAwakes with
        | nil => cases pops.symm.trans (CountedEvent.tryPop_nil queue)
        | cons first rest =>
            have first_ := pops.symm.trans (CountedEvent.tryPop_cons queue)
            rw [Prod.mk.injEq, Option.some.injEq] at first_
            obtain ⟨rfl, -⟩ := first_
            have result : popped = (s.events e).tryPop.2 := by rw [pops]
            rw [result]
            refine kept.pop popping queue fun w mine => ?_
            subst mine
            simpa only [Orderly, queue] using orderly
      · cases action
  | notify e =>
      simp only [WaitQueues.step] at action
      split at action
      · rename_i all entry offering
        obtain ⟨unlocked, action⟩ := Option.ite_none_right_eq_some.1 action
        cases action
        have known := kept.known e entry (.inr (inHand_of_offering offering))
        cases entry with
        | waiter w => exact kept.notify_waiter known offering
        | proxy j idx =>
            exact kept.notify_proxy known.1 offering (Option.isNone_iff_eq_none.1 unlocked)
      · cases action
  | leave e =>
      simp only [WaitQueues.step] at action
      split at action
      · rename_i all popped popping pops
        cases action
        exact kept.leave all (by rw [popping]; rfl)
      · cases action
  | timeout w =>
      obtain ⟨⟨bound, -⟩, action⟩ := Option.ite_none_right_eq_some.1 action
      cases action
      exact kept.timeout bound orderly
  | removeWaitList w =>
      obtain ⟨⟨bound, claimed, -⟩, action⟩ := Option.ite_none_right_eq_some.1 action
      cases action
      exact kept.unlink bound claimed
  | finishTimeout w =>
      obtain ⟨⟨bound, unlinked⟩, action⟩ := Option.ite_none_right_eq_some.1 action
      cases action
      exact kept.finishTimeout bound unlinked
  | timeoutAll j =>
      obtain ⟨⟨bound, -⟩, action⟩ := Option.ite_none_right_eq_some.1 action
      cases action
      exact kept.timeoutAll bound
  | sweep j =>
      obtain ⟨bound, swept⟩ := Option.ite_none_right_eq_some.1 action
      exact kept.sweep bound swept
  | resume w =>
      obtain ⟨⟨bound, -⟩, action⟩ := Option.ite_none_right_eq_some.1 action
      cases action
      have sound := kept.waits w bound
      exact kept.setWait ⟨sound.unclaimed, sound.claimed, sound.destroying, sound.cause⟩
  | resumeAll j =>
      obtain ⟨⟨bound, -⟩, action⟩ := Option.ite_none_right_eq_some.1 action
      cases action
      have sound := kept.joins j bound
      exact kept.setJoin (fun enlisted => enlisted) ⟨sound.enrolled, sound.swept, sound.blank⟩
  | destroy w =>
      obtain ⟨⟨bound, living⟩, action⟩ := Option.ite_none_right_eq_some.1 action
      cases action
      exact kept.destroy bound living orderly
  | finishDestroy w =>
      obtain ⟨⟨bound, destroying, -⟩, action⟩ := Option.ite_none_right_eq_some.1 action
      cases action
      exact kept.finishDestroy bound destroying
  | destroyAll j =>
      obtain ⟨⟨bound, -⟩, action⟩ := Option.ite_none_right_eq_some.1 action
      cases action
      have sound := kept.joins j bound
      exact kept.setJoin (fun enlisted => enlisted) ⟨sound.enrolled, sound.swept, sound.blank⟩

theorem kept_initial (counters : Nat → Int) : Kept (system counters).init := by
  constructor
  · exact fun e => ⟨rfl, List.nodup_nil⟩
  · intro e entry held
    rcases held with linked | hand
    · cases linked
    · cases hand
  · exact fun w bound => absurd bound (Nat.not_lt_zero w)
  · exact fun j bound => absurd bound (Nat.not_lt_zero j)

theorem kept_of_reachable {counters : Nat → Int}
    (reachable : (system counters).ReachableBy Orderly s) : Kept s := by
  have inductive_ : (system counters).Inductive Orderly Kept :=
    ⟨kept_initial counters, fun _ _ _ _ kept orderly action => kept.step orderly action⟩
  exact inductive_.holds reachable

/-- The calls of `remove_wait_list` that have been decided on and do not wait for a lock. -/
inductive Removing (s : WaitQueues) : Nat → EventEntry → Prop
  | timeout {w : Nat} (bound : w < s.waiting) (claimed : (s.waits w).expiry = .claimed)
      (event : (s.waits w).event = true) : Removing s (s.waits w).target (.waiter w)
  | destructor {w : Nat} (bound : w < s.waiting) (destroying : (s.waits w).life = .destroying) :
      Removing s (s.waits w).target (.waiter w)
  | sweep {j idx e : Nat} {rest : List Nat} (bound : j < s.joining)
      (sweeping : (s.joins j).sweeping = some (idx :: rest))
      (event : ((s.joins j).forget idx).1 = some e) (free : s.sections e = .free) :
      Removing s e (.proxy j idx)

structure Sized (s : WaitQueues) : Prop where
  size : ∀ e, (s.events e).size = (s.events e).waitAwakes.length
  once : ∀ e, (s.events e).waitAwakes.Nodup
  empty : ∀ e, (s.events e).size = 0 ↔ (s.events e).waitAwakes = []
  nonneg : ∀ e, 0 ≤ (s.events e).size
  linked : ∀ e entry, s.Removing e entry → entry ∈ (s.events e).waitAwakes

/-- As long as no awaiter is destroyed after its state has been notified, and no state is taken out
by two parties, the queues know their sizes and every `remove_wait_list` finds its state. -/
theorem sized_of_reachable {counters : Nat → Int}
    (reachable : (system counters).ReachableBy Orderly s) : s.Sized := by
  have kept := kept_of_reachable reachable
  constructor
  · exact fun e => (kept.exact_ e).size
  · exact fun e => (kept.exact_ e).nodup
  · intro e
    rw [(kept.exact_ e).size, Int.natCast_eq_zero, List.length_eq_zero_iff]
  · intro e
    rw [(kept.exact_ e).size]
    exact Int.natCast_nonneg _
  · intro e entry removing
    cases removing with
    | timeout bound claimed event => exact ((kept.waits _ bound).claimed claimed).1
    | destructor bound destroying => exact ((kept.waits _ bound).destroying destroying).1
    | @sweep j idx _ _ bound sweeping event free =>
        have held := (kept.joins j bound).enrolled idx e (StateEventAll.forget_some event)
          (.inr (by simp [sweeping]))
        exact held.resolve_right (not_inHand (by rw [free]; rfl) _)

instance (s : WaitQueues) (e : Nat) (entry : EventEntry) : Decidable (s.InHand e entry) :=
  inferInstanceAs (Decidable ((s.sections e).hand = some entry))

instance (s : WaitQueues) (call : QueueCall) : Decidable (s.Orderly call) := by
  unfold Orderly
  split <;> try split
  all_goals infer_instance

/-- Two awaiters of one event; the first one is signalled and resumed, the second one times out, and
then it is destroyed; a `wait_all` for the same event is destroyed while it waits. -/
theorem sized_of_reachable_expired : ∃ s, (system fun _ => 0).ReachableBy Orderly s ∧
    (s.events 0).waitAwakes = [.proxy 0 0] ∧ s.Sized := by
  obtain ⟨s, reachable, queue⟩ := (system fun _ => 0).reachableBy_of_replay Orderly
    [.awaitSuspend 0 1 false, .awaitSuspend 0 2 true, .waitAll [0] 3 false, .enlist 0, .signal 0 false,
      .pop 0, .notify 0, .resume 0, .timeout 1, .removeWaitList 1, .finishTimeout 1, .resume 1,
      .destroy 1, .destroyAll 0]
    (fun s => (s.events 0).waitAwakes == [.proxy 0 0]) (by decide)
  exact ⟨s, reachable, by simpa using queue, sized_of_reachable reachable⟩

/-- An awaiter is destroyed after its coroutine has been resumed by a signal. -/
theorem size_wraps : ¬ ∀ s, (system fun _ => 0).Reachable s → s.Sized := by
  intro holds
  obtain ⟨s, reachable, wrapped⟩ := (system fun _ => 0).reachable_of_replay
    [.awaitSuspend 0 1 false, .signal 0 false, .pop 0, .notify 0, .resume 0, .destroy 0,
      .finishDestroy 0]
    (fun s => decide ((s.events 0).size = -1)) (by decide)
  have nonneg := (holds s reachable).nonneg 0
  rw [of_decide_eq_true wrapped] at nonneg
  exact absurd nonneg (by decide)

end WaitQueues

end Librf
