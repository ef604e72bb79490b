import Librf.IntrusiveLinkQueue.Model

/-!
# Several queues over one memory
-/

namespace Librf

inductive LinkAction (bits : Nat) (ι : Type*)
  | pushBack (q : ι) (e : Address bits)
  | pushFront (q : ι) (e : Address bits)
  | erase (q : ι) (e : Address bits)
  | tryPop (q : ι)
  deriving DecidableEq, Repr

structure LinkQueues (bits : Nat) (ι : Type*) where
  nodes : Address bits → LinkNode bits
  queues : ι → IntrusiveLinkQueue bits := fun _ => {}

namespace LinkQueues

variable {bits : Nat} {ι : Type*} [DecidableEq ι]

def view (s : LinkQueues bits ι) (q : ι) : Linkage bits := ⟨s.nodes, s.queues q⟩

def put (s : LinkQueues bits ι) (q : ι) (linkage : Linkage bits) : LinkQueues bits ι :=
  { nodes := linkage.nodes, queues := Function.update s.queues q linkage.queue }

def step (s : LinkQueues bits ι) :
    LinkAction bits ι → Except Fault (Option (Address bits) × LinkQueues bits ι)
  | .pushBack q e => .ok (none, s.put q ((s.view q).pushBack e))
  | .pushFront q e => .ok (none, s.put q ((s.view q).pushFront e))
  | .erase q e => .ok (none, s.put q ((s.view q).erase e))
  | .tryPop q => (s.view q).tryPop.map fun popped => (popped.1, s.put q popped.2)

def run : LinkQueues bits ι → List (LinkAction bits ι) →
    Except Fault (List (Option (Address bits)) × LinkQueues bits ι)
  | s, [] => .ok ([], s)
  | s, action :: rest => do
      let (popped, s) ← s.step action
      let (results, s) ← s.run rest
      return (popped :: results, s)

end LinkQueues

structure LinkLists (bits : Nat) (ι : Type*) where
  lists : ι → List (Address bits) := fun _ => []
  -- the nodes that have been in a queue
  pushed : List (Address bits) := []

namespace LinkLists

variable {bits : Nat} {ι : Type*} [DecidableEq ι]

def set (a : LinkLists bits ι) (q : ι) (items : List (Address bits)) : LinkLists bits ι :=
  { a with lists := Function.update a.lists q items }

/-- A node is pushed when it is in no queue, and erased from the queue that it is in. -/
def Allowed (a : LinkLists bits ι) : LinkAction bits ι → Prop
  | .pushBack _ e | .pushFront _ e => ∀ q, e ∉ a.lists q
  | .erase q e => e ∈ a.lists q
  | .tryPop _ => True

def apply (a : LinkLists bits ι) : LinkAction bits ι → Option (Address bits) × LinkLists bits ι
  | .pushBack q e => (none, { a.set q (a.lists q ++ [e]) with pushed := e :: a.pushed })
  | .pushFront q e => (none, { a.set q (e :: a.lists q) with pushed := e :: a.pushed })
  | .erase q e => (none, a.set q ((a.lists q).erase e))
  | .tryPop q => ((a.lists q).head?, a.set q (a.lists q).tail)

def run : LinkLists bits ι → List (LinkAction bits ι) →
    List (Option (Address bits)) × LinkLists bits ι
  | a, [] => ([], a)
  | a, action :: rest =>
      let (popped, a) := a.apply action
      let (results, a) := a.run rest
      (popped :: results, a)

def Valid : LinkLists bits ι → List (LinkAction bits ι) → Prop
  | _, [] => True
  | a, action :: rest => a.Allowed action ∧ (a.apply action).2.Valid rest

def KeepsOrder (a later : LinkLists bits ι) : Prop :=
  ∀ q, ((later.lists q).filter (· ∈ a.lists q)).Sublist (a.lists q)

end LinkLists

namespace LinkQueues

variable {bits : Nat} {ι : Type*} [DecidableEq ι]

structure Matches (s : LinkQueues bits ι) (a : LinkLists bits ι) : Prop where
  holds : ∀ q, (s.view q).Holds (a.lists q) (a.lists q).length
  apart : ∀ q q', q ≠ q' → ∀ e ∈ a.lists q, e ∉ a.lists q'
  removed : ∀ e ∈ a.pushed, (∀ q, e ∉ a.lists q) → s.nodes e = ⟨none, none⟩

variable {s : LinkQueues bits ι} {a : LinkLists bits ι} {q : ι}

omit [DecidableEq ι] in
theorem Matches.initial (nodes : Address bits → LinkNode bits) :
    Matches ({ nodes } : LinkQueues bits ι) {} where
  holds _ := ⟨trivial, rfl, rfl, .nil, rfl⟩
  apart _ _ _ _ member := absurd member List.not_mem_nil
  removed _ member := absurd member List.not_mem_nil

theorem Matches.put {linkage : Linkage bits} {items pushed : List (Address bits)} {size : Int}
    (matches_ : s.Matches a) (holds : linkage.Holds items size) (sized : size = items.length)
    (members : ∀ e ∈ items, e ∈ a.lists q ∨ ∀ q', e ∉ a.lists q')
    (others : ∀ e, e ∉ a.lists q → e ∉ items → linkage.nodes e = s.nodes e)
    (gone : ∀ e ∈ a.lists q, e ∉ items → linkage.nodes e = ⟨none, none⟩)
    (entered : ∀ e ∈ pushed, e ∈ items ∨ e ∈ a.pushed) :
    (s.put q linkage).Matches { a.set q items with pushed } := by
  have outside : ∀ q', q' ≠ q → ∀ e ∈ a.lists q', e ∉ a.lists q ∧ e ∉ items := by
    intro q' differs e member
    have out := matches_.apart q' q differs e member
    refine ⟨out, fun listed => ?_⟩
    rcases members e listed with inside | free
    · exact out inside
    · exact free q' member
  subst sized
  constructor
  · intro q'
    by_cases same : q' = q
    · subst same
      simpa [view, LinkQueues.put, LinkLists.set] using holds
    · have before := matches_.holds q'
      simp only [LinkLists.set, Function.update_of_ne same]
      refine before.of_same (Function.update_of_ne same _ _) fun e member => ?_
      have untouched := outside q' same e member
      have node := others e untouched.1 untouched.2
      exact ⟨congrArg LinkNode.next node, congrArg LinkNode.prev node⟩
  · intro q₁ q₂ differs e first second
    simp only [LinkLists.set, Function.update_apply] at first second
    split at first <;> split at second
    · simp_all
    · exact (outside q₂ ‹_› e second).2 first
    · exact (outside q₁ ‹_› e first).2 second
    · exact matches_.apart q₁ q₂ differs e first second
  · intro e member free
    have out : e ∉ items := by simpa [LinkLists.set] using free q
    by_cases inside : e ∈ a.lists q
    · exact gone e inside out
    · refine (others e inside out).trans (matches_.removed e ?_ fun q' => ?_)
      · exact (entered e member).resolve_left out
      · by_cases same : q' = q
        · exact same ▸ inside
        · simpa [LinkLists.set, Function.update_of_ne same] using free q'

theorem node_eq {linkage linkage' : Linkage bits} {e : Address bits}
    (same : linkage.next e = linkage'.next e ∧ linkage.prev e = linkage'.prev e) :
    linkage.nodes e = linkage'.nodes e := by
  cases first : linkage.nodes e
  cases second : linkage'.nodes e
  simp only [Linkage.next, Linkage.prev, first, second] at same
  rw [same.1, same.2]

theorem node_null {linkage : Linkage bits} {e : Address bits}
    (null : linkage.next e = none ∧ linkage.prev e = none) : linkage.nodes e = ⟨none, none⟩ := by
  cases node : linkage.nodes e
  simp only [Linkage.next, Linkage.prev, node] at null
  rw [null.1, null.2]

theorem Matches.step {action : LinkAction bits ι} (matches_ : s.Matches a)
    (allowed : a.Allowed action) : ∃ t, s.step action = .ok ((a.apply action).1, t) ∧
      t.Matches (a.apply action).2 := by
  cases action with
  | pushBack q e =>
      have holds := matches_.holds q
      refine ⟨_, rfl, matches_.put (holds.pushBack (allowed q)) (by simp) ?_ ?_ ?_ ?_⟩
      · intro b listed
        rcases List.mem_append.1 listed with inside | last
        · exact .inl inside
        · exact .inr (List.mem_singleton.1 last ▸ allowed)
      · intro b inside out
        have differs : b ≠ e := fun same => out (by simp [same])
        exact node_eq (Linkage.pushBack_other holds differs inside)
      · exact fun b inside out => absurd (List.mem_append_left _ inside) out
      · intro b entered
        rcases List.mem_cons.1 entered with rfl | before
        · exact .inl (List.mem_append_right _ List.mem_cons_self)
        · exact .inr before
  | pushFront q e =>
      have holds := matches_.holds q
      refine ⟨_, rfl, matches_.put (holds.pushFront (allowed q)) rfl ?_ ?_ ?_ ?_⟩
      · intro b listed
        rcases List.mem_cons.1 listed with rfl | inside
        · exact .inr allowed
        · exact .inl inside
      · intro b inside out
        exact node_eq (Linkage.pushFront_other holds (List.ne_of_not_mem_cons out) inside)
      · exact fun b inside out => absurd (List.mem_cons_of_mem _ inside) out
      · intro b entered
        rcases List.mem_cons.1 entered with rfl | before
        · exact .inl List.mem_cons_self
        · exact .inr before
  | erase q e =>
      have holds := matches_.holds q
      obtain ⟨front, back, split⟩ := List.append_of_mem allowed
      rw [split] at holds
      have new : e ∉ front := fun member =>
        (List.nodup_append.1 holds.nodup).2.2 e member e List.mem_cons_self rfl
      have left : (a.lists q).erase e = front ++ back := by
        rw [split, List.erase_append_right _ new, List.erase_cons_head]
      have erased := holds.erase
      rw [← left] at erased
      refine ⟨_, rfl, matches_.put erased ?_ ?_ ?_ ?_ fun b => .inr⟩
      · rw [left]
        simp only [List.length_append, List.length_cons]
        omega
      · exact fun b listed => .inl (List.mem_of_mem_erase listed)
      · intro b inside _
        have differs : b ≠ e := fun same => inside (same ▸ allowed)
        rw [split] at inside
        exact node_eq (Linkage.erase_other holds differs inside)
      · intro b inside out
        have same : b = e := by
          by_contra differs
          exact out ((List.mem_erase_of_ne differs).2 inside)
        subst same
        exact node_null (Linkage.erase_self _ b)
  | tryPop q =>
      have holds := matches_.holds q
      obtain ⟨popped, pops, rest, others, unlinked⟩ := holds.tryPop
      refine ⟨s.put q popped, ?_, matches_.put rest ?_ ?_ ?_ ?_ fun b => .inr⟩
      · rw [LinkQueues.step, pops]
        rfl
      · cases a.lists q <;> simp
      · exact fun b listed => .inl (List.mem_of_mem_tail listed)
      · exact fun b inside _ => node_eq (others b inside)
      · intro b inside out
        apply node_null
        apply unlinked
        cases items : a.lists q with
        | nil => simp [items] at inside
        | cons first behind =>
            rw [items] at inside out
            exact congrArg some ((List.mem_cons.1 inside).resolve_right out).symm

theorem Matches.run {actions : List (LinkAction bits ι)} (matches_ : s.Matches a)
    (valid : a.Valid actions) :
    ∃ t, s.run actions = .ok ((a.run actions).1, t) ∧ t.Matches (a.run actions).2 := by
  induction actions generalizing s a with
  | nil => exact ⟨s, rfl, matches_⟩
  | cons action rest ih =>
      obtain ⟨t, stepped, related⟩ := matches_.step valid.1
      obtain ⟨final, runs, related⟩ := ih related valid.2
      refine ⟨final, ?_, related⟩
      rw [LinkQueues.run, stepped]
      exact congrArg (fun results => results >>= fun r => pure (_ :: r.1, r.2)) runs

/-- A queue stands for its list, and a node that has left it is not linked. -/
structure Represents (s : LinkQueues bits ι) (a : LinkLists bits ι) : Prop where
  forward : ∀ q fuel, (a.lists q).length ≤ fuel →
    Links.follow (s.view q).next fuel (s.queues q).header = a.lists q
  backward : ∀ q fuel, (a.lists q).length ≤ fuel →
    Links.follow (s.view q).prev fuel (s.queues q).tailer = (a.lists q).reverse
  header : ∀ q, (s.queues q).header = none ↔ a.lists q = []
  tailer : ∀ q, (s.queues q).tailer = none ↔ a.lists q = []
  size : ∀ q, (s.view q).size = (a.lists q).length
  removed : ∀ e ∈ a.pushed, (∀ q, e ∉ a.lists q) → s.nodes e = ⟨none, none⟩

omit [DecidableEq ι] in
theorem Matches.represents (matches_ : s.Matches a) : s.Represents a where
  forward q fuel enough := by
    have holds := matches_.holds q
    rw [show (s.queues q).header = _ from holds.header]
    exact holds.linked.follow_next enough
  backward q fuel enough := by
    have holds := matches_.holds q
    rw [show (s.queues q).tailer = _ from holds.tailer]
    exact holds.linked.follow_prev enough
  header q := by
    rw [show (s.queues q).header = _ from (matches_.holds q).header, List.head?_eq_none_iff]
  tailer q := by
    rw [show (s.queues q).tailer = _ from (matches_.holds q).tailer, List.getLast?_eq_none_iff]
  size q := (matches_.holds q).size_eq
  removed := matches_.removed

end LinkQueues

namespace LinkLists

variable {bits : Nat} {ι : Type*} [DecidableEq ι] {a : LinkLists bits ι}

theorem keepsOrder_set (q : ι) (items pushed : List (Address bits))
    (kept : (items.filter (· ∈ a.lists q)).Sublist (a.lists q)) :
    a.KeepsOrder { a.set q items with pushed } := by
  intro q'
  by_cases same : q' = q
  · subst same
    simpa [set] using kept
  · simp [set, Function.update_of_ne same]

theorem keepsOrder_apply {action : LinkAction bits ι} (allowed : a.Allowed action) :
    a.KeepsOrder (a.apply action).2 := by
  cases action with
  | pushBack q e =>
      apply keepsOrder_set
      rw [List.filter_append, List.filter_eq_self.2 (by simp)]
      simp [allowed q]
  | pushFront q e =>
      apply keepsOrder_set
      rw [List.filter_cons_of_neg (by simpa using allowed q), List.filter_eq_self.2 (by simp)]
  | erase q e => exact keepsOrder_set q _ _ (List.filter_sublist.trans List.erase_sublist)
  | tryPop q => exact keepsOrder_set q _ _ (List.filter_sublist.trans (List.tail_sublist _))

theorem valid_append {before rest : List (LinkAction bits ι)} :
    a.Valid (before ++ rest) ↔ a.Valid before ∧ (a.run before).2.Valid rest := by
  induction before generalizing a with
  | nil => simp [Valid, run]
  | cons action before ih => simp [Valid, run, ih, and_assoc]

theorem run_append (before rest : List (LinkAction bits ι)) :
    (a.run (before ++ rest)).2 = ((a.run before).2.run rest).2 := by
  induction before generalizing a with
  | nil => rfl
  | cons action before ih => exact ih

end LinkLists

namespace LinkQueues

variable {bits : Nat} {ι : Type*} [DecidableEq ι]

/-- The queues do what the lists do, and a list keeps the order of its nodes. -/
theorem run_represents (nodes : Address bits → LinkNode bits) (actions : List (LinkAction bits ι))
    (valid : ({} : LinkLists bits ι).Valid actions) :
    (∃ s, ({ nodes } : LinkQueues bits ι).run actions = .ok ((LinkLists.run {} actions).1, s) ∧
      s.Represents (LinkLists.run {} actions).2) ∧
    ∀ before action rest, before ++ action :: rest = actions →
      (LinkLists.run {} before).2.KeepsOrder (LinkLists.run {} (before ++ [action])).2 := by
  constructor
  · obtain ⟨s, runs, matches_⟩ := (Matches.initial nodes).run valid
    exact ⟨s, runs, matches_.represents⟩
  · rintro before action rest rfl
    rw [LinkLists.run_append]
    exact LinkLists.keepsOrder_apply (LinkLists.valid_append.1 valid).2.1

/-- Two nodes go from one queue to another, the one erased and the other popped. -/
theorem run_represents_moved :
    let a : Address 3 := ⟨0, by decide⟩
    let b : Address 3 := ⟨1, by decide⟩
    let actions : List (LinkAction 3 Bool) :=
      [.pushBack true a, .pushBack true b, .erase true a, .pushBack false a, .tryPop true,
        .pushFront false b]
    (∃ s, ({ nodes := fun a => ⟨some a, some a⟩ } : LinkQueues 3 Bool).run actions =
        .ok ((LinkLists.run {} actions).1, s) ∧ s.Represents (LinkLists.run {} actions).2) ∧
    ∀ before action rest, before ++ action :: rest = actions →
      (LinkLists.run {} before).2.KeepsOrder (LinkLists.run {} (before ++ [action])).2 := by
  intro a b actions
  have valid : ({} : LinkLists 3 Bool).Valid actions := by
    simp only [actions, LinkLists.Valid, LinkLists.Allowed, LinkLists.apply, LinkLists.set]
    decide
  exact run_represents _ actions valid

end LinkQueues

end Librf
