import Librf.Runtime.Via

/-!
# The root of a coroutine

`get_root` of a coroutine that has started ends at the one that `go` started above it, and keeps to
it.
-/

namespace Librf

namespace Runtime

variable {α ε : Type*}

/-- `go` has started `r`, and `n` is awaited by a coroutine that is awaited by … by `r`. -/
inductive Descends (s : Runtime α ε) : Nat → Nat → Prop
  | go {r sch} : s.goes r = [sch] → Descends s r r
  | await {n p r} : s.awaits n = [p] → Descends s p r → Descends s n r

def Started (s : Runtime α ε) (n : Nat) : Prop := s.IsCoroutine n ∧ s.progress n ≠ .initial

instance (s : Runtime α ε) (n : Nat) : Decidable (s.Started n) :=
  inferInstanceAs (Decidable (_ ∧ _))

variable {s t : Runtime α ε} {n r : Nat}

theorem Role.of_begun {v : TaskView} (role : Role n v) (begun : v.progress ≠ .initial) :
    (∃ p, p ≠ n ∧ v.awaits = [p] ∧ v.goes = [] ∧ v.parent = some p) ∨
      ∃ sch, v.goes = [sch] ∧ v.awaits = [] ∧ v.parent = none := by
  cases role with
  | body cls moves switched p home x other => exact .inl ⟨p, other, rfl, rfl, rfl⟩
  | left cls moves switched p home x coro entries ready other =>
      exact .inl ⟨p, other, rfl, rfl, rfl⟩
  | task cls moves sch => exact .inr ⟨sch, rfl, rfl, rfl⟩
  | taskEnded cls moves switched sch => exact .inr ⟨sch, rfl, rfl, rfl⟩
  | _ => exact absurd rfl begun

theorem Linked.ascent_of_descends (linked : s.Linked) (started : s.Started n)
    (descends : s.Descends n r) :
    ∃ l, Ascent (fun m => (s.task m).parent) n l ∧ l.getLast? = some r := by
  induction descends with
  | @go r sch goes =>
      rcases Role.of_begun (linked.forest.role r started.1) started.2 with ⟨p, -, -, none, -⟩ |
        ⟨sch', -, -, top⟩
      · cases none.symm.trans goes
      · exact ⟨[r], .top top, rfl⟩
  | @await n p r awaits _ ih =>
      rcases Role.of_begun (linked.forest.role n started.1) started.2 with
        ⟨q, -, awaits', -, up⟩ | ⟨sch, -, none, -⟩
      · cases awaits'.symm.trans awaits
        obtain ⟨l, ascent, last⟩ := ih (linked.forest.parent n p started.1 up)
        exact ⟨n :: l, .next up ascent, by rw [List.getLast?_cons, last]; rfl⟩
      · cases none.symm.trans awaits

theorem Linked.exists_descends (linked : s.Linked) (started : s.Started n) :
    ∃ r, s.Descends n r := by
  obtain ⟨l, ascent⟩ := linked.forest.rooted n started.1
  induction ascent with
  | @top n ends =>
      rcases Role.of_begun (linked.forest.role n started.1) started.2 with ⟨p, -, -, -, up⟩ |
        ⟨sch, goes, -⟩
      · cases ends.symm.trans up
      · exact ⟨n, .go goes⟩
  | @next n p l up _ ih =>
      rcases Role.of_begun (linked.forest.role n started.1) started.2 with ⟨q, -, awaits, -, up'⟩ |
        ⟨sch, -, -, none⟩
      · cases up.symm.trans up'
        obtain ⟨r, descends⟩ := ih (linked.forest.parent n p started.1 up)
        exact ⟨r, .await awaits descends⟩
      · cases none.symm.trans up

theorem Linked.getRoot_of_descends (linked : s.Linked) (sound : s.handles.Sound)
    (started : s.Started n) (descends : s.Descends n r) : s.getRoot n = some r := by
  obtain ⟨l, ascent, last⟩ := linked.ascent_of_descends started descends
  exact linked.getRoot sound started.1 ascent last

theorem Linked.getRoot_iff (linked : s.Linked) (sound : s.handles.Sound) (started : s.Started n) :
    s.getRoot n = some r ↔ s.Descends n r := by
  constructor
  · intro root
    obtain ⟨r', descends⟩ := linked.exists_descends started
    cases root.symm.trans (linked.getRoot_of_descends sound started descends)
    exact descends
  · exact linked.getRoot_of_descends sound started

theorem Linked.started_root (linked : s.Linked) (started : s.Started n)
    (descends : s.Descends n r) : s.Started r ∧ s.Descends r r := by
  induction descends with
  | go goes => exact ⟨started, .go goes⟩
  | @await n p r awaits _ ih =>
      rcases Role.of_begun (linked.forest.role n started.1) started.2 with ⟨q, -, awaits', -, up⟩ |
        ⟨sch, -, none, -⟩
      · cases awaits'.symm.trans awaits
        exact ih (linked.forest.parent n p started.1 up)
      · cases none.symm.trans awaits

structure Onward (s t : Runtime α ε) : Prop where
  sound : s.handles.Sound
  linked : s.Linked
  sound' : t.handles.Sound
  linked' : t.Linked
  next : Forest.Next s.task t.task

theorem Onward.started (onward : Onward s t) (started : s.Started n) : t.Started n := by
  obtain ⟨coroutine, begun, -⟩ := onward.next.keeps n started.1 started.2
  exact ⟨coroutine, begun⟩

theorem Onward.getRoot (onward : Onward s t) (started : s.Started n) :
    t.getRoot n = s.getRoot n := by
  have linked := onward.linked
  obtain ⟨r, descends⟩ := linked.exists_descends started
  obtain ⟨l, ascent, last⟩ := linked.ascent_of_descends started descends
  have begun : ∀ m ∈ l, s.Started m :=
    ascent.forall_mem started fun c q here up => linked.forest.parent c q here.1 up
  have ascent' : Ascent (fun m => (t.task m).parent) n l :=
    ascent.congr fun m passed => (onward.next.keeps m (begun m passed).1 (begun m passed).2).2.2
  rw [linked.getRoot onward.sound started.1 ascent last,
    onward.linked'.getRoot onward.sound' (onward.started started).1 ascent' last]

structure Rooted (s : Runtime α ε) (n key : Nat) : Prop where
  started : s.Started n
  root : s.getRoot n = some key

theorem Rooted.onward {key : Nat} (rooted : s.Rooted n key) (onward : Onward s t) :
    t.Rooted n key :=
  ⟨onward.started rooted.started, (onward.getRoot rooted.started).trans rooted.root⟩

end Runtime

end Librf
