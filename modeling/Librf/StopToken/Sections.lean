import Librf.StopToken.Memory

/-!
# What is done under the lock and after it

The steps of `request_stop`, `try_add_callback` and `remove_callback` that write to the callbacks.
-/

namespace Librf.StopToken

namespace Memory

variable {s s' : State Fields} {holder signaller : Option Nat} {items items' : List Nat} {t : Nat}
  {f g : Frame Fields} {rest l : List (Frame Fields)} {call : Call} {cb : Nat}

theorem no_signaller (c : Control s holder signaller) (top : s.threads t = f :: rest)
    (signals : f.plays .signaller = true) {u : Nat}
    (apart : u ≠ t ∧ g ∈ s.threads u ∨ u = t ∧ g ∈ rest) : g.isCall = false := by
  apply isCall_eq_false
  rcases apart with ⟨other, member⟩ | ⟨-, member⟩
  · exact (c.cast .signaller).not_mem_of_ne (top ▸ List.mem_cons_self) signals other g member
  · exact (c.cast .signaller).not_mem_rest top signals g member

theorem apart_mem (top : s.threads t = f :: rest) {u : Nat}
    (apart : u ≠ t ∧ g ∈ s.threads u ∨ u = t ∧ g ∈ rest) : g ∈ s.threads u := by
  rcases apart with ⟨-, member⟩ | ⟨rfl, member⟩
  · exact member
  · rw [top]
    exact List.mem_cons_of_mem f member

theorem live_of_remover (c : Control s holder signaller) {u : Nat} (member : g ∈ s.threads u)
    (remover : g.plays (.remover cb) = true) : s.stages cb = .destroying u :=
  Control.stage_of_remover ((c.cast (.remover cb)).owner_of_mem member remover)

theorem frames_of (m : Memory s items) (top : s.threads t = f :: rest)
    (threads : s'.threads = Function.update s.threads t l)
    (sub : ∀ g ∈ l, g ∈ rest ∨ g.Holds s' items' t)
    (holds : ∀ u g, (u ≠ t ∧ g ∈ s.threads u ∨ u = t ∧ g ∈ rest) → g.Holds s items u →
      g.Holds s' items' u) : ∀ u, ∀ g ∈ s'.threads u, g.Holds s' items' u := by
  rw [threads]
  apply Sole.forall_mem_update_of_ne
  · exact fun u other g member => holds u g (Or.inl ⟨other, member⟩) (m.frames u g member)
  · intro g member
    rcases sub g member with below | here
    · exact holds t g (Or.inr ⟨rfl, below⟩) (m.rest_holds top g below)
    · exact here

/-! ## The loop of `request_stop` -/

theorem pop (c : Control s holder signaller) (m : Memory s (cb :: items)) {h : Nat}
    (top : s.threads t = .locked call :: rest)
    (signals : (Frame.locked (W := Fields) call).plays .signaller = true)
    (threads : s'.threads = Function.update s.threads t
      (.calling h cb (s.list.pop cb).head.isSome :: rest))
    (list : s'.list = s.list.pop cb) (word : s'.word = Fields.ops.unlock s.word)
    (removed : s'.removed = s.removed) (stages : s'.stages = s.stages)
    (registered : s'.registered = s.registered) (called : s'.called = s.called)
    (refused : s'.refused = s.refused) (withdrawn : s'.withdrawn = s.withdrawn) :
    Memory s' items := by
  obtain ⟨fresh, nodup⟩ := List.nodup_cons.1 m.lists.nodup
  obtain ⟨live, -⟩ := (m.linked cb).1 List.mem_cons_self
  obtain ⟨unmarked, unfinished⟩ := m.untouched cb List.mem_cons_self
  have flags (a : Nat) := CallbackList.pop_flags s.list a cb
  have lists := m.lists.pop
  have cleared : ((s.list.pop cb).callbacks cb).prev = none := by
    rw [CallbackList.pop_callbacks, if_pos rfl]
  have prev {a : Nat} (before : (s.list.callbacks a).prev = none) :
      ((s.list.pop cb).callbacks a).prev = none := by
    by_cases here : a = cb
    · rw [here, cleared]
    · exact (m.lists.pop_prev here).2 before
  have calls := calls_of_top (l := .calling h cb (s.list.pop cb).head.isSome :: rest) top rfl
    fun _ => List.mem_cons_of_mem _
  have calling : Frame.calling h cb (s.list.pop cb).head.isSome ∈ s'.threads t := by
    rw [threads, Function.update_self]
    exact List.mem_cons_self
  constructor
  · exact list ▸ lists
  · exact registered ▸ m.nodup
  · rw [called, registered]
    exact ((List.Sublist.refl s.called).append (List.sublist_cons_self cb items)).trans m.order
  · intro a
    rw [stages, list]
    by_cases here : a = cb
    · subst here
      simp [fresh, cleared]
    · rw [ne_eq, m.lists.pop_prev here, ← ne_eq, ← m.linked a, List.mem_cons]
      simp [here]
  · intro a blank
    rw [stages] at blank
    rw [list, m.lists.pop_outside (m.not_mem_of_blank blank), m.blank a blank]
  · intro a unmade
    rw [stages] at unmade
    rw [State.New, registered, refused]
    exact m.unmade a unmade
  · intro a member
    rw [list, (flags a).1, (flags a).2]
    exact m.untouched a (List.mem_cons_of_mem cb member)
  · rw [refused, registered]
    exact m.refusals
  · intro a flag
    rw [stages, list, (flags a).1, threads]
    exact m.exists_executing calls
  · intro a
    rw [stages, list, (flags a).1, (flags a).2]
    intro live' before unmarked'
    by_cases here : a = cb
    · rw [here]
      exact Or.inr ⟨t, h, _, calling⟩
    · rw [threads]
      exact m.popped_of calls live' ((m.lists.pop_prev here).1 before) unmarked'
  · intro a
    rw [registered, called, withdrawn]
    intro member
    rcases m.complete_of calls member with called | listed | rest
    · exact Or.inl called
    · rcases List.mem_cons.1 listed with rfl | listed
      · exact Or.inr (Or.inr (Or.inr ⟨t, h, _, calling⟩))
      · exact Or.inr (Or.inl listed)
    · rw [threads]
      exact Or.inr (Or.inr rest)
  · rw [withdrawn, stages, called]
    exact m.withdrawn
  · exact fun _ none_ => by cases none_ t _ calling
  · rw [called, refused, word]
    exact m.early
  · apply m.frames_of top threads
    · intro g member
      rcases List.mem_cons.1 member with rfl | below
      · apply Or.inr
        refine ⟨⟨stages ▸ live, list ▸ cleared, ?_⟩, ?_, ?_, ?_⟩
        · rw [list, (flags cb).2, unfinished]
        · rw [list, (flags cb).1, unmarked]
        · rw [called, registered]
          exact m.order
        · intro last
          rw [lists.head] at last
          cases items with
          | nil => rfl
          | cons a items => cases last
      · exact Or.inl below
    · intro u g apart holds
      apply holds_other holds (no_signaller c top signals apart)
      · intro a _ new
        rwa [State.New, registered, refused]
      · intro a _ before
        rw [list]
        exact prev before
      · intro a _ ended
        rwa [State.Over, list, (flags a).1, (flags a).2, removed]

theorem loop (c : Control s holder signaller) (m : Memory s items) {h : Nat}
    (top : s.threads t = .locked call :: rest) (loops : Control.Loops call) :
    ∃ items', Memory ({ s with signalling := some t }.loop Fields.ops t h rest) items' := by
  have empty : s.list.head = none → items = [] := by
    rw [m.lists.head]
    exact List.head?_eq_none_iff.1
  unfold State.loop
  split
  · next head =>
      exact ⟨_, m.drop top ⟨rfl, rfl, rfl, rfl, rfl, rfl, rfl, rfl⟩ rfl rfl rfl fun _ => empty head⟩
  · next cb head =>
      change s.list.head = some cb at head
      rw [m.lists.head] at head
      obtain ⟨items', same⟩ := List.head?_eq_some_iff.1 head
      subst same
      exact ⟨items', pop c m top loops.signaller rfl rfl rfl rfl rfl rfl rfl rfl rfl⟩

/-! ## `try_add_callback` -/

theorem link (c : Control s holder signaller) (m : Memory s items) {h : Nat} {increment : Bool}
    (top : s.threads t = .locked (.tryAddCallback h cb increment) :: rest)
    (threads : s'.threads = Function.update s.threads t rest) (list : s'.list = s.list.push cb)
    (requested : s'.word.requested = s.word.requested) (removed : s'.removed = s.removed)
    (stages : s'.stages = Function.update s.stages cb .attached)
    (registered : s'.registered = s.registered ++ [cb]) (called : s'.called = s.called)
    (refused : s'.refused = s.refused) (withdrawn : s'.withdrawn = s.withdrawn) :
    Memory s' (cb :: items) := by
  have maker : (Frame.locked (W := Fields) (.tryAddCallback h cb increment)).plays (.maker cb) =
    true := beq_self_eq_true cb
  have stage := stage_of_maker c top maker
  have unrequested : s.word.requested = false :=
    c.knows t (.locked (.tryAddCallback h cb increment)) (top ▸ List.mem_cons_self)
  have noSignaller : ∀ u, ∀ g ∈ s.threads u, g.plays .signaller = false := by
    have signals := c.cast .signaller
    rw [owner, c.signaller_none unrequested] at signals
    exact signals.not_mem
  obtain ⟨unregistered, unrefused⟩ : s.New cb := m.top_holds top
  have blank := m.blank cb (by rw [stage]; rfl)
  have outside : cb ∉ items := m.not_mem_of_blank (by rw [stage]; rfl)
  have flags (a : Nat) := CallbackList.push_flags s.list a cb
  have calls := calls_of_top (l := rest) top rfl fun _ => id
  have written : (s.list.push cb).callbacks cb =
      { s.list.callbacks cb with next := s.list.head, prev := some .head } := by
    rw [CallbackList.push_callbacks, if_pos rfl]
  have other {a : Nat} (different : a ≠ cb) : s'.stages a = s.stages a := by
    rw [stages, Function.update_of_ne different]
  constructor
  · exact list ▸ m.lists.push outside
  · rw [registered, List.nodup_append_comm]
    exact List.nodup_cons.2 ⟨unregistered, m.nodup⟩
  · have order := m.order
    rw [(m.early unrequested).1] at order
    rw [called, registered, (m.early unrequested).1, List.reverse_append]
    exact order.cons_cons cb
  · intro a
    by_cases here : a = cb
    · subst here
      rw [stages, Function.update_self, list, written]
      simp [Stage.live]
    · rw [other here, list, ne_eq, m.lists.push_prev here, ← ne_eq, ← m.linked a, List.mem_cons]
      simp [here]
  · intro a blank'
    have here : a ≠ cb := by
      intro same
      rw [same, stages, Function.update_self] at blank'
      cases blank'
    rw [other here] at blank'
    rw [list, m.lists.push_outside here (m.not_mem_of_blank blank'), m.blank a blank']
  · intro a unmade
    have here : a ≠ cb := by
      intro same
      rw [same, stages, Function.update_self] at unmade
      cases unmade
    rw [other here] at unmade
    obtain ⟨unregistered, unrefused⟩ := m.unmade a unmade
    rw [State.New, registered, refused]
    exact ⟨by simp [unregistered, here], unrefused⟩
  · intro a member
    rw [list, (flags a).1, (flags a).2]
    rcases List.mem_cons.1 member with rfl | member
    · rw [blank]
      exact ⟨rfl, rfl⟩
    · exact m.untouched a member
  · rw [refused, registered]
    refine ⟨m.refusals.1, fun a member => ?_⟩
    have different : a ≠ cb := fun same => unrefused (same ▸ member)
    simp [m.refusals.2 a member, different]
  · intro a flag live marked
    rw [list, (flags a).1] at marked
    have here : a ≠ cb := by
      intro same
      rw [same, blank] at marked
      cases marked
    rw [other here] at live
    rw [threads]
    exact m.exists_executing calls live marked
  · intro a live prev unmarked
    have here : a ≠ cb := by
      intro same
      rw [same, list, written] at prev
      cases prev
    rw [other here] at live
    rw [list, (flags a).1] at unmarked
    rw [list, m.lists.push_prev here] at prev
    rw [list, (flags a).2, threads]
    exact m.popped_of calls live prev unmarked
  · intro a member
    rw [registered] at member
    rw [called, withdrawn, threads]
    rcases List.mem_append.1 member with member | last
    · rcases m.complete_of calls member with called | listed | rest
      · exact Or.inl called
      · exact Or.inr (Or.inl (List.mem_cons_of_mem cb listed))
      · exact Or.inr (Or.inr rest)
    · rw [List.mem_singleton.1 last]
      exact Or.inr (Or.inl List.mem_cons_self)
  · rw [withdrawn, called]
    intro a member
    obtain ⟨⟨u, destroyed⟩, uncalled⟩ := m.withdrawn a member
    have here : a ≠ cb := by
      intro same
      subst same
      cases stage.symm.trans destroyed
    rw [other here]
    exact ⟨⟨u, destroyed⟩, uncalled⟩
  · intro is
    rw [requested, unrequested] at is
    cases is
  · rw [called, refused, requested]
    exact m.early
  · apply m.frames_of top threads
    · exact fun g member => Or.inl member
    · intro u g apart holds
      have member := apart_mem top apart
      apply holds_other holds (isCall_eq_false (noSignaller u g member))
      · intro a maker' new
        have different := other_maker c top maker apart maker'
        rw [State.New, registered, refused]
        exact ⟨by simp [new.1, different], new.2⟩
      · intro a remover prev
        have here : a ≠ cb := by
          intro same
          subst same
          cases stage.symm.trans (live_of_remover c member remover)
        rw [list]
        exact (m.lists.push_prev here).2 prev
      · intro a _ ended
        rwa [State.Over, list, (flags a).1, (flags a).2, removed]

/-! ## `remove_callback` -/

theorem stage_of_remover_update (c : Control s holder signaller) (top : s.threads t = f :: rest)
    (remover : f.plays (.remover cb) = true)
    (stages : s'.stages = Function.update s.stages cb (.destroyed t)) {a u : Nat}
    (gone : s.stages a = .destroying u ∨ s.stages a = .destroyed u) :
    s'.stages a = .destroying u ∨ s'.stages a = .destroyed u := by
  by_cases here : a = cb
  · subst here
    have stage := stage_of_remover c top remover
    rw [stages, Function.update_self]
    rcases gone with gone | gone
    · cases stage.symm.trans gone
      exact Or.inr rfl
    · cases stage.symm.trans gone
  · rwa [stages, Function.update_of_ne here]

theorem unlink (c : Control s holder signaller) (m : Memory s items) {slot : Slot}
    (top : s.threads t = .locked (.removeCallback cb) :: rest)
    (stored : (s.list.callbacks cb).prev = some slot)
    (threads : s'.threads = Function.update s.threads t rest)
    (list : s'.list = s.list.remove cb slot) (requested : s'.word.requested = s.word.requested)
    (removed : s'.removed = s.removed) (made : s'.made = s.made)
    (stages : s'.stages = Function.update s.stages cb (.destroyed t))
    (registered : s'.registered = s.registered) (called : s'.called = s.called)
    (refused : s'.refused = s.refused) (withdrawn : s'.withdrawn = s.withdrawn ++ [cb]) :
    Memory s' (items.erase cb) := by
  have remover : (Frame.locked (W := Fields) (.removeCallback cb)).plays (.remover cb) = true :=
    beq_self_eq_true cb
  have stage := stage_of_remover c top remover
  have member : cb ∈ items := by
    rw [m.linked, stage, stored]
    exact ⟨rfl, nofun⟩
  have uncalled : cb ∉ s.called := by
    have nodup := m.order.nodup (List.nodup_reverse.2 m.nodup)
    exact fun called => (List.nodup_append.1 nodup).2.2 cb called cb member rfl
  have flags (a : Nat) := CallbackList.remove_flags s.list a cb slot
  have calls := calls_of_top (l := rest) top rfl fun _ => id
  have other {a : Nat} (different : a ≠ cb) : s'.stages a = s.stages a := by
    rw [stages, Function.update_of_ne different]
  have live_ {a : Nat} (live : (s'.stages a).live = true) : a ≠ cb := by
    intro same
    rw [same, stages, Function.update_self] at live
    cases live
  constructor
  · exact list ▸ m.lists.remove member stored
  · exact registered ▸ m.nodup
  · rw [called, registered]
    exact ((List.Sublist.refl s.called).append List.erase_sublist).trans m.order
  · intro a
    rw [m.lists.nodup.mem_erase_iff]
    by_cases here : a = cb
    · subst here
      rw [stages, Function.update_self]
      simp [Stage.live]
    · rw [other here, list, ne_eq (_ : Option Slot), m.lists.remove_prev member, ← ne_eq,
        ← m.linked a]
      simp [here]
  · intro a blank
    have here : a ≠ cb := by
      intro same
      rw [same, stages, Function.update_self] at blank
      cases blank
    rw [other here] at blank
    rw [list, m.lists.remove_outside member stored (m.not_mem_of_blank blank), m.blank a blank]
  · intro a unmade
    have here : a ≠ cb := by
      intro same
      rw [same, stages, Function.update_self] at unmade
      cases unmade
    rw [other here] at unmade
    rw [State.New, registered, refused]
    exact m.unmade a unmade
  · intro a inside
    rw [list, (flags a).1, (flags a).2]
    exact m.untouched a (List.mem_of_mem_erase inside)
  · rw [refused, registered]
    exact m.refusals
  · intro a flag live
    have here := live_ live
    rw [other here] at live
    rw [list, (flags a).1, threads]
    exact m.exists_executing calls live
  · intro a live
    have here := live_ live
    rw [other here] at live
    rw [list, (flags a).1, (flags a).2, m.lists.remove_prev member, threads]
    exact m.popped_of calls live
  · intro a
    rw [registered, called, withdrawn, threads]
    intro inside
    rcases m.complete_of calls inside with called | listed | withdrawn | calling
    · exact Or.inl called
    · by_cases here : a = cb
      · rw [here]
        exact Or.inr (Or.inr (Or.inl (List.mem_append_right _ List.mem_cons_self)))
      · exact Or.inr (Or.inl ((List.mem_erase_of_ne here).2 listed))
    · exact Or.inr (Or.inr (Or.inl (List.mem_append_left _ withdrawn)))
    · exact Or.inr (Or.inr (Or.inr calling))
  · rw [withdrawn, called]
    intro a inside
    by_cases here : a = cb
    · subst here
      rw [stages, Function.update_self]
      exact ⟨⟨t, rfl⟩, uncalled⟩
    · rw [other here]
      rcases List.mem_append.1 inside with before | last
      · exact m.withdrawn a before
      · exact absurd (List.mem_singleton.1 last) here
  · intro is none_
    rw [m.over_of threads requested (fun g inside plays => by
      rw [top] at inside
      rcases List.mem_cons.1 inside with rfl | below
      · cases plays
      · exact ⟨g, below, plays⟩) is none_]
    rfl
  · rw [called, refused, requested]
    exact m.early
  · apply m.frames_of top threads
    · exact fun g inside => Or.inl inside
    · intro u g apart holds
      apply holds_mono holds called made registered removed List.erase_sublist
      · intro a _ new
        rwa [State.New, registered, refused]
      · intro a prev
        rw [list]
        exact (m.lists.remove_prev member).2 prev
      · intro a ended
        rwa [State.Over, list, (flags a).1, (flags a).2, removed]
      · intro a taken _
        have here : a ≠ cb := by
          intro same
          have prev := taken.prev
          rw [same, stored] at prev
          cases prev
        rw [list]
        refine ⟨⟨other here ▸ taken.live, ?_, ?_⟩, (flags a).1⟩
        · rw [list]
          exact (m.lists.remove_prev member).2 taken.prev
        · rw [list, (flags a).2, taken.unfinished]
      · exact fun a => stage_of_remover_update c top remover stages

theorem release (c : Control s holder signaller) (m : Memory s items)
    (top : s.threads t = .releasing cb :: rest)
    (threads : s'.threads = Function.update s.threads t rest) (list : s'.list = s.list)
    (requested : s'.word.requested = s.word.requested) (removed : s'.removed = s.removed)
    (made : s'.made = s.made) (stages : s'.stages = Function.update s.stages cb (.destroyed t))
    (registered : s'.registered = s.registered) (called : s'.called = s.called)
    (refused : s'.refused = s.refused) (withdrawn : s'.withdrawn = s.withdrawn) :
    Memory s' items := by
  have remover : (Frame.releasing (W := Fields) cb).plays (.remover cb) = true :=
    beq_self_eq_true cb
  have stage := stage_of_remover c top remover
  obtain ⟨prev, ended⟩ : (s.list.callbacks cb).prev = none ∧ s.Over cb := m.top_holds top
  have calls := calls_of_top (l := rest) top rfl fun _ => id
  have other {a : Nat} (different : a ≠ cb) : s'.stages a = s.stages a := by
    rw [stages, Function.update_of_ne different]
  have live_ {a : Nat} (live : (s'.stages a).live = true) : a ≠ cb := by
    intro same
    rw [same, stages, Function.update_self] at live
    cases live
  constructor
  · exact list ▸ m.lists
  · exact registered ▸ m.nodup
  · rw [called, registered]
    exact m.order
  · intro a
    by_cases here : a = cb
    · subst here
      rw [m.linked a, stages, Function.update_self, list, prev]
      simp
    · rw [other here, list]
      exact m.linked a
  · intro a blank
    have here : a ≠ cb := by
      intro same
      rw [same, stages, Function.update_self] at blank
      cases blank
    rw [other here] at blank
    rw [list]
    exact m.blank a blank
  · intro a unmade
    have here : a ≠ cb := by
      intro same
      rw [same, stages, Function.update_self] at unmade
      cases unmade
    rw [other here] at unmade
    rw [State.New, registered, refused]
    exact m.unmade a unmade
  · rw [list]
    exact m.untouched
  · rw [refused, registered]
    exact m.refusals
  · intro a flag live
    have here := live_ live
    rw [other here] at live
    rw [list, threads]
    exact m.exists_executing calls live
  · intro a live
    have here := live_ live
    rw [other here] at live
    rw [list, threads]
    exact m.popped_of calls live
  · intro a
    rw [registered, called, withdrawn, threads]
    exact m.complete_of calls
  · rw [withdrawn, called]
    intro a inside
    obtain ⟨⟨u, destroyed⟩, uncalled⟩ := m.withdrawn a inside
    have here : a ≠ cb := by
      intro same
      subst same
      cases stage.symm.trans destroyed
    rw [other here]
    exact ⟨⟨u, destroyed⟩, uncalled⟩
  · apply m.over_of threads requested
    intro g inside plays
    rw [top] at inside
    rcases List.mem_cons.1 inside with rfl | below
    · cases plays
    · exact ⟨g, below, plays⟩
  · rw [called, refused, requested]
    exact m.early
  · apply m.frames_of top threads
    · exact fun g inside => Or.inl inside
    · intro u g apart holds
      apply holds_mono holds called made registered removed (List.Sublist.refl items)
      · intro a _ new
        rwa [State.New, registered, refused]
      · intro a prev
        rwa [list]
      · intro a ended
        rwa [State.Over, list, removed]
      · intro a taken notOver
        have here : a ≠ cb := by
          intro same
          subst same
          exact notOver ended
        rw [list]
        exact ⟨⟨other here ▸ taken.live, list ▸ taken.prev, list ▸ taken.unfinished⟩, rfl⟩
      · exact fun a => stage_of_remover_update c top remover stages

theorem top_of_call (c : Control s holder signaller) (top : s.threads t = f :: rest)
    (signals : f.plays .signaller = true) {u : Nat} (member : g ∈ s.threads u)
    (call : g.isCall = true) : u = t ∧ g = f := by
  apply (c.cast .signaller).unique member (top ▸ List.mem_cons_self) _ signals
  cases g <;> first | rfl | cases call

theorem execute (c : Control s holder signaller) (m : Memory s items) {h : Nat} {anyMore : Bool}
    (top : s.threads t = .calling h cb anyMore :: rest) :
    Memory (s.execute t h cb anyMore rest) items := by
  obtain ⟨taken, unmarked, order, more⟩ := m.top_holds top
  have unlisted : cb ∉ items := by
    rw [m.linked cb]
    exact fun listed => listed.2 taken.prev
  have list : (s.execute t h cb anyMore rest).list =
    s.list.modify cb fun c => { c with isRemoved := some s.made } := rfl
  have written (a : Nat) : (s.execute t h cb anyMore rest).list.callbacks a =
      if cb = a then { s.list.callbacks a with isRemoved := some s.made }
      else s.list.callbacks a := by
    rw [list, CallbackList.modify_callbacks]
  have prev (a : Nat) : ((s.execute t h cb anyMore rest).list.callbacks a).prev =
      (s.list.callbacks a).prev := by
    rw [written]
    split <;> rfl
  have finished (a : Nat) : ((s.execute t h cb anyMore rest).list.callbacks a).finishedExecuting =
      (s.list.callbacks a).finishedExecuting := by
    rw [written]
    split <;> rfl
  have unchanged {a : Nat} (other : a ≠ cb) :
      (s.execute t h cb anyMore rest).list.callbacks a = s.list.callbacks a := by
    rw [written, if_neg (Ne.symm other)]
  have marked : ((s.execute t h cb anyMore rest).list.callbacks cb).isRemoved = some s.made := by
    rw [written, if_pos rfl]
  have executing : Frame.executing h cb anyMore s.made ∈
      (s.execute t h cb anyMore rest).threads t := by
    rw [show (s.execute t h cb anyMore rest).threads t = _ from Function.update_self ..]
    exact List.mem_cons_self
  have requested : s.word.requested = true := by
    have signals := (c.cast .signaller).owner_of_mem (f := Frame.calling h cb anyMore)
      (top ▸ List.mem_cons_self) rfl
    exact c.active (Option.isSome_iff_exists.2 ⟨t, signals⟩)
  have noMark {a flag : Nat} (live : (s.stages a).live = true)
      (marked : (s.list.callbacks a).isRemoved = some flag) : False := by
    obtain ⟨u, h', anyMore', member⟩ := m.marks a flag live marked
    cases (top_of_call c top rfl member rfl).2
  constructor
  · rw [list]
    exact m.lists.modify (fun _ => rfl) fun _ => rfl
  · exact m.nodup
  · change ((s.called ++ [cb]) ++ items).Sublist _
    rw [List.append_assoc]
    exact order
  · intro a
    rw [prev]
    exact m.linked a
  · intro a blank
    have other : a ≠ cb := by
      intro same
      rw [same] at blank
      cases (Stage.not_live_of_blank blank).symm.trans taken.live
    rw [unchanged other]
    exact m.blank a blank
  · exact m.unmade
  · intro a member
    have other : a ≠ cb := fun same => unlisted (same ▸ member)
    rw [unchanged other]
    exact m.untouched a member
  · exact m.refusals
  · intro a flag live marked'
    by_cases here : a = cb
    · subst here
      cases marked.symm.trans marked'
      exact ⟨t, h, anyMore, executing⟩
    · rw [unchanged here] at marked'
      exact (noMark live marked').elim
  · intro a live before unmarked'
    have other : a ≠ cb := by
      intro same
      rw [same, marked] at unmarked'
      cases unmarked'
    rw [unchanged other] at before unmarked' ⊢
    rcases m.popped a live before unmarked' with finished | ⟨u, h', anyMore', member⟩
    · exact Or.inl finished
    · cases (top_of_call c top rfl member rfl).2
      exact absurd rfl other
  · intro a member
    change a ∈ s.called ++ [cb] ∨ _
    rcases m.complete a member with called | listed | withdrawn | ⟨u, h', anyMore', member⟩
    · exact Or.inl (List.mem_append_left _ called)
    · exact Or.inr (Or.inl listed)
    · exact Or.inr (Or.inr (Or.inl withdrawn))
    · cases (top_of_call c top rfl member rfl).2
      exact Or.inl (List.mem_append_right _ List.mem_cons_self)
  · intro a member
    obtain ⟨⟨u, destroyed⟩, uncalled⟩ := m.withdrawn a member
    refine ⟨⟨u, destroyed⟩, ?_⟩
    change a ∉ s.called ++ [cb]
    have other : a ≠ cb := by
      intro same
      have live := taken.live
      rw [← same, destroyed] at live
      cases live
    simp [uncalled, other]
  · exact fun _ none_ => by cases none_ t _ executing
  · exact fun unrequested => by cases unrequested.symm.trans requested
  · apply m.frames_of top rfl
    · intro g member
      rcases List.mem_cons.1 member with rfl | below
      · apply Or.inr
        refine ⟨List.mem_append_right _ List.mem_cons_self, Nat.lt_succ_self _, more, ?_, ?_⟩
        · intro _
          refine ⟨⟨taken.live, ?_, ?_⟩, marked⟩
          · rw [prev, taken.prev]
          · rw [finished, taken.unfinished]
        · intro flagged
          cases (show _ = false from Function.update_self ..).symm.trans flagged
      · exact Or.inl below
    · intro u g apart holds
      apply holds_other holds (no_signaller c top rfl apart)
      · exact fun _ _ => id
      · intro a _ before
        rw [prev, before]
      · intro a remover ended
        rcases ended with done_ | ⟨flag, marked', is⟩
        · exact Or.inl ((finished a).trans done_)
        · have stage := live_of_remover c (apart_mem top apart) remover
          exact (noMark (by rw [stage]; rfl) marked').elim

/-! ## After the unlock of `remove_callback` -/

theorem over_of_notice (c : Control s holder signaller) (m : Memory s items)
    (top : s.threads t = .unlinked cb :: rest) (mine : s.signalling = some t)
    (unmarked : (s.list.callbacks cb).isRemoved = none) : s.Over cb := by
  have stage := stage_of_remover c top (beq_self_eq_true cb)
  rcases m.popped cb (by rw [stage]; rfl) (m.top_holds top) unmarked with
    finished | ⟨u, h, anyMore, member⟩
  · exact Or.inl finished
  · have signals := (c.cast .signaller).owner_of_mem member rfl
    rcases c.signalling u signals with here | ⟨h', rest', top'⟩
    · cases mine.symm.trans here
      rw [top] at member
      rcases List.mem_cons.1 member with impossible | below
      · cases impossible
      · cases c.tail_of_top top _ below
    · have same := ((c.cast .signaller).unique member (top' ▸ List.mem_cons_self) rfl rfl).2
      cases same

theorem frame_of_mark (c : Control s holder signaller) (m : Memory s items)
    (top : s.threads t = .unlinked cb :: rest) (mine : s.signalling = some t) {flag : Nat}
    (marked : (s.list.callbacks cb).isRemoved = some flag) {u : Nat} (member : g ∈ s.threads u)
    (call : g.isCall = true) : u = t ∧ ∃ h anyMore, g = .executing h cb anyMore flag := by
  have stage := stage_of_remover c top (beq_self_eq_true cb)
  obtain ⟨u', h, anyMore, executing⟩ := m.marks cb flag (by rw [stage]; rfl) marked
  have signals : g.plays .signaller = true := by
    cases g <;> first | rfl | cases call
  obtain ⟨rfl, rfl⟩ := (c.cast .signaller).unique member executing signals rfl
  refine ⟨?_, h, anyMore, rfl⟩
  rcases c.signalling u ((c.cast .signaller).owner_of_mem member rfl) with here | ⟨h', rest', top'⟩
  · exact Option.some.inj (here.symm.trans mine)
  · have same := ((c.cast .signaller).unique member (top' ▸ List.mem_cons_self) rfl rfl).2
    cases same

theorem flag (c : Control s holder signaller) (m : Memory s items)
    (top : s.threads t = .unlinked cb :: rest) (mine : s.signalling = some t) {flag : Nat}
    (marked : (s.list.callbacks cb).isRemoved = some flag) :
    Memory ({ s with removed := Function.update s.removed flag true }.setThread t
      (.releasing cb :: rest)) items := by
  have stage := stage_of_remover c top (beq_self_eq_true cb)
  have prev : (s.list.callbacks cb).prev = none := m.top_holds top
  have calls := calls_of_top (l := .releasing cb :: rest) top rfl fun _ => List.mem_cons_of_mem _
  have ended {a : Nat} (ended : s.Over a) : State.Over
      ({ s with removed := Function.update s.removed flag true }.setThread t (.releasing cb :: rest))
      a := by
    rcases ended with finished | ⟨flag', marked', is⟩
    · exact Or.inl finished
    · refine Or.inr ⟨flag', marked', ?_⟩
      change Function.update s.removed flag true flag' = true
      by_cases here : flag' = flag
      · rw [here, Function.update_self]
      · rw [Function.update_of_ne here, is]
  exact { m with
    marks := fun _ _ => m.exists_executing calls
    popped := fun _ => m.popped_of calls
    complete := fun _ => m.complete_of calls
    ended := m.over_of (l := .releasing cb :: rest) rfl rfl fun g inside plays => by
      rw [top] at inside
      rcases List.mem_cons.1 inside with rfl | below
      · cases plays
      · exact ⟨g, List.mem_cons_of_mem _ below, plays⟩
    frames := by
      apply m.frames_of top rfl
      · intro g inside
        rcases List.mem_cons.1 inside with rfl | below
        · exact Or.inr ⟨prev, Or.inr ⟨flag, marked, Function.update_self ..⟩⟩
        · exact Or.inl below
      · intro u g apart holds
        by_cases inCall : g.isCall = true
        · obtain ⟨rfl, h, anyMore, rfl⟩ :=
            frame_of_mark c m top mine marked (apart_mem top apart) inCall
          obtain ⟨member, bound, more, -, -⟩ := holds
          refine ⟨member, bound, more, fun unflagged => ?_, fun _ => Or.inl stage⟩
          cases (show _ = true from Function.update_self ..).symm.trans unflagged
        · apply holds_other holds (Bool.eq_false_iff.2 inCall)
          · exact fun _ _ => id
          · exact fun _ _ => id
          · exact fun _ _ => ended }

theorem notice (c : Control s holder signaller) (m : Memory s items)
    (top : s.threads t = .unlinked cb :: rest) : Memory (s.notice t cb rest) items := by
  have prev : (s.list.callbacks cb).prev = none := m.top_holds top
  unfold State.notice
  split
  · next mine =>
      unfold State.markRemoved
      split
      · next flag marked => exact m.flag c top mine marked
      · next unmarked =>
          exact m.replace top ⟨rfl, rfl, rfl, rfl, rfl, rfl, rfl, rfl⟩ rfl rfl rfl nofun
            ⟨prev, over_of_notice c m top mine unmarked⟩
  · exact m.replace top ⟨rfl, rfl, rfl, rfl, rfl, rfl, rfl, rfl⟩ rfl rfl rfl nofun prev

/-! ## `cb->execute()` returns -/

theorem destroyed_of_flagged (c : Control s holder signaller) (m : Memory s items) {h flag : Nat}
    {anyMore : Bool} (top : s.threads t = .executing h cb anyMore flag :: rest)
    (flagged : s.removed flag = true) : s.stages cb = .destroyed t := by
  obtain ⟨-, -, -, -, gone⟩ := m.top_holds top
  apply (gone flagged).resolve_left
  intro destroying
  have remover := c.cast (.remover cb)
  rw [owner, destroying] at remover
  obtain ⟨g, member, plays⟩ := remover.exists_mem
  rw [top] at member
  rcases List.mem_cons.1 member with rfl | below
  · cases plays
  · have body := c.tail_of_top top g below
    cases g <;> first | cases plays | cases body

theorem leave (c : Control s holder signaller) (m : Memory s items) {h flag : Nat}
    {anyMore : Bool} (top : s.threads t = .executing h cb anyMore flag :: rest)
    (threads : s'.threads = Function.update s.threads t l)
    (below : ∀ g ∈ l, g ∈ rest ∨ g = .loading (.nextCallback h))
    (returns : anyMore = true → .loading (.nextCallback h) ∈ l)
    (list : s'.list = (s.markFinished cb flag).list) (word : s'.word = s.word)
    (removed : s'.removed = s.removed) (stages : s'.stages = s.stages)
    (registered : s'.registered = s.registered) (called : s'.called = s.called)
    (refused : s'.refused = s.refused) (withdrawn : s'.withdrawn = s.withdrawn) :
    Memory s' items := by
  obtain ⟨-, -, more, unflagged, -⟩ := m.top_holds top
  have here {u : Nat} {g : Frame Fields} (member : g ∈ s.threads u) (call : g.isCall = true) :
      g = .executing h cb anyMore flag := (top_of_call c top rfl member call).2
  have same {a : Nat} (other : a ≠ cb) : s'.list.callbacks a = s.list.callbacks a := by
    rw [list, State.markFinished]
    split
    · rfl
    · rw [State.modify, CallbackList.modify_callbacks, if_neg (Ne.symm other)]
  have prev (a : Nat) : (s'.list.callbacks a).prev = (s.list.callbacks a).prev := by
    rw [list, State.markFinished]
    split
    · rfl
    · rw [State.modify, CallbackList.modify_callbacks]
      split <;> rfl
  have finished (a : Nat) (before : (s.list.callbacks a).finishedExecuting = true) :
      (s'.list.callbacks a).finishedExecuting = true := by
    rw [list, State.markFinished]
    split
    · exact before
    · rw [State.modify, CallbackList.modify_callbacks]
      split
      · rfl
      · exact before
  -- what is left in the callback, if it is still there
  have left (live : (s.stages cb).live = true) : (s.list.callbacks cb).prev = none ∧
      (s'.list.callbacks cb).isRemoved = none ∧
      (s'.list.callbacks cb).finishedExecuting = true := by
    by_cases flagged : s.removed flag = true
    · rw [m.destroyed_of_flagged c top flagged] at live
      cases live
    · have taken := (unflagged (Bool.eq_false_iff.2 flagged)).1
      rw [list, State.markFinished, if_neg flagged, State.modify, CallbackList.modify_callbacks,
        if_pos rfl]
      exact ⟨taken.prev, rfl, rfl⟩
  have unlisted : cb ∉ items := by
    intro listed
    obtain ⟨live, linked⟩ := (m.linked cb).1 listed
    exact linked (left live).1
  constructor
  · rw [list, State.markFinished]
    split
    · exact m.lists
    · exact m.lists.modify (f := fun c => { c with isRemoved := none, finishedExecuting := true })
        (fun _ => rfl) fun _ => rfl
  · exact registered ▸ m.nodup
  · rw [called, registered]
    exact m.order
  · intro a
    rw [stages, prev]
    exact m.linked a
  · intro a blank
    rw [stages] at blank
    by_cases different : a = cb
    · subst different
      have untouched := m.blank a blank
      by_cases flagged : s.removed flag = true
      · rw [m.destroyed_of_flagged c top flagged] at blank
        cases blank
      · have live := (unflagged (Bool.eq_false_iff.2 flagged)).1.live
        cases (Stage.not_live_of_blank blank).symm.trans live
    · rw [same different]
      exact m.blank a blank
  · intro a unmade
    rw [stages] at unmade
    rw [State.New, registered, refused]
    exact m.unmade a unmade
  · intro a member
    have different : a ≠ cb := fun same => unlisted (same ▸ member)
    rw [same different]
    exact m.untouched a member
  · rw [refused, registered]
    exact m.refusals
  · intro a flag' live marked
    rw [stages] at live
    by_cases different : a = cb
    · subst different
      rw [(left live).2.1] at marked
      cases marked
    · rw [same different] at marked
      obtain ⟨u, h', anyMore', member⟩ := m.marks a flag' live marked
      cases here member rfl
      exact absurd rfl different
  · intro a live before unmarked
    rw [stages] at live
    by_cases different : a = cb
    · subst different
      exact Or.inl (left live).2.2
    · rw [same different] at before unmarked ⊢
      rcases m.popped a live before unmarked with finished | ⟨u, h', anyMore', member⟩
      · exact Or.inl finished
      · cases here member rfl
  · intro a
    rw [registered, called, withdrawn]
    intro member
    rcases m.complete a member with called | listed | withdrawn | ⟨u, h', anyMore', member⟩
    · exact Or.inl called
    · exact Or.inr (Or.inl listed)
    · exact Or.inr (Or.inr (Or.inl withdrawn))
    · cases here member rfl
  · rw [withdrawn, stages, called]
    exact m.withdrawn
  · intro _ none_
    cases anyMore with
    | false => exact more rfl
    | true =>
        have plays := none_ t (.loading (.nextCallback h)) (by
          rw [threads, Function.update_self]
          exact returns rfl)
        cases plays
  · rw [called, refused, word]
    exact m.early
  · apply m.frames_of top threads
    · intro g member
      rcases below g member with inside | next
      · exact Or.inl inside
      · rw [next]
        exact Or.inr trivial
    · intro u g apart holds
      apply holds_other holds (no_signaller c top rfl apart)
      · intro a _ new
        rwa [State.New, registered, refused]
      · intro a _ before
        rw [prev, before]
      · intro a _ ended
        by_cases different : a = cb
        · subst different
          by_cases flagged : s.removed flag = true
          · rw [State.Over, list, State.markFinished, if_pos flagged, removed]
            exact ended
          · have taken := (unflagged (Bool.eq_false_iff.2 flagged)).1
            exact Or.inl (left taken.live).2.2
        · rwa [State.Over, same different, removed]

theorem executed (c : Control s holder signaller) (m : Memory s items) {h flag : Nat}
    {anyMore : Bool} (top : s.threads t = .executing h cb anyMore flag :: rest) :
    Memory (s.executed t h cb anyMore flag rest) items := by
  have threads : (s.markFinished cb flag).threads = s.threads := by
    unfold State.markFinished
    split <;> rfl
  unfold State.executed
  cases anyMore with
  | true =>
      apply m.leave c top (l := .loading (.nextCallback h) :: rest)
      · exact congrArg (Function.update · t _) threads
      · exact fun g member => (List.mem_cons.1 member).symm
      · exact fun _ => List.mem_cons_self
      all_goals unfold State.markFinished; split <;> rfl
  | false =>
      apply m.leave c top (l := rest)
      · exact congrArg (Function.update · t _) threads
      · exact fun g member => Or.inl member
      · nofun
      all_goals unfold State.markFinished; split <;> rfl

theorem finish (c : Control s holder signaller) (m : Memory s items)
    (action : s.finish t = some s') : Memory s' items := by
  unfold State.finish at action
  split at action
  · next top =>
      cases action
      exact m.executed c top
  · next h cb increment rest top =>
      cases action
      exact m.decline top (stage_of_maker c top (beq_self_eq_true cb)) rfl rfl
  · cases action

/-! ## All steps -/

theorem runSection (c : Control s holder signaller) (m : Memory s items)
    (top : s.threads t = .locked call :: rest) :
    ∃ items', Memory (s.runSection Fields.ops t rest call) items' := by
  cases call with
  | requestStop h => exact m.loop c top (Control.loops_requestStop h)
  | nextCallback h =>
      have mine := (c.cast .signaller).owner_of_mem (f := Frame.locked (.nextCallback h))
        (top ▸ List.mem_cons_self) rfl
      have same : { s with signalling := some t } = s := by
        rw [← c.signalling_of_holder top nofun mine]
      have next := m.loop (h := h) c top (Control.loops_nextCallback h)
      rwa [same] at next
  | tryAddCallback h cb increment =>
      unfold State.runSection State.link State.giveBack
      cases increment with
      | true => exact ⟨_, m.link c top rfl rfl rfl rfl rfl rfl rfl rfl rfl⟩
      | false => exact ⟨_, m.link c top rfl rfl rfl rfl rfl rfl rfl rfl rfl⟩
  | removeCallback cb =>
      unfold State.runSection State.unlink
      dsimp only
      split
      · next slot stored =>
          exact ⟨_, m.unlink c top stored rfl rfl rfl rfl rfl rfl rfl rfl rfl rfl⟩
      · next prev => exact ⟨_, m.unlinked top prev⟩

theorem runFrame (c : Control s holder signaller) (m : Memory s items) {spurious : Bool}
    (top : s.threads t = f :: rest)
    (action : s.runFrame Fields.ops t spurious rest f = some s') : ∃ items', Memory s' items' := by
  cases f with
  | loading call =>
      cases action
      refine ⟨_, look c m top (fun _ => rfl) rfl fun h cb increment kind => ?_⟩
      subst kind
      exact m.top_holds top
  | swapping call old =>
      cases action
      exact ⟨_, swap c m top⟩
  | locked call =>
      cases action
      exact m.runSection c top
  | calling h cb anyMore =>
      cases action
      exact ⟨_, m.execute c top⟩
  | executing h cb anyMore flag => cases action
  | refusing h cb increment => cases action
  | unlinked cb =>
      cases action
      exact ⟨_, m.notice c top⟩
  | waiting cb =>
      cases action
      exact ⟨_, m.wait top⟩
  | releasing cb =>
      cases action
      exact ⟨_, m.release c top rfl rfl rfl rfl rfl rfl rfl rfl rfl rfl⟩

theorem act (c : Control s holder signaller) (m : Memory s items) {e : Action}
    (action : s.act Fields.ops e = some s') : ∃ items', Memory s' items' := by
  cases e with
  | requestStop t h => exact ⟨_, m.requestStop action⟩
  | construct t h cb increment => exact ⟨_, m.construct action⟩
  | destroy t cb => exact ⟨_, m.destroy action⟩
  | step t spurious =>
      simp only [State.act] at action
      split at action
      · cases action
      · next top => exact m.runFrame c top action
  | finish t => exact ⟨_, m.finish c action⟩
  | getToken h h' | copyToken h h' | dropToken h | copySource h h' | dropSource h =>
      obtain ⟨-, made⟩ := Option.ite_none_right_eq_some.1 action
      cases made
      exact ⟨_, m.count ⟨rfl, rfl, rfl, rfl, rfl, rfl, rfl, rfl⟩ rfl rfl⟩

end Memory

theorem memory {s : State Fields} (reachable : (system Fields.ops).Reachable s) :
    ∃ items, Memory s items := by
  induction reachable with
  | init => exact ⟨_, Memory.init⟩
  | step previous _ action ih =>
      obtain ⟨_, _, c⟩ := control previous
      obtain ⟨_, m⟩ := ih
      exact m.act c (act_of_step action).2

end Librf.StopToken
