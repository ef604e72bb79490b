import Librf.StopToken.CallbackList
import Librf.StopToken.Control

/-!
# The callbacks in memory

A callback is in the list, or it has been taken out by `request_stop`, or its destructor has
unlinked it. What `request_stop` still writes into a callback is there as long as it writes.
-/

namespace Librf.StopToken

/-- The callback has a `state_`, or its destructor has not returned. -/
def Stage.live : Stage → Bool
  | .attached | .destroying _ => true
  | _ => false

/-- Nobody has written to the callback since it was initialized. -/
def Stage.blank : Stage → Bool
  | .unmade | .constructing _ => true
  | _ => false

theorem Stage.not_live_of_blank {stage : Stage} (blank : stage.blank = true) :
    stage.live = false := by
  cases stage <;> first | rfl | cases blank

namespace State

variable {W : Type}

def New (s : State W) (cb : Nat) : Prop := cb ∉ s.registered ∧ cb ∉ s.refused

/-- `request_stop` has taken the callback out and has not finished with it. -/
structure Taken (s : State W) (cb : Nat) : Prop where
  live : (s.stages cb).live = true
  prev : (s.list.callbacks cb).prev = none
  unfinished : (s.list.callbacks cb).finishedExecuting = false

/-- `request_stop` does not touch the callback any more. -/
def Over (s : State W) (cb : Nat) : Prop :=
  (s.list.callbacks cb).finishedExecuting = true ∨
    ∃ flag, (s.list.callbacks cb).isRemoved = some flag ∧ s.removed flag = true

end State

/-- In `request_stop`, with a callback that has been taken out. -/
def Frame.isCall {W : Type} : Frame W → Bool
  | .calling .. | .executing .. => true
  | _ => false

def Frame.Holds (s : State Fields) (items : List Nat) (t : Nat) : Frame Fields → Prop
  | .loading (.tryAddCallback _ cb _) | .swapping (.tryAddCallback _ cb _) _
  | .locked (.tryAddCallback _ cb _) => s.New cb
  | .calling _ cb anyMore => s.Taken cb ∧ (s.list.callbacks cb).isRemoved = none ∧
      (s.called ++ cb :: items).Sublist s.registered.reverse ∧ (anyMore = false → items = [])
  | .executing _ cb anyMore flag => cb ∈ s.called ∧ flag < s.made ∧ (anyMore = false → items = []) ∧
      (s.removed flag = false → s.Taken cb ∧ (s.list.callbacks cb).isRemoved = some flag) ∧
      (s.removed flag = true → s.stages cb = .destroying t ∨ s.stages cb = .destroyed t)
  | .unlinked cb | .waiting cb => (s.list.callbacks cb).prev = none
  | .releasing cb => (s.list.callbacks cb).prev = none ∧ s.Over cb
  | _ => True

structure Memory (s : State Fields) (items : List Nat) : Prop where
  lists : s.list.Lists items
  nodup : s.registered.Nodup
  order : (s.called ++ items).Sublist s.registered.reverse
  linked : ∀ cb, cb ∈ items ↔ (s.stages cb).live = true ∧ (s.list.callbacks cb).prev ≠ none
  blank : ∀ cb, (s.stages cb).blank = true → s.list.callbacks cb = {}
  unmade : ∀ cb, s.stages cb = .unmade → s.New cb
  untouched : ∀ cb ∈ items, (s.list.callbacks cb).isRemoved = none ∧
    (s.list.callbacks cb).finishedExecuting = false
  refusals : s.refused.Nodup ∧ ∀ cb ∈ s.refused, cb ∉ s.registered
  marks : ∀ cb flag, (s.stages cb).live = true → (s.list.callbacks cb).isRemoved = some flag →
    ∃ t h anyMore, .executing h cb anyMore flag ∈ s.threads t
  popped : ∀ cb, (s.stages cb).live = true → (s.list.callbacks cb).prev = none →
    (s.list.callbacks cb).isRemoved = none → (s.list.callbacks cb).finishedExecuting = true ∨
      ∃ t h anyMore, .calling h cb anyMore ∈ s.threads t
  complete : ∀ cb ∈ s.registered, cb ∈ s.called ∨ cb ∈ items ∨ cb ∈ s.withdrawn ∨
    ∃ t h anyMore, .calling h cb anyMore ∈ s.threads t
  withdrawn : ∀ cb ∈ s.withdrawn, (∃ t, s.stages cb = .destroyed t) ∧ cb ∉ s.called
  ended : s.word.requested = true → (∀ t, ∀ f ∈ s.threads t, f.plays .signaller = false) →
    items = []
  early : s.word.requested = false → s.called = [] ∧ s.refused = []
  frames : ∀ t, ∀ f ∈ s.threads t, f.Holds s items t

namespace Memory

variable {s s' : State Fields} {holder signaller : Option Nat} {items items' : List Nat} {t : Nat}
  {f g : Frame Fields} {rest l : List (Frame Fields)} {call : Call} {cb : Nat}

theorem init : Memory (system Fields.ops).init [] where
  lists := CallbackList.Lists.nil
  nodup := List.nodup_nil
  order := List.Sublist.refl []
  linked cb := by simp [system, Stage.live]
  blank _ _ := rfl
  unmade _ _ := ⟨List.not_mem_nil, List.not_mem_nil⟩
  untouched := nofun
  refusals := ⟨List.nodup_nil, nofun⟩
  marks _ _ live := by cases live
  popped _ live := by cases live
  complete := nofun
  withdrawn := nofun
  ended requested := by cases requested
  early _ := ⟨rfl, rfl⟩
  frames _ _ member := by cases member

theorem isCall_eq_false (other : f.plays .signaller = false) : f.isCall = false := by
  cases f <;> first | rfl | cases other

theorem not_mem_of_blank (m : Memory s items) (blank : (s.stages cb).blank = true) :
    cb ∉ items := by
  intro member
  have live := ((m.linked cb).1 member).1
  rw [Stage.not_live_of_blank blank] at live
  cases live

theorem holds_other (holds : f.Holds s items t) (other : f.isCall = false)
    (new : ∀ cb, f.plays (.maker cb) = true → s.New cb → s'.New cb)
    (prev : ∀ cb, f.plays (.remover cb) = true → (s.list.callbacks cb).prev = none →
      (s'.list.callbacks cb).prev = none)
    (ended : ∀ cb, f.plays (.remover cb) = true → s.Over cb → s'.Over cb) :
    f.Holds s' items' t := by
  cases f with
  | loading call | swapping call old | locked call =>
      cases call with
      | tryAddCallback h cb increment => exact new cb (beq_self_eq_true cb) holds
      | _ => trivial
  | calling h cb anyMore => cases other
  | executing h cb anyMore flag => cases other
  | refusing h cb increment => trivial
  | unlinked cb => exact prev cb (beq_self_eq_true cb) holds
  | waiting cb => exact prev cb (beq_self_eq_true cb) holds
  | releasing cb =>
      exact ⟨prev cb (beq_self_eq_true cb) holds.1, ended cb (beq_self_eq_true cb) holds.2⟩

theorem holds_mono (holds : f.Holds s items t) (called : s'.called = s.called)
    (made : s'.made = s.made) (registered : s'.registered = s.registered)
    (removed : s'.removed = s.removed) (fewer : items'.Sublist items)
    (new : ∀ cb, f.plays (.maker cb) = true → s.New cb → s'.New cb)
    (prev : ∀ cb, (s.list.callbacks cb).prev = none → (s'.list.callbacks cb).prev = none)
    (ended : ∀ cb, s.Over cb → s'.Over cb)
    (taken : ∀ cb, s.Taken cb → ¬ s.Over cb →
      s'.Taken cb ∧ (s'.list.callbacks cb).isRemoved = (s.list.callbacks cb).isRemoved)
    (gone : ∀ cb, s.stages cb = .destroying t ∨ s.stages cb = .destroyed t →
      s'.stages cb = .destroying t ∨ s'.stages cb = .destroyed t) : f.Holds s' items' t := by
  have none_ (anyMore : Bool) (more : anyMore = false → items = []) (no : anyMore = false) :
      items' = [] := List.sublist_nil.1 (more no ▸ fewer)
  cases f with
  | calling h cb anyMore =>
      obtain ⟨here, unmarked, order, more⟩ := holds
      have notOver : ¬ s.Over cb := by
        rintro (finished | ⟨flag, marked, -⟩)
        · rw [here.unfinished] at finished
          cases finished
        · rw [unmarked] at marked
          cases marked
      obtain ⟨here, same⟩ := taken cb here notOver
      refine ⟨here, same.trans unmarked, ?_, none_ anyMore more⟩
      rw [called, registered]
      exact ((List.Sublist.refl s.called).append (fewer.cons_cons cb)).trans order
  | executing h cb anyMore flag =>
      obtain ⟨member, bound, more, unflagged, flagged⟩ := holds
      rw [Frame.Holds, called, made, removed]
      refine ⟨member, bound, none_ anyMore more, fun no => ?_, fun yes => gone cb (flagged yes)⟩
      obtain ⟨here, marked⟩ := unflagged no
      have notOver : ¬ s.Over cb := by
        rintro (finished | ⟨other, marked', is⟩)
        · rw [here.unfinished] at finished
          cases finished
        · cases marked.symm.trans marked'
          rw [no] at is
          cases is
      obtain ⟨here, same⟩ := taken cb here notOver
      exact ⟨here, same.trans marked⟩
  | loading call | swapping call old | locked call =>
      cases call with
      | tryAddCallback h cb increment => exact new cb (beq_self_eq_true cb) holds
      | _ => trivial
  | refusing h cb increment => trivial
  | unlinked cb => exact prev cb holds
  | waiting cb => exact prev cb holds
  | releasing cb => exact ⟨prev cb holds.1, ended cb holds.2⟩

/-! ## Steps that only move threads -/

structure Unchanged (s s' : State Fields) : Prop where
  list : s'.list = s.list
  removed : s'.removed = s.removed
  made : s'.made = s.made
  stages : s'.stages = s.stages
  registered : s'.registered = s.registered
  called : s'.called = s.called
  refused : s'.refused = s.refused
  withdrawn : s'.withdrawn = s.withdrawn

theorem mem_update {u : Nat} (member : f ∈ s.threads u) (calls : f ∈ s.threads t → f ∈ l) :
    f ∈ Function.update s.threads t l u := by
  by_cases here : u = t
  · subst here
    rw [Function.update_self]
    exact calls member
  · rwa [Function.update_of_ne here]

theorem exists_executing (m : Memory s items) (calls : ∀ f ∈ s.threads t, f.isCall = true → f ∈ l)
    {flag : Nat} (live : (s.stages cb).live = true)
    (marked : (s.list.callbacks cb).isRemoved = some flag) :
    ∃ u h anyMore, .executing h cb anyMore flag ∈ Function.update s.threads t l u := by
  obtain ⟨u, h, anyMore, member⟩ := m.marks cb flag live marked
  exact ⟨u, h, anyMore, mem_update member fun member => calls _ member rfl⟩

theorem complete_of (m : Memory s items) (calls : ∀ f ∈ s.threads t, f.isCall = true → f ∈ l)
    (member : cb ∈ s.registered) : cb ∈ s.called ∨ cb ∈ items ∨ cb ∈ s.withdrawn ∨
      ∃ u h anyMore, .calling h cb anyMore ∈ Function.update s.threads t l u := by
  rcases m.complete cb member with called | listed | withdrawn | ⟨u, h, anyMore, member⟩
  · exact Or.inl called
  · exact Or.inr (Or.inl listed)
  · exact Or.inr (Or.inr (Or.inl withdrawn))
  · exact Or.inr (Or.inr (Or.inr ⟨u, h, anyMore, mem_update member fun member =>
      calls _ member rfl⟩))

theorem popped_of (m : Memory s items) (calls : ∀ f ∈ s.threads t, f.isCall = true → f ∈ l)
    (live : (s.stages cb).live = true) (prev : (s.list.callbacks cb).prev = none)
    (unmarked : (s.list.callbacks cb).isRemoved = none) :
    (s.list.callbacks cb).finishedExecuting = true ∨
      ∃ u h anyMore, .calling h cb anyMore ∈ Function.update s.threads t l u := by
  rcases m.popped cb live prev unmarked with finished | ⟨u, h, anyMore, member⟩
  · exact Or.inl finished
  · exact Or.inr ⟨u, h, anyMore, mem_update member fun member => calls _ member rfl⟩

theorem Unchanged.holds (same : Unchanged s s') (holds : f.Holds s items t) :
    f.Holds s' items t := by
  obtain ⟨list, removed, made, stages, registered, called, refused, -⟩ := same
  apply holds_mono holds called made registered removed (List.Sublist.refl items)
  · intro cb _ new
    rwa [State.New, registered, refused]
  · intro cb none_
    rwa [list]
  · intro cb ended
    rwa [State.Over, list, removed]
  · intro cb taken _
    rw [list]
    exact ⟨⟨stages ▸ taken.live, list ▸ taken.prev, list ▸ taken.unfinished⟩, rfl⟩
  · intro cb gone
    rwa [stages]

theorem thread (m : Memory s items) (same : Unchanged s s')
    (threads : s'.threads = Function.update s.threads t l)
    (calls : ∀ f ∈ s.threads t, f.isCall = true → f ∈ l)
    (ended : s'.word.requested = true → (∀ u, ∀ f ∈ s'.threads u, f.plays .signaller = false) →
      items = [])
    (early : s'.word.requested = false → s.word.requested = false)
    (holds : ∀ f ∈ l, f.Holds s items t) : Memory s' items where
  lists := same.list ▸ m.lists
  nodup := same.registered ▸ m.nodup
  order := by
    rw [same.called, same.registered]
    exact m.order
  linked cb := by
    rw [same.stages, same.list]
    exact m.linked cb
  blank cb := by
    rw [same.stages, same.list]
    exact m.blank cb
  unmade cb := by
    rw [same.stages, State.New, same.registered, same.refused]
    exact m.unmade cb
  untouched := by
    rw [same.list]
    exact m.untouched
  refusals := by
    rw [same.refused, same.registered]
    exact m.refusals
  marks cb flag := by
    rw [same.stages, same.list, threads]
    exact m.exists_executing calls
  popped cb := by
    rw [same.stages, same.list, threads]
    exact m.popped_of calls
  complete cb := by
    rw [same.registered, same.called, same.withdrawn, threads]
    exact m.complete_of calls
  withdrawn := by
    rw [same.withdrawn, same.stages, same.called]
    exact m.withdrawn
  ended := ended
  early unrequested := by
    rw [same.called, same.refused]
    exact m.early (early unrequested)
  frames := by
    rw [threads]
    apply Sole.forall_mem_update
    · exact fun u f member => same.holds (m.frames u f member)
    · exact fun f member => same.holds (holds f member)

theorem over_of (m : Memory s items) (threads : s'.threads = Function.update s.threads t l)
    (requested : s'.word.requested = s.word.requested)
    (signals : ∀ f ∈ s.threads t, f.plays .signaller = true →
      ∃ g ∈ l, g.plays .signaller = true) :
    s'.word.requested = true → (∀ u, ∀ f ∈ s'.threads u, f.plays .signaller = false) →
      items = [] := by
  intro is none_
  rw [threads] at none_
  apply m.ended (requested.symm.trans is)
  intro u f member
  by_contra plays
  by_cases here : u = t
  · subst here
    obtain ⟨g, inside, plays'⟩ := signals f member ((Bool.not_eq_false _).mp plays)
    rw [none_ u g (by rwa [Function.update_self])] at plays'
    cases plays'
  · exact plays (none_ u f (by rwa [Function.update_of_ne here]))

theorem rest_holds (m : Memory s items) (top : s.threads t = f :: rest) :
    ∀ g ∈ rest, g.Holds s items t :=
  fun g member => m.frames t g (top ▸ List.mem_cons_of_mem f member)

theorem top_holds (m : Memory s items) (top : s.threads t = f :: rest) : f.Holds s items t :=
  m.frames t f (top ▸ List.mem_cons_self)

theorem calls_of_top (top : s.threads t = f :: rest) (other : f.isCall = false)
    (stay : ∀ g ∈ rest, g ∈ l) : ∀ g ∈ s.threads t, g.isCall = true → g ∈ l := by
  intro g member is
  rw [top] at member
  rcases List.mem_cons.1 member with rfl | member
  · rw [other] at is
    cases is
  · exact stay g member

theorem push (m : Memory s items) (same : Unchanged s s')
    (threads : s'.threads = Function.update s.threads t (.loading call :: s.threads t))
    (word : s'.word = s.word) (kind : ∀ cb, call.plays (.maker cb) = false) :
    Memory s' items := by
  apply m.thread same threads
  · exact fun f member _ => List.mem_cons_of_mem _ member
  · apply m.over_of threads (by rw [word])
    exact fun f member plays => ⟨f, List.mem_cons_of_mem _ member, plays⟩
  · rw [word]
    exact id
  · rw [List.forall_mem_cons]
    constructor
    · cases call with
      | tryAddCallback h cb increment => cases (beq_self_eq_true cb).symm.trans (kind cb)
      | _ => trivial
    · exact m.frames t

theorem replace (m : Memory s items) (top : s.threads t = f :: rest) (same : Unchanged s s')
    (threads : s'.threads = Function.update s.threads t (g :: rest))
    (requested : s'.word.requested = s.word.requested) (other : f.isCall = false)
    (signals : f.plays .signaller = true → g.plays .signaller = true)
    (holds : g.Holds s items t) : Memory s' items := by
  apply m.thread same threads
  · exact calls_of_top top other fun _ => List.mem_cons_of_mem g
  · apply m.over_of threads requested
    intro f' member plays
    rw [top] at member
    rcases List.mem_cons.1 member with rfl | member
    · exact ⟨g, List.mem_cons_self, signals plays⟩
    · exact ⟨f', List.mem_cons_of_mem g member, plays⟩
  · exact fun unrequested => requested.symm.trans unrequested
  · rw [List.forall_mem_cons]
    exact ⟨holds, m.rest_holds top⟩

theorem drop (m : Memory s items) (top : s.threads t = f :: rest) (same : Unchanged s s')
    (threads : s'.threads = Function.update s.threads t rest)
    (requested : s'.word.requested = s.word.requested) (other : f.isCall = false)
    (signals : f.plays .signaller = true → items = []) : Memory s' items := by
  apply m.thread same threads (calls_of_top top other fun _ => id)
  · intro is none_
    by_cases plays : f.plays .signaller = true
    · exact signals plays
    · apply m.over_of threads requested _ is none_
      intro f' member plays'
      rw [top] at member
      rcases List.mem_cons.1 member with rfl | member
      · exact absurd plays' plays
      · exact ⟨f', member, plays'⟩
  · exact fun unrequested => requested.symm.trans unrequested
  · exact m.rest_holds top

theorem count (m : Memory s items) (same : Unchanged s s') (threads : s'.threads = s.threads)
    (requested : s'.word.requested = s.word.requested) : Memory s' items := by
  apply m.thread (t := 0) (l := s.threads 0) same
  · rw [threads, Function.update_eq_self]
  · exact fun _ member _ => member
  · rw [threads, requested]
    exact m.ended
  · exact fun unrequested => requested.symm.trans unrequested
  · exact m.frames 0

theorem requestStop (m : Memory s items) {h : Nat} (action : s.requestStop t h = some s') :
    Memory s' items := by
  obtain ⟨-, made⟩ := Option.ite_none_right_eq_some.1 action
  cases made
  exact m.push ⟨rfl, rfl, rfl, rfl, rfl, rfl, rfl, rfl⟩ rfl rfl fun _ => rfl

/-! ## Constructors and destructors begin and end -/

structure Restaged (s s' : State Fields) (cb : Nat) (stage : Stage) : Prop where
  list : s'.list = s.list
  removed : s'.removed = s.removed
  made : s'.made = s.made
  stages : s'.stages = Function.update s.stages cb stage
  registered : s'.registered = s.registered
  called : s'.called = s.called
  refused : s'.refused = s.refused
  withdrawn : s'.withdrawn = s.withdrawn
  live : stage.live = (s.stages cb).live
  blank : stage.blank = true → (s.stages cb).blank = true
  constructed : stage ≠ .unmade
  alive : ∀ u, s.stages cb ≠ .destroying u ∧ s.stages cb ≠ .destroyed u

namespace Restaged

variable {stage : Stage} (r : Restaged s s' cb stage)

include r

theorem live_eq (cb' : Nat) : (s'.stages cb').live = (s.stages cb').live := by
  rw [r.stages]
  by_cases here : cb' = cb
  · subst here
    rw [Function.update_self, r.live]
  · rw [Function.update_of_ne here]

theorem stage_of_ne {cb' : Nat} (other : cb' ≠ cb) : s'.stages cb' = s.stages cb' := by
  rw [r.stages, Function.update_of_ne other]

theorem holds (holds : f.Holds s items t) : f.Holds s' items t := by
  apply holds_mono holds r.called r.made r.registered r.removed (List.Sublist.refl items)
  · intro cb' _ new
    rwa [State.New, r.registered, r.refused]
  · intro cb' none_
    rwa [r.list]
  · intro cb' ended
    rwa [State.Over, r.list, r.removed]
  · intro cb' taken _
    rw [r.list]
    exact ⟨⟨(r.live_eq cb').trans taken.live, r.list ▸ taken.prev, r.list ▸ taken.unfinished⟩, rfl⟩
  · intro cb' gone
    have other : cb' ≠ cb := by
      intro same
      subst same
      exact gone.elim (r.alive t).1 (r.alive t).2
    rwa [r.stage_of_ne other]

end Restaged

theorem restage {stage : Stage} (m : Memory s items) (r : Restaged s s' cb stage)
    (threads : s'.threads = Function.update s.threads t l)
    (calls : ∀ f ∈ s.threads t, f.isCall = true → f ∈ l)
    (ended : s'.word.requested = true → (∀ u, ∀ f ∈ s'.threads u, f.plays .signaller = false) →
      items = [])
    (early : s'.word.requested = false → s.word.requested = false)
    (holds : ∀ f ∈ l, f.Holds s items t) : Memory s' items where
  lists := r.list ▸ m.lists
  nodup := r.registered ▸ m.nodup
  order := by
    rw [r.called, r.registered]
    exact m.order
  linked cb' := by
    rw [r.live_eq, r.list]
    exact m.linked cb'
  blank cb' blank := by
    rw [r.list]
    by_cases here : cb' = cb
    · subst here
      rw [r.stages, Function.update_self] at blank
      exact m.blank cb' (r.blank blank)
    · rw [r.stage_of_ne here] at blank
      exact m.blank cb' blank
  unmade cb' unmade := by
    have other : cb' ≠ cb := by
      intro same
      subst same
      rw [r.stages, Function.update_self] at unmade
      exact r.constructed unmade
    rw [r.stage_of_ne other] at unmade
    rw [State.New, r.registered, r.refused]
    exact m.unmade cb' unmade
  untouched := by
    rw [r.list]
    exact m.untouched
  refusals := by
    rw [r.refused, r.registered]
    exact m.refusals
  marks cb' flag := by
    rw [r.live_eq, r.list, threads]
    exact m.exists_executing calls
  popped cb' := by
    rw [r.live_eq, r.list, threads]
    exact m.popped_of calls
  complete cb' := by
    rw [r.registered, r.called, r.withdrawn, threads]
    exact m.complete_of calls
  withdrawn := by
    rw [r.withdrawn, r.called]
    intro cb' member
    obtain ⟨⟨u, destroyed⟩, uncalled⟩ := m.withdrawn cb' member
    have other : cb' ≠ cb := by
      intro same
      subst same
      exact (r.alive u).2 destroyed
    rw [r.stage_of_ne other]
    exact ⟨⟨u, destroyed⟩, uncalled⟩
  ended := ended
  early unrequested := by
    rw [r.called, r.refused]
    exact m.early (early unrequested)
  frames := by
    rw [threads]
    apply Sole.forall_mem_update
    · exact fun u f member => r.holds (m.frames u f member)
    · exact fun f member => r.holds (holds f member)

theorem restage_push {stage : Stage} (m : Memory s items) (r : Restaged s s' cb stage)
    (threads : s'.threads = Function.update s.threads t (.loading call :: s.threads t))
    (word : s'.word = s.word) (holds : (Frame.loading call).Holds s items t) :
    Memory s' items := by
  apply m.restage r threads
  · exact fun f member _ => List.mem_cons_of_mem _ member
  · apply m.over_of threads (by rw [word])
    exact fun f member plays => ⟨f, List.mem_cons_of_mem _ member, plays⟩
  · rw [word]
    exact id
  · rw [List.forall_mem_cons]
    exact ⟨holds, m.frames t⟩

theorem construct (m : Memory s items) {h : Nat} {increment : Bool}
    (action : s.construct t h cb increment = some s') : Memory s' items := by
  obtain ⟨⟨-, unmade, -⟩, made⟩ := Option.ite_none_right_eq_some.1 action
  have live : (Stage.constructing t).live = (s.stages cb).live := by rw [unmade]; rfl
  have blank : (Stage.constructing t).blank = true → (s.stages cb).blank = true := by
    rw [unmade]
    exact fun _ => rfl
  have alive : ∀ u, s.stages cb ≠ .destroying u ∧ s.stages cb ≠ .destroyed u := by
    rw [unmade]
    exact fun _ => ⟨nofun, nofun⟩
  have new := m.unmade cb unmade
  split at made
  · cases made
    exact m.restage_push ⟨rfl, rfl, rfl, rfl, rfl, rfl, rfl, rfl, live, blank, nofun, alive⟩ rfl rfl
      new
  · obtain ⟨-, made⟩ := Option.ite_none_left_eq_some.1 made
    cases made
    exact m.restage_push ⟨rfl, rfl, rfl, rfl, rfl, rfl, rfl, rfl, live, blank, nofun, alive⟩ rfl rfl
      new

theorem destroy (m : Memory s items) (action : s.destroy t cb = some s') : Memory s' items := by
  obtain ⟨-, made⟩ := Option.ite_none_right_eq_some.1 action
  split at made
  · next attached =>
      cases made
      have live : (Stage.destroying t).live = (s.stages cb).live := by rw [attached]; rfl
      have alive : ∀ u, s.stages cb ≠ .destroying u ∧ s.stages cb ≠ .destroyed u := by
        rw [attached]
        exact fun _ => ⟨nofun, nofun⟩
      exact m.restage_push ⟨rfl, rfl, rfl, rfl, rfl, rfl, rfl, rfl, live, nofun, nofun, alive⟩ rfl
        rfl trivial
  · next detached =>
      cases made
      have live : (Stage.destroyed t).live = (s.stages cb).live := by rw [detached]; rfl
      have alive : ∀ u, s.stages cb ≠ .destroying u ∧ s.stages cb ≠ .destroyed u := by
        rw [detached]
        exact fun _ => ⟨nofun, nofun⟩
      have same : Function.update s.threads t (s.threads t) = s.threads :=
        Function.update_eq_self t s.threads
      have restaged : Restaged s (s.setStage cb (.destroyed t)) cb (.destroyed t) :=
        ⟨rfl, rfl, rfl, rfl, rfl, rfl, rfl, rfl, live, nofun, nofun, alive⟩
      exact m.restage restaged same.symm (fun f member _ => member) m.ended id (m.frames t)
  · cases made

theorem decline (m : Memory s items) {h : Nat} {increment : Bool} (top : s.threads t = f :: rest)
    (stage : s.stages cb = .constructing t) (other : f.isCall = false)
    (signals : f.plays .signaller = false) :
    Memory (s.decline t h cb increment rest) items := by
  have live : Stage.detached.live = (s.stages cb).live := by rw [stage]; rfl
  have alive : ∀ u, s.stages cb ≠ .destroying u ∧ s.stages cb ≠ .destroyed u := by
    rw [stage]
    exact fun _ => ⟨nofun, nofun⟩
  have stay : ∀ f' ∈ s.threads t, f'.plays .signaller = true →
      ∃ g ∈ rest, g.plays .signaller = true := by
    intro f' member plays
    rw [top] at member
    rcases List.mem_cons.1 member with rfl | member
    · rw [signals] at plays
      cases plays
    · exact ⟨f', member, plays⟩
  have calls := calls_of_top top other fun _ => id
  unfold State.decline State.giveBack
  split
  · exact m.restage ⟨rfl, rfl, rfl, rfl, rfl, rfl, rfl, rfl, live, nofun, nofun, alive⟩ rfl calls
      (m.over_of rfl rfl stay) id (m.rest_holds top)
  · exact m.restage ⟨rfl, rfl, rfl, rfl, rfl, rfl, rfl, rfl, live, nofun, nofun, alive⟩ rfl calls
      (m.over_of rfl rfl stay) id (m.rest_holds top)

/-! ## Reading and exchanging the word -/

theorem stage_of_maker (c : Control s holder signaller) (top : s.threads t = f :: rest)
    (maker : f.plays (.maker cb) = true) : s.stages cb = .constructing t :=
  Control.stage_of_maker ((c.cast (.maker cb)).owner_of_mem (top ▸ List.mem_cons_self) maker)

theorem stage_of_remover (c : Control s holder signaller) (top : s.threads t = f :: rest)
    (remover : f.plays (.remover cb) = true) : s.stages cb = .destroying t :=
  Control.stage_of_remover ((c.cast (.remover cb)).owner_of_mem (top ▸ List.mem_cons_self) remover)

theorem other_maker (c : Control s holder signaller) (top : s.threads t = f :: rest)
    (maker : f.plays (.maker cb) = true) {u cb' : Nat}
    (apart : u ≠ t ∧ g ∈ s.threads u ∨ u = t ∧ g ∈ rest) (maker' : g.plays (.maker cb') = true) :
    cb' ≠ cb := by
  intro same
  subst same
  rcases apart with ⟨other, member⟩ | ⟨-, member⟩
  · rw [(c.cast (.maker cb')).not_mem_of_ne (top ▸ List.mem_cons_self) maker other g member] at maker'
    cases maker'
  · rw [(c.cast (.maker cb')).not_mem_rest top maker g member] at maker'
    cases maker'

theorem refuse (c : Control s holder signaller) (m : Memory s items) {h : Nat} {increment : Bool}
    (top : s.threads t = f :: rest) (new : s.New cb) (maker : f.plays (.maker cb) = true)
    (signals : f.plays .signaller = false) (other : f.isCall = false)
    (requested : s.word.requested = true) :
    Memory { s.setThread t (.refusing h cb increment :: rest) with refused := s.refused ++ [cb] }
      items := by
  have stage := stage_of_maker c top maker
  have calls := calls_of_top (l := .refusing h cb increment :: rest) top other
    fun _ => List.mem_cons_of_mem _
  have holds {u : Nat} {g : Frame Fields} (apart : u ≠ t ∧ g ∈ s.threads u ∨ u = t ∧ g ∈ rest)
      (holds : g.Holds s items u) :
      g.Holds { s.setThread t (.refusing h cb increment :: rest) with
        refused := s.refused ++ [cb] } items u := by
    refine holds_mono holds rfl rfl rfl rfl (List.Sublist.refl items) ?_ (fun _ => id) (fun _ => id)
      (fun _ taken _ => ⟨⟨taken.live, taken.prev, taken.unfinished⟩, rfl⟩) (fun _ => id)
    intro cb' maker' new'
    have other := other_maker c top maker apart maker'
    exact ⟨new'.1, by simp [new'.2, other]⟩
  have unmade : ∀ cb', s.stages cb' = .unmade →
      cb' ∉ s.registered ∧ cb' ∉ s.refused ++ [cb] := by
    intro cb' unmade
    have other : cb' ≠ cb := by
      intro same
      subst same
      cases stage.symm.trans unmade
    obtain ⟨unregistered, unrefused⟩ := m.unmade cb' unmade
    exact ⟨unregistered, by simp [unrefused, other]⟩
  have refusals : (s.refused ++ [cb]).Nodup ∧ ∀ cb' ∈ s.refused ++ [cb], cb' ∉ s.registered := by
    constructor
    · rw [List.nodup_append_comm]
      exact List.nodup_cons.2 ⟨new.2, m.refusals.1⟩
    · intro cb' member
      rcases List.mem_append.1 member with member | last
      · exact m.refusals.2 cb' member
      · rw [List.mem_singleton.1 last]
        exact new.1
  exact { m with
    unmade := unmade
    refusals := refusals
    marks := fun cb' flag => m.exists_executing calls
    popped := fun cb' => m.popped_of calls
    complete := fun cb' => m.complete_of calls
    ended := m.over_of (l := .refusing h cb increment :: rest) rfl rfl fun f' member plays => by
      rw [top] at member
      rcases List.mem_cons.1 member with rfl | member
      · rw [signals] at plays
        cases plays
      · exact ⟨f', List.mem_cons_of_mem _ member, plays⟩
    early := fun unrequested => by cases unrequested.symm.trans requested
    frames := by
      apply Sole.forall_mem_update_of_ne
      · exact fun u other f' member => holds (Or.inl ⟨other, member⟩) (m.frames u f' member)
      · rw [List.forall_mem_cons]
        exact ⟨trivial, fun f' member => holds (Or.inr ⟨rfl, member⟩)
          (m.rest_holds top f' member)⟩ }

theorem look (c : Control s holder signaller) (m : Memory s items) (top : s.threads t = f :: rest)
    (same : ∀ r, f.plays r = call.plays r) (other : f.isCall = false)
    (new : ∀ h cb increment, call = .tryAddCallback h cb increment → s.New cb) :
    Memory (s.look Fields.ops t rest call s.word) items := by
  have signals : f.plays .signaller = true → call.plays .signaller = true :=
    fun plays => (same _).symm.trans plays
  have loading : (Frame.loading call).Holds s items t := by
    cases call with
    | tryAddCallback h cb increment => exact new h cb increment rfl
    | _ => trivial
  have swapping : (Frame.swapping call s.word).Holds s items t := by
    cases call with
    | tryAddCallback h cb increment => exact new h cb increment rfl
    | _ => trivial
  have again : Memory (s.setThread t (.loading call :: rest)) items :=
    m.replace top ⟨rfl, rfl, rfl, rfl, rfl, rfl, rfl, rfl⟩ rfl rfl other signals loading
  have exchange : Memory (s.setThread t (.swapping call s.word :: rest)) items :=
    m.replace top ⟨rfl, rfl, rfl, rfl, rfl, rfl, rfl, rfl⟩ rfl rfl other signals swapping
  unfold State.look
  cases call with
  | requestStop h =>
      dsimp only
      split
      · exact m.drop top ⟨rfl, rfl, rfl, rfl, rfl, rfl, rfl, rfl⟩ rfl rfl other fun plays => by
          cases (same _).symm.trans plays
      · split
        · exact again
        · exact exchange
  | tryAddCallback h cb increment =>
      have maker : f.plays (.maker cb) = true := (same _).trans (beq_self_eq_true cb)
      dsimp only
      split
      · next requested =>
          exact refuse c m top (new h cb increment rfl) maker (same _) other requested
      · split
        · exact m.decline top (stage_of_maker c top maker) other (same _)
        · split
          · exact again
          · exact exchange
  | nextCallback h | removeCallback cb =>
      dsimp only
      split
      · exact again
      · exact exchange

theorem plays_locked_of (plays : call.plays .signaller = true) :
    (Frame.locked (W := Fields) call).plays .signaller = true := by
  cases call <;> first | rfl | exact plays

theorem swap (c : Control s holder signaller) (m : Memory s items) {old : Fields} {spurious : Bool}
    (top : s.threads t = .swapping call old :: rest) :
    Memory (s.swap Fields.ops t rest call old spurious) items := by
  have new : ∀ h cb increment, call = .tryAddCallback h cb increment → s.New cb := by
    intro h cb increment kind
    subst kind
    exact m.top_holds top
  unfold State.swap
  split
  · next exchanged =>
      obtain ⟨same, -⟩ := exchanged
      subst same
      have calls := calls_of_top (l := .locked call :: rest) top rfl fun _ => List.mem_cons_of_mem _
      have holds : ∀ f ∈ Frame.locked call :: rest, f.Holds s items t := by
        rw [List.forall_mem_cons]
        constructor
        · cases call with
          | tryAddCallback h cb increment => exact new h cb increment rfl
          | _ => trivial
        · exact m.rest_holds top
      have replaced : Memory { s.setThread t (.locked call :: rest) with
          word := Fields.ops.locking s.word } items :=
        m.replace top ⟨rfl, rfl, rfl, rfl, rfl, rfl, rfl, rfl⟩ rfl rfl rfl
          (fun plays => plays_locked_of plays) (holds _ List.mem_cons_self)
      cases call with
      | requestStop h =>
          have member : Frame.locked (.requestStop h) ∈
              Function.update s.threads t (.locked (.requestStop h) :: rest) t := by
            rw [Function.update_self]
            exact List.mem_cons_self
          exact m.thread ⟨rfl, rfl, rfl, rfl, rfl, rfl, rfl, rfl⟩ rfl calls
            (fun _ none_ => by cases none_ t _ member) (fun is => by cases is) holds
      | nextCallback h => exact replaced
      | tryAddCallback h cb increment => exact replaced
      | removeCallback cb => exact replaced
  · exact look c m top (fun _ => rfl) rfl new

theorem unlinked (m : Memory s items) (top : s.threads t = .locked (.removeCallback cb) :: rest)
    (prev : (s.list.callbacks cb).prev = none) :
    Memory { s.setThread t (.unlinked cb :: rest) with word := Fields.ops.unlock s.word } items :=
  m.replace top ⟨rfl, rfl, rfl, rfl, rfl, rfl, rfl, rfl⟩ rfl rfl rfl nofun prev

theorem wait (m : Memory s items) (top : s.threads t = .waiting cb :: rest) :
    Memory (s.wait t cb rest) items := by
  unfold State.wait
  split
  · next finished =>
      exact m.replace top ⟨rfl, rfl, rfl, rfl, rfl, rfl, rfl, rfl⟩ rfl rfl rfl nofun
        ⟨m.top_holds top, Or.inl finished⟩
  · exact m

end Memory

end Librf.StopToken
