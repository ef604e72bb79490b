import Librf.Event.Joined

/-!
# What the others notice of a `wait_all`

The history of the other coroutines, and the run in which the `wait_all` is never issued.
-/

namespace Librf

open StateEventAll

/-- What another coroutine calls, and what it gets. -/
inductive Note
  | waited (e w : Nat) (ready : Bool)
  | left (e w : Nat)
  | signaled (e : Nat) (all : Bool)
  -- what `on_notify` of its waiter has returned
  | notified (e w : Nat) (all answer : Bool)
  deriving DecidableEq, Repr

structure Noted extends Joining where
  notes : List Note := []
  -- the events that have given up a token to the `wait_all`
  taken : List Nat := []

namespace Joining

def noteOf (s : Joining) : JoiningAction → List Note
  | .wait e w => [.waited e w (s.events e).tryWaitOne.1]
  | .leaveQueue e w => [.left e w]
  | .signal e all => [.signaled e all]
  | .notify e answer => match s.sections e with
      | .offering all (.other w) => [.notified e w all answer]
      | _ => []
  | _ => []

/-- `signal_all` hands out no token. -/
def takenBy (s : Joining) : JoiningAction → List Nat
  | .waitAll handler timed =>
      ((StateEventAll.create s.listed.length handler timed).enlist .proxy s.listed 0
        s.events).2.supplied.map fun i => s.listed.getD i 0
  | .notify e _ => match s.sections e, s.state with
      | .offering false (.proxy _), some st => if 0 < st.counter then [e] else []
      | _, _ => []
  | _ => []

end Joining

def JoiningAction.isWaitAll : JoiningAction → Bool
  | waitAll _ _ => true
  | _ => false

def JoinEntry.isOther : JoinEntry → Bool
  | other _ => true
  | proxy _ => false

/-- A signal that is about to offer its token to the `wait_all` has not come to the next waiter. -/
def JoinSection.forget : JoinSection → JoinSection
  | offering all (.proxy _) => popping all
  | section_ => section_

namespace Joining

/-- `t` is what the other coroutines see of `s`. -/
structure Alike (s t : Joining) : Prop where
  counter : ∀ e, (t.events e).counter = (s.events e).counter
  queue : ∀ e, (t.events e).waitAwakes = (s.events e).waitAwakes.filter JoinEntry.isOther
  section_ : ∀ e, t.sections e = (s.sections e).forget

/-- No event gives up a token to the `wait_all`: none has one when it is issued, and no `signal`
comes to it while it waits. -/
def Sparing (s : Joining) : JoiningAction → Prop
  | .waitAll _ _ => ∀ e ∈ s.listed, (s.events e).counter ≤ 0
  | .notify e _ => ∀ idx st, s.sections e = .offering false (.proxy idx) → s.state = some st →
      st.counter ≤ 0
  | _ => True

end Joining

namespace Noted

def step (s : Noted) (action : JoiningAction) : Option Noted :=
  (Joining.step s.toJoining action).map fun joining =>
    { toJoining := joining
      notes := s.notes ++ s.noteOf action
      taken := s.taken ++ s.takenBy action }

def system (listed : List Nat) (counters : Nat → Int) :
    Transition.System Noted JoiningAction where
  init := { toJoining := (Joining.system listed counters).init }
  step := step

/-- There is a run in which the `wait_all` is not issued, and in which the others have made the
same calls with the same answers, that ends with the same token counts and the same waiters. -/
def Unnoticed (listed : List Nat) (counters : Nat → Int) (s : Noted) : Prop :=
  ∃ t, (system listed counters).ReachableBy (fun _ action => action.isWaitAll = false) t ∧
    t.notes = s.notes ∧ s.Alike t.toJoining

end Noted

namespace Joining

variable {s t : Joining} {listed : List Nat} {e : Nat}

/-! ## The tokens that are taken -/

theorem supplied_prefix_enlist {ω : Type} (proxy : Nat → ω) (rest : List Nat) (k : Nat)
    (events : Nat → EventImpl ω) (st : StateEventAll) :
    st.supplied <+: (st.enlist proxy rest k events).2.supplied := by
  induction rest generalizing k events st with
  | nil => exact List.prefix_refl _
  | cons e rest ih =>
      rw [enlist]
      split
      · exact (List.prefix_append _ _).trans (ih _ _ (st.supply k e))
      · exact ih _ _ (st.enroll k e)

theorem enlist_supplied_iff {ω : Type} (proxy : Nat → ω) (rest : List Nat) (k : Nat)
    (events : Nat → EventImpl ω) (st : StateEventAll) :
    (st.enlist proxy rest k events).2.supplied = st.supplied ↔
      ∀ e ∈ rest, (events e).counter ≤ 0 := by
  induction rest generalizing k events st with
  | nil => simp [enlist]
  | cons e rest ih =>
      rw [enlist, Event.tryWaitOne_eq, List.forall_mem_cons]
      by_cases token : (events e).counter > 0
      · rw [if_pos token, if_pos rfl]
        have grows := (supplied_prefix_enlist proxy rest (k + 1)
          (Function.update events e { events e with counter := (events e).counter - 1 })
          (st.supply k e)).length_le
        constructor
        · intro same
          rw [same, StateEventAll.supply, List.length_append] at grows
          exact absurd grows (Nat.not_succ_le_self _)
        · rintro ⟨empty, -⟩
          exact absurd token (Int.not_lt.2 empty)
      · rw [if_neg token, if_neg Bool.false_ne_true]
        refine (ih (k + 1) _ (st.enroll k e)).trans ?_
        have same (e' : Nat) :
            (Function.update events e ((events e).addWaitList (proxy k)) e').counter =
              (events e').counter := by
          rcases eq_or_ne e' e with rfl | other
          · rw [Function.update_self]
            rfl
          · rw [Function.update_of_ne other]
        simp only [same]
        exact ⟨fun all => ⟨Int.not_lt.1 token, all⟩, fun all => all.2⟩

theorem enlist_counter (rest : List Nat) (k : Nat) (suffix : listed.drop k = rest)
    (events : Nat → EventImpl JoinEntry) (st : StateEventAll) (e : Nat) :
    ((st.enlist .proxy rest k events).1 e).counter +
        ((st.enlist .proxy rest k events).2.supplied.map fun i => listed.getD i 0).count e =
      (events e).counter + (st.supplied.map fun i => listed.getD i 0).count e := by
  induction rest generalizing k events st with
  | nil => rfl
  | cons e' rest ih =>
      have at_ : listed[k]? = some e' := by
        rw [← List.head?_drop, suffix]
        rfl
      have suffix' : listed.drop (k + 1) = rest := by
        rw [← List.tail_drop, suffix]
        rfl
      rw [enlist, Event.tryWaitOne_eq]
      by_cases token : (events e').counter > 0
      · rw [if_pos token, if_pos rfl, ih _ suffix']
        have here : listed[k]?.getD 0 = e' := by rw [at_, Option.getD_some]
        rcases eq_or_ne e e' with rfl | other
        · simp only [StateEventAll.supply, Function.update_self, List.map_append, List.map_cons,
            List.map_nil, List.getD_eq_getElem?_getD, here, List.count_append,
            List.count_singleton_self]
          omega
        · simp [StateEventAll.supply, here, Function.update_of_ne other, other.symm]
      · rw [if_neg token, if_neg Bool.false_ne_true, ih _ suffix']
        rcases eq_or_ne e e' with rfl | other
        · simp [StateEventAll.enroll, EventImpl.addWaitList]
        · simp [StateEventAll.enroll, Function.update_of_ne other]

theorem enlist_seen (rest : List Nat) (k : Nat) (events : Nat → EventImpl JoinEntry)
    (st : StateEventAll) (e : Nat) :
    ((st.enlist .proxy rest k events).1 e).waitAwakes.filter JoinEntry.isOther =
      (events e).waitAwakes.filter JoinEntry.isOther := by
  induction rest generalizing k events st with
  | nil => rfl
  | cons e' rest ih =>
      rw [enlist]
      split
      · rw [ih]
        rcases eq_or_ne e e' with rfl | other
        · rw [Function.update_self, Event.tryWaitOne_waitAwakes]
        · rw [Function.update_of_ne other]
      · rw [ih]
        rcases eq_or_ne e e' with rfl | other
        · simp [EventImpl.addWaitList, Event.tryWaitOne_waitAwakes, JoinEntry.isOther]
        · rw [Function.update_of_ne other]

theorem waitAll_events (s : Joining) (handler : Nat) (timed : Bool) :
    (s.waitAll handler timed).events =
      ((StateEventAll.create s.listed.length handler timed).enlist .proxy s.listed 0 s.events).1 := by
  unfold Joining.waitAll
  dsimp only
  split
  · rename_i nothing
    rw [nothing]
    rfl
  · split <;> rfl

theorem waitAll_sections (s : Joining) (handler : Nat) (timed : Bool) :
    (s.waitAll handler timed).sections = s.sections := by
  unfold Joining.waitAll
  dsimp only
  split
  · rfl
  · split <;> rfl

theorem filter_erase_proxy (queue : List JoinEntry) (i : Nat) :
    (queue.erase (.proxy i)).filter JoinEntry.isOther = queue.filter JoinEntry.isOther := by
  induction queue with
  | nil => rfl
  | cons entry queue ih =>
      rw [List.erase_cons]
      split
      · rename_i same
        rw [eq_of_beq same]
        rfl
      · simp [List.filter_cons, ih]

theorem filter_erase_other (queue : List JoinEntry) (w : Nat) :
    (queue.erase (.other w)).filter JoinEntry.isOther =
      (queue.filter JoinEntry.isOther).erase (.other w) := by
  induction queue with
  | nil => rfl
  | cons entry queue ih =>
      cases entry with
      | proxy i => simpa [List.erase_cons, List.filter_cons, JoinEntry.isOther] using ih
      | other w' =>
          rw [List.erase_cons]
          split
          · rename_i same
            rw [eq_of_beq same]
            simp [List.filter_cons, JoinEntry.isOther]
          · rename_i other
            simp [List.filter_cons, JoinEntry.isOther, other, ih]

theorem sweep_seen (idxs : List Nat) (events : Nat → EventImpl JoinEntry) (st : StateEventAll)
    (e : Nat) : ((st.sweep idxs events).1 e).counter = (events e).counter ∧
      ((st.sweep idxs events).1 e).waitAwakes.filter JoinEntry.isOther =
        (events e).waitAwakes.filter JoinEntry.isOther := by
  induction idxs generalizing events st with
  | nil => exact ⟨rfl, rfl⟩
  | cons idx rest ih =>
      rw [sweep]
      split
      · exact ih _ _
      · rename_i e' _
        obtain ⟨counter, queue⟩ := ih (Function.update events e'
          ((events e').removeWaitList (.proxy idx))) (st.forget idx).2
        rw [counter, queue]
        rcases eq_or_ne e e' with rfl | other
        · rw [Function.update_self]
          exact ⟨rfl, filter_erase_proxy _ _⟩
        · rw [Function.update_of_ne other]
          exact ⟨rfl, rfl⟩

theorem timeout_seen (s : Joining) (st : StateEventAll) (e : Nat) :
    ((s.timeout st).events e).counter = (s.events e).counter ∧
      ((s.timeout st).events e).waitAwakes.filter JoinEntry.isOther =
        (s.events e).waitAwakes.filter JoinEntry.isOther := by
  unfold Joining.timeout
  split
  · exact ⟨rfl, rfl⟩
  · exact sweep_seen _ _ _ e

theorem timeout_sections (s : Joining) (st : StateEventAll) :
    (s.timeout st).sections = s.sections := by
  unfold Joining.timeout
  split <;> rfl

/-! ## A run that spares the events -/

theorem Alike.update {event event' : EventImpl JoinEntry} {section_ : JoinSection}
    (h : s.Alike t) (e : Nat) (counter : event'.counter = event.counter)
    (queue : event'.waitAwakes = event.waitAwakes.filter JoinEntry.isOther) :
    ((s.setEvent e event).enter e section_).Alike
      ((t.setEvent e event').enter e section_.forget) := by
  constructor
  · intro e'
    rcases eq_or_ne e' e with rfl | other
    · simpa [setEvent, enter] using counter
    · simpa [setEvent, enter, Function.update_of_ne other] using h.counter e'
  · intro e'
    rcases eq_or_ne e' e with rfl | other
    · simpa [setEvent, enter] using queue
    · simpa [setEvent, enter, Function.update_of_ne other] using h.queue e'
  · intro e'
    rcases eq_or_ne e' e with rfl | other
    · simp [setEvent, enter]
    · simpa [setEvent, enter, Function.update_of_ne other] using h.section_ e'

theorem Alike.setEvent {event event' : EventImpl JoinEntry} (h : s.Alike t) (e : Nat)
    (counter : event'.counter = event.counter)
    (queue : event'.waitAwakes = event.waitAwakes.filter JoinEntry.isOther) :
    (s.setEvent e event).Alike (t.setEvent e event') := by
  rw [← setEvent_enter s, ← setEvent_enter t, h.section_]
  exact h.update e counter queue

theorem Alike.enter {section_ : JoinSection} (h : s.Alike t) (e : Nat) :
    (s.enter e section_).Alike (t.enter e section_.forget) := by
  rw [← enter_setEvent s, ← enter_setEvent t]
  exact h.update e (h.counter e) (h.queue e)

theorem Alike.wait (h : s.Alike t) (e w : Nat) : (s.wait e w).Alike (t.wait e w) := by
  unfold Joining.wait
  rw [Event.tryWaitOne_eq, Event.tryWaitOne_eq, h.counter]
  by_cases token : (s.events e).counter > 0
  · simp only [if_pos token]
    exact h.setEvent e rfl (h.queue e)
  · simp only [if_neg token]
    refine h.setEvent e (h.counter e) ?_
    simp only [EventImpl.addWaitList, h.queue, List.filter_append]
    rfl

theorem Alike.leave {all : Bool} (h : s.Alike t) (e : Nat) :
    (s.leave e all).Alike (t.leave e all) := by
  unfold Joining.leave
  split
  · exact h.enter e
  · exact h.update e (congrArg (· + 1) (h.counter e)) (h.queue e)

theorem Alike.stay {event : EventImpl JoinEntry} {section_ : JoinSection} (h : s.Alike t) (e : Nat)
    (counter : (t.events e).counter = event.counter)
    (queue : (t.events e).waitAwakes = event.waitAwakes.filter JoinEntry.isOther)
    (forgotten : t.sections e = section_.forget) :
    ((s.setEvent e event).enter e section_).Alike t := by
  have kept : ((s.setEvent e event).enter e section_).Alike
      ((t.setEvent e (t.events e)).enter e section_.forget) := h.update e counter queue
  have same : t.enter e (t.sections e) = t := by simp [Joining.enter]
  rwa [enter_setEvent, ← forgotten, same] at kept

theorem Alike.of_same {s' : Joining} (h : s.Alike t)
    (counter : ∀ e, (s'.events e).counter = (s.events e).counter)
    (queue : ∀ e, (s'.events e).waitAwakes.filter JoinEntry.isOther =
      (s.events e).waitAwakes.filter JoinEntry.isOther)
    (section_ : ∀ e, (s'.sections e).forget = (s.sections e).forget) : s'.Alike t where
  counter e := (h.counter e).trans (counter e).symm
  queue e := (h.queue e).trans (queue e).symm
  section_ e := (h.section_ e).trans (section_ e).symm

theorem Alike.waitAll (h : s.Alike t) (empty : ∀ e ∈ s.listed, (s.events e).counter ≤ 0)
    (handler : Nat) (timed : Bool) : (s.waitAll handler timed).Alike t := by
  have supplied : ((StateEventAll.create s.listed.length handler timed).enlist .proxy s.listed 0
      s.events).2.supplied = [] := (enlist_supplied_iff _ _ _ _ _).2 empty
  have counter := enlist_counter s.listed 0 rfl s.events
    (StateEventAll.create s.listed.length handler timed)
  simp only [supplied] at counter
  apply h.of_same
  · intro e
    rw [waitAll_events]
    simpa [StateEventAll.create] using counter e
  · intro e
    rw [waitAll_events]
    exact enlist_seen _ _ _ _ _
  · intro e
    rw [waitAll_sections]

theorem Alike.timeout (h : s.Alike t) (st : StateEventAll) : (s.timeout st).Alike t := by
  refine h.of_same (fun e => (timeout_seen s st e).1) (fun e => (timeout_seen s st e).2) fun e => ?_
  rw [timeout_sections]

theorem Alike.notifyProxy {idx : Nat} {st : StateEventAll} {all answer : Bool} (h : s.Alike t)
    (offering : s.sections e = .offering all (.proxy idx))
    (spared : all = false → st.counter ≤ 0) :
    (s.notify st e all answer (.proxy idx)).Alike t := by
  have goes : ((st.onNotify idx).1 && !all) = false := by
    cases all with
    | true => exact Bool.and_false _
    | false => rw [onNotify_over (spared rfl), Bool.false_and]
  simp only [Joining.notify, goes]
  refine h.of_same (fun _ => rfl) (fun _ => rfl) fun e' => ?_
  rcases eq_or_ne e' e with rfl | other
  · simp [Joining.enter, offering, JoinSection.forget]
  · simp [Joining.enter, Function.update_of_ne other]

theorem wait_state (e w : Nat) : (t.wait e w).state = t.state := by
  unfold Joining.wait
  dsimp only
  split <;> rfl

theorem leave_state (e : Nat) (all : Bool) : (t.leave e all).state = t.state := by
  unfold Joining.leave
  split <;> rfl

theorem Alike.step {s' : Joining} {action : JoiningAction} (h : s.Alike t) (absent : t.state = none)
    (spared : s.Sparing action) (next : Joining.step s action = some s') :
    (s.noteOf action = [] ∧ s'.Alike t) ∨
      (action.isWaitAll = false ∧ t.noteOf action = s.noteOf action ∧
        ∃ t', Joining.step t action = some t' ∧ s'.Alike t') := by
  cases steps_of_step next with
  | waitAll fresh first free => exact .inl ⟨rfl, h.waitAll spared _ _⟩
  | @wait e w free =>
      have free' : t.sections e = .free := by rw [h.section_, free]; rfl
      refine .inr ⟨rfl, ?_, t.wait e w, if_pos free', h.wait e w⟩
      simp only [noteOf, Event.tryWaitOne_eq, h.counter]
      split <;> rfl
  | @leaveQueue e w free =>
      have free' : t.sections e = .free := by rw [h.section_, free]; rfl
      refine .inr ⟨rfl, rfl, _, if_pos free', h.setEvent e (h.counter e) ?_⟩
      simp [EventImpl.removeWaitList, h.queue, filter_erase_other]
  | @signal e all free =>
      have free' : t.sections e = .free := by rw [h.section_, free]; rfl
      exact .inr ⟨rfl, rfl, _, if_pos free', h.enter e⟩
  | @pop e all entry rest popping queue =>
      have popping' : t.sections e = .popping all := by rw [h.section_, popping]; rfl
      cases entry with
      | proxy idx =>
          refine .inl ⟨rfl, h.stay e (h.counter e) ?_ popping'⟩
          rw [h.queue, queue]
          rfl
      | other w =>
          have queue' : (t.events e).waitAwakes = .other w :: rest.filter JoinEntry.isOther := by
            rw [h.queue, queue]
            rfl
          have next' : Joining.step t (.pop e) =
              some ((t.setEvent e
                { t.events e with waitAwakes := rest.filter JoinEntry.isOther }).enter e
                  (.offering all (.other w))) := by
            simp only [Joining.step, popping', queue']
          exact .inr ⟨rfl, rfl, _, next', h.update e (h.counter e) rfl⟩
  | @notifyProxy e idx all answer st offering state =>
      refine .inl ⟨by simp only [noteOf, offering], h.notifyProxy offering fun one => ?_⟩
      subst one
      exact spared idx st offering state
  | @notifyOther e w all answer offering =>
      have offering' : t.sections e = .offering all (.other w) := by rw [h.section_, offering]; rfl
      have next' : Joining.step t (.notify e answer) =
          some (t.enter e (if answer && !all then .free else .popping all)) := by
        simp only [Joining.step, offering', absent]
      refine .inr ⟨rfl, by simp only [noteOf, offering, offering'], _, next', ?_⟩
      split
      · exact h.enter e
      · exact h.enter e
  | @leave e all popping queue =>
      have popping' : t.sections e = .popping all := by rw [h.section_, popping]; rfl
      have queue' : (t.events e).waitAwakes = [] := by rw [h.queue, queue]; rfl
      exact .inr ⟨rfl, rfl, t.leave e all, by simp only [Joining.step, popping', queue'],
        h.leave e⟩
  | timeout state timer => exact .inl ⟨rfl, h.timeout _⟩
  | resume state coro scheduled =>
      exact .inl ⟨rfl, h.of_same (fun _ => rfl) (fun _ => rfl) fun _ => rfl⟩

end Joining

/-! ## The tokens that the others see -/

namespace Note

def issues (e : Nat) : Note → Bool
  | signaled e' all => e' == e && !all
  | _ => false

def spends (e : Nat) : Note → Bool
  | waited e' _ ready => e' == e && ready
  | notified e' _ all answer => e' == e && (answer && !all)
  | _ => false

end Note

def JoinSection.inHand : JoinSection → Nat
  | popping false | offering false _ => 1
  | _ => 0

namespace Joining

variable {s : Joining} {e : Nat}

theorem inHand_forget (section_ : JoinSection) : section_.forget.inHand = section_.inHand := by
  cases section_ with
  | free => rfl
  | popping all => rfl
  | offering all entry => cases all <;> cases entry <;> rfl

/-- The tokens of the event `e`, with that of a `signal` in progress. -/
def worth (s : Joining) (e : Nat) : Int := (s.events e).counter + (s.sections e).inHand

theorem worth_update (s : Joining) (e e' : Nat) (event : EventImpl JoinEntry)
    (section_ : JoinSection) : ((s.setEvent e' event).enter e' section_).worth e =
      if e' = e then event.counter + section_.inHand else s.worth e := by
  split
  · rename_i here
    subst here
    simp [worth, setEvent, enter]
  · rename_i other
    simp [worth, setEvent, enter, Function.update_of_ne (Ne.symm other)]

theorem worth_setEvent (s : Joining) (e e' : Nat) (event : EventImpl JoinEntry) :
    (s.setEvent e' event).worth e =
      if e' = e then event.counter + (s.sections e').inHand else s.worth e := by
  rw [← setEvent_enter, worth_update]

theorem worth_enter (s : Joining) (e e' : Nat) (section_ : JoinSection) :
    (s.enter e' section_).worth e =
      if e' = e then (s.events e').counter + section_.inHand else s.worth e := by
  rw [← enter_setEvent, worth_update]

theorem worth_wait (s : Joining) (e e' w : Nat) : (s.wait e' w).worth e =
    s.worth e - ([Note.waited e' w (s.events e').tryWaitOne.1].countP (Note.spends e) : Nat) := by
  by_cases token : (s.events e').counter > 0
  · have tried : (s.events e').tryWaitOne =
        (true, { s.events e' with counter := (s.events e').counter - 1 }) := by
      rw [Event.tryWaitOne_eq, if_pos token]
    simp only [Joining.wait, tried, if_true]
    rw [worth_setEvent]
    by_cases here : e' = e
    · subst here
      simp [worth, Note.spends]
      omega
    · simp [here, Note.spends]
  · have tried : (s.events e').tryWaitOne = (false, s.events e') := by
      rw [Event.tryWaitOne_eq, if_neg token]
    simp only [Joining.wait, tried]
    rw [if_neg Bool.false_ne_true, worth_setEvent]
    by_cases here : e' = e
    · subst here
      simp [worth, Note.spends, EventImpl.addWaitList]
    · simp [here, Note.spends]

theorem worth_leave {e' : Nat} {all : Bool} (popping : s.sections e' = .popping all) :
    (s.leave e' all).worth e = s.worth e := by
  unfold Joining.leave
  cases all with
  | true =>
      rw [if_pos rfl, worth_enter]
      split
      · rename_i here
        subst here
        rw [worth, popping]
        rfl
      · rfl
  | false =>
      rw [if_neg Bool.false_ne_true, worth_update]
      split
      · rename_i here
        subst here
        rw [worth, popping]
        simp [EventImpl.fetchAdd, JoinSection.inHand]
      · rfl

theorem worth_offer {e' : Nat} {all accepted : Bool} {entry : JoinEntry}
    (offering : s.sections e' = .offering all entry) :
    (s.enter e' (if accepted && !all then .free else .popping all)).worth e =
      s.worth e - if e' = e ∧ (accepted && !all) = true then 1 else 0 := by
  rw [worth_enter]
  by_cases here : e' = e
  · subst here
    rw [if_pos rfl, worth, offering]
    cases accepted <;> cases all <;> simp [JoinSection.inHand]
  · simp [here]

theorem onNotify_accepts (st : StateEventAll) (idx : Nat) :
    (st.onNotify idx).1 = decide (0 < st.counter) := by
  rw [StateEventAll.onNotify]
  split
  · simp [*]
  · dsimp only
    split <;> simp [*, Int.not_le.1]

theorem worth_notifyProxy {e' idx : Nat} {all answer : Bool} {st : StateEventAll}
    (offering : s.sections e' = .offering all (.proxy idx)) (state : s.state = some st) :
    (s.notify st e' all answer (.proxy idx)).worth e =
      s.worth e - ((s.takenBy (.notify e' answer)).count e : Nat) := by
  have offered : (s.notify st e' all answer (.proxy idx)).worth e =
      s.worth e - if e' = e ∧ ((st.onNotify idx).1 && !all) = true then 1 else 0 :=
    worth_offer offering
  rw [offered, onNotify_accepts]
  cases all with
  | true => simp [takenBy, offering]
  | false =>
      by_cases missing : 0 < st.counter
      · by_cases here : e' = e
        · subst here
          simp [takenBy, offering, state, missing]
        · simp [takenBy, offering, state, missing, here]
      · simp [takenBy, offering, state, missing]

theorem worth_step {s' : Joining} {action : JoiningAction}
    (next : Joining.step s action = some s') (e : Nat) :
    s'.worth e + (s.noteOf action).countP (Note.spends e) + (s.takenBy action).count e =
      s.worth e + (s.noteOf action).countP (Note.issues e) := by
  cases steps_of_step next with
  | @waitAll handler timed fresh first free =>
      have taken := enlist_counter s.listed 0 rfl s.events
        (StateEventAll.create s.listed.length handler timed) e
      rw [worth, waitAll_events, waitAll_sections]
      simp [noteOf, takenBy, StateEventAll.create, worth] at taken ⊢
      omega
  | @wait e' w free =>
      rw [worth_wait]
      simp [noteOf, takenBy, Note.issues]
  | @leaveQueue e' w free =>
      rw [worth_setEvent]
      by_cases here : e' = e
      · subst here
        simp [noteOf, takenBy, worth, EventImpl.removeWaitList, Note.spends, Note.issues]
      · simp [noteOf, takenBy, here, Note.spends, Note.issues]
  | @signal e' all free =>
      rw [worth_enter]
      by_cases here : e' = e
      · subst here
        cases all <;> simp [noteOf, takenBy, worth, free, JoinSection.inHand, Note.spends,
          Note.issues]
      · simp [noteOf, takenBy, here, Note.spends, Note.issues]
  | @pop e' all entry rest popping queue =>
      rw [worth_update]
      by_cases here : e' = e
      · subst here
        cases all <;> simp [noteOf, takenBy, worth, popping, JoinSection.inHand]
      · simp [noteOf, takenBy, here]
  | @notifyProxy e' idx all answer st offering state =>
      rw [worth_notifyProxy offering state]
      simp [noteOf, offering]
  | @notifyOther e' w all answer offering =>
      rw [worth_offer offering]
      by_cases here : e' = e
      · subst here
        cases all <;> cases answer <;> simp [noteOf, takenBy, offering, Note.spends, Note.issues]
      · simp [noteOf, takenBy, offering, here, Note.spends, Note.issues]
  | @leave e' all popping queue =>
      rw [worth_leave popping]
      simp [noteOf, takenBy]
  | timeout state timer =>
      rw [worth, (timeout_seen _ _ _).1, timeout_sections, worth]
      simp [noteOf, takenBy]
  | resume state coro scheduled => simp [noteOf, takenBy, worth, Joining.resume]

theorem takenBy_eq_nil_iff (s : Joining) (action : JoiningAction) :
    s.takenBy action = [] ↔ s.Sparing action := by
  cases action with
  | waitAll handler timed =>
      rw [takenBy, List.map_eq_nil_iff]
      exact enlist_supplied_iff _ _ _ _ _
  | notify e answer =>
      simp only [takenBy, Sparing]
      split
      · rename_i idx st offering state
        simp only [offering, state]
        split
        · rename_i missing
          simp [missing]
        · rename_i enough
          simpa using enough
      · rename_i other
        simp only [true_iff]
        intro idx st offering state
        exact absurd state (other idx st offering)
  | _ => exact iff_of_true rfl trivial

end Joining

namespace Noted

open Transition

variable {s t : Noted} {listed : List Nat} {counters : Nat → Int}

theorem step_eq {action : JoiningAction} (next : step s action = some t) :
    ∃ joining, Joining.step s.toJoining action = some joining ∧
      t = { toJoining := joining
            notes := s.notes ++ s.noteOf action
            taken := s.taken ++ s.takenBy action } := by
  obtain ⟨joining, moved, rfl⟩ := Option.map_eq_some_iff.1 next
  exact ⟨joining, moved, rfl⟩

theorem balanced_of_reachable (reachable : (system listed counters).Reachable s) (e : Nat) :
    s.worth e + s.notes.countP (Note.spends e) + s.taken.count e =
      counters e + s.notes.countP (Note.issues e) := by
  induction reachable with
  | init => simp [system, Joining.system, Joining.worth, JoinSection.inHand]
  | step _ _ action ih =>
      obtain ⟨joining, moved, rfl⟩ := step_eq action
      have changed := Joining.worth_step moved e
      simp only [List.countP_append, List.count_append]
      omega

theorem unissued_idle
    (reachable : (system listed counters).ReachableBy (fun _ action => action.isWaitAll = false) t) :
    t.state = none ∧ t.taken = [] := by
  induction reachable with
  | init => exact ⟨rfl, rfl⟩
  | @step s t action _ others next ih =>
      obtain ⟨idle, untaken⟩ := ih
      obtain ⟨joining, moved, rfl⟩ := step_eq next
      have untaken' : s.takenBy action = [] := by
        cases action with
        | waitAll handler timed => cases others
        | notify e answer =>
            exact (Joining.takenBy_eq_nil_iff _ _).2 fun _ _ _ state =>
              absurd (idle.symm.trans state) (Option.some_ne_none _).symm
        | _ => rfl
      refine ⟨?_, by simp only [untaken, untaken', List.append_nil]⟩
      cases Joining.steps_of_step moved with
      | waitAll => cases others
      | wait => exact (Joining.wait_state _ _).trans idle
      | leave => exact (Joining.leave_state _ _).trans idle
      | notifyProxy _ state => exact absurd (idle.symm.trans state) (Option.some_ne_none _).symm
      | timeout state => exact absurd (idle.symm.trans state) (Option.some_ne_none _).symm
      | resume state => exact absurd (idle.symm.trans state) (Option.some_ne_none _).symm
      | _ => exact idle

theorem taken_of_unnoticed (reachable : (system listed counters).Reachable s)
    (unnoticed : Unnoticed listed counters s) : s.taken = [] := by
  obtain ⟨t, unissued, notes, alike⟩ := unnoticed
  refine List.eq_nil_iff_forall_not_mem.2 fun e member => ?_
  have balance := balanced_of_reachable reachable e
  have balance' := balanced_of_reachable unissued.reachable e
  have worth : t.worth e = s.worth e := by
    rw [Joining.worth, alike.counter, alike.section_, Joining.inHand_forget, Joining.worth]
  have positive := List.count_pos_iff.2 member
  rw [notes, worth, (unissued_idle unissued).2, List.count_nil] at balance'
  omega

theorem unnoticed_of_sparing
    (reachable : (system listed counters).ReachableBy (fun s action => s.Sparing action) s) :
    Unnoticed listed counters s := by
  refine reachable.simulated
    (R := fun (s t : Noted) => t.notes = s.notes ∧ s.Alike t.toJoining)
    ⟨rfl, fun _ => rfl, fun _ => rfl, fun _ => rfl⟩ ?_
  intro s action s' t spared next unissued related
  obtain ⟨notes, alike⟩ := related
  obtain ⟨joining, moved, rfl⟩ := step_eq next
  rcases alike.step (unissued_idle unissued).1 spared moved with stays | follows
  · obtain ⟨silent, alike'⟩ := stays
    exact ⟨t, unissued, by simp only [notes, silent, List.append_nil], alike'⟩
  · obtain ⟨other, same, joining', moved', alike'⟩ := follows
    refine ⟨_, unissued.step other (congrArg (Option.map _) moved'), ?_, alike'⟩
    simp only [notes, same]

theorem taken_eq_nil_iff {actions : List JoiningAction}
    (run : (system listed counters).replay s actions = some t) :
    t.taken = [] ↔
      s.taken = [] ∧ (system listed counters).Along (fun s action => s.Sparing action) s actions := by
  induction actions generalizing s with
  | nil =>
      cases run
      exact (and_iff_left trivial).symm
  | cons action rest ih =>
      obtain ⟨next, moved, run⟩ := Option.bind_eq_some_iff.1 run
      obtain ⟨joining, -, rfl⟩ := step_eq moved
      rw [ih run, List.append_eq_nil_iff, Joining.takenBy_eq_nil_iff, and_assoc]
      refine and_congr_right fun _ => and_congr_right fun _ => ?_
      constructor
      · intro along next' moved'
        cases moved.symm.trans moved'
        exact along
      · exact fun along => along _ moved

theorem wait_all_for_unnoticed (listed : List Nat) (counters : Nat → Int)
    (actions : List JoiningAction) (s : Noted)
    (run : (system listed counters).replay (system listed counters).init actions = some s) :
    s.expired = true → (Unnoticed listed counters s ↔
      (system listed counters).Along (fun s action => s.Sparing action)
        (system listed counters).init actions) := by
  intro _
  constructor
  · intro unnoticed
    have taken := taken_of_unnoticed (System.Reachable.replay .init run) unnoticed
    exact ((taken_eq_nil_iff run).1 taken).2
  · exact fun along => unnoticed_of_sparing (along.reachableBy .init run)

/-- No event has a token. A `signal_all` wakes another waiter, and counts for the `wait_all`. -/
theorem wait_all_for_unnoticed_empty : ∃ s,
    (system [0, 1] fun _ => 0).replay (system [0, 1] fun _ => 0).init
      [.wait 0 5, .waitAll 7 true, .signal 0 true, .pop 0, .notify 0 true, .pop 0, .notify 0 false,
        .leave 0, .timeout, .resume] = some s ∧
    s.results = [false] ∧ s.expired = true ∧ Unnoticed [0, 1] (fun _ => 0) s := by
  have ran : ((system [0, 1] fun _ => 0).replay (system [0, 1] fun _ => 0).init
      [.wait 0 5, .waitAll 7 true, .signal 0 true, .pop 0, .notify 0 true, .pop 0, .notify 0 false,
        .leave 0, .timeout, .resume]).map (fun s => (s.results, s.expired, s.taken)) =
      some ([false], true, []) := by decide
  obtain ⟨s, run, seen⟩ := Option.map_eq_some_iff.1 ran
  simp only [Prod.mk.injEq] at seen
  obtain ⟨results, expired, taken⟩ := seen
  exact ⟨s, run, results, expired, (wait_all_for_unnoticed _ _ _ s run expired).2
    ((taken_eq_nil_iff run).1 taken).2⟩

/-- One event has a token, the other one is not signaled in time: nobody else has done anything,
and the token is gone. -/
theorem wait_all_for_loses_token : ∃ s,
    (system [0, 1] fun e => if e = 0 then 1 else 0).replay
      (system [0, 1] fun e => if e = 0 then 1 else 0).init
      [.waitAll 7 true, .timeout, .resume] = some s ∧
    s.results = [false] ∧ s.expired = true ∧ s.notes = [] ∧ (s.events 0).counter = 0 ∧
    ¬ Unnoticed [0, 1] (fun e => if e = 0 then 1 else 0) s := by
  have ran : ((system [0, 1] fun e => if e = 0 then 1 else 0).replay
      (system [0, 1] fun e => if e = 0 then 1 else 0).init [.waitAll 7 true, .timeout, .resume]).map
      (fun s => (s.results, s.expired, s.notes, (s.events 0).counter, s.taken)) =
      some ([false], true, [], 0, [0]) := by decide
  obtain ⟨s, run, seen⟩ := Option.map_eq_some_iff.1 ran
  simp only [Prod.mk.injEq] at seen
  obtain ⟨results, expired, notes, counter, taken⟩ := seen
  refine ⟨s, run, results, expired, notes, counter, fun unnoticed => ?_⟩
  rw [taken_of_unnoticed (System.Reachable.replay .init run) unnoticed] at taken
  cases taken

end Noted

end Librf
