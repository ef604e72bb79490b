import Mathlib.Data.List.Nodup
import Mathlib.Data.List.Perm.Subperm
import Librf.Event.Joining
import Librf.Event.Waiters

/-!
# `wait_all` joins exactly

While nothing has expired, the positions without a token are those whose proxy is in line, and
`_counter` is their number.
-/

namespace Librf

variable {listed : List Nat} {st : StateEventAll} {k idx e : Nat}

/-! ## The state -/

/-- The first `k` positions have been enlisted. -/
structure StateEventAll.Counts (st : StateEventAll) (listed : List Nat) (k : Nat) : Prop where
  length : st.values.length = listed.length
  counter : st.counter = (listed.length : Int) - st.supplied.length
  once : st.supplied.Nodup
  within : ∀ i ∈ st.supplied, i < k
  position : ∀ i e, i < k → listed[i]? = some e →
    st.values[i]? = some { first := !st.supplied.contains i, second := some e }
  blank : ∀ i, k ≤ i → i < listed.length → st.values[i]? = some {}
  unexpired : st.expired = false

namespace StateEventAll

theorem counts_create (listed : List Nat) (handler : Nat) (timed : Bool) :
    (create listed.length handler timed).Counts listed 0 where
  length := List.length_replicate
  counter := by simp [create]
  once := List.nodup_nil
  within := fun _ member => absurd member List.not_mem_nil
  position := fun _ _ negative => absurd negative (Nat.not_lt_zero _)
  blank := by
    intro i _ bound
    simp [create, bound]
  unexpired := rfl

theorem Counts.supply (h : st.Counts listed k) (at_ : listed[k]? = some e) :
    (st.supply k e).Counts listed (k + 1) where
  length := by simp [StateEventAll.supply, h.length]
  counter := by
    have counter := h.counter
    simp only [StateEventAll.supply, List.length_append, List.length_singleton]
    push_cast
    omega
  once := by
    rw [StateEventAll.supply, List.nodup_append]
    refine ⟨h.once, by simp, fun a member b last => ?_⟩
    rw [List.mem_singleton.mp last]
    exact Nat.ne_of_lt (h.within a member)
  within := by
    intro i member
    rcases List.mem_append.mp member with before | last
    · exact Nat.lt_succ_of_lt (h.within i before)
    · exact List.mem_singleton.mp last ▸ Nat.lt_succ_self _
  position := by
    intro i e' less at'
    obtain ⟨bound, -⟩ := List.getElem?_eq_some_iff.mp at_
    simp only [StateEventAll.supply, List.getElem?_modify]
    by_cases here : k = i
    · subst here
      obtain rfl : e = e' := Option.some.inj (at_.symm.trans at')
      simp [h.blank k (Nat.le_refl k) bound]
    · rw [h.position i e' (by omega) at']
      simp [here, Ne.symm here]
  blank := by
    intro i most bound
    simp only [StateEventAll.supply, List.getElem?_modify]
    rw [h.blank i (by omega) bound]
    simp [show k ≠ i by omega]
  unexpired := h.unexpired

theorem Counts.enroll (h : st.Counts listed k) (at_ : listed[k]? = some e) :
    (st.enroll k e).Counts listed (k + 1) where
  length := by simp [StateEventAll.enroll, h.length]
  counter := h.counter
  once := h.once
  within := fun i member => Nat.lt_succ_of_lt (h.within i member)
  position := by
    intro i e' less at'
    obtain ⟨bound, -⟩ := List.getElem?_eq_some_iff.mp at_
    simp only [StateEventAll.enroll, List.getElem?_modify]
    by_cases here : k = i
    · subst here
      obtain rfl : e = e' := Option.some.inj (at_.symm.trans at')
      have absent : k ∉ st.supplied := fun member => Nat.lt_irrefl k (h.within k member)
      simp [h.blank k (Nat.le_refl k) bound, absent]
    · rw [h.position i e' (by omega) at']
      simp [here]
  blank := by
    intro i most bound
    simp only [StateEventAll.enroll, List.getElem?_modify]
    rw [h.blank i (by omega) bound]
    simp [show k ≠ i by omega]
  unexpired := h.unexpired

theorem Counts.notified (h : st.Counts listed listed.length) (at_ : listed[idx]? = some e)
    (missing : idx ∉ st.supplied) : (st.notified idx).Counts listed listed.length where
  length := by simp [StateEventAll.notified, h.length]
  counter := by
    have counter := h.counter
    simp only [StateEventAll.notified, List.length_append, List.length_singleton]
    push_cast
    omega
  once := by
    rw [StateEventAll.notified, List.nodup_append]
    refine ⟨h.once, by simp, fun a member b last => ?_⟩
    rw [List.mem_singleton.mp last]
    rintro rfl
    exact missing member
  within := by
    intro i member
    rcases List.mem_append.mp member with before | last
    · exact h.within i before
    · exact List.mem_singleton.mp last ▸ (List.getElem?_eq_some_iff.mp at_).1
  position := by
    intro i e' less at'
    simp only [StateEventAll.notified, List.getElem?_modify]
    rw [h.position i e' less at']
    by_cases here : idx = i
    · subst here
      simp
    · simp [here, Ne.symm here]
  blank := fun i most bound => absurd bound (Nat.not_lt.mpr most)
  unexpired := h.unexpired

theorem Counts.positive (h : st.Counts listed listed.length) (at_ : listed[idx]? = some e)
    (missing : idx ∉ st.supplied) : 0 < st.counter := by
  have bound := (List.getElem?_eq_some_iff.mp at_).1
  have fewer : (idx :: st.supplied).length ≤ (List.range listed.length).length := by
    apply List.Subperm.length_le
    apply List.subperm_of_subset (List.nodup_cons.mpr ⟨missing, h.once⟩)
    intro i member
    rcases List.mem_cons.mp member with rfl | before
    · exact List.mem_range.mpr bound
    · exact List.mem_range.mpr (h.within i before)
  have counter := h.counter
  simp only [List.length_cons, List.length_range] at fewer
  omega

theorem Counts.of_same {st' : StateEventAll} (h : st.Counts listed k)
    (values : st'.values = st.values) (counter : st'.counter = st.counter)
    (supplied : st'.supplied = st.supplied) (expired : st'.expired = st.expired) :
    st'.Counts listed k := by
  constructor
  · rw [values, h.length]
  · rw [counter, supplied, h.counter]
  · rw [supplied]
    exact h.once
  · rw [supplied]
    exact h.within
  · rw [values, supplied]
    exact h.position
  · rw [values]
    exact h.blank
  · rw [expired, h.unexpired]

theorem Counts.full (h : st.Counts listed listed.length) :
    ∀ sub ∈ st.values, sub.second.isSome = true := by
  intro sub member
  obtain ⟨i, at_⟩ := List.mem_iff_getElem?.mp member
  have bound : i < listed.length := by
    rw [← h.length]
    exact (List.getElem?_eq_some_iff.mp at_).1
  have position := h.position i _ bound (List.getElem?_eq_getElem bound)
  rw [at_] at position
  cases position
  rfl

theorem Counts.nonneg (h : st.Counts listed listed.length) : 0 ≤ st.counter := by
  have fewer : st.supplied.length ≤ (List.range listed.length).length := by
    apply List.Subperm.length_le
    apply List.subperm_of_subset h.once
    exact fun i member => List.mem_range.mpr (h.within i member)
  have counter := h.counter
  simp only [List.length_range] at fewer
  omega

theorem Counts.counter_eq (h : st.Counts listed listed.length) : st.counter =
    ((List.range listed.length).filter fun i => !st.supplied.contains i).length := by
  have split_ := List.length_eq_length_filter_add (l := List.range listed.length)
    fun i => st.supplied.contains i
  have supplied : ((List.range listed.length).filter fun i => st.supplied.contains i).length =
      st.supplied.length := by
    apply List.Perm.length_eq
    rw [List.perm_ext_iff_of_nodup (List.nodup_range.filter _) h.once]
    intro i
    simp only [List.mem_filter, List.mem_range, List.contains_iff_mem]
    exact ⟨And.right, fun member => ⟨h.within i member, member⟩⟩
  rw [supplied, List.length_range] at split_
  have counter := h.counter
  omega

theorem Counts.exists_missing (h : st.Counts listed listed.length) (positive : 0 < st.counter) :
    ∃ i, i < listed.length ∧ i ∉ st.supplied := by
  by_contra none
  have fewer : (List.range listed.length).length ≤ st.supplied.length := by
    apply List.Subperm.length_le
    apply List.subperm_of_subset List.nodup_range
    intro i member
    by_contra missing
    exact none ⟨i, List.mem_range.mp member, missing⟩
  have counter := h.counter
  simp only [List.length_range] at fewer
  omega

theorem Counts.all_of_zero (h : st.Counts listed listed.length) (zero : st.counter = 0) :
    ∀ i, i < listed.length → i ∈ st.supplied := by
  intro i bound
  by_contra missing
  have positive := h.positive (List.getElem?_eq_getElem bound) missing
  omega

/-- Each proxy of a position without a token is in line once. -/
def InLine (listed supplied : List Nat) (k : Nat) (line : Nat → List JoinEntry) : Prop :=
  ∀ e idx, (line e).count (.proxy idx) =
    if idx < k ∧ listed[idx]? = some e ∧ idx ∉ supplied then 1 else 0

theorem InLine.supply {supplied : List Nat} {line line' : Nat → List JoinEntry}
    (h : InLine listed supplied k line) (same : ∀ e idx,
      (line' e).count (.proxy idx) = (line e).count (.proxy idx)) :
    InLine listed (supplied ++ [k]) (k + 1) line' := by
  intro e idx
  rw [same, h]
  apply if_congr _ rfl rfl
  simp only [List.mem_append, List.mem_singleton, not_or]
  have : idx < k + 1 ↔ idx < k ∨ idx = k := by omega
  constructor
  · rintro ⟨less, at_, missing⟩
    exact ⟨by omega, at_, missing, by omega⟩
  · rintro ⟨less, at_, missing, other⟩
    exact ⟨by omega, at_, missing⟩

theorem InLine.enroll {supplied : List Nat} {line line' : Nat → List JoinEntry}
    (h : InLine listed supplied k line) (at_ : listed[k]? = some e) (missing : k ∉ supplied)
    (joined : ∀ e' idx, (line' e').count (.proxy idx) =
      (line e').count (.proxy idx) + if e' = e ∧ idx = k then 1 else 0) :
    InLine listed supplied (k + 1) line' := by
  intro e' idx
  rw [joined, h]
  by_cases here : idx = k
  · subst here
    by_cases mine : e' = e
    · subst mine
      simp [at_, missing]
    · have other : listed[idx]? ≠ some e' := by
        rw [at_]
        exact fun same => mine (Option.some.inj same).symm
      simp [mine, other]
  · have : idx < k + 1 ↔ idx < k := by omega
    simp [here, this]

theorem enlist_counts (rest : List Nat) (events : Nat → EventImpl JoinEntry)
    (suffix : listed.drop k = rest) (bound : k ≤ listed.length) (h : st.Counts listed k)
    (line : InLine listed st.supplied k fun e => (events e).waitAwakes) :
    (enlist .proxy rest k events st).2.Counts listed listed.length ∧
      InLine listed (enlist .proxy rest k events st).2.supplied listed.length
        fun e => ((enlist .proxy rest k events st).1 e).waitAwakes := by
  induction rest generalizing k events st with
  | nil =>
      have full : listed.length ≤ k := by simpa using suffix
      obtain rfl : k = listed.length := Nat.le_antisymm bound full
      exact ⟨h, line⟩
  | cons e rest ih =>
      have at_ : listed[k]? = some e := by
        rw [← List.head?_drop, suffix]
        rfl
      have suffix' : listed.drop (k + 1) = rest := by
        rw [← List.tail_drop, suffix]
        rfl
      have bound' : k + 1 ≤ listed.length := (List.getElem?_eq_some_iff.mp at_).1
      have missing : k ∉ st.supplied := fun member => Nat.lt_irrefl k (h.within k member)
      rw [enlist, Event.tryWaitOne_eq]
      split
      · apply ih _ suffix' bound' (h.supply at_)
        apply line.supply
        intro e' idx
        by_cases mine : e' = e
        · subst mine
          simp
        · simp [Function.update_of_ne mine]
      · apply ih _ suffix' bound' (h.enroll at_)
        apply line.enroll at_ missing
        intro e' idx
        by_cases mine : e' = e
        · subst mine
          simp [EventImpl.addWaitList, List.count_append, List.count_singleton, @eq_comm _ k idx]
        · simp [mine]

/-! ### `on_timeout` -/

variable {idxs : List Nat} {events : Nat → EventImpl JoinEntry}

theorem forget_waiting {event : Option Nat} (waiting : st.values[idx]? = some ⟨true, event⟩) :
    st.forget idx = (event,
      { st with values := st.values.modify idx fun sub => { sub with second := none } }) := by
  simp [forget, waiting]

theorem forget_frame (st : StateEventAll) (idx : Nat) :
    ∃ values, (st.forget idx).2 = { st with values } := by
  unfold forget
  split
  · exact ⟨_, rfl⟩
  · exact ⟨st.values, rfl⟩

theorem forget_other {i : Nat} (other : i ≠ idx) :
    (st.forget idx).2.values[i]? = st.values[i]? := by
  unfold forget
  split
  · simp [Ne.symm other]
  · rfl

theorem sweep_frame (st : StateEventAll) (idxs : List Nat) (events : Nat → EventImpl JoinEntry) :
    ∃ values, (sweep idxs events st).2 = { st with values } := by
  induction idxs generalizing st events with
  | nil => exact ⟨st.values, rfl⟩
  | cons idx rest ih =>
      obtain ⟨values, forgotten⟩ := forget_frame st idx
      rw [sweep]
      split
      · obtain ⟨values', swept⟩ := ih (st.forget idx).2 events
        exact ⟨values', by rw [swept, forgotten]⟩
      · rename_i e _
        obtain ⟨values', swept⟩ := ih (st.forget idx).2
          (Function.update events e ((events e).removeWaitList (.proxy idx)))
        exact ⟨values', by rw [swept, forgotten]⟩

theorem count_removeWaitList_le (e e' : Nat) (entry x : JoinEntry) :
    ((Function.update events e ((events e).removeWaitList entry)) e').waitAwakes.count x ≤
      (events e').waitAwakes.count x := by
  by_cases mine : e' = e
  · subst mine
    rw [Function.update_self]
    exact List.erase_sublist.count_le x
  · exact Nat.le_of_eq (by rw [Function.update_of_ne mine])

theorem count_sweep_le (st : StateEventAll) (idxs : List Nat)
    (events : Nat → EventImpl JoinEntry) (e : Nat) (x : JoinEntry) :
    ((sweep idxs events st).1 e).waitAwakes.count x ≤ (events e).waitAwakes.count x := by
  induction idxs generalizing st events with
  | nil => exact Nat.le_refl _
  | cons idx rest ih =>
      rw [sweep]
      split
      · exact ih _ _
      · exact Nat.le_trans (ih _ _) (count_removeWaitList_le _ _ _ _)

theorem count_sweep_waiting {i : Nat} (once : idxs.Nodup) (member : i ∈ idxs)
    (waiting : st.values[i]? = some ⟨true, some e⟩) :
    ((sweep idxs events st).1 e).waitAwakes.count (.proxy i) ≤
      (events e).waitAwakes.count (.proxy i) - 1 := by
  induction idxs generalizing st events with
  | nil => exact absurd member List.not_mem_nil
  | cons idx rest ih =>
      rw [List.nodup_cons] at once
      rcases List.mem_cons.mp member with rfl | later
      · rw [sweep, forget_waiting waiting]
        refine Nat.le_trans (count_sweep_le _ _ _ _ _) (Nat.le_of_eq ?_)
        simp [EventImpl.removeWaitList]
      · have other : i ≠ idx := by
          rintro rfl
          exact once.1 later
        have still : (st.forget idx).2.values[i]? = some ⟨true, some e⟩ := by
          rw [forget_other other, waiting]
        rw [sweep]
        split
        · exact ih once.2 later still
        · exact Nat.le_trans (ih once.2 later still)
            (Nat.sub_le_sub_right (count_removeWaitList_le _ _ _ _) 1)

end StateEventAll

/-! ## Every run -/

def JoinSection.offered : JoinSection → List JoinEntry
  | offering _ entry => [entry]
  | _ => []

namespace Joining

variable {s t : Joining}

/-- The entries that no signal of the event `e` has notified yet. -/
def line (s : Joining) (e : Nat) : List JoinEntry :=
  (s.sections e).offered ++ (s.events e).waitAwakes

/-- The coroutine has been scheduled and gets `answer`. -/
def Answered (s : Joining) (st : StateEventAll) (answer : Bool) : Prop :=
  st.scheduled = 1 ∧ st.result = answer ∧
    ((st.coro.isSome = true ∧ s.results = []) ∨ (st.coro = none ∧ s.results = [answer]))

inductive Joined (s : Joining) : Prop
  | before (state : s.state = none) (stays : s.suspended = false)
      (absent : ∀ e idx, (s.line e).count (.proxy idx) = 0)
      (results : s.results = [] ∨ s.results = [true] ∧ s.listed = [])
  | pending (st : StateEventAll) (state : s.state = some st) (suspended : s.suspended = true)
      (counts : st.Counts s.listed s.listed.length)
      (line : StateEventAll.InLine s.listed st.supplied s.listed.length s.line)
      (missing : 0 < st.counter) (unscheduled : st.scheduled = 0) (coro : st.coro.isSome = true)
      (results : s.results = [])
  | joined (st : StateEventAll) (state : s.state = some st)
      (counts : st.Counts s.listed s.listed.length)
      (line : StateEventAll.InLine s.listed st.supplied s.listed.length s.line)
      (complete : st.counter = 0)
      (answered : (s.suspended = false ∧ st.scheduled = 0 ∧ s.results = [true]) ∨
        (s.suspended = true ∧ s.Answered st true))
  | expired (st : StateEventAll) (state : s.state = some st) (suspended : s.suspended = true)
      (expired : st.expired = true) (zero : st.counter = 0)
      (supplies : st.supplied.Nodup ∧ ∀ i ∈ st.supplied, i < s.listed.length)
      (missing : ∃ i, i < s.listed.length ∧ i ∉ st.supplied)
      (absent : ∀ e idx, (s.events e).waitAwakes.count (.proxy idx) = 0)
      (answered : s.Answered st false)

theorem Joined.of_quiet (h : s.Joined) (listed : t.listed = s.listed) (state : t.state = s.state)
    (suspended : t.suspended = s.suspended) (results : t.results = s.results)
    (line : ∀ e idx, (t.line e).count (.proxy idx) = (s.line e).count (.proxy idx))
    (queue : ∀ e idx, (t.events e).waitAwakes.count (.proxy idx) ≤
      (s.events e).waitAwakes.count (.proxy idx)) : t.Joined := by
  have inLine : ∀ {supplied}, StateEventAll.InLine s.listed supplied s.listed.length s.line →
      StateEventAll.InLine t.listed supplied t.listed.length t.line := by
    intro supplied before e idx
    rw [line, listed]
    exact before e idx
  cases h with
  | before state' stays absent results' =>
      refine .before (state.trans state') (suspended.trans stays) ?_ ?_
      · exact fun e idx => (line e idx).trans (absent e idx)
      · rwa [results, listed]
  | pending st state' suspended' counts line' missing unscheduled coro results' =>
      exact .pending st (state.trans state') (suspended.trans suspended') (listed ▸ counts)
        (inLine line') missing unscheduled coro (results.trans results')
  | joined st state' counts line' complete answered =>
      refine .joined st (state.trans state') (listed ▸ counts) (inLine line') complete ?_
      unfold Answered at *
      rwa [suspended, results]
  | expired st state' suspended' expired zero supplies missing absent answered =>
      refine .expired st (state.trans state') (suspended.trans suspended') expired zero
        (listed ▸ supplies) (listed ▸ missing) ?_ ?_
      · intro e idx
        exact Nat.le_zero.mp (absent e idx ▸ queue e idx)
      · unfold Answered at *
        rwa [results]

theorem Joined.of_event {event : EventImpl JoinEntry} {section_ : JoinSection} (h : s.Joined)
    (e : Nat) (line : ∀ idx, (section_.offered ++ event.waitAwakes).count (.proxy idx) =
      (s.line e).count (.proxy idx))
    (queue : ∀ idx, event.waitAwakes.count (.proxy idx) ≤
      (s.events e).waitAwakes.count (.proxy idx)) :
    ((s.setEvent e event).enter e section_).Joined := by
  refine h.of_quiet rfl rfl rfl rfl (fun e' idx => ?_) fun e' idx => ?_
  · by_cases mine : e' = e
    · subst mine
      simpa [Joining.line, setEvent, enter] using line idx
    · simp [Joining.line, setEvent, enter, Function.update_of_ne mine]
  · by_cases mine : e' = e
    · subst mine
      simpa [setEvent, enter] using queue idx
    · simp [setEvent, enter, Function.update_of_ne mine]

theorem setEvent_enter (s : Joining) (e : Nat) (event : EventImpl JoinEntry) :
    (s.setEvent e event).enter e (s.sections e) = s.setEvent e event := by
  simp [setEvent, enter]

theorem enter_setEvent (s : Joining) (e : Nat) (section_ : JoinSection) :
    (s.setEvent e (s.events e)).enter e section_ = s.enter e section_ := by
  simp [setEvent, enter]

theorem Joined.enter {section_ : JoinSection} (h : s.Joined) (e : Nat)
    (offered : ∀ idx, section_.offered.count (.proxy idx) =
      (s.sections e).offered.count (.proxy idx)) : (s.enter e section_).Joined := by
  rw [← enter_setEvent]
  apply h.of_event
  · intro idx
    rw [Joining.line, List.count_append, List.count_append, offered]
  · exact fun _ => Nat.le_refl _

theorem Joined.wait {w : Nat} (h : s.Joined) (free : s.sections e = .free) :
    (s.wait e w).Joined := by
  unfold Joining.wait
  dsimp only
  split
  · rw [← setEvent_enter]
    apply h.of_event
    · intro idx
      rw [Event.tryWaitOne_waitAwakes]
      rfl
    · intro idx
      exact Nat.le_of_eq (by rw [Event.tryWaitOne_waitAwakes])
  · rw [← setEvent_enter]
    apply h.of_event
    · intro idx
      simp [Joining.line, free, EventImpl.addWaitList, Event.tryWaitOne_waitAwakes]
    · intro idx
      simp [EventImpl.addWaitList, Event.tryWaitOne_waitAwakes]

theorem Joined.leaveQueue {w : Nat} (h : s.Joined) (e : Nat) :
    (s.setEvent e ((s.events e).removeWaitList (.other w))).Joined := by
  rw [← setEvent_enter]
  apply h.of_event
  · intro idx
    simp [Joining.line, EventImpl.removeWaitList, List.count_erase_of_ne]
  · intro idx
    simp [EventImpl.removeWaitList, List.count_erase_of_ne]

theorem Joined.pop {all : Bool} {entry : JoinEntry} {rest : List JoinEntry} (h : s.Joined)
    (popping : s.sections e = .popping all) (queue : (s.events e).waitAwakes = entry :: rest) :
    ((s.setEvent e { s.events e with waitAwakes := rest }).enter e (.offering all entry)).Joined := by
  apply h.of_event
  · intro idx
    simp [Joining.line, popping, queue, JoinSection.offered]
  · intro idx
    rw [queue]
    exact (List.sublist_cons_self entry rest).count_le _

theorem Joined.leave {all : Bool} (h : s.Joined) (popping : s.sections e = .popping all) :
    (s.leave e all).Joined := by
  unfold Joining.leave
  split
  · apply h.enter
    intro idx
    rw [popping]
    rfl
  · apply h.of_event
    · intro idx
      rw [Joining.line, popping]
      rfl
    · exact fun _ => Nat.le_refl _

theorem enlist_frame {ω : Type} (proxy : Nat → ω) (rest : List Nat) (k : Nat)
    (events : Nat → EventImpl ω) (st : StateEventAll) : ∃ values counter supplied,
      (StateEventAll.enlist proxy rest k events st).2 = { st with values, counter, supplied } := by
  induction rest generalizing k events st with
  | nil => exact ⟨st.values, st.counter, st.supplied, rfl⟩
  | cons e rest ih =>
      rw [StateEventAll.enlist]
      split
      · obtain ⟨values, counter, supplied, same⟩ := ih (k + 1)
          (Function.update events e (events e).tryWaitOne.2) (st.supply k e)
        exact ⟨values, counter, supplied, by rw [same]; rfl⟩
      · obtain ⟨values, counter, supplied, same⟩ := ih (k + 1)
          (Function.update events e ((events e).tryWaitOne.2.addWaitList (proxy k))) (st.enroll k e)
        exact ⟨values, counter, supplied, by rw [same]; rfl⟩

theorem le_counter_enlist {ω : Type} (proxy : Nat → ω) (rest : List Nat) (k : Nat)
    (events : Nat → EventImpl ω) (st : StateEventAll) :
    st.counter - rest.length ≤ (StateEventAll.enlist proxy rest k events st).2.counter := by
  induction rest generalizing k events st with
  | nil => simp [StateEventAll.enlist]
  | cons e rest ih =>
      rw [StateEventAll.enlist, List.length_cons]
      push_cast
      split
      · have less := ih (k + 1) (Function.update events e (events e).tryWaitOne.2) (st.supply k e)
        have counter : (st.supply k e).counter = st.counter - 1 := rfl
        omega
      · have less := ih (k + 1)
          (Function.update events e ((events e).tryWaitOne.2.addWaitList (proxy k))) (st.enroll k e)
        have counter : (st.enroll k e).counter = st.counter := rfl
        omega

theorem enlist_complete_iff {ω : Type} (proxy : Nat → ω) (rest : List Nat) (k : Nat)
    (events : Nat → EventImpl ω) (st : StateEventAll) :
    (StateEventAll.enlist proxy rest k events st).2.counter = st.counter - rest.length ↔
      ∀ e ∈ rest, (rest.count e : Int) ≤ (events e).counter := by
  induction rest generalizing k events st with
  | nil => simp [StateEventAll.enlist]
  | cons e rest ih =>
      rw [StateEventAll.enlist, Event.tryWaitOne_eq, List.length_cons]
      push_cast
      by_cases token : (events e).counter > 0
      · rw [if_pos token]
        have counter : (st.supply k e).counter = st.counter - 1 := rfl
        have later := ih (k + 1)
          (Function.update events e { events e with counter := (events e).counter - 1 })
          (st.supply k e)
        rw [counter, show st.counter - 1 - rest.length = st.counter - (rest.length + 1) by omega]
          at later
        refine later.trans ⟨fun enough e' member => ?_, fun enough e' member => ?_⟩
        · by_cases same : e' = e
          · subst same
            rw [List.count_cons_self]
            by_cases again : e' ∈ rest
            · have less := enough e' again
              rw [Function.update_self] at less
              dsimp only at less
              push_cast
              omega
            · rw [List.count_eq_zero_of_not_mem again]
              omega
          · have less := enough e' ((List.mem_cons.mp member).resolve_left same)
            rwa [Function.update_of_ne same, ← List.count_cons_of_ne (Ne.symm same)] at less
        · have less := enough e' (List.mem_cons_of_mem e member)
          by_cases same : e' = e
          · subst same
            rw [List.count_cons_self] at less
            rw [Function.update_self]
            dsimp only
            push_cast at less
            omega
          · rwa [List.count_cons_of_ne (Ne.symm same), ← Function.update_of_ne same
              { events e with counter := (events e).counter - 1 } events] at less
      · -- one token is missing for good
        rw [if_neg token]
        have least := le_counter_enlist proxy rest (k + 1)
          (Function.update events e ((events e).addWaitList (proxy k))) (st.enroll k e)
        have counter : (st.enroll k e).counter = st.counter := rfl
        refine ⟨fun full => absurd full (by simp only [Bool.false_eq_true, if_false]; omega), ?_⟩
        intro enough
        have less := enough e List.mem_cons_self
        rw [List.count_cons_self] at less
        push_cast at less
        omega

theorem Joined.waitAll (h : s.Joined) (fresh : s.state = none) (first : s.results = [])
    (handler : Nat) (timed : Bool) : (s.waitAll handler timed).Joined := by
  cases h with
  | before state stays absent results =>
      unfold Joining.waitAll
      split
      · rename_i empty
        exact .before fresh stays absent (.inr ⟨by simp [first], empty⟩)
      · dsimp only
        have offered : ∀ e idx, (s.sections e).offered.count (.proxy idx) = 0 := by
          intro e idx
          have none_ := absent e idx
          rw [Joining.line, List.count_append] at none_
          omega
        have start : StateEventAll.InLine s.listed
            (StateEventAll.create s.listed.length handler timed).supplied 0
            fun e => (s.events e).waitAwakes := by
          intro e idx
          have none_ := absent e idx
          rw [Joining.line, List.count_append] at none_
          simp only [Nat.not_lt_zero, false_and, if_false]
          omega
        obtain ⟨counts, queues⟩ := StateEventAll.enlist_counts (k := 0) s.listed s.events rfl
          (Nat.zero_le _) (StateEventAll.counts_create s.listed handler timed) start
        obtain ⟨values, counter, supplied, frame⟩ := enlist_frame .proxy s.listed 0 s.events
          (StateEventAll.create s.listed.length handler timed)
        generalize StateEventAll.enlist .proxy s.listed 0 s.events
          (StateEventAll.create s.listed.length handler timed) = enlisted at counts queues frame ⊢
        have unscheduled : enlisted.2.scheduled = 0 := by
          rw [frame]
          rfl
        have coro : enlisted.2.coro.isSome = true := by
          rw [frame]
          rfl
        have line : ∀ e idx, ((s.sections e).offered ++ (enlisted.1 e).waitAwakes).count
            (.proxy idx) = ((enlisted.1 e).waitAwakes).count (.proxy idx) := by
          intro e idx
          rw [List.count_append, offered, Nat.zero_add]
        simp only [unlockLocks]
        split
        · rename_i complete
          refine .joined _ rfl counts (fun e idx => ?_) complete
            (.inl ⟨stays, unscheduled, by simp [first]⟩)
          exact (line e idx).trans (queues e idx)
        · rename_i waiting
          have missing : 0 < enlisted.2.counter := by
            have nonneg := counts.nonneg
            omega
          refine .pending _ rfl rfl counts (fun e idx => ?_) missing unscheduled coro first
          exact (line e idx).trans (queues e idx)
  | pending st state => rw [fresh] at state; cases state
  | joined st state => rw [fresh] at state; cases state
  | expired st state => rw [fresh] at state; cases state

theorem onNotify_over (finished : st.counter ≤ 0) : st.onNotify idx = (false, st) := by
  simp [StateEventAll.onNotify, finished]

theorem onNotify_early (missing : 0 < st.counter) (early : (st.notified idx).counter ≠ 0) :
    st.onNotify idx = (true, st.notified idx) := by
  simp [StateEventAll.onNotify, Int.not_le.mpr missing, early]

theorem onNotify_last (missing : 0 < st.counter) (last : (st.notified idx).counter = 0)
    (coro : st.coro.isSome = true)
    (full : ∀ sub ∈ (st.notified idx).values, sub.second.isSome = true) :
    st.onNotify idx = (true, { st.notified idx with
      result := true, timer := false, scheduled := st.scheduled + 1 }) := by
  have result : ((st.notified idx).values.all fun sub => sub.second.isSome) = true :=
    List.all_eq_true.mpr full
  have coro' : (st.notified idx).coro.isSome = true := coro
  have scheduled : (st.notified idx).scheduled = st.scheduled := rfl
  simp [StateEventAll.onNotify, Int.not_le.mpr missing, last, StateEventAll.schedule, result, coro',
    scheduled]

theorem missing_of_offering {all : Bool} {supplied : List Nat}
    (line : StateEventAll.InLine s.listed supplied s.listed.length s.line)
    (offering : s.sections e = .offering all (.proxy idx)) :
    s.listed[idx]? = some e ∧ idx ∉ supplied := by
  have once := line e idx
  rw [Joining.line, offering, JoinSection.offered, List.singleton_append,
    List.count_cons_self] at once
  split at once
  · rename_i here
    exact here.2
  · exact absurd once (Nat.succ_ne_zero _)

theorem inLine_notified {all : Bool} {section_ : JoinSection} {state : Option StateEventAll}
    {supplied : List Nat}
    (line : StateEventAll.InLine s.listed supplied s.listed.length s.line)
    (offering : s.sections e = .offering all (.proxy idx)) (quiet : section_.offered = []) :
    StateEventAll.InLine s.listed (supplied ++ [idx]) s.listed.length
      ({ s with state := state }.enter e section_).line := by
  obtain ⟨at_, missing⟩ := missing_of_offering line offering
  intro e' i
  have before := line e' i
  have member : i ∉ supplied ++ [idx] ↔ i ∉ supplied ∧ i ≠ idx := by simp
  simp only [member]
  by_cases mine : e' = e
  · subst mine
    have after : ({ s with state := state }.enter e' section_).line e' =
        (s.events e').waitAwakes := by
      simp [Joining.line, Joining.enter, quiet]
    rw [Joining.line, offering, JoinSection.offered, List.singleton_append, List.count_cons]
      at before
    rw [after]
    by_cases same : i = idx
    · subst same
      have bound := (List.getElem?_eq_some_iff.mp at_).1
      simp only [at_, missing, bound] at before
      simpa using before
    · simpa [same, Ne.symm same] using before
  · have after : ({ s with state := state }.enter e section_).line e' = s.line e' := by
      simp [Joining.line, Joining.enter, Function.update_of_ne mine]
    rw [after, before]
    by_cases same : i = idx
    · subst same
      have other : s.listed[i]? ≠ some e' := by
        rw [at_]
        exact fun same => mine (Option.some.inj same).symm
      simp [other]
    · simp [same]

theorem Joined.notify {all answer : Bool} {entry : JoinEntry} (h : s.Joined)
    (state : s.state = some st) (offering : s.sections e = .offering all entry) :
    (s.notify st e all answer entry).Joined := by
  have quiet : ∀ answer : Bool,
      (if answer && !all then JoinSection.free else .popping all).offered = [] := by
    intro answer
    split <;> rfl
  cases entry with
  | other w =>
      apply h.enter
      intro idx
      rw [quiet, offering]
      simp [JoinSection.offered]
  | proxy idx =>
      unfold Joining.notify
      dsimp only
      cases h with
      | before state' => rw [state] at state'; cases state'
      | pending st' state' suspended counts line missing unscheduled coro results =>
          obtain rfl : st = st' := Option.some.inj (state.symm.trans state')
          obtain ⟨at_, absent⟩ := missing_of_offering line offering
          have counts' := counts.notified at_ absent
          by_cases last : (st.notified idx).counter = 0
          · rw [onNotify_last missing last coro counts'.full]
            refine .joined _ rfl (counts'.of_same rfl rfl rfl rfl)
              (inLine_notified line offering (quiet true)) last (.inr ⟨suspended, ?_⟩)
            exact ⟨congrArg (· + 1) unscheduled, rfl, .inl ⟨coro, results⟩⟩
          · have still : 0 < (st.notified idx).counter := by
              have nonneg := counts'.nonneg
              omega
            rw [onNotify_early missing last]
            exact .pending _ rfl suspended counts' (inLine_notified line offering (quiet true))
              still unscheduled coro results
      | joined st' state' counts line complete answered =>
          obtain rfl : st = st' := Option.some.inj (state.symm.trans state')
          obtain ⟨at_, absent⟩ := missing_of_offering line offering
          exact absurd complete (Int.ne_of_gt (counts.positive at_ absent))
      | expired st' state' suspended expired zero supplies missing absent answered =>
          obtain rfl : st = st' := Option.some.inj (state.symm.trans state')
          rw [onNotify_over (Int.le_of_eq zero)]
          exact .expired st rfl suspended expired zero supplies missing absent answered

theorem Joined.timeout (h : s.Joined) (state : s.state = some st) : (s.timeout st).Joined := by
  unfold Joining.timeout
  cases h with
  | before state' => rw [state] at state'; cases state'
  | pending st' state' suspended counts line missing unscheduled coro results =>
      obtain rfl : st = st' := Option.some.inj (state.symm.trans state')
      have expired : st.expire = some
          { st with counter := 0, result := false, timer := false, expired := true } := by
        simp [StateEventAll.expire, Int.not_le.mpr missing]
      rw [expired]
      generalize marked : ({ st with
        counter := 0, result := false, timer := false, expired := true } : StateEventAll) = state'
      have values : state'.values = st.values := by rw [← marked]
      obtain ⟨left, frame⟩ := StateEventAll.sweep_frame state' (List.range state'.values.length)
        s.events
      have scheduled : ((StateEventAll.sweep (List.range state'.values.length) s.events
          state').2.schedule) = { state' with values := left, scheduled := 1 } := by
        have coro' : state'.coro.isSome = true := by simp [← marked, coro]
        have unscheduled' : state'.scheduled = 0 := by simp [← marked, unscheduled]
        rw [frame]
        simp [StateEventAll.schedule, coro', unscheduled']
      refine .expired _ (congrArg some scheduled) suspended (by simp [← marked])
        (by simp [← marked]) (by simpa [← marked] using ⟨counts.once, counts.within⟩)
        (by simpa [← marked] using counts.exists_missing missing) ?_
        ⟨rfl, by simp [← marked], .inl ⟨by simp [← marked, coro], results⟩⟩
      intro e i
      have inLine := line e i
      rw [Joining.line, List.count_append] at inLine
      split at inLine
      · -- the proxy of a position without a token is taken out
        rename_i waits
        obtain ⟨bound, at_, absent⟩ := waits
        have waiting : state'.values[i]? = some ⟨true, some e⟩ := by
          rw [values, counts.position i e bound at_]
          simp [absent]
        have within : i ∈ List.range state'.values.length := by
          rw [values, counts.length]
          exact List.mem_range.mpr bound
        have out : _ ≤ (s.events e).waitAwakes.count (.proxy i) - 1 :=
          StateEventAll.count_sweep_waiting List.nodup_range within waiting
        exact Nat.le_zero.mp (Nat.le_trans out (by omega))
      · have least := StateEventAll.count_sweep_le state' (List.range state'.values.length) s.events
          e (.proxy i)
        exact Nat.le_zero.mp (Nat.le_trans least (by omega))
  | joined st' state' counts line complete answered =>
      obtain rfl : st = st' := Option.some.inj (state.symm.trans state')
      have finished : st.expire = none := by simp [StateEventAll.expire, complete]
      rw [finished]
      exact .joined _ rfl (counts.of_same rfl rfl rfl rfl) line complete answered
  | expired st' state' suspended expired zero supplies missing absent answered =>
      obtain rfl : st = st' := Option.some.inj (state.symm.trans state')
      have finished : st.expire = none := by simp [StateEventAll.expire, zero]
      rw [finished]
      exact .expired _ rfl suspended expired zero supplies missing absent answered

theorem Joined.resume (h : s.Joined) (state : s.state = some st) (coro : st.coro.isSome = true)
    (scheduled : 0 < st.scheduled) : (s.resume st).Joined := by
  have answered_ : ∀ {answer}, s.Answered st answer → (s.resume st).Answered
      { st with coro := none } answer := by
    rintro answer ⟨once, result, waiting | gone⟩
    · exact ⟨once, result, .inr ⟨rfl, by simp [Joining.resume, waiting.2, result]⟩⟩
    · rw [gone.1] at coro
      cases coro
  cases h with
  | before state' => rw [state] at state'; cases state'
  | pending st' state' suspended counts line missing unscheduled coro' results =>
      obtain rfl : st = st' := Option.some.inj (state.symm.trans state')
      omega
  | joined st' state' counts line complete answered =>
      obtain rfl : st = st' := Option.some.inj (state.symm.trans state')
      rcases answered with ⟨-, unscheduled, -⟩ | ⟨suspended, answered⟩
      · omega
      · exact .joined _ rfl (counts.of_same rfl rfl rfl rfl) line complete
          (.inr ⟨suspended, answered_ answered⟩)
  | expired st' state' suspended expired zero supplies missing absent answered =>
      obtain rfl : st = st' := Option.some.inj (state.symm.trans state')
      exact .expired _ rfl suspended expired zero supplies missing absent (answered_ answered)

inductive Steps (s : Joining) : JoiningAction → Joining → Prop
  | waitAll {handler : Nat} {timed : Bool} (fresh : s.state = none) (first : s.results = [])
      (free : ∀ e ∈ s.listed, s.sections e = .free) :
      Steps s (.waitAll handler timed) (s.waitAll handler timed)
  | wait {e w : Nat} (free : s.sections e = .free) : Steps s (.wait e w) (s.wait e w)
  | leaveQueue {e w : Nat} (free : s.sections e = .free) :
      Steps s (.leaveQueue e w) (s.setEvent e ((s.events e).removeWaitList (.other w)))
  | signal {e : Nat} {all : Bool} (free : s.sections e = .free) :
      Steps s (.signal e all) (s.enter e (.popping all))
  | pop {e : Nat} {all : Bool} {entry : JoinEntry} {rest : List JoinEntry}
      (popping : s.sections e = .popping all)
      (queue : (s.events e).waitAwakes = entry :: rest) :
      Steps s (.pop e)
        ((s.setEvent e { s.events e with waitAwakes := rest }).enter e (.offering all entry))
  | notifyProxy {e idx : Nat} {all answer : Bool} {st : StateEventAll}
      (offering : s.sections e = .offering all (.proxy idx)) (state : s.state = some st) :
      Steps s (.notify e answer) (s.notify st e all answer (.proxy idx))
  | notifyOther {e w : Nat} {all answer : Bool} (offering : s.sections e = .offering all (.other w)) :
      Steps s (.notify e answer) (s.enter e (if answer && !all then .free else .popping all))
  | leave {e : Nat} {all : Bool} (popping : s.sections e = .popping all)
      (queue : (s.events e).waitAwakes = []) :
      Steps s (.leave e) (s.leave e all)
  | timeout {st : StateEventAll} (state : s.state = some st) (timer : st.timer = true) :
      Steps s .timeout (s.timeout st)
  | resume {st : StateEventAll} (state : s.state = some st) (coro : st.coro.isSome = true)
      (scheduled : 0 < st.scheduled) : Steps s .resume (s.resume st)

theorem steps_of_step {action : JoiningAction} (next : step s action = some t) :
    s.Steps action t := by
  cases action with
  | waitAll handler timed =>
      simp only [step, Option.ite_none_right_eq_some, Option.some.injEq] at next
      obtain ⟨⟨fresh, first, free⟩, rfl⟩ := next
      exact .waitAll fresh first free
  | wait e w =>
      simp only [step, Option.ite_none_right_eq_some, Option.some.injEq] at next
      obtain ⟨free, rfl⟩ := next
      exact .wait free
  | leaveQueue e w =>
      simp only [step, Option.ite_none_right_eq_some, Option.some.injEq] at next
      obtain ⟨free, rfl⟩ := next
      exact .leaveQueue free
  | signal e all =>
      simp only [step, Option.ite_none_right_eq_some, Option.some.injEq] at next
      obtain ⟨free, rfl⟩ := next
      exact .signal free
  | pop e =>
      simp only [step] at next
      split at next
      · rename_i all entry rest popping queue
        cases next
        exact .pop popping queue
      · cases next
  | notify e answer =>
      simp only [step] at next
      split at next
      · rename_i all entry st offering state
        cases next
        cases entry with
        | proxy idx => exact .notifyProxy offering state
        | other w => exact .notifyOther offering
      · rename_i all w offering state
        cases next
        exact .notifyOther offering
      · cases next
  | leave e =>
      simp only [step] at next
      split at next
      · rename_i all popping queue
        cases next
        exact .leave popping queue
      · cases next
  | timeout =>
      simp only [step] at next
      split at next
      · rename_i st state
        simp only [Option.ite_none_right_eq_some, Option.some.injEq] at next
        obtain ⟨timer, rfl⟩ := next
        exact .timeout state timer
      · cases next
  | resume =>
      simp only [step] at next
      split at next
      · rename_i st state
        simp only [Option.ite_none_right_eq_some, Option.some.injEq] at next
        obtain ⟨⟨coro, scheduled⟩, rfl⟩ := next
        exact .resume state coro scheduled
      · cases next

theorem Joined.step {action : JoiningAction} (h : s.Joined)
    (action_ : Joining.step s action = some t) : t.Joined := by
  cases steps_of_step action_ with
  | waitAll fresh first _ => exact h.waitAll fresh first _ _
  | wait free => exact h.wait free
  | leaveQueue _ => exact h.leaveQueue _
  | signal free => exact h.enter _ fun idx => by rw [free]; rfl
  | pop popping queue => exact h.pop popping queue
  | notifyProxy offering state => exact h.notify state offering
  | notifyOther offering =>
      apply h.enter
      intro idx
      rw [offering]
      split <;> simp [JoinSection.offered]
  | leave popping _ => exact h.leave popping
  | timeout state _ => exact h.timeout state
  | resume state coro scheduled => exact h.resume state coro scheduled

theorem joined_of_reachable {counters : Nat → Int}
    (reachable : (system listed counters).Reachable s) : s.Joined := by
  induction reachable with
  | init => exact .before rfl rfl (fun _ _ => rfl) (.inl rfl)
  | step _ _ action ih => exact ih.step action

/-! ## What the coroutine gets -/

/-- The positions whose event has supplied a token. -/
def supplied (s : Joining) : List Nat := s.state.elim [] StateEventAll.supplied

def expired (s : Joining) : Bool := s.state.elim false StateEventAll.expired

def Complete (s : Joining) : Prop := ∀ i, i < s.listed.length → i ∈ s.supplied

structure JoinsExactly (s : Joining) : Prop where
  -- no step has written to a state that was deleted
  intact : s.corrupted = false
  supplies : s.supplied.Nodup ∧ ∀ i ∈ s.supplied, i < s.listed.length
  counter : ∀ st, s.state = some st → s.expired = false →
    st.counter = ((List.range s.listed.length).filter fun i => !s.supplied.contains i).length
  scheduledOnce : ∀ st, s.state = some st → st.scheduled ≤ 1 ∧
    (st.scheduled = 1 ↔ s.suspended = true ∧ (s.Complete ∨ s.expired = true))
  exclusive : ¬ (s.Complete ∧ s.expired = true)
  answeredOnce : s.results.length ≤ 1
  answer : ∀ answer ∈ s.results,
    (answer = true ↔ s.Complete) ∧ (answer = false ↔ s.expired = true)
  refused : ∀ st idx, s.state = some st → (s.Complete ∨ s.expired = true) →
    st.onNotify idx = (false, st)
  passesOn : ∀ e all idx answer t, s.sections e = .offering all (.proxy idx) →
    (s.Complete ∨ s.expired = true) → step s (.notify e answer) = some t →
    t = s.enter e (.popping all)

theorem passesOn_of_refused {all answer : Bool}
    (refused : ∀ st, s.state = some st → st.onNotify idx = (false, st))
    (offering : s.sections e = .offering all (.proxy idx))
    (action : step s (.notify e answer) = some t) : t = s.enter e (.popping all) := by
  cases state : s.state with
  | none => simp [step, offering, state] at action
  | some st =>
      simp only [step, offering, state, notify, refused st state, Option.some.injEq] at action
      rw [← action, ← state]
      rfl

theorem joinsExactly_of_over (intact : s.corrupted = false)
    (supplies : s.supplied.Nodup ∧ ∀ i ∈ s.supplied, i < s.listed.length)
    (counter : ∀ st, s.state = some st → s.expired = false →
      st.counter = ((List.range s.listed.length).filter fun i => !s.supplied.contains i).length)
    (finished : ∀ st, s.state = some st → st.counter ≤ 0 ∧ (s.Complete ∨ s.expired = true) ∧
      (st.scheduled = if s.suspended = true then 1 else 0))
    (exclusive : ¬ (s.Complete ∧ s.expired = true))
    (answered : s.results = [] ∨ s.results = [!s.expired]) (ends : s.Complete ∨ s.expired = true) :
    s.JoinsExactly where
  intact := intact
  supplies := supplies
  counter := counter
  scheduledOnce st state := by
    obtain ⟨-, done_, scheduled⟩ := finished st state
    rw [scheduled]
    split <;> simp_all
  exclusive := exclusive
  answeredOnce := by rcases answered with none | one <;> simp [*]
  answer answer member := by
    rcases answered with none | one
    · rw [none] at member
      exact absurd member List.not_mem_nil
    · rw [one, List.mem_singleton] at member
      subst member
      cases expired : s.expired with
      | true => simp_all
      | false => simp_all
  refused st idx state _ := onNotify_over (finished st state).1
  passesOn e all idx answer t offering _ action :=
    passesOn_of_refused (fun st state => onNotify_over (finished st state).1) offering action

theorem joinsExactly_of_joined (h : s.Joined) (intact : s.corrupted = false) :
    s.JoinsExactly := by
  cases h with
  | before state stays absent results =>
      have supplied : s.supplied = [] := by simp [Joining.supplied, state]
      have expired : s.expired = false := by simp [Joining.expired, state]
      have nobody : ∀ st, s.state ≠ some st := by simp [state]
      constructor
      · exact intact
      · simp [supplied]
      · exact fun st at_ => absurd at_ (nobody st)
      · exact fun st at_ => absurd at_ (nobody st)
      · simp [expired]
      · rcases results with none | ⟨one, -⟩ <;> simp [*]
      · intro answer member
        rcases results with none | ⟨one, empty⟩
        · rw [none] at member
          exact absurd member List.not_mem_nil
        · rw [one, List.mem_singleton] at member
          simp [member, Complete, empty, expired]
      · exact fun st idx at_ => absurd at_ (nobody st)
      · intro e all idx answer t offering
        have here := absent e idx
        simp [line, offering, JoinSection.offered] at here
  | pending st state suspended counts line missing unscheduled coro results =>
      have supplied : s.supplied = st.supplied := by simp [Joining.supplied, state]
      have expired : s.expired = false := by simp [Joining.expired, state, counts.unexpired]
      have same : ∀ st', s.state = some st' → st' = st :=
        fun st' state' => Option.some.inj (state'.symm.trans state)
      have waits : ¬ (s.Complete ∨ s.expired = true) := by
        obtain ⟨i, bound, absent⟩ := counts.exists_missing missing
        rintro (complete | late)
        · exact absent (supplied ▸ complete i bound)
        · rw [expired] at late
          cases late
      constructor
      · exact intact
      · rw [supplied]
        exact ⟨counts.once, counts.within⟩
      · intro st' state' _
        rw [same st' state', supplied]
        exact counts.counter_eq
      · intro st' state'
        rw [same st' state', unscheduled]
        simp [waits]
      · simp [expired]
      · simp [results]
      · simp [results]
      · exact fun st' idx _ finished => absurd finished waits
      · exact fun e all idx answer t _ finished => absurd finished waits
  | joined st state counts line complete answered =>
      have supplied : s.supplied = st.supplied := by simp [Joining.supplied, state]
      have expired : s.expired = false := by simp [Joining.expired, state, counts.unexpired]
      have same : ∀ st', s.state = some st' → st' = st :=
        fun st' state' => Option.some.inj (state'.symm.trans state)
      have all : s.Complete := fun i bound => supplied ▸ counts.all_of_zero complete i bound
      apply joinsExactly_of_over intact
      · rw [supplied]
        exact ⟨counts.once, counts.within⟩
      · intro st' state' _
        rw [same st' state', supplied]
        exact counts.counter_eq
      · intro st' state'
        rw [same st' state']
        refine ⟨Int.le_of_eq complete, .inl all, ?_⟩
        rcases answered with ⟨stays, unscheduled, -⟩ | ⟨suspended, once, -⟩
        · simp [stays, unscheduled]
        · simp [suspended, once]
      · simp [expired]
      · rcases answered with ⟨-, -, results⟩ | ⟨-, -, -, waiting | gone⟩
        · simp [results, expired]
        · exact .inl waiting.2
        · simp [gone.2, expired]
      · exact .inl all
  | expired st state suspended expired zero supplies missing absent answered =>
      have supplied : s.supplied = st.supplied := by simp [Joining.supplied, state]
      have late : s.expired = true := by simp [Joining.expired, state, expired]
      have same : ∀ st', s.state = some st' → st' = st :=
        fun st' state' => Option.some.inj (state'.symm.trans state)
      obtain ⟨once, -, outcome⟩ := answered
      apply joinsExactly_of_over intact
      · rw [supplied]
        exact supplies
      · intro st' _ early
        rw [late] at early
        cases early
      · intro st' state'
        rw [same st' state']
        exact ⟨Int.le_of_eq zero, .inr late, by simp [suspended, once]⟩
      · rintro ⟨complete, -⟩
        obtain ⟨i, bound, never⟩ := missing
        exact never (supplied ▸ complete i bound)
      · rcases outcome with waiting | gone
        · exact .inl waiting.2
        · simp [gone.2, late]
      · exact .inr late

/-- The state outlives `~batch_lock_t`: a timer keeps it, or a token is missing. -/
def Spared (s : Joining) : JoiningAction → Prop
  | .waitAll _ timed =>
      timed = true ∨ s.listed = [] ∨ ∃ e ∈ s.listed, (s.events e).counter < s.listed.count e
  | _ => True

instance (s : Joining) : (action : JoiningAction) → Decidable (s.Spared action)
  | .waitAll _ timed => inferInstanceAs (Decidable (timed = true ∨ s.listed = [] ∨
      ∃ e ∈ s.listed, (s.events e).counter < s.listed.count e))
  | .wait _ _ | .leaveQueue _ _ | .signal _ _ | .pop _ | .notify _ _ | .leave _ | .timeout
  | .resume => .isTrue trivial

theorem create_complete (s : Joining) (handler : Nat) (timed : Bool) :
    ((StateEventAll.create s.listed.length handler timed).enlist .proxy s.listed 0
      s.events).2.counter = 0 ↔ ∀ e ∈ s.listed, (s.listed.count e : Int) ≤ (s.events e).counter := by
  have exact_ := enlist_complete_iff .proxy s.listed 0 s.events
    (StateEventAll.create s.listed.length handler timed)
  have counter : (StateEventAll.create s.listed.length handler timed).counter =
    s.listed.length := rfl
  rwa [counter, Int.sub_self] at exact_

theorem waitAll_corrupted (s : Joining) (handler : Nat) (timed : Bool)
    (living : s.deleted = false) : (s.waitAll handler timed).corrupted =
      (s.corrupted || !decide (s.Spared (.waitAll handler timed))) := by
  unfold Joining.waitAll Spared
  have complete := create_complete s handler timed
  by_cases empty : s.listed = []
  · simp [empty]
  · simp only [unlockLocks, empty, false_or]
    by_cases full : ∀ e ∈ s.listed, (s.listed.count e : Int) ≤ (s.events e).counter
    · have none_ : ¬ ∃ e ∈ s.listed, (s.events e).counter < s.listed.count e := by
        rintro ⟨e, member, less⟩
        exact absurd (full e member) (Int.not_le.mpr less)
      simp [complete.mpr full, none_]
    · have short : ∃ e ∈ s.listed, (s.events e).counter < s.listed.count e := by
        simpa using full
      simp [mt complete.mp full, short, living]

theorem Steps.memory {action : JoiningAction} (h : s.Steps action t)
    (other : ∀ handler timed, action ≠ .waitAll handler timed) :
    t.deleted = s.deleted ∧ t.corrupted = s.corrupted := by
  cases h with
  | waitAll => exact absurd rfl (other _ _)
  | wait => unfold Joining.wait; dsimp only; split <;> exact ⟨rfl, rfl⟩
  | leave => unfold Joining.leave; split <;> exact ⟨rfl, rfl⟩
  | timeout => unfold Joining.timeout; split <;> exact ⟨rfl, rfl⟩
  | notifyProxy => exact ⟨rfl, rfl⟩
  | leaveQueue | signal | pop | notifyOther | resume => exact ⟨rfl, rfl⟩

def Fresh (s : Joining) : Prop := s.state = none → s.deleted = false

theorem fresh_of_reachable {counters : Nat → Int}
    (reachable : (system listed counters).Reachable s) : s.Fresh := by
  induction reachable with
  | init => exact fun _ => rfl
  | @step s t action _ _ next ih =>
      intro none_
      cases steps_of_step next with
      | waitAll fresh =>
          unfold Joining.waitAll at none_ ⊢
          split at none_
          · rename_i empty
            rw [if_pos empty]
            exact ih none_
          · dsimp only [unlockLocks] at none_
            split at none_ <;> cases none_
      | wait =>
          unfold Joining.wait at none_ ⊢
          dsimp only at none_ ⊢
          split at none_ <;> split <;> exact ih none_
      | leave =>
          unfold Joining.leave at none_ ⊢
          split at none_ <;> split <;> exact ih none_
      | timeout =>
          unfold Joining.timeout at none_
          split at none_ <;> cases none_
      | notifyProxy | resume => cases none_
      | leaveQueue | signal | pop | notifyOther => exact ih none_

theorem intact_of_spared {counters : Nat → Int}
    (reachable : (system listed counters).ReachableBy Spared s) : s.corrupted = false := by
  induction reachable with
  | init => rfl
  | @step s t action before spared next ih =>
      have steps := steps_of_step next
      cases action with
      | waitAll handler timed =>
          cases steps with
          | waitAll fresh =>
              have living := fresh_of_reachable before.reachable fresh
              simp [waitAll_corrupted s handler timed living, ih, spared]
      | _ => exact (steps.memory (by simp)).2.trans ih

/-- The await joins exactly in a run whose `wait_all` spares the state; the step of another one
writes to the deleted state. -/
theorem wait_all_joins (listed : List Nat) (counters : Nat → Int) :
    (∀ s, (system listed counters).ReachableBy Spared s → s.JoinsExactly) ∧
    ∀ s action t, (system listed counters).Reachable s → ¬ s.Spared action →
      step s action = some t → ¬ t.JoinsExactly := by
  constructor
  · intro s reachable
    exact joinsExactly_of_joined (joined_of_reachable reachable.reachable)
      (intact_of_spared reachable)
  · intro s action t reachable unspared next joins
    cases action with
    | waitAll handler timed =>
        cases steps_of_step next with
        | waitAll fresh =>
            have living := fresh_of_reachable reachable fresh
            have intact := joins.intact
            rw [waitAll_corrupted s handler timed living, decide_eq_false unspared] at intact
            simp at intact
    | _ => exact unspared trivial

/-- Two events, one with a token: the other one's signal comes before the time-out. With a token
on both there has to be a timer. -/
theorem wait_all_joins_signaled :
    (∃ s, (system [0, 1] fun e => if e = 0 then 1 else 0).ReachableBy Spared s ∧
      s.results = [true] ∧ s.JoinsExactly) ∧
    ∃ t, step (system [0, 1] fun _ => 1).init (.waitAll 7 false) = some t ∧ ¬ t.JoinsExactly := by
  constructor
  · obtain ⟨s, reachable, results⟩ :=
      (system [0, 1] fun e => if e = 0 then 1 else 0).reachableBy_of_replay Spared
        [.waitAll 7 true, .signal 1 false, .pop 1, .notify 1 false, .resume]
        (fun s => s.results == [true]) (by decide)
    exact ⟨s, reachable, by simpa using results, (wait_all_joins _ _).1 s reachable⟩
  · exact ⟨_, rfl, (wait_all_joins [0, 1] fun _ => 1).2 _ (.waitAll 7 false) _ .init
      (by decide) rfl⟩

theorem joined_after_release :
    ¬ ∀ s, (system [0] fun _ => 1).Reachable s → s.JoinsExactly := by
  intro joins
  obtain ⟨s, reachable, corrupted⟩ := (system [0] fun _ => 1).reachable_of_replay
    [.waitAll 7 false] (fun s => s.corrupted) (by decide)
  have intact := (joins s reachable).intact
  rw [corrupted] at intact
  cases intact

end Joining

end Librf
