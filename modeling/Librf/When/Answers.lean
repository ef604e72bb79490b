import Librf.When.Future

/-!
# The answers of `when_all` and `when_any`

Each child ends with a value, after the awaiting coroutine has suspended. The connectors run in any
order.
-/

namespace Librf

def Connector.isStored {α : Type*} : Connector α → Bool
  | stored => true
  | notified => true
  | _ => false

namespace WhenFuture

open When (Accounted Awaited startCounter)

variable {α ε : Type*} {w t : WhenFuture α ε} {kind : WhenKind} {size i : Nat} {isVoid : Nat → Bool}
  {v : Nat → α}

theorem Advanced.connector (advanced : Advanced w i t) :
    ∃ u, w.advanceConnector i = some u ∧ t.toWhen = { u with values := t.values } ∧
      t.values.first = u.values.first := by
  cases advanced with
  | storeElement x all returned =>
      refine ⟨{ w.setConnector i .stored with values := { w.values with
        values := Function.update w.values.values i (some x) } }, ?_, rfl, rfl⟩
      unfold When.advanceConnector
      rw [all, returned]
  | claim x any returned first =>
      refine ⟨{ w.setConnector i (.claimed x) with values := { w.values with first := i } }, ?_, rfl,
        rfl⟩
      unfold When.advanceConnector
      rw [any, returned]
      exact if_pos first
  | beaten x any returned first =>
      refine ⟨(w.setConnector i .beaten).settle i (.value ()), ?_, rfl, rfl⟩
      unfold When.advanceConnector
      rw [any, returned]
      exact if_neg first
  | storeSecond x any claimed =>
      refine ⟨{ w.setConnector i .stored with values := { w.values with second := some x } }, ?_, rfl,
        rfl⟩
      unfold When.advanceConnector
      rw [any, claimed]
  | notify stored =>
      refine ⟨(w.notifyOne.setConnector i .notified).settle i (.value ()), ?_, rfl, rfl⟩
      unfold When.advanceConnector
      rw [stored]
      cases w.kind <;> rfl

theorem step_counted (accounted : Accounted kind size w.toWhen) (awaited : Awaited w.toWhen)
    {action : WhenFutureAction α ε} (h : w.step action = some t) :
    Accounted kind size t.toWhen ∧ Awaited t.toWhen := by
  have plain : ∀ {action : WhenAction α ε} {u}, w.toWhen.step action = some u →
      t = { w with toWhen := u } → Accounted kind size t.toWhen ∧ Awaited t.toWhen := by
    rintro action u done rfl
    exact When.step_keeps accounted awaited done
  cases action with
  | step action =>
      cases action with
      | advance i =>
          obtain ⟨u, done, same, first⟩ := (advanced_of_advance h).connector
          have action : w.toWhen.step (.advance i) = some u := done
          obtain ⟨accounted', awaited'⟩ := When.step_keeps accounted awaited action
          rw [same]
          exact ⟨accounted'.of_same rfl rfl rfl rfl first rfl, awaited'.of_same rfl rfl rfl rfl⟩
      | _ =>
          obtain ⟨u, done, same⟩ := Option.map_eq_some_iff.1 h
          exact plain done same.symm
  | awaitResume =>
      simp only [step] at h
      split at h
      · cases h
        exact ⟨accounted.of_same rfl rfl rfl rfl rfl rfl, awaited.of_same rfl rfl rfl rfl⟩
      · cases h

theorem counted {allowed : WhenFuture α ε → WhenFutureAction α ε → Prop}
    (reachable : (system α ε kind size isVoid).ReachableBy allowed w) :
    Accounted kind size w.toWhen ∧ Awaited w.toWhen :=
  Transition.System.Inductive.holds
    (I := fun w : WhenFuture α ε => Accounted kind size w.toWhen ∧ Awaited w.toWhen)
    ⟨⟨.initial, .initial⟩, fun _ _ _ _ known _ h => step_counted known.1 known.2 h⟩ reachable

/-! ## Values -/

theorem update_same (f : Connector α → Bool) (connectors : Nat → Connector α) {c : Connector α}
    (same : f c = f (connectors i)) (j : Nat) :
    f (Function.update connectors i c j) = f (connectors j) := by
  rcases eq_or_ne j i with rfl | other
  · rw [Function.update_self, same]
  · rw [Function.update_of_ne other]

/-- What is at the place of child `i` behind its connector's store. -/
def answer (isVoid : Nat → Bool) (v : Nat → α) (i : Nat) : Option α :=
  if isVoid i then none else some (v i)

structure Answering (v : Nat → α) (w : WhenFuture α ε) : Prop where
  early : w.place ≠ .suspended → w.place ≠ .arrived → ∀ i, w.connectors i = .awaiting
  outcome : ∀ i o, w.outcomes i = some o → o = .value (v i)
  held : ∀ i x, w.connectors i = .returned x ∨ w.connectors i = .claimed x → x = v i
  scheduled : w.scheduled.length =
    if startCounter w.kind w.size ≠ 0 ∧ w.state.counter = 0 then 1 else 0
  kept : w.missed = false
  elements : w.kind = .all → w.received = none → ∀ i, w.values.values i =
    if (w.connectors i).isStored then answer w.isVoid v i else none
  index : w.kind = .any → ∀ i, (w.connectors i).isWinner = true → w.values.first = i
  second : w.kind = .any → w.received = none → ∀ i, (w.connectors i).isStored = true →
    w.values.second = answer w.isVoid v i
  empty : w.kind = .any → w.received = none → (∀ i, (w.connectors i).isStored = false) →
    w.values.second = none
  taken : ∀ r, w.received = some r → w.place = .arrived ∧
    (w.kind = .all → ∀ i < w.size, r.values i = answer w.isVoid v i) ∧
    (w.kind = .any → 0 < w.size → ∃ i < w.size, w.connectors i = .notified ∧ r.first = i ∧
      r.second = answer w.isVoid v i)

theorem Answering.initial : Answering v (initial α ε kind size isVoid) := by
  constructor
  case scheduled =>
    change 0 = _
    rw [if_neg]
    rintro ⟨nonempty, zero⟩
    have same : startCounter kind size = 0 := by
      cases kind
      · exact zero
      · exact zero
    exact nonempty same
  all_goals simp [WhenFuture.initial, When.initial, Connector.isStored, Connector.isWinner]

theorem Answering.of_same (h : Answering v w) {u : When α ε} (kind : u.kind = w.kind)
    (size : u.size = w.size) (counter : u.state.counter = w.state.counter)
    (values : u.values = w.values) (connectors : u.connectors = w.connectors)
    (outcomes : u.outcomes = w.outcomes) (missed : u.missed = w.missed)
    (place : u.place ≠ .suspended → u.place ≠ .arrived → w.place ≠ .suspended ∧ w.place ≠ .arrived)
    (arrived : w.place = .arrived → u.place = .arrived) :
    Answering v { w with toWhen := u } := by
  obtain ⟨early, outcome, held, scheduled, kept, elements, index, second, empty, taken⟩ := h
  constructor
  · intro outside apart
    obtain ⟨outside', apart'⟩ := place outside apart
    simpa only [connectors] using early outside' apart'
  · simpa only [outcomes] using outcome
  · simpa only [connectors] using held
  · simpa only [kind, size, counter] using scheduled
  · exact missed.trans kept
  · simpa only [kind, values, connectors] using elements
  · simpa only [kind, values, connectors] using index
  · simpa only [kind, values, connectors] using second
  · simpa only [kind, values, connectors] using empty
  · intro r received
    obtain ⟨there, all, any⟩ := taken r received
    exact ⟨arrived there, by simpa only [kind, size] using all,
      by simpa only [kind, size, connectors] using any⟩

theorem Answering.finish (h : Answering v w) {o : Outcome α ε} (before : w.connectors i = .awaiting)
    (value : o = .value (v i)) (late : w.place = .suspended ∨ w.place = .arrived) :
    Answering v { w with toWhen := w.finishChild i o } := by
  subst value
  obtain ⟨early, outcome, held, scheduled, kept, elements, index, second, empty, taken⟩ := h
  have connectors : (w.finishChild i (.value (v i))).connectors =
      Function.update w.connectors i (.returned (v i)) := rfl
  have outcomes : (w.finishChild i (.value (v i))).outcomes =
      Function.update w.outcomes i (some (.value (v i))) := rfl
  -- Neither before nor after the step has the connector won or stored anything.
  have won : ∀ j, ((w.finishChild i (.value (v i))).connectors j).isWinner =
      (w.connectors j).isWinner :=
    update_same Connector.isWinner w.connectors (by rw [before]; rfl)
  have stored : ∀ j, ((w.finishChild i (.value (v i))).connectors j).isStored =
      (w.connectors j).isStored :=
    update_same Connector.isStored w.connectors (by rw [before]; rfl)
  constructor
  · intro outside apart
    rcases late with there | there
    · exact absurd there outside
    · exact absurd there apart
  · intro j o known
    dsimp only at known
    rw [outcomes] at known
    rcases eq_or_ne j i with rfl | other
    · rw [Function.update_self] at known
      exact (Option.some.inj known).symm
    · rw [Function.update_of_ne other] at known
      exact outcome j o known
  · intro j x known
    dsimp only at known
    rw [connectors] at known
    rcases eq_or_ne j i with rfl | other
    · rw [Function.update_self] at known
      rcases known with known | known
      · cases known
        rfl
      · cases known
    · rw [Function.update_of_ne other] at known
      exact held j x known
  · exact scheduled
  · exact kept
  · simp only [stored]
    exact elements
  · simp only [won]
    exact index
  · simp only [stored]
    exact second
  · simp only [stored]
    exact empty
  · intro r received
    obtain ⟨there, all, any⟩ := taken r received
    refine ⟨there, all, fun kind nonempty => ?_⟩
    obtain ⟨j, inside, notified, first, second'⟩ := any kind nonempty
    have other : j ≠ i := by
      rintro rfl
      cases before.symm.trans notified
    refine ⟨j, inside, ?_, first, second'⟩
    dsimp only
    rw [connectors, Function.update_of_ne other]
    exact notified

theorem Answering.update (h : Answering v w) {c : Connector α} (running : w.connectors i ≠ .awaiting)
    (open_ : w.connectors i ≠ .notified) (kind : t.kind = w.kind) (size : t.size = w.size)
    (connectors : t.connectors = Function.update w.connectors i c)
    (outcomes : t.outcomes = w.outcomes) (place : t.place = w.place) (isVoid : t.isVoid = w.isVoid)
    (received : t.received = w.received) (held : ∀ x, c = .returned x ∨ c = .claimed x → x = v i)
    (scheduled : t.scheduled.length =
      if startCounter w.kind w.size ≠ 0 ∧ t.state.counter = 0 then 1 else 0)
    (kept : t.missed = false)
    (elements : w.kind = .all → w.received = none →
      (∀ j, j ≠ i → t.values.values j = w.values.values j) ∧
        t.values.values i = if c.isStored then answer w.isVoid v i else none)
    (index : w.kind = .any → ∀ j, (t.connectors j).isWinner = true → t.values.first = j)
    (second : w.kind = .any → w.received = none → ∀ j, (t.connectors j).isStored = true →
      t.values.second = answer w.isVoid v j)
    (empty : w.kind = .any → w.received = none → (∀ j, (t.connectors j).isStored = false) →
      t.values.second = none) : Answering v t := by
  constructor
  · intro outside apart
    rw [place] at outside apart
    exact absurd (h.early outside apart i) running
  · simpa only [outcomes] using h.outcome
  · intro j x known
    rw [connectors] at known
    rcases eq_or_ne j i with rfl | other
    · rw [Function.update_self] at known
      exact held x known
    · rw [Function.update_of_ne other] at known
      exact h.held j x known
  · rw [kind, size]
    exact scheduled
  · exact kept
  · intro all none j
    rw [kind] at all
    rw [received] at none
    obtain ⟨others, self⟩ := elements all none
    rw [connectors, isVoid]
    rcases eq_or_ne j i with rfl | other
    · rw [Function.update_self]
      exact self
    · rw [Function.update_of_ne other, others j other]
      exact h.elements all none j
  · rw [kind]
    exact index
  · rw [kind, received, isVoid]
    exact second
  · rw [kind, received]
    exact empty
  · intro r known
    rw [received] at known
    obtain ⟨there, all, any⟩ := h.taken r known
    rw [kind, size, isVoid, place]
    refine ⟨there, all, fun any_ nonempty => ?_⟩
    obtain ⟨j, inside, notified, first, second'⟩ := any any_ nonempty
    have other : j ≠ i := by
      rintro rfl
      exact open_ notified
    rw [connectors]
    exact ⟨j, inside, by rw [Function.update_of_ne other, notified], first, second'⟩

theorem isWinner_of_isStored {c : Connector α} (stored : c.isStored = true) :
    c.isWinner = true := by
  cases c <;> first | rfl | cases stored

theorem Answering.place_of_stored (h : Answering v w) (accounted : Accounted kind size w.toWhen)
    (awaited : Awaited w.toWhen) (stored : w.connectors i = .stored) : w.place = .suspended := by
  have positive := accounted.counter_pos stored
  by_contra outside
  have arrived : w.place ≠ .arrived := by
    intro arrived
    have zero := (awaited.arrived arrived).1
    omega
  have idle := h.early outside arrived i
  simp [stored] at idle

theorem Answering.notify_scheduled (h : Answering v w) (accounted : Accounted kind size w.toWhen)
    (awaited : Awaited w.toWhen) (stored : w.connectors i = .stored) :
    (w.scheduled ++ w.state.onNotifyOne.2.2.toList).length =
      if startCounter w.kind w.size ≠ 0 ∧ w.state.onNotifyOne.1.counter = 0 then 1 else 0 := by
  have positive := accounted.counter_pos stored
  have inside : i < size := accounted.lt_size (by simp [stored])
  have counted : startCounter w.kind w.size ≠ 0 := by
    rw [accounted.kind_eq, accounted.size_eq]
    cases kind <;> simp only [startCounter]
    · omega
    · rw [if_neg (by omega)]
      decide
  have none_yet : w.scheduled.length = 0 := by
    rw [h.scheduled, if_neg]
    rintro ⟨-, zero⟩
    omega
  have there := h.place_of_stored accounted awaited stored
  obtain ⟨coro, -⟩ := awaited.suspended there
  obtain ⟨sch, scheduler⟩ := Option.isSome_iff_exists.1 (awaited.halfway (.inr there))
  rw [List.length_append, none_yet, Nat.zero_add]
  by_cases last : w.state.counter = 1
  · simp [WhenState.onNotifyOne, last, coro, scheduler, counted]
  · have more : w.state.counter - 1 ≠ 0 := by omega
    simp [WhenState.onNotifyOne, last, more]

theorem Answering.storeElement (h : Answering v w) {x : α} (all : w.kind = .all)
    (returned : w.connectors i = .returned x) : Answering v { w with
      connectors := Function.update w.connectors i .stored
      values := { w.values with
        values := Function.update w.values.values i (w.written i x (w.values.values i)) } } := by
  have not_any : w.kind ≠ .any := by simp [all]
  refine h.update (by simp [returned]) (by simp [returned]) rfl rfl rfl rfl rfl rfl rfl (by simp)
    h.scheduled h.kept ?_ (fun any => absurd any not_any) (fun any => absurd any not_any)
    (fun any => absurd any not_any)
  intro _ none
  refine ⟨fun j other => Function.update_of_ne other .., (Function.update_self ..).trans ?_⟩
  have before := h.elements all none i
  have value := h.held i x (.inl returned)
  simp only [returned, Connector.isStored, Bool.false_eq_true, if_false] at before
  simp [written, before, value, answer, Connector.isStored]

theorem Answering.claim (h : Answering v w) (accounted : Accounted kind size w.toWhen) {x : α}
    (any : w.kind = .any) (returned : w.connectors i = .returned x) (first : w.values.first = -1) :
    Answering v { w with
      connectors := Function.update w.connectors i (.claimed x)
      values := { w.values with first := i } } := by
  have nobody := fun j => (accounted.any_open (accounted.kind_eq ▸ any) first j).1
  have unstored : ∀ j, (w.connectors j).isStored = false := by
    intro j
    by_contra stored
    have won := isWinner_of_isStored (Bool.eq_true_of_not_eq_false stored)
    rw [nobody j] at won
    cases won
  have value := h.held i x (.inl returned)
  refine h.update (by simp [returned]) (by simp [returned]) rfl rfl rfl rfl rfl rfl rfl
    (by simp [value]) h.scheduled h.kept (by simp [any]) ?_ ?_ (fun _ none _ => h.empty any none unstored)
  · intro _ j won
    rcases eq_or_ne j i with rfl | other
    · rfl
    · simp only [Function.update_of_ne other, nobody j] at won
      cases won
  · intro _ _ j stored
    rcases eq_or_ne j i with rfl | other
    · simp [Connector.isStored] at stored
    · simp only [Function.update_of_ne other, unstored j] at stored
      cases stored

theorem Answering.beaten (h : Answering v w) {x : α} (any : w.kind = .any)
    (returned : w.connectors i = .returned x) :
    Answering v { w with toWhen := (w.setConnector i .beaten).settle i (.value ()) } := by
  have same_won := update_same (c := .beaten) Connector.isWinner w.connectors (by rw [returned]; rfl)
  have same_stored := update_same (c := .beaten) Connector.isStored w.connectors (by rw [returned]; rfl)
  refine h.update (c := .beaten) (by simp [returned]) (by simp [returned]) rfl rfl rfl rfl rfl rfl
    rfl (by simp) h.scheduled h.kept (by simp [any]) ?_ ?_ ?_
  · intro _ j won
    exact h.index any j ((same_won j).symm.trans won)
  · intro _ none j stored
    exact h.second any none j ((same_stored j).symm.trans stored)
  · intro _ none unstored
    exact h.empty any none fun j => (same_stored j).symm.trans (unstored j)

theorem Answering.storeSecond (h : Answering v w) (accounted : Accounted kind size w.toWhen) {x : α}
    (any : w.kind = .any) (claimed : w.connectors i = .claimed x) : Answering v { w with
      connectors := Function.update w.connectors i .stored
      values := { w.values with second := w.written i x w.values.second } } := by
  have alone := (accounted.only_winner (accounted.kind_eq ▸ any) (i := i)
    (by simp [claimed, Connector.isWinner])).2
  have unstored : ∀ j, (w.connectors j).isStored = false := by
    intro j
    by_contra stored
    have won := isWinner_of_isStored (Bool.eq_true_of_not_eq_false stored)
    rcases eq_or_ne j i with rfl | other
    · simp [claimed, Connector.isStored] at stored
    · rw [alone j other] at won
      cases won
  have value := h.held i x (.inr claimed)
  refine h.update (by simp [claimed]) (by simp [claimed]) rfl rfl rfl rfl rfl rfl rfl (by simp)
    h.scheduled h.kept (by simp [any]) ?_ ?_ ?_
  · intro _ j won
    rcases eq_or_ne j i with rfl | other
    · exact h.index any j (by simp [claimed, Connector.isWinner])
    · simp only [Function.update_of_ne other, alone j other] at won
      cases won
  · intro _ none j stored
    rcases eq_or_ne j i with rfl | other
    · simp [written, h.empty any none unstored, value, answer]
    · simp only [Function.update_of_ne other, unstored j] at stored
      cases stored
  · intro _ _ none_stored
    have self := none_stored i
    simp [Connector.isStored] at self

theorem Answering.notify (h : Answering v w) (accounted : Accounted kind size w.toWhen)
    (awaited : Awaited w.toWhen) (stored : w.connectors i = .stored) : Answering v { w with
      toWhen := (w.notifyOne.setConnector i .notified).settle i (.value ())
      scheduled := w.scheduled ++ w.state.onNotifyOne.2.2.toList } := by
  have same_won := update_same (c := .notified) Connector.isWinner w.connectors (by rw [stored]; rfl)
  have same_stored := update_same (c := .notified) Connector.isStored w.connectors (by rw [stored]; rfl)
  refine h.update (c := .notified) (by simp [stored]) (by simp [stored]) rfl rfl rfl rfl rfl rfl rfl
    (by simp) (h.notify_scheduled accounted awaited stored)
    (by simp [When.settle, When.setConnector, When.notifyOne, h.kept,
      h.place_of_stored accounted awaited stored]) ?_ ?_ ?_ ?_
  · intro all none
    refine ⟨fun _ _ => rfl, ?_⟩
    have before := h.elements all none i
    simp only [stored, Connector.isStored, if_true] at before
    change w.values.values i = _
    rw [before]
    rfl
  · intro any j won
    exact h.index any j ((same_won j).symm.trans won)
  · intro any none j stored
    exact h.second any none j ((same_stored j).symm.trans stored)
  · intro any none unstored
    exact h.empty any none fun j => (same_stored j).symm.trans (unstored j)

theorem Answering.advance (h : Answering v w) (accounted : Accounted kind size w.toWhen)
    (awaited : Awaited w.toWhen) (advanced : Advanced w i t) : Answering v t := by
  cases advanced with
  | storeElement x all returned => exact h.storeElement all returned
  | claim x any returned first => exact h.claim accounted any returned first
  | beaten x any returned first => exact h.beaten any returned
  | storeSecond x any claimed => exact h.storeSecond accounted any claimed
  | notify stored => exact h.notify accounted awaited stored

theorem Answering.awaitResume (h : Answering v w) (accounted : Accounted kind size w.toWhen)
    (awaited : Awaited w.toWhen) (arrived : w.place = .arrived) (none : w.received = none) :
    Answering v { w with values := w.values.movedFrom, received := some w.values } := by
  have zero := (awaited.arrived arrived).1
  have counter := accounted.counter
  rw [zero, Int.zero_add] at counter
  obtain ⟨early, outcome, held, scheduled, kept, elements, index, second, empty, -⟩ := h
  refine ⟨early, outcome, held, scheduled, kept, by simp, index, by simp, by simp, ?_⟩
  intro r received
  cases received
  refine ⟨arrived, fun all j inside => ?_, fun any nonempty => ?_⟩
  · have notified : (w.connectors j).isNotified = true := by
      by_contra running
      have fewer : w.notifiedCount < w.size :=
        When.notifiedCount_lt inside (Bool.eq_false_of_not_eq_true running)
      rw [← accounted.kind_eq, ← accounted.size_eq, all] at counter
      simp only [startCounter] at counter
      omega
    have stored : (w.connectors j).isStored = true := by
      revert notified
      cases w.connectors j <;> simp [Connector.isNotified, Connector.isStored]
    rw [elements all none j, if_pos stored]
  · have some_ : w.notifiedCount ≠ 0 := by
      rw [← accounted.kind_eq, ← accounted.size_eq, any] at counter
      simp only [startCounter, if_neg (Nat.pos_iff_ne_zero.1 nonempty)] at counter
      omega
    rw [When.notifiedCount, Finset.card_ne_zero] at some_
    obtain ⟨j, member⟩ := some_
    rw [Finset.mem_filter, Finset.mem_range] at member
    obtain ⟨inside, notified⟩ := member
    have notified : w.connectors j = .notified := by
      revert notified
      cases w.connectors j <;> simp [Connector.isNotified]
    exact ⟨j, inside, notified, index any j (by simp [notified, Connector.isWinner]),
      second any none j (by simp [notified, Connector.isStored])⟩

theorem Answering.step (h : Answering v w) (accounted : Accounted kind size w.toWhen)
    (awaited : Awaited w.toWhen) {action : WhenFutureAction α ε} (late : Late v w action)
    (action_ : w.step action = some t) : Answering v t := by
  cases action with
  | awaitResume =>
      simp only [WhenFuture.step] at action_
      split at action_
      · rename_i arrived none
        cases action_
        exact h.awaitResume accounted awaited arrived none
      · cases action_
  | step action =>
      cases action with
      | advance i => exact h.advance accounted awaited (advanced_of_advance action_)
      | finish i o =>
          obtain ⟨u, done, rfl⟩ := Option.map_eq_some_iff.1 action_
          obtain ⟨value, there⟩ := late
          cases When.effect_of_step done with
          | finish before => exact h.finish before value there
      | transform sch =>
          obtain ⟨u, done, rfl⟩ := Option.map_eq_some_iff.1 action_
          cases When.effect_of_step done with
          | transform place =>
              exact h.of_same rfl rfl rfl rfl rfl rfl rfl (by simp [place]) (by simp [place])
      | test =>
          obtain ⟨u, done, rfl⟩ := Option.map_eq_some_iff.1 action_
          cases When.effect_of_step done with
          | test place =>
              exact h.of_same rfl rfl rfl rfl rfl rfl rfl (by simp [place]) (by simp [place])
      | storeScheduler sch =>
          obtain ⟨u, done, rfl⟩ := Option.map_eq_some_iff.1 action_
          cases When.effect_of_step done with
          | storeScheduler place =>
              exact h.of_same rfl rfl rfl rfl rfl rfl rfl (by simp [place]) (by simp [place])
      | storeCoro handler =>
          obtain ⟨u, done, rfl⟩ := Option.map_eq_some_iff.1 action_
          cases When.effect_of_step done with
          | storeCoro place =>
              exact h.of_same rfl rfl rfl rfl rfl rfl rfl (by simp) (by simp [place])
      | resume =>
          obtain ⟨u, done, rfl⟩ := Option.map_eq_some_iff.1 action_
          cases When.effect_of_step done with
          | resume => exact h.of_same rfl rfl rfl rfl rfl rfl rfl (by simp) (by simp)
          | discard =>
              exact h.of_same rfl rfl rfl rfl rfl rfl rfl (fun outside apart => ⟨outside, apart⟩) id

theorem answering (reachable : (system α ε kind size isVoid).ReachableBy (Late v) w) :
    Answering v w := by
  have inductive_ : (system α ε kind size isVoid).Inductive (Late v) (Answering v) := by
    refine ⟨.initial, fun s e t reached known late h => ?_⟩
    obtain ⟨accounted, awaited⟩ := counted reached
    exact known.step accounted awaited late h
  exact inductive_.holds reachable

end WhenFuture

end Librf
