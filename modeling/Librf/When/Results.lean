import Librf.When.Answers

/-!
# The results do not depend on the order of the children
-/

namespace Librf

namespace WhenFuture

open When (Accounted Awaited startCounter)

variable {α ε : Type*} {w t : WhenFuture α ε} {kind : WhenKind} {size i j : Nat}
  {isVoid : Nat → Bool} {v : Nat → α}

structure AllAnswer (v : Nat → α) (w : WhenFuture α ε) : Prop where
  -- without children it does not suspend
  empty : w.size = 0 → w.place = .away ∨ w.place = .transformed ∨ w.place = .arrived
  once : w.scheduled.length ≤ 1
  last : w.scheduled ≠ [] → ∀ i < w.size, w.outcomes i = some (.value (v i))
  -- A connector whose child has ended is not stuck before it has notified.
  goesOn : ∀ i < w.size, w.outcomes i ≠ none → w.connectors i ≠ .notified →
    ∃ t, w.step (.step (.advance i)) = some t
  scheduled : 0 < w.size → (∀ i < w.size, w.connectors i = .notified) → w.scheduled.length = 1 ∧
    (w.place = .suspended → ∃ t, w.step (.step .resume) = some t ∧ t.place = .arrived)
  arrived : 0 < w.size → w.place = .arrived → w.scheduled.length = 1
  received : ∀ r, w.received = some r → ∀ i < w.size, r.values i = answer w.isVoid v i

structure AnyAnswer (v : Nat → α) (w : WhenFuture α ε) : Prop where
  -- of the compare-exchange
  winner : ∀ i j, (w.connectors i).isWinner = true → (w.connectors j).isWinner = true → i = j
  decided : ∀ i, (w.connectors i).isWinner = true ∨ w.connectors i = .beaten →
    ∃ k < w.size, (w.connectors k).isWinner = true ∧ w.values.first = k
  once : w.scheduled.length ≤ 1
  stored : w.scheduled ≠ [] → ∃ i < w.size, w.connectors i = .notified ∧
    w.outcomes i = some (.value (v i)) ∧ w.values.first = i ∧
      (w.received = none → w.values.second = answer w.isVoid v i)
  goesOn : ∀ i < w.size, w.outcomes i ≠ none → (w.connectors i).isEnded = false →
    ∃ t, w.step (.step (.advance i)) = some t
  scheduled : (∀ i < w.size, (w.connectors i).isEnded = true) → w.scheduled.length = 1 ∧
    (w.place = .suspended → ∃ t, w.step (.step .resume) = some t ∧ t.place = .arrived)
  arrived : w.place = .arrived → w.scheduled.length = 1
  received : ∀ r, w.received = some r → ∃ i < w.size, w.connectors i = .notified ∧
    w.outcomes i = some (.value (v i)) ∧ r.first = i ∧ r.second = answer w.isVoid v i
  -- Connectors that come later change nothing.
  kept : ∀ i j t, (w.connectors i).isWinner = true → j ≠ i →
    w.step (.step (.advance j)) = some t → t.values = w.values ∧ t.received = w.received

/-! ## Both -/

theorem Answering.outcome_of_begun (h : Answering v w) (accounted : Accounted kind size w.toWhen)
    (begun : w.connectors i ≠ .awaiting) : w.outcomes i = some (.value (v i)) := by
  cases known : w.outcomes i with
  | none => exact absurd ((accounted.open_ i).2 known) begun
  | some o => rw [h.outcome i o known]

theorem Answering.alive (h : Answering v w) (accounted : Accounted kind size w.toWhen) :
    w.connectors i ≠ .failed := by
  intro failed
  obtain ⟨e, known⟩ := (accounted.failed i).1 failed
  cases h.outcome i _ known

theorem advances (accounted : Accounted kind size w.toWhen)
    (finished : w.outcomes i ≠ none) (open_ : (w.connectors i).isEnded = false) :
    ∃ t, w.step (.step (.advance i)) = some t := by
  have begun : w.connectors i ≠ .awaiting := fun idle => finished ((accounted.open_ i).1 idle)
  have next : ∃ u, w.advanceConnector i = some u := by
    have kind_eq := accounted.kind_eq
    unfold When.advanceConnector
    cases c : w.connectors i with
    | awaiting => exact absurd c begun
    | returned x =>
        cases kind_ : w.kind with
        | all => exact ⟨_, rfl⟩
        | any => exact ⟨_, (apply_ite some _ _ _).symm⟩
    | claimed x =>
        cases kind_ : w.kind with
        | all => exact absurd c ((accounted.all_path (kind_eq.symm.trans kind_) i).2 x)
        | any => exact ⟨_, rfl⟩
    | stored => cases kind_ : w.kind <;> exact ⟨_, rfl⟩
    | _ => simp [c, Connector.isEnded] at open_
  obtain ⟨u, next⟩ := next
  simp only [WhenFuture.step, WhenFuture.advance]
  split
  · exact ⟨_, rfl⟩
  · exact ⟨_, by rw [next]; rfl⟩

theorem Answering.once (h : Answering v w) : w.scheduled.length ≤ 1 := by
  rw [h.scheduled]
  split <;> decide

theorem Answering.counter_of_scheduled (h : Answering v w) (scheduled : w.scheduled ≠ []) :
    startCounter w.kind w.size ≠ 0 ∧ w.state.counter = 0 := by
  by_contra open_
  have none := h.scheduled
  rw [if_neg open_] at none
  exact scheduled (List.eq_nil_of_length_eq_zero none)

theorem Answering.scheduled_of_zero (h : Answering v w) (awaited : Awaited w.toWhen)
    (counted : startCounter w.kind w.size ≠ 0) (zero : w.state.counter = 0) :
    w.scheduled.length = 1 ∧
      (w.place = .suspended → ∃ t, w.step (.step .resume) = some t ∧ t.place = .arrived) := by
  refine ⟨by rw [h.scheduled, if_pos ⟨counted, zero⟩], fun there => ?_⟩
  obtain ⟨coro, -, length⟩ := awaited.suspended there
  rw [if_pos ⟨h.kept, zero⟩] at length
  obtain ⟨sch, queue⟩ := List.length_eq_one_iff.1 length
  simp [WhenFuture.step, When.step, queue, coro]

def Entered (w : When α ε) : Prop :=
  w.place = .unready ∨ w.place = .halfway ∨ w.place = .suspended

theorem entered_of_step (accounted : Accounted kind size w.toWhen) (awaited : Awaited w.toWhen)
    {action : WhenFutureAction α ε} (h : w.step action = some t) (entered : Entered t.toWhen) :
    Entered w.toWhen ∨ startCounter kind size ≠ 0 := by
  unfold Entered at entered ⊢
  cases action with
  | awaitResume =>
      simp only [step] at h
      split at h
      · cases h
        exact .inl entered
      · cases h
  | step action =>
      cases action with
      | advance i =>
          obtain ⟨u, done, same, -⟩ := (advanced_of_advance h).connector
          rw [same] at entered
          dsimp only at entered
          rw [(When.advanceConnector_frame done).1] at entered
          exact .inl entered
      | finish i o =>
          obtain ⟨u, done, rfl⟩ := Option.map_eq_some_iff.1 h
          cases When.effect_of_step done with
          | finish => cases o <;> exact .inl entered
      | transform sch =>
          obtain ⟨u, done, rfl⟩ := Option.map_eq_some_iff.1 h
          cases When.effect_of_step done with
          | transform => simp at entered
      | test =>
          obtain ⟨u, done, rfl⟩ := Option.map_eq_some_iff.1 h
          cases When.effect_of_step done with
          | test =>
              right
              have counter := accounted.counter
              have nonneg := awaited.nonneg
              by_cases zero : w.state.counter = 0
              · simp [WhenState.awaitReady, zero] at entered
              · omega
      | storeScheduler sch =>
          obtain ⟨u, done, rfl⟩ := Option.map_eq_some_iff.1 h
          cases When.effect_of_step done with
          | storeScheduler unready => exact .inl (.inl unready)
      | storeCoro handler =>
          obtain ⟨u, done, rfl⟩ := Option.map_eq_some_iff.1 h
          cases When.effect_of_step done with
          | storeCoro halfway => exact .inl (.inr (.inl halfway))
      | resume =>
          obtain ⟨u, done, rfl⟩ := Option.map_eq_some_iff.1 h
          cases When.effect_of_step done with
          | resume => simp at entered
          | discard => exact .inl entered

theorem counter_of_entered {allowed : WhenFuture α ε → WhenFutureAction α ε → Prop}
    (reachable : (system α ε kind size isVoid).ReachableBy allowed w) (entered : Entered w.toWhen) :
    startCounter kind size ≠ 0 := by
  have inductive_ : (system α ε kind size isVoid).Inductive allowed
      fun w => Entered w.toWhen → startCounter kind size ≠ 0 := by
    constructor
    · simp [Entered, system, initial, When.initial]
    · intro s e t reached known _ h entered
      obtain ⟨accounted, awaited⟩ := counted reached
      rcases entered_of_step accounted awaited h entered with before | nonempty
      · exact known before
      · exact nonempty
  exact inductive_.holds reachable entered

/-! ## `when_all` -/

theorem when_all_answers (reachable : (system α ε .all size isVoid).ReachableBy (Late v) w) :
    w.AllAnswer v := by
  obtain ⟨accounted, awaited⟩ := counted reachable
  have h := answering reachable
  have size_eq := accounted.size_eq
  have kind_eq := accounted.kind_eq
  have start : startCounter w.kind w.size = w.size := by rw [kind_eq]; rfl
  have counter := accounted.counter
  simp only [startCounter] at counter
  constructor
  · intro none
    by_contra outside
    apply counter_of_entered reachable (w := w)
    · unfold Entered
      revert outside
      cases w.place <;> simp
    · change (size : Int) = 0
      omega
  · exact h.once
  · intro scheduled i inside
    obtain ⟨-, zero⟩ := h.counter_of_scheduled scheduled
    have notified : (w.connectors i).isNotified = true := by
      by_contra running
      have fewer := When.notifiedCount_lt inside (Bool.eq_false_of_not_eq_true running)
      omega
    apply h.outcome_of_begun accounted
    intro idle
    simp [idle, Connector.isNotified] at notified
  · intro i inside finished open_
    refine advances accounted finished ?_
    have alive := h.alive accounted (i := i)
    have unbeaten := (accounted.all_path rfl i).1
    revert open_ alive unbeaten
    cases w.connectors i <;> simp [Connector.isEnded]
  · intro nonempty all
    have full := When.notifiedCount_eq_size (w := w.toWhen) fun i inside => by
      rw [all i inside]
      rfl
    refine h.scheduled_of_zero awaited ?_ ?_
    · rw [start]
      omega
    · omega
  · intro nonempty there
    refine (h.scheduled_of_zero awaited ?_ (awaited.arrived there).1).1
    rw [start]
    omega
  · exact fun r received => (h.taken r received).2.1 kind_eq

/-- The second child is `void` and ends first. -/
theorem when_all_answers_void : ∃ w : WhenFuture Nat Nat,
    w.received.map (fun r => (r.values 0, r.values 1)) = some (some 7, none) ∧
      w.AllAnswer fun _ => 7 := by
  have start : (system Nat Nat .all 2 (· == 1)).ReachableBy (Late fun _ => 7) _ := .init
  have suspended := (((start.next (.step (.transform 0)) rfl trivial).next (.step .test) rfl
    trivial).next (.step (.storeScheduler 0)) rfl trivial).next (.step (.storeCoro 9)) rfl trivial
  have finished := (suspended.next (.step (.finish 1 (.value 7))) rfl ⟨rfl, .inl rfl⟩).next
    (.step (.finish 0 (.value 7))) rfl ⟨rfl, .inl rfl⟩
  have notified := (((finished.next (.step (.advance 1)) rfl trivial).next (.step (.advance 1)) rfl
    trivial).next (.step (.advance 0)) rfl trivial).next (.step (.advance 0)) rfl trivial
  have received := (notified.next (.step .resume) rfl trivial).next .awaitResume rfl trivial
  exact ⟨_, rfl, when_all_answers received⟩

/-! ## `when_any` -/

theorem advance_kept (accounted : Accounted .any size w.toWhen)
    (won : (w.connectors i).isWinner = true) (other : j ≠ i) (advanced : Advanced w j t) :
    t.values = w.values ∧ t.received = w.received := by
  obtain ⟨claimed, alone⟩ := accounted.only_winner rfl won
  have loser := alone j other
  cases advanced with
  | storeElement x all returned => cases all.symm.trans accounted.kind_eq
  | claim x any returned first => exact absurd first claimed
  | beaten x any returned first => exact ⟨rfl, rfl⟩
  | storeSecond x any claimed => simp [claimed, Connector.isWinner] at loser
  | notify stored => simp [stored, Connector.isWinner] at loser

theorem notified_of_zero (accounted : Accounted .any size w.toWhen) (nonempty : 0 < size)
    (zero : w.state.counter = 0) : ∃ i < w.size, w.connectors i = .notified := by
  have counter := accounted.counter
  simp only [startCounter, if_neg (Nat.pos_iff_ne_zero.1 nonempty)] at counter
  have some_ : w.notifiedCount ≠ 0 := by omega
  rw [When.notifiedCount, Finset.card_ne_zero] at some_
  obtain ⟨i, member⟩ := some_
  rw [Finset.mem_filter, Finset.mem_range] at member
  refine ⟨i, member.1, ?_⟩
  have notified := member.2
  revert notified
  cases w.connectors i <;> simp [Connector.isNotified]

theorem when_any_answers (nonempty : 0 < size)
    (reachable : (system α ε .any size isVoid).ReachableBy (Late v) w) : w.AnyAnswer v := by
  obtain ⟨accounted, awaited⟩ := counted reachable
  have h := answering reachable
  have size_eq := accounted.size_eq
  have kind_eq := accounted.kind_eq
  have start : startCounter w.kind w.size ≠ 0 := by
    rw [kind_eq, size_eq]
    simp only [startCounter, if_neg (Nat.pos_iff_ne_zero.1 nonempty)]
    decide
  constructor
  · intro i j won won'
    by_contra other
    have loser := (accounted.only_winner rfl won).2 j (Ne.symm other)
    rw [won'] at loser
    cases loser
  · intro i passed
    have claimed : w.values.first ≠ -1 := by
      intro first
      obtain ⟨loser, unbeaten⟩ := accounted.any_open rfl first i
      rcases passed with won | beaten
      · rw [won] at loser
        cases loser
      · exact unbeaten beaten
    obtain ⟨k, inside, won, -⟩ := accounted.any_won rfl claimed
    exact ⟨k, size_eq ▸ inside, won, h.index kind_eq k won⟩
  · exact h.once
  · intro scheduled
    obtain ⟨i, inside, notified⟩ :=
      notified_of_zero accounted nonempty (h.counter_of_scheduled scheduled).2
    exact ⟨i, inside, notified, h.outcome_of_begun accounted (by simp [notified]),
      h.index kind_eq i (by simp [notified, Connector.isWinner]),
      fun none => h.second kind_eq none i (by simp [notified, Connector.isStored])⟩
  · exact fun i _ finished open_ => advances accounted finished open_
  · intro ended
    refine h.scheduled_of_zero awaited start ?_
    rw [accounted.counter_zero_iff nonempty fun i inside => ended i (size_eq ▸ inside),
      When.Succeeded, kind_eq]
    have first := ended 0 (size_eq ▸ nonempty)
    refine ⟨0, size_eq ▸ nonempty, v 0, h.outcome_of_begun accounted ?_⟩
    intro idle
    simp [idle, Connector.isEnded] at first
  · exact fun there => (h.scheduled_of_zero awaited start (awaited.arrived there).1).1
  · intro r received
    obtain ⟨i, inside, notified, first, second⟩ :=
      (h.taken r received).2.2 kind_eq (size_eq ▸ nonempty)
    exact ⟨i, inside, notified, h.outcome_of_begun accounted (by simp [notified]), first, second⟩
  · exact fun i j t won other action =>
      advance_kept accounted won other (advanced_of_advance action)

/-- The second child wins while the first one is about to try. -/
theorem when_any_answers_race : ∃ w : WhenFuture Nat Nat,
    w.received.map (fun r => (r.first, r.second)) = some (1, some 8) ∧
      w.connectors 0 = .beaten ∧ w.AnyAnswer fun i => i + 7 := by
  have start : (system Nat Nat .any 2 fun _ => false).ReachableBy (Late fun i => i + 7) _ := .init
  have suspended := (((start.next (.step (.transform 0)) rfl trivial).next (.step .test) rfl
    trivial).next (.step (.storeScheduler 0)) rfl trivial).next (.step (.storeCoro 9)) rfl trivial
  have finished := (suspended.next (.step (.finish 0 (.value 7))) rfl ⟨rfl, .inl rfl⟩).next
    (.step (.finish 1 (.value 8))) rfl ⟨rfl, .inl rfl⟩
  have notified := ((finished.next (.step (.advance 1)) rfl trivial).next (.step (.advance 1)) rfl
    trivial).next (.step (.advance 1)) rfl trivial
  have received := ((notified.next (.step .resume) rfl trivial).next .awaitResume rfl trivial).next
    (.step (.advance 0)) rfl trivial
  exact ⟨_, rfl, rfl, when_any_answers (by decide) received⟩

end WhenFuture

end Librf
