import Mathlib.Data.Finset.Card
import Mathlib.Data.Finset.Range
import Librf.When.Model

/-!
# When the awaiting coroutine is scheduled

A connector notifies on its normal path alone. The counter therefore comes to 0 exactly when every
child of `when_all`, or one child of `when_any`, has ended with a value.
-/

namespace Librf

namespace Connector

variable {α : Type*}

def isNotified : Connector α → Bool
  | notified => true
  | _ => false

def isWinner : Connector α → Bool
  | claimed _ => true
  | stored => true
  | notified => true
  | _ => false

def isEnded : Connector α → Bool
  | notified => true
  | beaten => true
  | failed => true
  | _ => false

end Connector

namespace When

variable {α ε : Type*} {w t : When α ε} {kind : WhenKind} {size : Nat}

def notifiedCount (w : When α ε) : Nat :=
  ((Finset.range w.size).filter fun i => (w.connectors i).isNotified = true).card

theorem notifiedCount_congr (size : t.size = w.size)
    (same : ∀ i, (t.connectors i).isNotified = (w.connectors i).isNotified) :
    t.notifiedCount = w.notifiedCount := by
  simp only [notifiedCount, size, same]

theorem notifiedCount_of_update {i : Nat} {c : Connector α} (size : t.size = w.size)
    (connectors : t.connectors = Function.update w.connectors i c)
    (same : c.isNotified = (w.connectors i).isNotified) : t.notifiedCount = w.notifiedCount := by
  apply notifiedCount_congr size
  intro j
  rw [connectors]
  rcases eq_or_ne j i with rfl | other
  · rw [Function.update_self, same]
  · rw [Function.update_of_ne other]

theorem notifiedCount_notified {i : Nat} (inside : i < w.size)
    (before : (w.connectors i).isNotified = false) :
    (w.setConnector i .notified).notifiedCount = w.notifiedCount + 1 := by
  have grown : ((Finset.range w.size).filter fun j =>
      ((w.setConnector i .notified).connectors j).isNotified = true) =
      insert i ((Finset.range w.size).filter fun j => (w.connectors j).isNotified = true) := by
    ext j
    rw [Finset.mem_filter, Finset.mem_insert, Finset.mem_filter, Finset.mem_range]
    rcases eq_or_ne j i with rfl | other
    · simp [setConnector, Connector.isNotified, inside]
    · simp [setConnector, other]
  have fresh : i ∉ (Finset.range w.size).filter fun j => (w.connectors j).isNotified = true := by
    simp [before]
  change ((Finset.range w.size).filter fun j =>
    ((w.setConnector i .notified).connectors j).isNotified = true).card = _
  rw [grown, Finset.card_insert_of_notMem fresh]
  rfl

theorem notifiedCount_lt {i : Nat} (inside : i < w.size)
    (before : (w.connectors i).isNotified = false) : w.notifiedCount < w.size := by
  have strict : ((Finset.range w.size).filter fun j => (w.connectors j).isNotified = true) ⊂
      Finset.range w.size := by
    refine Finset.filter_ssubset.mpr ⟨i, by simpa using inside, by simp [before]⟩
  simpa [notifiedCount] using Finset.card_lt_card strict

theorem notifiedCount_eq_size (all : ∀ i < w.size, (w.connectors i).isNotified = true) :
    w.notifiedCount = w.size := by
  rw [notifiedCount, Finset.filter_true_of_mem (by simpa using all), Finset.card_range]

theorem notifiedCount_eq_zero (none : ∀ i, (w.connectors i).isNotified = false) :
    w.notifiedCount = 0 := by
  simp [notifiedCount, none]

def startCounter (kind : WhenKind) (size : Nat) : Int :=
  match kind with
  | .all => size
  | .any => if size = 0 then 0 else 1

structure Accounted (kind : WhenKind) (size : Nat) (w : When α ε) : Prop where
  kind_eq : w.kind = kind
  size_eq : w.size = size
  outside : ∀ i, size ≤ i → w.connectors i = .awaiting
  counter : w.state.counter + w.notifiedCount = startCounter kind size
  open_ : ∀ i, w.connectors i = .awaiting ↔ w.outcomes i = none
  failed : ∀ i, w.connectors i = .failed ↔ ∃ e, w.outcomes i = some (.exception e)
  all_path : kind = .all → ∀ i, w.connectors i ≠ .beaten ∧ ∀ v, w.connectors i ≠ .claimed v
  any_open : kind = .any → w.values.first = -1 →
    ∀ i, (w.connectors i).isWinner = false ∧ w.connectors i ≠ .beaten
  any_won : kind = .any → w.values.first ≠ -1 → ∃ i < size, (w.connectors i).isWinner = true ∧
    ∀ j, j ≠ i → (w.connectors j).isWinner = false

structure Awaited (w : When α ε) : Prop where
  nonneg : 0 ≤ w.state.counter
  early : w.place = .away ∨ w.place = .transformed →
    w.queue = [] ∧ w.missed = false ∧ w.state.coro = none
  between : w.place = .unready ∨ w.place = .halfway →
    w.queue = [] ∧ w.state.coro = none ∧ (w.missed = true ↔ w.state.counter = 0)
  halfway : w.place = .halfway ∨ w.place = .suspended → w.state.scheduler.isSome
  suspended : w.place = .suspended → w.state.coro.isSome ∧
    (w.missed = true → w.state.counter = 0) ∧
    w.queue.length = if w.missed = false ∧ w.state.counter = 0 then 1 else 0
  arrived : w.place = .arrived →
    w.state.counter = 0 ∧ w.missed = false ∧ w.queue = [] ∧ w.state.coro = none

theorem Accounted.initial : Accounted kind size (When.initial α ε kind size) := by
  constructor <;> simp [When.initial, notifiedCount, Connector.isNotified, Connector.isWinner]
  cases kind <;> rfl

theorem Accounted.of_same (h : Accounted kind size w) (kind_eq : t.kind = w.kind)
    (size_eq : t.size = w.size) (connectors : t.connectors = w.connectors)
    (outcomes : t.outcomes = w.outcomes) (first : t.values.first = w.values.first)
    (counter : t.state.counter = w.state.counter) : Accounted kind size t where
  kind_eq := kind_eq.trans h.kind_eq
  size_eq := size_eq.trans h.size_eq
  outside := connectors ▸ h.outside
  counter := by
    rw [counter, notifiedCount_congr size_eq (by simp [connectors])]
    exact h.counter
  open_ := by simpa only [connectors, outcomes] using h.open_
  failed := by simpa only [connectors, outcomes] using h.failed
  all_path := by simpa only [connectors] using h.all_path
  any_open := by simpa only [connectors, first] using h.any_open
  any_won := by simpa only [connectors, first] using h.any_won

def ofOutcome : Outcome α ε → Connector α
  | .value v => .returned v
  | .exception _ => .failed

theorem finishChild_connectors (i : Nat) (o : Outcome α ε) :
    (w.finishChild i o).connectors = Function.update w.connectors i (ofOutcome o) := by
  cases o <;> rfl

theorem finishChild_outcomes (i : Nat) (o : Outcome α ε) :
    (w.finishChild i o).outcomes = Function.update w.outcomes i (some o) := by
  cases o <;> rfl

theorem Accounted.update (h : Accounted kind size w) {i : Nat} {c : Connector α} (inside : i < size)
    (kind_eq : t.kind = w.kind) (size_eq : t.size = w.size)
    (connectors : t.connectors = Function.update w.connectors i c)
    (outcomes : ∀ j, j ≠ i → t.outcomes j = w.outcomes j)
    (counter : t.state.counter + t.notifiedCount = startCounter kind size)
    (open_ : c = .awaiting ↔ t.outcomes i = none)
    (failed : c = .failed ↔ ∃ e, t.outcomes i = some (.exception e))
    (all_path : kind = .all → c ≠ .beaten ∧ ∀ v, c ≠ .claimed v)
    (any_open : kind = .any → t.values.first = -1 →
      w.values.first = -1 ∧ c.isWinner = false ∧ c ≠ .beaten)
    (any_won : kind = .any → t.values.first ≠ -1 → ∃ k < size, (t.connectors k).isWinner = true ∧
      ∀ j, j ≠ k → (t.connectors j).isWinner = false) : Accounted kind size t := by
  have self : t.connectors i = c := by rw [connectors, Function.update_self]
  have of_ne : ∀ j, j ≠ i → t.connectors j = w.connectors j := by
    intro j other
    rw [connectors, Function.update_of_ne other]
  constructor
  case kind_eq => rw [kind_eq, h.kind_eq]
  case size_eq => rw [size_eq, h.size_eq]
  case outside =>
    intro j out
    rw [of_ne j (by rintro rfl; exact Nat.not_lt.mpr out inside)]
    exact h.outside j out
  case counter => exact counter
  case open_ =>
    intro j
    rcases eq_or_ne j i with rfl | other
    · rw [self, open_]
    · rw [of_ne j other, outcomes j other]
      exact h.open_ j
  case failed =>
    intro j
    rcases eq_or_ne j i with rfl | other
    · rw [self, failed]
    · rw [of_ne j other, outcomes j other]
      exact h.failed j
  case all_path =>
    intro all j
    rcases eq_or_ne j i with rfl | other
    · rw [self]
      exact all_path all
    · rw [of_ne j other]
      exact h.all_path all j
  case any_open =>
    intro any first j
    obtain ⟨before, loser⟩ := any_open any first
    rcases eq_or_ne j i with rfl | other
    · rwa [self]
    · rw [of_ne j other]
      exact h.any_open any before j
  case any_won => exact any_won

theorem Accounted.finish (h : Accounted kind size w) {i : Nat} (inside : i < w.size)
    (before : w.connectors i = .awaiting) (o : Outcome α ε) :
    Accounted kind size (w.finishChild i o) := by
  have connectors := finishChild_connectors (w := w) i o
  have outcome : (w.finishChild i o).outcomes i = some o := by
    rw [finishChild_outcomes, Function.update_self]
  have unchanged : (w.finishChild i o).state = w.state ∧
      (w.finishChild i o).values = w.values ∧ (w.finishChild i o).kind = w.kind ∧
      (w.finishChild i o).size = w.size := by
    cases o <;> exact ⟨rfl, rfl, rfl, rfl⟩
  obtain ⟨state, values, kind_same, size_same⟩ := unchanged
  have loser : (ofOutcome o).isWinner = false := by cases o <;> rfl
  apply h.update (h.size_eq ▸ inside) kind_same size_same connectors
  · intro j other
    rw [finishChild_outcomes, Function.update_of_ne other]
  · rw [state, notifiedCount_of_update size_same connectors (by rw [before]; cases o <;> rfl)]
    exact h.counter
  · rw [outcome]
    cases o <;> simp [ofOutcome]
  · rw [outcome]
    cases o <;> simp [ofOutcome]
  · intro _
    cases o <;> simp [ofOutcome]
  · intro _ first
    exact ⟨values ▸ first, loser, by cases o <;> simp [ofOutcome]⟩
  · intro any first
    rw [values] at first
    obtain ⟨k, bound, won, alone⟩ := h.any_won any first
    have other : k ≠ i := by
      rintro rfl
      simp [before, Connector.isWinner] at won
    refine ⟨k, bound, by rwa [connectors, Function.update_of_ne other], fun j different => ?_⟩
    rw [connectors]
    rcases eq_or_ne j i with rfl | apart
    · rw [Function.update_self, loser]
    · rw [Function.update_of_ne apart]
      exact alone j different

theorem Accounted.lt_size (h : Accounted kind size w) {i : Nat} (begun : w.connectors i ≠ .awaiting) :
    i < size := by
  by_contra out
  exact begun (h.outside i (by omega))

theorem Accounted.advance_of (h : Accounted kind size w) {i : Nat} {c : Connector α}
    (kind_eq : t.kind = w.kind) (size_eq : t.size = w.size)
    (connectors : t.connectors = Function.update w.connectors i c)
    (outcomes : t.outcomes = w.outcomes) (before : w.connectors i ≠ .awaiting)
    (alive : w.connectors i ≠ .failed) (after : c ≠ .awaiting ∧ c ≠ .failed)
    (counter : t.state.counter + t.notifiedCount = startCounter kind size)
    (all_path : kind = .all → c ≠ .beaten ∧ ∀ v, c ≠ .claimed v)
    (any_won : kind = .any → t.values.first ≠ -1 ∧ ∃ k < size, (t.connectors k).isWinner = true ∧
      ∀ j, j ≠ k → (t.connectors j).isWinner = false) : Accounted kind size t := by
  apply h.update (h.lt_size before) kind_eq size_eq connectors
  · exact fun j _ => congrFun outcomes j
  · exact counter
  · rw [outcomes, ← h.open_]
    exact iff_of_false after.1 before
  · rw [outcomes, ← h.failed]
    exact iff_of_false after.2 alive
  · exact all_path
  · exact fun any first => absurd first (any_won any).1
  · exact fun any _ => (any_won any).2

theorem Accounted.only_winner (h : Accounted kind size w) (any : kind = .any) {i : Nat}
    (won : (w.connectors i).isWinner = true) :
    w.values.first ≠ -1 ∧ ∀ j, j ≠ i → (w.connectors j).isWinner = false := by
  have claimed : w.values.first ≠ -1 := by
    intro first
    simp [(h.any_open any first i).1] at won
  obtain ⟨k, -, -, alone⟩ := h.any_won any claimed
  have same : i = k := by
    by_contra other
    simp [alone i other] at won
  exact ⟨claimed, same ▸ alone⟩

theorem Accounted.counter_pos (h : Accounted kind size w) {i : Nat} (stored : w.connectors i = .stored) :
    1 ≤ w.state.counter := by
  have inside : i < size := h.lt_size (by simp [stored])
  have counter := h.counter
  cases kind with
  | all =>
      have fewer : w.notifiedCount < w.size :=
        notifiedCount_lt (by rw [h.size_eq]; exact inside) (by simp [stored, Connector.isNotified])
      rw [h.size_eq] at fewer
      simp only [startCounter] at counter
      omega
  | any =>
      have alone := (h.only_winner rfl (i := i) (by simp [stored, Connector.isWinner])).2
      have nobody : w.notifiedCount = 0 := by
        refine notifiedCount_eq_zero fun j => ?_
        rcases eq_or_ne j i with rfl | other
        · simp [stored, Connector.isNotified]
        · have loser := alone j other
          cases state : w.connectors j <;> simp_all [Connector.isWinner, Connector.isNotified]
      simp only [startCounter] at counter
      split at counter <;> omega

theorem Accounted.notify (h : Accounted kind size w) {i : Nat} (stored : w.connectors i = .stored) :
    Accounted kind size ((w.notifyOne.setConnector i .notified).settle i (.value ())) := by
  have inside : i < size := h.lt_size (by simp [stored])
  have connectors : ((w.notifyOne.setConnector i .notified).settle i (.value ())).connectors =
      Function.update w.connectors i .notified := rfl
  have counted : ((w.notifyOne.setConnector i .notified).settle i (.value ())).notifiedCount =
      w.notifiedCount + 1 :=
    notifiedCount_notified (w := w) (by rw [h.size_eq]; exact inside)
      (by simp [stored, Connector.isNotified])
  have counter : ((w.notifyOne.setConnector i .notified).settle i (.value ())).state.counter =
      w.state.counter - 1 := by
    simp only [settle, setConnector, notifyOne, WhenState.onNotifyOne]
    split <;> rfl
  refine h.advance_of rfl rfl connectors rfl (by simp [stored]) (by simp [stored]) (by simp) ?_
    (by simp) fun any => ?_
  · rw [counted, counter]
    have before := h.counter
    push_cast
    omega
  · obtain ⟨claimed, alone⟩ := h.only_winner any (i := i) (by simp [stored, Connector.isWinner])
    refine ⟨claimed, i, inside, by simp [connectors, Connector.isWinner], fun j other => ?_⟩
    rw [connectors, Function.update_of_ne other]
    exact alone j other

theorem Accounted.advance (h : Accounted kind size w) {i : Nat}
    (action : w.advanceConnector i = some t) : Accounted kind size t := by
  have same_count {c : Connector α} (t : When α ε) (size_eq : t.size = w.size)
      (connectors : t.connectors = Function.update w.connectors i c) (state : t.state = w.state)
      (same : c.isNotified = (w.connectors i).isNotified) :
      t.state.counter + t.notifiedCount = startCounter kind size := by
    rw [state, notifiedCount_of_update size_eq connectors same]
    exact h.counter
  cases connects_of_advance action with
  | storeElement v all returned =>
      refine h.advance_of (c := .stored) rfl rfl rfl rfl (by simp [returned]) (by simp [returned])
        (by simp) (same_count _ rfl rfl rfl (by simp [returned, Connector.isNotified]))
        (by simp) fun any => ?_
      rw [h.kind_eq, any] at all
      cases all
  | claim v any returned first =>
      have inside : i < size := h.lt_size (by simp [returned])
      rw [h.kind_eq] at any
      refine h.advance_of (c := .claimed v) rfl rfl rfl rfl (by simp [returned])
        (by simp [returned]) (by simp)
        (same_count _ rfl rfl rfl (by simp [returned, Connector.isNotified]))
        (by simp [any]) fun _ => ⟨?_, i, inside, by simp [setConnector, Connector.isWinner], ?_⟩
      · change (i : Int) ≠ -1
        omega
      · intro j other
        simpa [setConnector, Function.update_of_ne other] using (h.any_open any first j).1
  | beaten v any returned first =>
      rw [h.kind_eq] at any
      obtain ⟨k, bound, won, alone⟩ := h.any_won any first
      have other : k ≠ i := by
        rintro rfl
        simp [returned, Connector.isWinner] at won
      refine h.advance_of (c := .beaten) rfl rfl rfl rfl (by simp [returned]) (by simp [returned])
        (by simp) (same_count _ rfl rfl rfl (by simp [returned, Connector.isNotified]))
        (by simp [any]) fun _ => ⟨first, k, bound, ?_, fun j different => ?_⟩
      · simpa [settle, setConnector, Function.update_of_ne other] using won
      · rcases eq_or_ne j i with rfl | apart
        · simp [settle, setConnector, Connector.isWinner]
        · simpa [settle, setConnector, Function.update_of_ne apart] using alone j different
  | storeSecond v any claimed =>
      have inside : i < size := h.lt_size (by simp [claimed])
      rw [h.kind_eq] at any
      obtain ⟨first, alone⟩ := h.only_winner any (i := i) (by simp [claimed, Connector.isWinner])
      refine h.advance_of (c := .stored) rfl rfl rfl rfl (by simp [claimed]) (by simp [claimed])
        (by simp) (same_count _ rfl rfl rfl (by simp [claimed, Connector.isNotified]))
        (by simp) fun _ => ⟨first, i, inside, by simp [setConnector, Connector.isWinner], ?_⟩
      intro j other
      simpa [setConnector, Function.update_of_ne other] using alone j other
  | notify stored => exact h.notify stored

theorem Awaited.initial : Awaited (When.initial α ε kind size) := by
  constructor <;> simp [When.initial]
  cases kind with
  | all => simp
  | any =>
      dsimp only
      split <;> decide

theorem Awaited.of_same (h : Awaited w) (place : t.place = w.place) (state : t.state = w.state)
    (queue : t.queue = w.queue) (missed : t.missed = w.missed) : Awaited t where
  nonneg := state ▸ h.nonneg
  early := by simpa only [place, state, queue, missed] using h.early
  between := by simpa only [place, state, queue, missed] using h.between
  halfway := by simpa only [place, state] using h.halfway
  suspended := by simpa only [place, state, queue, missed] using h.suspended
  arrived := by simpa only [place, state, queue, missed] using h.arrived

theorem Awaited.notify (h : Awaited w) (pos : 1 ≤ w.state.counter) : Awaited w.notifyOne := by
  have notArrived : w.place ≠ .arrived := by
    intro place
    have zero := (h.arrived place).1
    omega
  have unmissed : w.place = .suspended → w.missed = false := by
    intro place
    by_contra missed
    have zero := (h.suspended place).2.1 (by simpa using missed)
    omega
  rcases Classical.em (w.state.counter = 1) with last | more
  · have after : w.notifyOne =
        { w with state := { w.state with counter := 0 }
                 queue := w.queue ++ (if w.state.coro.isSome then w.state.scheduler else none).toList
                 missed := w.missed || (w.place == .unready || w.place == .halfway) } := by
      simp [notifyOne, WhenState.onNotifyOne, last]
    rw [after]
    constructor
    case nonneg => simp
    case early =>
      intro place
      obtain ⟨queue, missed, coro⟩ := h.early place
      rcases place with place | place <;> simp [queue, missed, coro, show w.place = _ from place]
    case between =>
      intro place
      obtain ⟨queue, coro, -⟩ := h.between place
      rcases place with place | place <;> simp [queue, coro, show w.place = _ from place]
    case halfway => exact h.halfway
    case suspended =>
      intro place
      have place' : w.place = .suspended := place
      obtain ⟨coro, -, length⟩ := h.suspended place'
      obtain ⟨sch, scheduler⟩ := Option.isSome_iff_exists.mp (h.halfway (Or.inr place'))
      simp [place', unmissed place', coro, scheduler, length, last]
    case arrived => exact fun place => absurd place notArrived
  · have after : w.notifyOne = { w with state := { w.state with counter := w.state.counter - 1 } } := by
      simp [notifyOne, WhenState.onNotifyOne, more]
    have stillOpen : w.state.counter - 1 ≠ 0 := by omega
    rw [after]
    constructor
    case nonneg => exact Int.sub_nonneg.mpr pos
    case early => exact h.early
    case between =>
      intro place
      obtain ⟨queue, coro, iff⟩ := h.between place
      refine ⟨queue, coro, fun missed => ?_, fun zero => absurd zero stillOpen⟩
      have zero := iff.mp missed
      omega
    case halfway => exact h.halfway
    case suspended =>
      intro place
      have place' : w.place = .suspended := place
      obtain ⟨coro, -, length⟩ := h.suspended place'
      have none_yet : ¬ (w.missed = false ∧ w.state.counter = 0) := fun ⟨_, zero⟩ => by omega
      rw [if_neg none_yet] at length
      simp [unmissed place', coro, length, stillOpen]
    case arrived => exact fun place => absurd place notArrived

theorem Awaited.advance (accounted : Accounted kind size w) (h : Awaited w) {i : Nat}
    (action : w.advanceConnector i = some t) : Awaited t := by
  cases connects_of_advance action with
  | notify stored => exact (h.notify (accounted.counter_pos stored)).of_same rfl rfl rfl rfl
  | _ => exact h.of_same rfl rfl rfl rfl

theorem Awaited.suspended_of_queue (h : Awaited w) {sch : Nat} {rest : List Nat}
    (queue : w.queue = sch :: rest) : w.place = .suspended := by
  cases place : w.place with
  | suspended => rfl
  | away => simp [(h.early (Or.inl place)).1] at queue
  | transformed => simp [(h.early (Or.inr place)).1] at queue
  | unready => simp [(h.between (Or.inl place)).1] at queue
  | halfway => simp [(h.between (Or.inr place)).1] at queue
  | arrived => simp [(h.arrived place).2.2.1] at queue

theorem step_keeps (accounted : Accounted kind size w) (h : Awaited w) {action : WhenAction α ε}
    (action_ : w.step action = some t) : Accounted kind size t ∧ Awaited t := by
  cases effect_of_step action_ with
  | @finish i o awaiting inside =>
      refine ⟨accounted.finish inside awaiting o, ?_⟩
      cases o <;> exact h.of_same rfl rfl rfl rfl
  | advance => exact ⟨accounted.advance action_, h.advance accounted action_⟩
  | transform place =>
      refine ⟨accounted.of_same rfl rfl rfl rfl rfl rfl, ?_⟩
      obtain ⟨queue, missed, coro⟩ := h.early (Or.inl place)
      constructor <;> simp [queue, missed, coro, h.nonneg]
  | test place =>
      refine ⟨accounted.of_same rfl rfl rfl rfl rfl rfl, ?_⟩
      obtain ⟨queue, missed, coro⟩ := h.early (Or.inr place)
      cases ready : w.state.awaitReady <;> constructor <;>
        simp_all [h.nonneg, WhenState.awaitReady]
  | storeScheduler place =>
      refine ⟨accounted.of_same rfl rfl rfl rfl rfl rfl, ?_⟩
      obtain ⟨queue, coro, iff⟩ := h.between (Or.inl place)
      constructor <;> simp [queue, coro, iff, h.nonneg]
  | storeCoro place =>
      refine ⟨accounted.of_same rfl rfl rfl rfl rfl rfl, ?_⟩
      obtain ⟨queue, coro, iff⟩ := h.between (Or.inr place)
      have scheduler := h.halfway (Or.inl place)
      constructor <;> simp [queue, iff, h.nonneg, scheduler]
      -- the handle comes too late exactly when the counter is 0 already
      intro missed zero
      simp [iff.mpr zero] at missed
  | @resume sch rest queue coro =>
      refine ⟨accounted.of_same rfl rfl rfl rfl rfl rfl, ?_⟩
      obtain ⟨-, -, length⟩ := h.suspended (h.suspended_of_queue queue)
      simp only [queue, List.length_cons] at length
      split at length
      · rename_i zero
        have last : rest = [] := List.eq_nil_of_length_eq_zero (by omega)
        constructor <;> simp [zero, last]
      · omega
  | discard queue none_ => exact absurd (h.suspended (h.suspended_of_queue queue)).1 none_

theorem counted (reachable : (system α ε kind size).Reachable w) :
    Accounted kind size w ∧ Awaited w :=
  Transition.System.Inductive.holds (I := fun w => Accounted kind size w ∧ Awaited w)
    ⟨⟨.initial, .initial⟩, fun _ _ _ _ h _ action => step_keeps h.1 h.2 action⟩ reachable

/-! ## The assertion of `on_notify_one` -/

theorem advanceConnector_frame {i : Nat} (action : w.advanceConnector i = some t) :
    t.place = w.place ∧ t.state.scheduler = w.state.scheduler := by
  cases connects_of_advance action with
  | notify stored =>
      unfold notifyOne WhenState.onNotifyOne
      refine ⟨rfl, ?_⟩
      split <;> rfl
  | _ => exact ⟨rfl, rfl⟩

theorem scheduler_of_begun (reachable : (system α ε kind size).Reachable w) :
    w.place ≠ .away → w.state.scheduler.isSome := by
  refine Transition.System.Inductive.holds
    (I := fun w => w.place ≠ .away → w.state.scheduler.isSome)
    ⟨fun begun => absurd rfl begun, ?_⟩ reachable
  intro w action t reached h _ action_
  cases effect_of_step action_ with
  | @finish i o awaiting inside => cases o <;> exact h
  | advance =>
      obtain ⟨place, scheduler⟩ := advanceConnector_frame action_
      rw [place, scheduler]
      exact h
  | transform | storeScheduler => exact fun _ => rfl
  | test place => exact fun _ => h (by simp [place])
  | storeCoro place => exact fun _ => h (by simp [place])
  | resume queue coro =>
      exact fun _ => h (by simp [(counted reached).2.suspended_of_queue queue])
  | discard queue none_ => exact h

theorem notifyAssertion_of_begun (reachable : (system α ε kind size).Reachable w)
    (begun : w.place ≠ .away) : w.state.notifyAssertion :=
  fun _ => scheduler_of_begun reachable begun

/-! ## The end of the children -/

/-- The children whose values are needed have ended with one. -/
def Succeeded (w : When α ε) : Prop :=
  match w.kind with
  | .all => ∀ i < w.size, ∃ v, w.outcomes i = some (.value v)
  | .any => ∃ i < w.size, ∃ v, w.outcomes i = some (.value v)

theorem Accounted.ended_cases (h : Accounted kind size w) {i : Nat}
    (ended : (w.connectors i).isEnded = true) :
    (∃ v, w.outcomes i = some (.value v)) ∨ w.connectors i = .failed := by
  cases outcome : w.outcomes i with
  | none => simp [(h.open_ i).mpr outcome, Connector.isEnded] at ended
  | some o =>
      cases o with
      | value v => exact Or.inl ⟨v, rfl⟩
      | exception e => exact Or.inr ((h.failed i).mpr ⟨e, outcome⟩)

theorem Accounted.counter_zero_iff (h : Accounted kind size w) (nonempty : 0 < size)
    (ended : ∀ i < size, (w.connectors i).isEnded = true) :
    w.state.counter = 0 ↔ Succeeded w := by
  have counter := h.counter
  unfold Succeeded
  rw [h.kind_eq, h.size_eq]
  cases kind with
  | all =>
      simp only [startCounter] at counter ⊢
      constructor
      · intro zero i inside
        refine (h.ended_cases (ended i inside)).resolve_right fun failed => ?_
        have fewer : w.notifiedCount < w.size :=
          notifiedCount_lt (by rw [h.size_eq]; exact inside) (by simp [failed, Connector.isNotified])
        rw [h.size_eq] at fewer
        omega
      · intro values
        have full : w.notifiedCount = w.size := by
          refine notifiedCount_eq_size fun i inside => ?_
          rw [h.size_eq] at inside
          obtain ⟨v, outcome⟩ := values i inside
          have alive : w.connectors i ≠ .failed := by
            intro failed
            obtain ⟨e, other⟩ := (h.failed i).mp failed
            simp [outcome] at other
          have unbeaten := (h.all_path rfl i).1
          have done := ended i inside
          cases state : w.connectors i <;> simp_all [Connector.isEnded, Connector.isNotified]
        rw [h.size_eq] at full
        omega
  | any =>
      simp only [startCounter, if_neg (by omega : ¬ size = 0)] at counter ⊢
      constructor
      · intro zero
        have positive : w.notifiedCount ≠ 0 := by omega
        by_contra none
        refine positive (notifiedCount_eq_zero fun i => ?_)
        by_contra notified
        have begun : w.connectors i ≠ .awaiting := by
          intro idle
          simp [idle, Connector.isNotified] at notified
        have inside := h.lt_size begun
        rcases h.ended_cases (ended i inside) with value | failed
        · exact none ⟨i, inside, value⟩
        · simp [failed, Connector.isNotified] at notified
      · rintro ⟨i, inside, v, outcome⟩
        have alive : w.connectors i ≠ .failed := by
          intro failed
          obtain ⟨e, other⟩ := (h.failed i).mp failed
          simp [outcome] at other
        -- somebody has won the compare-exchange: connector `i` or the one that beat it
        have claimed : w.values.first ≠ -1 := by
          intro first
          have open_ := h.any_open rfl first i
          have done := ended i inside
          cases state : w.connectors i <;> simp_all [Connector.isEnded, Connector.isWinner]
        obtain ⟨k, bound, won, -⟩ := h.any_won rfl claimed
        have notified : (w.connectors k).isNotified = true := by
          have done := ended k bound
          cases state : w.connectors k <;>
            simp_all [Connector.isEnded, Connector.isWinner, Connector.isNotified]
        have some_ : w.notifiedCount ≠ 0 := by
          rw [notifiedCount, Finset.card_ne_zero]
          exact ⟨k, by rw [Finset.mem_filter, Finset.mem_range, h.size_eq]; exact ⟨bound, notified⟩⟩
        have nonneg : w.notifiedCount ≤ 1 := by
          rw [notifiedCount, Finset.card_le_one]
          intro a inA b inB
          rw [Finset.mem_filter] at inA inB
          have winner : ∀ j, (w.connectors j).isNotified = true → (w.connectors j).isWinner = true := by
            intro j
            cases w.connectors j <;> simp [Connector.isNotified, Connector.isWinner]
          by_contra different
          have alone := (h.only_winner rfl (winner a inA.2)).2 b (Ne.symm different)
          simp [winner b inB.2] at alone
        omega

/-- When all children have ended, the awaiting coroutine has gone on or is queued exactly if the
needed values came and the last notification did not fall between its ready test and the store of
its handle. -/
theorem scheduled_iff {α ε : Type*} (kind : WhenKind) (size : Nat) (nonempty : 0 < size)
    (w : When α ε) (reachable : (system α ε kind size).Reachable w)
    (ended : ∀ i < size, (w.connectors i).isEnded = true)
    (awaited : w.place = .suspended ∨ w.place = .arrived) :
    (w.place = .arrived ∨ w.queue ≠ []) ↔ Succeeded w ∧ w.missed = false := by
  obtain ⟨accounted, h⟩ := counted reachable
  rw [← accounted.counter_zero_iff nonempty ended]
  rcases awaited with place | place
  · obtain ⟨-, -, length⟩ := h.suspended place
    constructor
    · rintro (arrived | queued)
      · simp [place] at arrived
      · split at length
        · rename_i both
          exact ⟨both.2, both.1⟩
        · exact absurd (List.eq_nil_of_length_eq_zero length) queued
    · rintro ⟨zero, missed⟩
      rw [if_pos ⟨missed, zero⟩] at length
      exact Or.inr fun empty => by simp [empty] at length
  · obtain ⟨zero, missed, -, -⟩ := h.arrived place
    exact ⟨fun _ => ⟨zero, missed⟩, fun _ => Or.inl place⟩

theorem scheduled_iff_any : ∃ w : When Nat Nat, w.outcomes 0 = some (.exception 5) ∧
    w.outcomes 1 = some (.value 7) ∧
      ((w.place = .arrived ∨ w.queue ≠ []) ↔ Succeeded w ∧ w.missed = false) := by
  have start : (system Nat Nat .any 2).Reachable (When.initial Nat Nat .any 2) := .init
  have suspended := (((start.next (.transform 0) rfl trivial).next .test rfl trivial).next
    (.storeScheduler 0) rfl trivial).next (.storeCoro 9) rfl trivial
  have finished := (suspended.next (.finish 0 (.exception 5)) rfl trivial).next
    (.finish 1 (.value 7)) rfl trivial
  have ended := ((finished.next (.advance 1) rfl trivial).next (.advance 1) rfl trivial).next
    (.advance 1) rfl trivial
  exact ⟨_, rfl, rfl, scheduled_iff .any 2 (by decide) _ ended (by decide) (by decide)⟩

/-- One child that throws leaves the coroutine that awaits `when_all` suspended, with no step left
that could wake it. -/
theorem thrown_child_strands : ∃ w : When Nat Nat, (system Nat Nat .all 1).Reachable w ∧
    w.outcomes 0 = some (.exception 5) ∧ w.connectors 0 = .failed ∧ w.place = .suspended ∧
      w.queue = [] ∧ ∀ action, w.step action = none := by
  have start : (system Nat Nat .all 1).Reachable (When.initial Nat Nat .all 1) := .init
  have suspended := (((start.next (.transform 0) rfl trivial).next .test rfl trivial).next
    (.storeScheduler 0) rfl trivial).next (.storeCoro 9) rfl trivial
  have failed := suspended.next (.finish 0 (.exception 5)) rfl trivial
  refine ⟨_, failed, rfl, rfl, rfl, rfl, fun action => ?_⟩
  cases action with
  | finish i o =>
      rcases Nat.eq_zero_or_pos i with rfl | out
      · rfl
      · simp [step, finishChild, settle, setConnector, When.initial, Function.update_of_ne out.ne']
        omega
  | advance i =>
      rcases Nat.eq_zero_or_pos i with rfl | out
      · rfl
      · simp [step, advanceConnector, finishChild, settle, setConnector, When.initial,
          Function.update_of_ne out.ne']
  | _ => rfl

end When

end Librf
