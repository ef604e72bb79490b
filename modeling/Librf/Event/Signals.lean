import Mathlib.Algebra.GroupWithZero.Nat
import Librf.Event.Waiters

/-!
# The signals of an event

A signal is a waiter's wake-up or a token in `_counter`, and stays what it is through every race
with `on_timeout`.
-/

namespace Librf.Event

variable {s t : Event} {w : Nat} {call : SignalCall}

/-! ## A waiter over a step -/

structure Grows (before after : EventWaiter) : Prop where
  value : after.value = true → before.value = true
  signaled : before.signaled = true → after.signaled = true
  timedOut : before.timedOut = true → after.timedOut = true
  scheduled : before.scheduled ≤ after.scheduled

theorem Grows.refl (waiter : EventWaiter) : Grows waiter waiter := ⟨id, id, id, Nat.le_refl _⟩

theorem grows_setWaiter {waiter : EventWaiter} (grows : Grows (s.waiters w) waiter) (w' : Nat) :
    Grows (s.waiters w') ((s.setWaiter w waiter).waiters w') := by
  by_cases same : w' = w
  · subst same
    rwa [setWaiter_self]
  · rw [setWaiter_of_ne same]
    exact .refl _

theorem AllStaged.scheduled_le (all : s.AllStaged) (bound : w < s.created) :
    (s.waiters w).scheduled ≤ 1 := by
  obtain ⟨stage, staged⟩ := all.1 w bound
  obtain ⟨handler, timed, shape⟩ := staged.shape
  rw [shape]
  cases stage <;> simp [EventStage.waiter]

/-! ## The calls -/

def signals (s : Event) : Nat := s.calls.countP fun completed => !completed.1.all

/-- The waits that have been satisfied by a token or by a call of `signal`. -/
def satisfied (s : Event) : Nat :=
  s.tokens + ((s.calls.filter fun completed => !completed.1.all).map
    fun completed => completed.1.woken.length).sum

structure Delivered (s : Event) (call : SignalCall) (after : Int) : Prop where
  older : ∀ w ∈ call.pending, w < s.created
  woken : ∀ w ∈ call.woken, w ∈ call.pending ∧ (s.waiters w).signaled = true ∧
    (s.waiters w).scheduled = 1
  signal : call.all = false → (∃ w, call.woken = [w] ∧ after = call.before) ∨
    (call.woken = [] ∧ after = call.before + 1 ∧ ∀ w ∈ call.pending, (s.waiters w).timedOut = true)
  signalAll : call.all = true → after = call.before ∧
    ∀ w ∈ call.pending, w ∈ call.woken ∨ (s.waiters w).timedOut = true

structure InProgress (s : Event) (call : SignalCall) : Prop where
  before : call.before = s.counter
  found : ∀ w, w < s.created → (s.waiters w).value = true → w ∈ call.pending
  accounted : ∀ w ∈ call.pending, w < s.created ∧
    ((s.waiters w).value = true ∨ w ∈ call.woken ∨ (s.waiters w).timedOut = true)
  woken : ∀ w ∈ call.woken, w ∈ call.pending ∧ (s.waiters w).signaled = true ∧
    ((s.waiters w).scheduled = 1 ∨ s.lockSection.chosen = some w)
  single : call.all = false → call.woken = s.lockSection.chosen.toList

theorem Delivered.of_grows {after : Int} (delivered : s.Delivered call after)
    (created : s.created ≤ t.created) (staged : t.AllStaged)
    (grows : ∀ w, w < s.created → Grows (s.waiters w) (t.waiters w)) : t.Delivered call after := by
  have older := delivered.older
  have kept : ∀ w ∈ call.pending, (s.waiters w).timedOut = true → (t.waiters w).timedOut = true :=
    fun w member => (grows w (older w member)).timedOut
  refine ⟨fun w member => Nat.lt_of_lt_of_le (older w member) created, ?_, ?_, ?_⟩
  · intro w member
    obtain ⟨found, signaled, scheduled⟩ := delivered.woken w member
    have grown := grows w (older w found)
    have most := staged.scheduled_le (Nat.lt_of_lt_of_le (older w found) created)
    have least := grown.scheduled
    exact ⟨found, grown.signaled signaled, by omega⟩
  · intro single
    rcases delivered.signal single with one | ⟨none, raised, late⟩
    · exact .inl one
    · exact .inr ⟨none, raised, fun w member => kept w member (late w member)⟩
  · intro all
    obtain ⟨same, every⟩ := delivered.signalAll all
    exact ⟨same, fun w member => (every w member).imp_right (kept w member)⟩

theorem InProgress.of_grows (inProgress : s.InProgress call) (created : t.created = s.created)
    (staged : t.AllStaged) (counter : t.counter = s.counter)
    (chosen : t.lockSection.chosen = s.lockSection.chosen)
    (grows : ∀ w, w < s.created → Grows (s.waiters w) (t.waiters w))
    (lost : ∀ w, w < s.created → (s.waiters w).value = true →
      (t.waiters w).value = true ∨ (t.waiters w).timedOut = true) : t.InProgress call where
  before := inProgress.before.trans counter.symm
  found := fun w bound pending =>
    inProgress.found w (created ▸ bound) ((grows w (created ▸ bound)).value pending)
  accounted := by
    intro w member
    obtain ⟨older, fate⟩ := inProgress.accounted w member
    refine ⟨created ▸ older, ?_⟩
    rcases fate with pending | woken | late
    · exact (lost w older pending).imp_right .inr
    · exact .inr (.inl woken)
    · exact .inr (.inr ((grows w older).timedOut late))
  woken := by
    intro w member
    obtain ⟨found, signaled, scheduled⟩ := inProgress.woken w member
    obtain ⟨older, -⟩ := inProgress.accounted w found
    have grown := grows w older
    refine ⟨found, grown.signaled signaled, ?_⟩
    rw [chosen]
    refine scheduled.imp_left fun once => ?_
    have most := staged.scheduled_le (created ▸ older)
    have least := grown.scheduled
    omega
  single := chosen ▸ inProgress.single

/-! ## Every run -/

/-- The waiters that no call has passed over yet, the longest waiting first. -/
def line (s : Event) : List Nat := s.lockSection.offered ++ s.waitAwakes

structure Conserved (initially : Bool) (s : Event) : Prop where
  staged : s.AllStaged
  order : s.line.Pairwise (· < ·)
  bounded : ∀ w ∈ s.line, w < s.created
  chosen : ∀ w, s.lockSection.chosen = some w → w < s.created
  inLine : ∀ w, w < s.created → (s.waiters w).value = true → w ∈ s.line
  unclaimed : 0 < s.counter → ∀ w, w < s.created → (s.waiters w).value = false
  ledger : (initial initially).counter + s.signals = s.counter + s.satisfied
  wakes : ∀ w, w ∈ s.wakes ↔ w < s.created ∧ (s.waiters w).signaled = true
  wokenOnce : s.wakes.Nodup
  recorded : s.wakes = (s.calls.flatMap fun completed => completed.1.woken) ++
    s.lockSection.call?.elim [] SignalCall.woken
  delivered : ∀ completed ∈ s.calls, s.Delivered completed.1 completed.2
  current : ∀ call, s.lockSection.call? = some call → s.InProgress call

variable {initially : Bool}

theorem Conserved.initial : (initial initially).Conserved initially where
  staged := ⟨fun w bound => absurd bound (Nat.not_lt_zero w),
    fun w member => absurd member List.not_mem_nil⟩
  order := List.Pairwise.nil
  bounded := fun w member => absurd member List.not_mem_nil
  chosen := by simp [Event.initial, SignalSection.chosen]
  inLine := fun w bound => absurd bound (Nat.not_lt_zero w)
  unclaimed := fun _ w bound => absurd bound (Nat.not_lt_zero w)
  ledger := by simp [Event.initial, signals, satisfied]
  wakes := by simp [Event.initial]
  wokenOnce := List.nodup_nil
  recorded := rfl
  delivered := fun _ member => absurd member List.not_mem_nil
  current := by simp [Event.initial, SignalSection.call?]

theorem Conserved.of_kept (h : s.Conserved initially) (staged : t.AllStaged)
    (created : t.created = s.created) (counter : t.counter = s.counter)
    (tokens : t.tokens = s.tokens) (wakes : t.wakes = s.wakes) (calls : t.calls = s.calls)
    (call? : t.lockSection.call? = s.lockSection.call?)
    (chosen : ∀ w, t.lockSection.chosen = some w → w < s.created)
    (line : t.line.Sublist s.line)
    (inLine : ∀ w, w < s.created → (t.waiters w).value = true → w ∈ s.line → w ∈ t.line)
    (grows : ∀ w, w < s.created → Grows (s.waiters w) (t.waiters w))
    (signaled : ∀ w, (t.waiters w).signaled = (s.waiters w).signaled)
    (current : ∀ call, s.lockSection.call? = some call → t.InProgress call) :
    t.Conserved initially where
  staged := staged
  order := h.order.sublist line
  bounded := fun w member => created ▸ h.bounded w (line.subset member)
  chosen := fun w at_ => created ▸ chosen w at_
  inLine := by
    intro w bound pending
    rw [created] at bound
    exact inLine w bound pending (h.inLine w bound ((grows w bound).value pending))
  unclaimed := by
    intro positive w bound
    rw [created] at bound
    have before := h.unclaimed (counter ▸ positive) w bound
    by_contra pending
    simp [(grows w bound).value (by simpa using pending)] at before
  ledger := by
    have ledger := h.ledger
    unfold signals satisfied at *
    rwa [calls, tokens, counter]
  wakes := by
    intro w
    rw [wakes, created, signaled]
    exact h.wakes w
  wokenOnce := wakes ▸ h.wokenOnce
  recorded := by
    rw [wakes, calls, call?]
    exact h.recorded
  delivered := by
    intro completed member
    exact (h.delivered completed (calls ▸ member)).of_grows (Nat.le_of_eq created.symm) staged grows
  current := fun call at_ => current call (call? ▸ at_)

theorem Conserved.of_quiet (h : s.Conserved initially) (staged : t.AllStaged)
    (created : t.created = s.created) (counter : t.counter = s.counter)
    (tokens : t.tokens = s.tokens) (wakes : t.wakes = s.wakes) (calls : t.calls = s.calls)
    (chosen : t.lockSection.chosen = s.lockSection.chosen)
    (call? : t.lockSection.call? = s.lockSection.call?) (line : t.line.Sublist s.line)
    (inLine : ∀ w, w < s.created → (t.waiters w).value = true → w ∈ s.line → w ∈ t.line)
    (grows : ∀ w, w < s.created → Grows (s.waiters w) (t.waiters w))
    (signaled : ∀ w, (t.waiters w).signaled = (s.waiters w).signaled)
    (lost : ∀ w, w < s.created → (s.waiters w).value = true →
      (t.waiters w).value = true ∨ (t.waiters w).timedOut = true) : t.Conserved initially := by
  apply h.of_kept staged created counter tokens wakes calls call? ?_ line inLine grows signaled
  · intro call at_
    exact (h.current call at_).of_grows created staged counter chosen grows lost
  · exact fun w at_ => h.chosen w (chosen ▸ at_)

theorem line_of_free (free : s.lockSection = .free) : s.line = s.waitAwakes := by
  simp [line, free, SignalSection.offered]

theorem call?_of_free (free : s.lockSection = .free) : s.lockSection.call? = none := by
  simp [free, SignalSection.call?]

theorem Conserved.token (h : s.Conserved initially) (free : s.lockSection = .free)
    (token : s.counter > 0) :
    Conserved initially { s with
      toEventImpl := { s.toEventImpl with counter := s.counter - 1 }
      tokens := s.tokens + 1 } where
  staged := h.staged.of_quiet rfl rfl rfl rfl
  order := h.order
  bounded := h.bounded
  chosen := h.chosen
  inLine := h.inLine
  unclaimed := fun _ => h.unclaimed token
  ledger := by
    have ledger := h.ledger
    simp only [signals, satisfied] at ledger ⊢
    push_cast at ledger ⊢
    omega
  wakes := h.wakes
  wokenOnce := h.wokenOnce
  recorded := h.recorded
  delivered := by
    intro completed member
    have before := h.delivered completed member
    exact ⟨before.older, before.woken, before.signal, before.signalAll⟩
  current := fun call at_ => absurd at_ (by simp [free, SignalSection.call?])

theorem Conserved.awaitReady (h : s.Conserved initially) (free : s.lockSection = .free) :
    s.awaitReady.Conserved initially := by
  by_cases token : s.counter > 0
  · have taken : s.awaitReady = { s with
        toEventImpl := { s.toEventImpl with counter := s.counter - 1 }
        tokens := s.tokens + 1 } := by
      simp [Event.awaitReady, tryWaitOne_eq, token]
    rw [taken]
    exact h.token free token
  · have refused : s.awaitReady = s := by simp [Event.awaitReady, tryWaitOne_eq, token]
    rwa [refused]

theorem Conserved.awaitSuspend (h : s.Conserved initially) (free : s.lockSection = .free)
    (handler : Nat) (timed : Bool) : (s.awaitSuspend handler timed).Conserved initially := by
  by_cases token : s.counter > 0
  · rw [awaitSuspend_of_token token]
    exact h.token free token
  · have staged := h.staged.awaitSuspend free handler timed
    rw [awaitSuspend_of_none token] at staged ⊢
    have line : Event.line { s.setWaiter s.created { coro := some handler, timer := timed } with
        toEventImpl := s.toEventImpl.addWaitList s.created
        created := s.created + 1 } = s.line ++ [s.created] := by
      rw [line_of_free free, line_of_free (by exact free)]
      rfl
    have older : ∀ w, w < s.created → (s.setWaiter s.created
        { coro := some handler, timer := timed }).waiters w = s.waiters w :=
      fun w bound => setWaiter_of_ne (Nat.ne_of_lt bound)
    constructor
    · exact staged
    · rw [line, List.pairwise_append]
      refine ⟨h.order, List.pairwise_singleton _ _, fun w member w' last => ?_⟩
      rw [List.mem_singleton.mp last]
      exact h.bounded w member
    · rw [line]
      intro w member
      rcases List.mem_append.mp member with before | last
      · exact Nat.lt_succ_of_lt (h.bounded w before)
      · exact List.mem_singleton.mp last ▸ Nat.lt_succ_self _
    · simp [setWaiter, free, SignalSection.chosen]
    · intro w bound pending
      rw [line]
      by_cases fresh : w = s.created
      · simp [fresh]
      · have bound' : w < s.created := Nat.lt_of_le_of_ne (Nat.le_of_lt_succ bound) fresh
        apply List.mem_append_left _ (h.inLine w bound' ?_)
        simpa [older w bound'] using pending
    · exact fun positive => absurd positive token
    · exact h.ledger
    · intro w
      show w ∈ s.wakes ↔ w < s.created + 1 ∧ ((s.setWaiter s.created _).waiters w).signaled = true
      rw [h.wakes]
      by_cases fresh : w = s.created
      · simp [fresh]
      · rw [setWaiter_of_ne fresh]
        have : w < s.created + 1 ↔ w < s.created := by omega
        rw [this]
    · exact h.wokenOnce
    · exact h.recorded
    · intro completed member
      apply (h.delivered completed member).of_grows (Nat.le_succ _) staged
      intro w bound
      exact older w bound ▸ .refl _
    · intro call at_
      simp [setWaiter, free, SignalSection.call?] at at_

theorem beginSignal_line (free : s.lockSection = .free) (all : Bool) :
    (s.beginSignal all).line = s.line := by
  rw [line_of_free free]
  rfl

theorem Conserved.beginSignal (h : s.Conserved initially) (free : s.lockSection = .free)
    (all : Bool) : (s.beginSignal all).Conserved initially where
  staged := h.staged.of_quiet rfl rfl rfl (by simp [Event.beginSignal, free, SignalSection.chosen])
  order := beginSignal_line free all ▸ h.order
  bounded := beginSignal_line free all ▸ h.bounded
  chosen := by simp [Event.beginSignal, SignalSection.chosen]
  inLine := beginSignal_line free all ▸ h.inLine
  unclaimed := h.unclaimed
  ledger := h.ledger
  wakes := h.wakes
  wokenOnce := h.wokenOnce
  recorded := by
    have recorded := h.recorded
    rw [call?_of_free free] at recorded
    exact recorded
  delivered := by
    intro completed member
    have before := h.delivered completed member
    exact ⟨before.older, before.woken, before.signal, before.signalAll⟩
  current := by
    intro call at_
    simp only [Event.beginSignal, SignalSection.call?, Option.some.injEq] at at_
    subst at_
    constructor
    · rfl
    · intro w bound value
      exact List.mem_filter.mpr ⟨List.mem_range.mpr bound, value⟩
    · intro w member
      obtain ⟨bound, value⟩ := List.mem_filter.mp member
      exact ⟨List.mem_range.mp bound, .inl value⟩
    · exact fun w member => absurd member List.not_mem_nil
    · exact fun _ => rfl

theorem Conserved.pop {rest : List Nat} (h : s.Conserved initially)
    (popping : s.lockSection = .popping call) (queue : s.waitAwakes = w :: rest) :
    Conserved initially { s with waitAwakes := rest, lockSection := .offering call w } := by
  have line : Event.line { s with waitAwakes := rest, lockSection := .offering call w } = s.line := by
    simp [Event.line, popping, queue, SignalSection.offered]
  have chosen : s.lockSection.chosen = none := by simp [popping, SignalSection.chosen]
  refine h.of_quiet (h.staged.of_quiet rfl rfl rfl chosen.symm) rfl rfl rfl rfl rfl chosen.symm ?_ ?_
    ?_ (fun _ _ => .refl _) (fun _ => rfl) fun _ _ value => .inl value
  · simp [popping, SignalSection.call?]
  · rw [line]
  · exact fun _ _ _ member => line ▸ member

theorem Conserved.notify (h : s.Conserved initially) (offering : s.lockSection = .offering call w) :
    (s.notify call w).Conserved initially := by
  have line : s.line = w :: s.waitAwakes := by simp [Event.line, offering, SignalSection.offered]
  have bound : w < s.created := h.bounded w (by simp [line])
  have staged := h.staged.notify bound offering
  have unchosen : s.lockSection.chosen = none := by simp [offering, SignalSection.chosen]
  have inProgress := h.current call (by simp [offering, SignalSection.call?])
  cases value : (s.waiters w).value with
  | false =>
      rw [notify_of_claimed value] at staged ⊢
      have rest : Event.line { s with lockSection := .popping call } = s.waitAwakes := by
        simp [Event.line, SignalSection.offered]
      apply h.of_quiet staged rfl rfl rfl rfl rfl unchosen.symm
      · simp [offering, SignalSection.call?]
      · rw [line, rest]
        exact List.sublist_cons_self w _
      · intro w' _ pending member
        rw [rest]
        rw [line, List.mem_cons] at member
        apply member.resolve_left
        rintro rfl
        exact absurd (value.symm.trans pending) Bool.false_ne_true
      · exact fun _ _ => .refl _
      · exact fun _ => rfl
      · exact fun _ _ value => .inl value
  | true =>
      -- the waiter at the head of the line is woken, and no call has woken it before
      have fresh : (s.waiters w).signaled = false := by
        obtain ⟨stage, one⟩ := h.staged.1 w bound
        cases one.pending_of_value value
        obtain ⟨handler, timed, shape⟩ := one.shape
        simp [shape, EventStage.waiter]
      rw [notify_of_pending value] at staged ⊢
      have grows : ∀ w', Grows (s.waiters w')
          ((s.setWaiter w { s.waiters w with value := false, signaled := true }).waiters w') := by
        intro w'
        apply grows_setWaiter
        exact ⟨by simp, by simp, id, Nat.le_refl _⟩
      have order := h.order
      have bounded := h.bounded
      rw [line] at order bounded
      constructor
      · exact staged
      · exact (List.pairwise_cons.mp order).2
      · exact fun w' member => bounded w' (List.mem_cons_of_mem w member)
      · intro w' at_
        cases at_
        exact bound
      · intro w' bound' pending
        have other : w' ≠ w := by
          rintro rfl
          simp at pending
        have before := h.inLine w' bound' ((grows w').value pending)
        rw [line, List.mem_cons] at before
        exact before.resolve_left other
      · intro positive
        exact absurd value (by simp [h.unclaimed positive w bound])
      · exact h.ledger
      · intro w'
        show w' ∈ s.wakes ++ [w] ↔ _ ∧ ((s.setWaiter w _).waiters w').signaled = true
        rw [List.mem_append, List.mem_singleton, h.wakes]
        by_cases same : w' = w
        · subst same
          simp [bound, setWaiter]
        · simp [same, setWaiter]
      · rw [List.nodup_append]
        refine ⟨h.wokenOnce, by simp, ?_⟩
        intro a before b last same
        rw [List.mem_singleton.mp last] at same
        subst same
        exact absurd ((h.wakes a).mp before).2 (by simp [fresh])
      · have recorded := h.recorded
        simp only [offering, SignalSection.call?, Option.elim_some] at recorded ⊢
        rw [recorded]
        simp [setWaiter]
      · intro completed member
        exact (h.delivered completed member).of_grows (Nat.le_refl _) staged fun w' _ => grows w'
      · intro call' at_
        simp only [SignalSection.call?, Option.some.injEq] at at_
        subst at_
        constructor
        · exact inProgress.before
        · exact fun w' bound' pending => inProgress.found w' bound' ((grows w').value pending)
        · intro w' member
          obtain ⟨older, fate⟩ := inProgress.accounted w' member
          refine ⟨older, ?_⟩
          by_cases same : w' = w
          · exact .inr (.inl (by simp [same]))
          · show ((s.setWaiter w _).waiters w').value = true ∨ _ ∨
              ((s.setWaiter w _).waiters w').timedOut = true
            rw [setWaiter_of_ne same]
            exact fate.imp_right fun rest => rest.imp_left (List.mem_append_left _)
        · intro w' member
          rcases List.mem_append.mp member with before | last
          · obtain ⟨found, signaled, scheduled⟩ := inProgress.woken w' before
            have once : (s.waiters w').scheduled = 1 := by simpa [unchosen] using scheduled
            have most := staged.scheduled_le (inProgress.accounted w' found).1
            have least := (grows w').scheduled
            refine ⟨found, (grows w').signaled signaled, .inl ?_⟩
            exact Nat.le_antisymm most (once ▸ least)
          · rw [List.mem_singleton.mp last]
            exact ⟨inProgress.found w bound value, by simp [setWaiter],
              .inr (by simp [SignalSection.chosen])⟩
        · intro single
          have none_ := inProgress.single single
          rw [unchosen] at none_
          simp [none_, SignalSection.chosen]

theorem signals_append {after : Int} (calls : t.calls = s.calls ++ [(call, after)]) :
    t.signals = s.signals + if call.all then 0 else 1 := by
  cases all : call.all <;> simp [signals, calls, List.countP_append, all]

theorem satisfied_append {after : Int} (calls : t.calls = s.calls ++ [(call, after)])
    (tokens : t.tokens = s.tokens) :
    t.satisfied = s.satisfied + if call.all then 0 else call.woken.length := by
  cases all : call.all <;>
    simp [satisfied, calls, tokens, List.filter_append, all, Nat.add_assoc]

theorem Conserved.of_completed (h : s.Conserved initially)
    (call? : s.lockSection.call? = some call) (free : t.lockSection = .free)
    (calls : t.calls = s.calls ++ [(call, t.counter)]) (staged : t.AllStaged)
    (created : t.created = s.created) (tokens : t.tokens = s.tokens) (wakes : t.wakes = s.wakes)
    (line : t.waitAwakes = s.line)
    (grows : ∀ w, w < s.created → Grows (s.waiters w) (t.waiters w))
    (value : ∀ w, (t.waiters w).value = (s.waiters w).value)
    (signaled : ∀ w, (t.waiters w).signaled = (s.waiters w).signaled)
    (unclaimed : 0 < t.counter → ∀ w, w < s.created → (s.waiters w).value = false)
    (balance : t.counter + (if call.all then 0 else call.woken.length : Nat) =
      s.counter + (if call.all then 0 else 1 : Nat))
    (delivered : t.Delivered call t.counter) : t.Conserved initially where
  staged := staged
  order := by
    rw [line_of_free free, line]
    exact h.order
  bounded := by
    rw [line_of_free free, line, created]
    exact h.bounded
  chosen := by simp [free, SignalSection.chosen]
  inLine := by
    rw [line_of_free free, line, created]
    intro w bound pending
    exact h.inLine w bound (value w ▸ pending)
  unclaimed := by
    intro positive w bound
    rw [value]
    exact unclaimed positive w (created ▸ bound)
  ledger := by
    have ledger := h.ledger
    rw [signals_append calls, satisfied_append calls tokens]
    push_cast at ledger balance ⊢
    omega
  wakes := by
    intro w
    rw [wakes, created, signaled]
    exact h.wakes w
  wokenOnce := wakes ▸ h.wokenOnce
  recorded := by
    have recorded := h.recorded
    rw [call?] at recorded
    rw [wakes, calls, free, recorded]
    simp [SignalSection.call?]
  delivered := by
    intro completed member
    rw [calls] at member
    rcases List.mem_append.mp member with before | last
    · exact (h.delivered completed before).of_grows (Nat.le_of_eq created.symm) staged grows
    · rw [List.mem_singleton.mp last]
      exact delivered
  current := by simp [free, SignalSection.call?]

theorem Conserved.finishNotify (h : s.Conserved initially)
    (notifying : s.lockSection = .notifying call w) :
    (s.finishNotify call w).Conserved initially := by
  have chosen : s.lockSection.chosen = some w := by simp [notifying, SignalSection.chosen]
  have call? : s.lockSection.call? = some call := by simp [notifying, SignalSection.call?]
  have line : s.line = s.waitAwakes := by simp [Event.line, notifying, SignalSection.offered]
  have bound := h.chosen w chosen
  have inProgress := h.current call call?
  obtain ⟨stage, one⟩ := h.staged.1 w bound
  obtain rfl := one.chosen.mp chosen
  obtain ⟨handler, timed, shape⟩ := one.shape
  have staged := h.staged.finishNotify bound notifying
  have coro : (s.waiters w).coro = some handler := by simp [shape, EventStage.waiter]
  rw [finishNotify_of_coro coro] at staged ⊢
  have grows : ∀ w', Grows (s.waiters w') ((s.setWaiter w { s.waiters w with
      toStateEvent := (s.waiters w).notified
      scheduled := (s.waiters w).scheduled + 1 }).waiters w') := by
    intro w'
    apply grows_setWaiter
    exact ⟨id, id, id, Nat.le_succ _⟩
  have same : ∀ {α : Type} (field : EventWaiter → α),
      field { s.waiters w with
        toStateEvent := (s.waiters w).notified
        scheduled := (s.waiters w).scheduled + 1 } = field (s.waiters w) → ∀ w',
      field ((s.setWaiter w { s.waiters w with
        toStateEvent := (s.waiters w).notified
        scheduled := (s.waiters w).scheduled + 1 }).waiters w') = field (s.waiters w') := by
    intro α field kept w'
    by_cases at_ : w' = w
    · subst at_
      rwa [setWaiter_self]
    · rw [setWaiter_of_ne at_]
  have value := same (fun waiter => waiter.value) rfl
  have signaled := same (fun waiter => waiter.signaled) rfl
  have timedOut := same (fun waiter => waiter.timedOut) rfl
  -- each waiter this call has woken is in a run queue now
  have scheduled : ∀ w' ∈ call.woken, w' ∈ call.pending ∧ (s.waiters w').signaled = true ∧
      ((s.setWaiter w { s.waiters w with
        toStateEvent := (s.waiters w).notified
        scheduled := (s.waiters w).scheduled + 1 }).waiters w').scheduled = 1 := by
    intro w' member
    obtain ⟨found, woken, once⟩ := inProgress.woken w' member
    refine ⟨found, woken, ?_⟩
    by_cases at_ : w' = w
    · subst at_
      simp [shape, EventStage.waiter]
    · rw [setWaiter_of_ne at_]
      exact once.resolve_right (by simpa [chosen] using Ne.symm at_)
  dsimp only at staged ⊢
  split at staged
  · rename_i all
    rw [if_pos all]
    apply h.of_kept staged rfl rfl rfl rfl rfl call?.symm (by simp [SignalSection.chosen])
    · rw [line]
      exact List.Sublist.refl _
    · intro w' _ _ member
      rwa [line] at member
    · exact fun w' _ => grows w'
    · exact signaled
    · intro call' at_
      obtain rfl : call = call' := Option.some.inj (call?.symm.trans at_)
      constructor
      · exact inProgress.before
      · exact fun w' bound' pending => inProgress.found w' bound' (value w' ▸ pending)
      · intro w' member
        obtain ⟨older, fate⟩ := inProgress.accounted w' member
        exact ⟨older, fate.imp (value w').trans fun rest => rest.imp_right (timedOut w').trans⟩
      · intro w' member
        obtain ⟨found, woken, once⟩ := scheduled w' member
        exact ⟨found, (signaled w').trans woken, .inl once⟩
      · exact fun one => absurd all (by simp [one])
  · rename_i one
    rw [if_neg one]
    have single : call.woken = [w] := by
      rw [inProgress.single (by simpa using one), chosen]
      rfl
    apply h.of_completed call? rfl rfl staged rfl rfl rfl line.symm (fun w' _ => grows w') value
      signaled h.unclaimed
    · simp [one, single, Event.complete, setWaiter]
    · constructor
      · exact fun w' member => (inProgress.accounted w' member).1
      · intro w' member
        obtain ⟨found, woken, once⟩ := scheduled w' member
        exact ⟨found, (signaled w').trans woken, once⟩
      · exact fun _ => .inl ⟨w, single, inProgress.before.symm⟩
      · exact fun all => absurd all one

theorem Conserved.leave (h : s.Conserved initially) (popping : s.lockSection = .popping call)
    (queue : s.waitAwakes = []) : (s.leave call).Conserved initially := by
  have call? : s.lockSection.call? = some call := by simp [popping, SignalSection.call?]
  have chosen : s.lockSection.chosen = none := by simp [popping, SignalSection.chosen]
  have line : s.line = [] := by simp [Event.line, popping, queue, SignalSection.offered]
  have inProgress := h.current call call?
  have nobody : ∀ w, w < s.created → (s.waiters w).value = false := by
    intro w bound
    by_contra pending
    have member := h.inLine w bound (by simpa using pending)
    rw [line] at member
    exact List.not_mem_nil member
  have fate : ∀ w ∈ call.pending, w ∈ call.woken ∨ (s.waiters w).timedOut = true := by
    intro w member
    obtain ⟨older, fate⟩ := inProgress.accounted w member
    exact fate.resolve_left (by simp [nobody w older])
  have woken : ∀ w ∈ call.woken, w ∈ call.pending ∧ (s.waiters w).signaled = true ∧
      (s.waiters w).scheduled = 1 := by
    intro w member
    obtain ⟨found, woken, once⟩ := inProgress.woken w member
    exact ⟨found, woken, once.resolve_right (by simp [chosen])⟩
  have older : ∀ w ∈ call.pending, w < s.created :=
    fun w member => (inProgress.accounted w member).1
  unfold Event.leave
  split
  · rename_i all
    apply h.of_completed (t := s.complete call) call? rfl rfl ?_ rfl rfl rfl
      (queue.trans line.symm) (fun _ _ => .refl _) (fun _ => rfl) (fun _ => rfl) fun _ => nobody
    · simp [all, Event.complete]
    · constructor
      · exact older
      · exact woken
      · exact fun one => absurd all (by simp [one])
      · exact fun _ => ⟨inProgress.before.symm, fate⟩
    · exact h.staged.of_quiet rfl rfl rfl chosen.symm
  · rename_i one
    have none_ : call.woken = [] := by
      rw [inProgress.single (by simpa using one), chosen]
      rfl
    apply h.of_completed (t := Event.complete { s with toEventImpl := (s.fetchAdd 1).2 } call)
      call? rfl rfl ?_ rfl rfl rfl (queue.trans line.symm) (fun _ _ => .refl _) (fun _ => rfl)
      (fun _ => rfl) fun _ => nobody
    · simp [one, none_, Event.complete, EventImpl.fetchAdd]
    · constructor
      · exact older
      · exact woken
      · intro _
        refine .inr ⟨none_, congrArg (· + 1) inProgress.before.symm, fun w member => ?_⟩
        exact (fate w member).resolve_left (by simp [none_])
      · exact fun all => absurd all one
    · exact h.staged.of_quiet rfl rfl rfl chosen.symm

theorem Conserved.of_waiter {waiter : EventWaiter} {queue : List Nat} (h : s.Conserved initially)
    (staged : AllStaged { s.setWaiter w waiter with runQueue := queue })
    (grows : Grows (s.waiters w) waiter) (signaled : waiter.signaled = (s.waiters w).signaled)
    (lost : (s.waiters w).value = true → waiter.value = true ∨ waiter.timedOut = true) :
    Conserved initially { s.setWaiter w waiter with runQueue := queue } := by
  apply h.of_quiet staged rfl rfl rfl rfl rfl rfl rfl (List.Sublist.refl _)
  · exact fun _ _ _ member => member
  · exact fun w' _ => grows_setWaiter grows w'
  · intro w'
    show ((s.setWaiter w waiter).waiters w').signaled = _
    by_cases same : w' = w
    · subst same
      rwa [setWaiter_self]
    · rw [setWaiter_of_ne same]
  · intro w' _ pending
    show ((s.setWaiter w waiter).waiters w').value = true ∨
      ((s.setWaiter w waiter).waiters w').timedOut = true
    by_cases same : w' = w
    · subst same
      rw [setWaiter_self]
      exact lost pending
    · rw [setWaiter_of_ne same]
      exact .inl pending

theorem Conserved.timeout (h : s.Conserved initially) (bound : w < s.created) :
    (s.timeout w).Conserved initially := by
  have staged := h.staged.timeout bound
  cases value : (s.waiters w).value with
  | true =>
      rw [timeout_of_pending value] at staged ⊢
      apply h.of_waiter staged
      · exact ⟨by simp, id, by simp, Nat.le_refl _⟩
      · rfl
      · exact fun _ => .inr rfl
  | false => rwa [timeout_of_claimed value]

theorem Conserved.erase (h : s.Conserved initially) (free : s.lockSection = .free)
    (claimed : (s.waiters w).value = false) :
    Conserved initially { s with toEventImpl := if (s.waiters w).event then
      s.toEventImpl.removeWaitList w else s.toEventImpl } := by
  split
  · refine h.of_quiet (h.staged.of_quiet rfl rfl rfl rfl) rfl rfl rfl rfl rfl rfl rfl ?_ ?_
      (fun _ _ => .refl _) (fun _ => rfl) fun _ _ value => .inl value
    · rw [line_of_free free, line_of_free (by exact free)]
      exact List.erase_sublist
    · intro w' _ pending member
      rw [line_of_free free] at member
      rw [line_of_free (by exact free)]
      have other : w' ≠ w := by
        rintro rfl
        exact absurd (claimed.symm.trans pending) Bool.false_ne_true
      exact (List.mem_erase_of_ne other).mpr member
  · exact h

theorem Conserved.unlink (h : s.Conserved initially) (bound : w < s.created)
    (claimed : (s.waiters w).expiry = .claimed) (free : s.lockSection = .free) :
    (s.unlink w).Conserved initially := by
  obtain ⟨stage, one⟩ := h.staged.1 w bound
  cases one.claimed_of_expiry claimed
  obtain ⟨handler, timed, shape⟩ := one.shape
  have marked : Conserved initially (s.setWaiter w { s.waiters w with expiry := .unlinked }) := by
    apply h.of_waiter
    · have staged := h.staged.unlink bound claimed
      rw [unlink_eq] at staged
      exact staged.of_quiet rfl rfl rfl rfl
    · exact ⟨id, id, id, Nat.le_refl _⟩
    · rfl
    · exact .inl
  have erased := marked.erase (w := w) free (by simp [shape, EventStage.waiter])
  rw [setWaiter_self] at erased
  rw [unlink_eq]
  exact erased

theorem Conserved.finishTimeout (h : s.Conserved initially) (bound : w < s.created)
    (unlinked : (s.waiters w).expiry = .unlinked) : (s.finishTimeout w).Conserved initially := by
  have staged := h.staged.finishTimeout bound unlinked
  obtain ⟨stage, one⟩ := h.staged.1 w bound
  cases one.unlinked_of_expiry unlinked
  obtain ⟨handler, timed, shape⟩ := one.shape
  have coro : (s.waiters w).coro = some handler := by simp [shape, EventStage.waiter]
  rw [finishTimeout_of_coro coro] at staged ⊢
  apply h.of_waiter staged
  · exact ⟨id, id, id, Nat.le_succ _⟩
  · rfl
  · exact .inl

theorem Conserved.resume (h : s.Conserved initially) (member : w ∈ s.runQueue) :
    (s.resume w).Conserved initially := by
  have staged := h.staged.resume member
  obtain ⟨stage, one⟩ := h.staged.1 w (h.staged.2 w member)
  obtain ⟨handler, timed, shape⟩ := one.shape
  have coro : (s.waiters w).coro = some handler := by
    rcases one.of_queued member with rfl | rfl <;> simp [shape, EventStage.waiter]
  rw [resume_of_coro coro] at staged ⊢
  apply h.of_waiter staged
  · exact ⟨id, id, id, Nat.le_refl _⟩
  · rfl
  · exact .inl

theorem Conserved.destroy (h : s.Conserved initially) (bound : w < s.created)
    (finished : (s.waiters w).results ≠ []) (free : s.lockSection = .free) :
    (s.destroy w).Conserved initially := by
  obtain ⟨stage, one⟩ := h.staged.1 w bound
  obtain ⟨handler, timed, shape⟩ := one.shape
  rw [destroy_eq]
  apply h.erase free
  rw [shape] at finished ⊢
  cases stage <;> simp_all [EventStage.waiter]

theorem Conserved.step {action : EventAction} (h : s.Conserved initially)
    (action_ : Event.step s action = some t) : t.Conserved initially := by
  cases effect_of_step action_ with
  | awaitReady free => exact h.awaitReady free
  | awaitSuspend handler timed free => exact h.awaitSuspend free handler timed
  | signal free => exact h.beginSignal free false
  | signalAll free => exact h.beginSignal free true
  | pop call w rest popping queue => exact h.pop popping queue
  | notify call w offering => exact h.notify offering
  | finishNotify call w notifying => exact h.finishNotify notifying
  | leave call popping queue => exact h.leave popping queue
  | timeout w older timer => exact h.timeout older
  | removeWaitList w older claimed free => exact h.unlink older claimed free
  | finishTimeout w older unlinked => exact h.finishTimeout older unlinked
  | resume w member => exact h.resume member
  | destroy w older finished free => exact h.destroy older finished free

theorem conserved_of_reachable (reachable : (system initially).Reachable s) :
    s.Conserved initially := by
  induction reachable with
  | init => exact Conserved.initial
  | step _ _ action ih => exact ih.step action

/-! ## What a waiter sees -/

def Waiting (s : Event) (w : Nat) : Prop :=
  w < s.created ∧ (s.waiters w).signaled = false ∧ (s.waiters w).timedOut = false

theorem AllStaged.waiting_iff (all : s.AllStaged) :
    s.Waiting w ↔ w < s.created ∧ (s.waiters w).value = true := by
  refine and_congr_right fun bound => ?_
  obtain ⟨stage, staged⟩ := all.1 w bound
  obtain ⟨handler, timed, shape⟩ := staged.shape
  rw [shape]
  cases stage <;> simp [EventStage.waiter]

structure Answered (s : Event) (w : Nat) : Prop where
  exclusive : ¬ ((s.waiters w).signaled = true ∧ (s.waiters w).timedOut = true)
  scheduledOnce : (s.waiters w).scheduled ≤ 1
  unscheduled : s.Waiting w → (s.waiters w).scheduled = 0
  signaled : (s.waiters w).signaled = true →
    (s.waiters w).scheduled = 1 ∨ s.lockSection.chosen = some w
  timedOut : (s.waiters w).timedOut = true →
    (s.waiters w).scheduled = 1 ∨ (s.waiters w).expiry ≠ .idle
  once : (s.waiters w).results.length ≤ (s.waiters w).scheduled
  result : ∀ answer ∈ (s.waiters w).results,
    (answer = true ↔ (s.waiters w).signaled = true) ∧
    (answer = false ↔ (s.waiters w).timedOut = true)

theorem AllStaged.answered (all : s.AllStaged) (bound : w < s.created) : s.Answered w := by
  obtain ⟨stage, staged⟩ := all.1 w bound
  obtain ⟨handler, timed, shape⟩ := staged.shape
  have chosen := staged.chosen
  constructor <;> simp only [Waiting, shape, chosen] <;> cases stage <;> simp [EventStage.waiter]

theorem Conserved.wakes_of_step {action : EventAction} (h : s.Conserved initially)
    (action_ : Event.step s action = some t) : t.wakes = s.wakes ∨
      ∃ w, t.wakes = s.wakes ++ [w] ∧ s.Waiting w ∧ ∀ w', s.Waiting w' → w ≤ w' := by
  cases effect_of_step action_ with
  | awaitSuspend handler timed free =>
      left
      unfold Event.awaitSuspend
      dsimp only
      split <;> rfl
  | notify call w offering =>
      have line : s.line = w :: s.waitAwakes := by
        simp [Event.line, offering, SignalSection.offered]
      cases value : (s.waiters w).value with
      | true =>
          right
          have order := h.order
          rw [line, List.pairwise_cons] at order
          refine ⟨w, by rw [notify_of_pending value], ?_, fun w' waiting => ?_⟩
          · exact h.staged.waiting_iff.mpr ⟨h.bounded w (by simp [line]), value⟩
          · obtain ⟨bound, pending⟩ := h.staged.waiting_iff.mp waiting
            have member := h.inLine w' bound pending
            rw [line] at member
            rcases List.mem_cons.mp member with rfl | later
            · exact Nat.le_refl _
            · exact Nat.le_of_lt (order.1 w' later)
      | false => exact .inl (by rw [notify_of_claimed value])
  | finishNotify call w notifying =>
      left
      unfold Event.finishNotify schedule
      dsimp only
      split <;> split <;> rfl
  | leave call popping queue =>
      left
      unfold Event.leave
      split <;> rfl
  | timeout w older timer =>
      left
      unfold Event.timeout
      split <;> rfl
  | removeWaitList w older claimed free => exact .inl (by rw [unlink_eq]; rfl)
  | finishTimeout w older unlinked =>
      left
      unfold Event.finishTimeout schedule
      split <;> rfl
  | resume w member =>
      left
      unfold Event.resume
      dsimp only
      split <;> rfl
  | destroy w older finished free => exact .inl (by rw [destroy_eq])
  | _ => exact .inl rfl

theorem Conserved.nobody_of_leave (h : s.Conserved initially)
    (popping : s.lockSection = .popping call) (queue : s.waitAwakes = []) : ¬ s.Waiting w := by
  intro waiting
  obtain ⟨bound, value⟩ := h.staged.waiting_iff.mp waiting
  have member := h.inLine w bound value
  simp [line, popping, queue, SignalSection.offered] at member

structure SignalsKept (initially : Bool) (s : Event) : Prop where
  found : ∀ w, w ∈ s.pending ↔ s.Waiting w
  delivered : ∀ completed ∈ s.calls, s.Delivered completed.1 completed.2
  earliest : ∀ action t, step s action = some t → t.wakes = s.wakes ∨
    ∃ w, t.wakes = s.wakes ++ [w] ∧ s.Waiting w ∧ ∀ w', s.Waiting w' → w ≤ w'
  exhausted : ∀ t, step s .leave = some t → ∀ w, ¬ s.Waiting w
  wokenOnce : s.wakes.Nodup
  recorded : s.wakes = (s.calls.flatMap fun completed => completed.1.woken) ++
    s.lockSection.call?.elim [] SignalCall.woken
  signaled : ∀ w, w ∈ s.wakes ↔ w < s.created ∧ (s.waiters w).signaled = true
  unclaimed : 0 < s.counter → ∀ w, ¬ s.Waiting w
  answered : ∀ w, w < s.created → s.Answered w
  ledger : (initial initially).counter + s.signals = s.counter + s.satisfied

theorem signals_kept (initially : Bool) (s : Event) (reachable : (system initially).Reachable s) :
    s.SignalsKept initially := by
  have h := conserved_of_reachable reachable
  refine ⟨?_, h.delivered, fun _ _ => h.wakes_of_step, ?_, h.wokenOnce, h.recorded, h.wakes, ?_,
    fun _ => h.staged.answered, h.ledger⟩
  · intro w
    rw [h.staged.waiting_iff, pending, List.mem_filter, List.mem_range]
  · intro t action w
    cases effect_of_step action with
    | leave call popping queue => exact h.nobody_of_leave popping queue
  · intro positive w waiting
    obtain ⟨bound, value⟩ := h.staged.waiting_iff.mp waiting
    exact absurd value (by simp [h.unclaimed positive w bound])

/-- A signal whose waiter times out before its compare-exchange goes to the next waiter. -/
theorem signals_kept_passed_on : ∃ s, (system false).Reachable s ∧
    s.wakes = [1] ∧ s.SignalsKept false := by
  obtain ⟨s, reachable, woken⟩ := (system false).reachable_of_replay
    [.awaitSuspend 7 true, .awaitSuspend 8 false, .signal, .pop, .timeout 0, .notify, .pop,
      .notify, .finishNotify] (fun s => s.wakes == [1]) (by decide)
  exact ⟨s, reachable, by simpa using woken, signals_kept false s reachable⟩

end Librf.Event
