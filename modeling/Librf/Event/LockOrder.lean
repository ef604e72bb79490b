import Librf.Base.WaitsFor
import Librf.Event.Locks

/-!
# The lock order of `wait_all`

A signal locks an event and then the state of a waiter; `on_timeout` locks the state and then the
events.
-/

namespace Librf

open Batch

namespace Joins

def wants? (s : Joins) (p : Nat) : Option JoinLock :=
  match s.threads p with
  | .signalEntry e _ | .removeEntry _ _ _ e => some (.event e)
  | .notifyEntry _ _ proxy => some (.state proxy.state)
  | .timeoutEntry st => some (.state st)
  | .locking st events (.call (.lockRef i) _) => (lockesOf st events)[i]?
  | _ => none

def contention (s : Joins) : Contention Nat JoinLock where
  holds p l := 0 < (s.locks l).holds p
  wants p l := s.wants? p = some l

end Joins

/-! ## Races -/

namespace JoinThread

/-- A signal that has taken a proxy of `st` out of its queue waits for the lock of `st`. -/
def offers (st : Nat) : JoinThread → Bool
  | notifyEntry _ _ proxy => proxy.state == st
  | _ => false

/-- `on_timeout` takes the proxies of `st` out of the queues. -/
def sweeps (st : Nat) : JoinThread → Bool
  | sweeping st' _ | removeEntry st' _ _ _ | removing st' _ _ _ => st' == st
  | _ => false

def rank : JoinThread → Nat
  | signalEntry _ _ | timeoutEntry _ | locking _ _ (.call (.lockRef _) _) => 3
  | removeEntry _ _ _ _ => 2
  | notifyEntry _ _ _ => 1
  | _ => 0

end JoinThread

namespace Joins

variable {s t : Joins} {p q : Nat} {l : JoinLock}

structure Apart (s : Joins) : Prop where
  follows : ∀ p, (s.threads p).Follows (s.view p)
  apart : ∀ p q st, (s.threads p).offers st = true → (s.threads q).sweeps st = false

/-- The steps that do not start the race: a signal takes no proxy of a state out of a queue while
`on_timeout` of that state does, and `on_timeout` does not start to while a signal waits for the
state. -/
def Ordered (s : Joins) : JoinAction → Prop
  | .next p => match s.threads p with
      | .signaling e _ => ∀ proxy, (s.events e).waitAwakes.head? = some proxy →
          ∀ q, (s.threads q).sweeps proxy.state = false
      | .timeoutEntry st =>
          0 < (s.states st).counter → ∀ q, (s.threads q).offers st = false
      | _ => True
  | _ => True

inductive Goes (s : Joins) (p : Nat) : JoinThread → Prop
  | offer (e : Nat) (all : Bool) (proxy : Proxy) (signaling : s.threads p = .signaling e all)
      (first : (s.events e).waitAwakes.head? = some proxy) : Goes s p (.notifyEntry e all proxy)
  | sweep (st : Nat) (rest : List Nat) (entry : s.threads p = .timeoutEntry st)
      (positive : 0 < (s.states st).counter) : Goes s p (.sweeping st rest)
  | goOn (thread : JoinThread) (offers : ∀ st, thread.offers st = false)
      (sweeps : ∀ st, thread.sweeps st = true → (s.threads p).sweeps st = true) : Goes s p thread

theorem Goes.quiet {thread : JoinThread} (offers : ∀ st, thread.offers st = false)
    (sweeps : ∀ st, thread.sweeps st = false) : Goes s p thread :=
  .goOn thread offers fun st swept => by
    rw [sweeps st] at swept
    cases swept

theorem Goes.acquire {f : Joins → Joins} (action : (s.acquire p l).map f = some t)
    (goes : ∀ locks, Goes s p ((f { s with locks }).threads p)) : Goes s p (t.threads p) := by
  obtain ⟨u, acquired, rfl⟩ := Option.map_eq_some_iff.1 action
  obtain ⟨locks, rfl⟩ := acquire_eq acquired
  exact goes locks

theorem Goes.call {st : Nat} {events : List Nat} {o : LockOp}
    (thread : Ending o.answer → JoinThread)
    (action : (s.call p st events o).map (fun ends => ends.2.goTo p (thread ends.1)) = some t)
    (goes : ∀ result, Goes s p (thread result)) : Goes s p (t.threads p) := by
  obtain ⟨⟨result, u⟩, -, rfl⟩ := Option.map_eq_some_iff.1 action
  rw [goTo_self]
  exact goes result

theorem goes_of_next (action : s.next p = some t) : Goes s p (t.threads p) := by
  cases control : s.threads p with
  | idle => simp [Joins.next, control] at action
  | signalEntry e all | notifyEntry e all proxy =>
      simp only [Joins.next, control] at action
      refine .acquire action fun locks => ?_
      rw [goTo_self]
      exact .quiet (fun _ => rfl) fun _ => rfl
  | signaling e all =>
      simp only [Joins.next, control, Option.some.injEq] at action
      subst action
      unfold Joins.signaling
      split
      · rename_i proxy rest queue
        rw [goTo_self]
        exact .offer e all proxy control (by rw [queue]; rfl)
      · rw [goTo_self]
        exact .quiet (fun _ => rfl) fun _ => rfl
  | notifying e all proxy =>
      simp only [Joins.next, control, Option.some.injEq] at action
      subst action
      unfold Joins.notifying
      rw [goTo_self]
      split
      · exact .quiet (fun _ => rfl) fun _ => rfl
      · exact .quiet (fun _ => rfl) fun _ => rfl
  | signalExit e | timeoutExit st =>
      simp only [Joins.next, control, Option.some.injEq] at action
      subst action
      rw [goTo_self]
      exact .quiet (fun _ => rfl) fun _ => rfl
  | locking st events program =>
      cases program with
      | call o next =>
          simp only [Joins.next, control] at action
          exact .call (fun result => .locking st events (next result)) action fun _ =>
            .quiet (fun _ => rfl) fun _ => rfl
      | halt result =>
          rcases result with (label | value) | _ <;>
            · simp only [Joins.next, control, Option.some.injEq] at action
              subst action
              rw [goTo_self]
              exact .quiet (fun _ => rfl) fun _ => rfl
  | enlisting st events =>
      simp only [Joins.next, control, Option.some.injEq] at action
      subst action
      unfold Joins.enlisting
      rw [goTo_self]
      exact .quiet (fun _ => rfl) fun _ => rfl
  | unlocking st events program =>
      cases program with
      | call o next =>
          simp only [Joins.next, control] at action
          exact .call (fun result => .unlocking st events (next result)) action fun _ =>
            .quiet (fun _ => rfl) fun _ => rfl
      | halt result =>
          simp only [Joins.next, control, Option.some.injEq] at action
          subst action
          rw [goTo_self]
          exact .quiet (fun _ => rfl) fun _ => rfl
  | timeoutEntry st =>
      simp only [Joins.next, control] at action
      refine .acquire action fun locks => ?_
      unfold Joins.timeoutEntry
      split
      · rw [goTo_self]
        exact .quiet (fun _ => rfl) fun _ => rfl
      · rename_i state expired
        rw [goTo_self]
        refine .sweep st _ control ?_
        by_contra missing
        simp [StateEventAll.expire, Int.not_lt.mp missing] at expired
  | sweeping st rest =>
      have still (thread : JoinThread) (offers : ∀ st, thread.offers st = false)
          (same : ∀ st', thread.sweeps st' = (st == st')) : Goes s p thread := by
        refine .goOn thread offers fun st' swept => ?_
        rw [control]
        rwa [same] at swept
      simp only [Joins.next, control, Option.some.injEq] at action
      subst action
      unfold Joins.sweeping
      split
      · rw [goTo_self]
        exact .quiet (fun _ => rfl) fun _ => rfl
      · dsimp only
        split
        · rw [goTo_self]
          exact still _ (fun _ => rfl) fun _ => rfl
        · rw [goTo_self]
          exact still _ (fun _ => rfl) fun _ => rfl
  | removeEntry st rest idx e =>
      simp only [Joins.next, control] at action
      refine .acquire action fun locks => ?_
      rw [goTo_self]
      refine .goOn _ (fun _ => rfl) fun st' swept => ?_
      rwa [control]
  | removing st rest idx e =>
      simp only [Joins.next, control, Option.some.injEq] at action
      subst action
      rw [goTo_self]
      refine .goOn _ (fun _ => rfl) fun st' swept => ?_
      rwa [control]

theorem Apart.next (h : s.Apart) (ordered : s.Ordered (.next p)) (action : s.next p = some t) :
    t.Apart where
  follows := Following.next h.follows action
  apart a b st offers := by
    have frames := frames_of_next action
    have goes := goes_of_next action
    by_contra swept
    rw [Bool.not_eq_false] at swept
    by_cases first : a = p
    · subst first
      generalize now : t.threads a = thread at goes offers
      cases goes with
      | offer e all proxy signaling head =>
          obtain rfl : proxy.state = st := by simpa [JoinThread.offers] using offers
          simp only [Ordered, signaling] at ordered
          by_cases second : b = a
          · subst second
            rw [now] at swept
            cases swept
          · rw [frames.threads b second, ordered proxy head b] at swept
            cases swept
      | sweep st' rest entry positive => cases offers
      | goOn _ quiet sweeps =>
          rw [quiet] at offers
          cases offers
    · rw [frames.threads a first] at offers
      by_cases second : b = p
      · subst second
        generalize t.threads b = thread at goes swept
        cases goes with
        | offer e all proxy signaling head => cases swept
        | sweep st' rest entry positive =>
            obtain rfl : st' = st := by simpa [JoinThread.sweeps] using swept
            simp only [Ordered, entry] at ordered
            rw [ordered positive a] at offers
            cases offers
        | goOn _ quiet sweeps =>
            have before := sweeps st swept
            rw [h.apart a b st offers] at before
            cases before
      · rw [frames.threads b second, h.apart a b st offers] at swept
        cases swept

theorem Apart.goTo {thread : JoinThread} (h : s.Apart) (following : t.Following)
    (threads : t.threads = Function.update s.threads p thread)
    (offers : ∀ st, thread.offers st = false) (sweeps : ∀ st, thread.sweeps st = false) :
    t.Apart where
  follows := following
  apart a b st offer := by
    rw [threads] at offer ⊢
    by_cases first : a = p
    · subst first
      rw [Function.update_self, offers] at offer
      cases offer
    · rw [Function.update_of_ne first] at offer
      by_cases second : b = p
      · subst second
        rw [Function.update_self]
        exact sweeps st
      · rw [Function.update_of_ne second]
        exact h.apart a b st offer

theorem Apart.step {action : JoinAction} (h : s.Apart) (ordered : s.Ordered action)
    (action_ : Joins.step s action = some t) : t.Apart := by
  have following := Following.step h.follows action_
  cases calls_of_step action_ with
  | next p _ action => exact h.next ordered action
  | signal p e all idle => exact h.goTo (p := p) following rfl (fun _ => rfl) fun _ => rfl
  | waitAll p events handler timed idle =>
      exact h.goTo (p := p) following rfl (fun _ => rfl) fun _ => rfl
  | timeout p st idle old own => exact h.goTo (p := p) following rfl (fun _ => rfl) fun _ => rfl

theorem apart_of_reachableBy {counters : Nat → Int}
    (reachable : (system counters).ReachableBy Ordered s) : s.Apart := by
  induction reachable with
  | init =>
      constructor
      · exact fun _ => rfl
      · intro _ _ _ offer
        cases offer
  | step _ ordered action ih => exact ih.step ordered action

/-! ## No cycle -/

theorem rank_of_wants (wants : s.wants? p = some l) : (s.threads p).rank = 3 ∨
    ((s.threads p).rank = 2 ∧ ∃ e, l = .event e) ∨
    ((s.threads p).rank = 1 ∧ ∃ st, l = .state st ∧ (s.threads p).offers st = true) := by
  unfold wants? at wants
  split at wants
  · rename_i e all control
    exact .inl (by simp [control, JoinThread.rank])
  · rename_i st rest idx e control
    cases wants
    exact .inr (.inl ⟨by simp [control, JoinThread.rank], e, rfl⟩)
  · rename_i e all proxy control
    cases wants
    exact .inr (.inr ⟨by simp [control, JoinThread.rank], proxy.state, rfl,
      by simp [control, JoinThread.offers]⟩)
  · rename_i st control
    exact .inl (by simp [control, JoinThread.rank])
  · rename_i st events i next control
    exact .inl (by simp [control, JoinThread.rank])
  · cases wants

theorem eq_of_raise {l' : JoinLock} (holds : 0 < raise (0 : JoinLock → Nat) l' l) : l = l' := by
  by_contra other
  simp [raise, Function.update_of_ne other] at holds

theorem rank_of_holds {thread : JoinThread} {hold : JoinLock → Nat} (follows : thread.Follows hold)
    (holds : 0 < hold l) : thread.rank = 0 ∨
    (thread.rank = 2 ∧ ∃ st, l = .state st ∧ thread.sweeps st = true) ∨
    (thread.rank = 1 ∧ ∃ e, l = .event e) := by
  have empty : hold ≠ 0 := by
    rintro rfl
    exact Nat.lt_irrefl 0 holds
  cases thread with
  | signalEntry e all => exact absurd follows empty
  | timeoutEntry st => exact absurd follows empty
  | notifyEntry e all proxy =>
      rw [show hold = raise 0 (.event e) from follows] at holds
      exact .inr (.inr ⟨rfl, e, eq_of_raise holds⟩)
  | removeEntry st rest idx e =>
      rw [show hold = raise 0 (.state st) from follows] at holds
      exact .inr (.inl ⟨rfl, st, eq_of_raise holds, by simp [JoinThread.sweeps]⟩)
  | locking st events program =>
      cases program with
      | halt result => exact .inl rfl
      | call o next =>
          cases o with
          | lockRef i => exact absurd follows.1.2 empty
          | _ => exact .inl rfl
  | _ => exact .inl rfl

theorem Apart.rank_lt (h : s.Apart) (waits : s.contention.WaitsFor p q) :
    (s.threads q).rank < (s.threads p).rank := by
  obtain ⟨l, wants, holds⟩ := waits
  have holder := rank_of_holds (h.follows q) holds
  rcases rank_of_wants wants with entry | ⟨removal, e, rfl⟩ | ⟨offer, st, rfl, offers⟩
  · omega
  · rcases holder with free | ⟨-, st, clash, -⟩ | ⟨notify, -⟩
    · omega
    · cases clash
    · omega
  · rcases holder with free | ⟨-, st', same, sweeps⟩ | ⟨-, e, clash⟩
    · omega
    · cases same
      rw [h.apart p q st offers] at sweeps
      cases sweeps
    · cases clash

theorem lock_order_acyclic (counters : Nat → Int) (s : Joins)
    (reachable : (system counters).ReachableBy Ordered s) : ¬ s.contention.Deadlocked :=
  Contention.not_deadlocked_of_rank (fun p => (s.threads p).rank) fun _ _ =>
    (apart_of_reachableBy reachable).rank_lt

/-- A coroutine has suspended; a signal is in `on_notify` of its state, with both locks, when the
time-out comes for the state. -/
theorem lock_order_acyclic_waiting : ∃ s, (system fun _ => 0).ReachableBy Ordered s ∧
    s.contention.WaitsFor 0 1 ∧ ¬ s.contention.Deadlocked := by
  have start : (system fun _ => 0).ReachableBy Ordered _ := .init
  have locked := (((start.next (.waitAll 0 [0] 7 true) rfl trivial).next (.next 0) rfl trivial).next
    (.next 0) rfl trivial).next (.next 0) rfl trivial
  have suspended := ((((locked.next (.next 0) rfl trivial).next (.next 0) rfl trivial).next
    (.next 0) rfl trivial).next (.next 0) rfl trivial).next (.next 0) rfl trivial
  have signals := (suspended.next (.signal 1 0 false) rfl trivial).next (.next 1) rfl trivial
  have notifies := (signals.next (.next 1) rfl ?_).next (.next 1) rfl trivial
  have expires := notifies.next (.timeout 0 0) rfl trivial
  have held : 0 < 1 := Nat.one_pos
  exact ⟨_, expires, ⟨.state 0, rfl, held⟩, lock_order_acyclic _ _ expires⟩
  -- nobody removes the proxy that the signal takes
  · intro proxy _ q
    rcases q with _ | _ | q <;> rfl

/-- The signal holds the lock of the event and waits for that of the state, the time-out holds the
lock of the state and waits for that of the event. -/
theorem lock_order_cycle : ∃ s, (system fun _ => 0).Reachable s ∧ s.contention.Deadlocked := by
  obtain ⟨s, reachable, crossed⟩ := (system fun _ => 0).reachable_of_replay
    ([.waitAll 0 [0] 7 true] ++ List.replicate 8 (.next 0) ++
      [.timeout 0 0, .next 0, .signal 1 0 false, .next 1, .next 1, .next 0])
    (fun s => decide (s.wants? 0 = some (.event 0) ∧ s.wants? 1 = some (.state 0) ∧
      0 < (s.locks (.event 0)).holds 1 ∧ 0 < (s.locks (.state 0)).holds 0)) (by decide)
  obtain ⟨event, state, signal, timeout⟩ := of_decide_eq_true crossed
  refine ⟨s, reachable, 0, ?_⟩
  have waits : s.contention.WaitsFor 0 1 := ⟨.event 0, event, signal⟩
  have back : s.contention.WaitsFor 1 0 := ⟨.state 0, state, timeout⟩
  exact .tail (.single waits) back

end Joins

end Librf
