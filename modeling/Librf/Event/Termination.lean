import Librf.Base.Fading
import Librf.Batch.Alone
import Librf.Event.Locks
import Librf.Event.Waiters

/-!
# The suspension in `wait_all`

One thread suspends while no other thread holds the lock of an event of its list.
-/

namespace Librf

open Batch

namespace JoinThread

def states : JoinThread → List Nat
  | notifyEntry _ _ proxy | notifying _ _ proxy => [proxy.state]
  | locking st _ _ | enlisting st _ | unlocking st _ _ | timeoutEntry st | sweeping st _
  | removeEntry st _ _ _ | removing st _ _ _ | timeoutExit st => [st]
  | _ => []

end JoinThread

theorem StateEventAll.enlist_queue (st' : Nat) (rest : List Nat) (idx : Nat)
    (events : Nat → EventImpl Proxy) (state : StateEventAll) (e : Nat) (proxy : Proxy)
    (member : proxy ∈ ((state.enlist (Proxy.mk st') rest idx events).1 e).waitAwakes) :
    proxy ∈ (events e).waitAwakes ∨ proxy.state = st' := by
  induction rest generalizing idx events state with
  | nil => exact .inl member
  | cons e' rest ih =>
      rw [enlist] at member
      split at member
      · rcases ih _ _ _ member with before | own
        · rcases eq_or_ne e e' with rfl | other
          · rw [Function.update_self, Event.tryWaitOne_waitAwakes] at before
            exact .inl before
          · rw [Function.update_of_ne other] at before
            exact .inl before
        · exact .inr own
      · rcases ih _ _ _ member with before | own
        · rcases eq_or_ne e e' with rfl | other
          · rw [Function.update_self, EventImpl.addWaitList, Event.tryWaitOne_waitAwakes] at before
            rcases List.mem_append.1 before with before | added
            · exact .inl before
            · rw [List.mem_singleton.1 added]
              exact .inr rfl
          · rw [Function.update_of_ne other] at before
            exact .inl before
        · exact .inr own

namespace Joins

variable {s t : Joins} {p q st : Nat} {events : List Nat} {l : JoinLock} {among : Nat → Prop}

/-- Neither the given threads nor the queues name the state. -/
structure Unknown (among : Nat → Prop) (st : Nat) (s : Joins) : Prop where
  threads : ∀ q, among q → st ∉ (s.threads q).states
  queues : ∀ e, ∀ proxy ∈ (s.events e).waitAwakes, proxy.state ≠ st

theorem Unknown.goTo (h : Unknown among st s) {thread : JoinThread} (names : st ∉ thread.states) :
    Unknown among st (s.goTo q thread) where
  threads r member := by
    rcases eq_or_ne r q with rfl | other
    · rwa [goTo_self]
    · rw [goTo_of_ne other]
      exact h.threads r member
  queues := h.queues

theorem Unknown.setEvent {e : Nat} {event : EventImpl Proxy} (h : Unknown among st s)
    (queue : ∀ proxy ∈ event.waitAwakes, proxy ∈ (s.events e).waitAwakes) :
    Unknown among st (s.setEvent e event) where
  threads := h.threads
  queues e' proxy member := by
    rcases eq_or_ne e' e with rfl | other
    · simp only [Joins.setEvent, Function.update_self] at member
      exact h.queues e' proxy (queue proxy member)
    · simp only [Joins.setEvent, Function.update_of_ne other] at member
      exact h.queues e' proxy member

theorem Unknown.setLocks (h : Unknown among st s) (locks : JoinLock → Spinlock) :
    Unknown among st { s with locks } := ⟨h.threads, h.queues⟩

theorem Unknown.release (h : Unknown among st s) (l : JoinLock) : Unknown among st (s.release l) :=
  ⟨h.threads, h.queues⟩

theorem Unknown.setState (h : Unknown among st s) (st' : Nat) (state : StateEventAll) :
    Unknown among st (s.setState st' state) := ⟨h.threads, h.queues⟩

theorem Unknown.acquire {f : Joins → Joins} (h : Unknown among st s)
    (action : (s.acquire p l).map f = some t)
    (goesOn : ∀ u, Unknown among st u → Unknown among st (f u)) :
    Unknown among st t := by
  obtain ⟨u, acquired, rfl⟩ := Option.map_eq_some_iff.1 action
  obtain ⟨locks, rfl⟩ := acquire_eq acquired
  exact goesOn _ (h.setLocks locks)

theorem Unknown.call {st' : Nat} {o : LockOp} (h : Unknown among st s)
    (thread : Ending o.answer → JoinThread)
    (action : (s.call p st' events o).map (fun ends => ends.2.goTo p (thread ends.1)) = some t)
    (names : ∀ result, st ∉ (thread result).states) : Unknown among st t := by
  obtain ⟨⟨result, u⟩, called, rfl⟩ := Option.map_eq_some_iff.1 action
  obtain ⟨locks, rfl⟩ := call_eq called
  exact (h.setLocks locks).goTo (names result)

theorem Unknown.next (h : Unknown among st s) (names : st ∉ (s.threads q).states)
    (action : s.next q = some t) : Unknown among st t := by
  cases control : s.threads q with
  | idle => simp [Joins.next, control] at action
  | signalEntry e all =>
      simp only [Joins.next, control] at action
      exact h.acquire action fun u unknown => unknown.goTo List.not_mem_nil
  | notifyEntry e all proxy =>
      simp only [Joins.next, control] at action
      rw [control] at names
      exact h.acquire action fun u unknown => unknown.goTo names
  | removeEntry st' rest idx e =>
      simp only [Joins.next, control] at action
      rw [control] at names
      exact h.acquire action fun u unknown => unknown.goTo names
  | signaling e all =>
      simp only [Joins.next, control, Option.some.injEq] at action
      subst action
      unfold Joins.signaling
      split
      · rename_i proxy rest queue
        have here : proxy ∈ (s.events e).waitAwakes := by simp [queue]
        refine Unknown.goTo (h.setEvent fun proxy' member => ?_) ?_
        · rw [queue]
          exact List.mem_cons_of_mem _ member
        · simpa [JoinThread.states] using (h.queues e proxy here).symm
      · split
        · exact h.goTo List.not_mem_nil
        · refine Unknown.goTo ?_ List.not_mem_nil
          exact h.setEvent fun proxy member => member
  | notifying e all proxy =>
      simp only [Joins.next, control, Option.some.injEq] at action
      subst action
      refine ((h.setState _ _).release _).goTo ?_
      split <;> exact List.not_mem_nil
  | signalExit e | timeoutExit st' =>
      simp only [Joins.next, control, Option.some.injEq] at action
      subst action
      exact (h.release _).goTo List.not_mem_nil
  | locking st' events program =>
      rw [control] at names
      cases program with
      | call o next =>
          simp only [Joins.next, control] at action
          exact h.call (fun result => .locking st' events (next result)) action fun _ => names
      | halt result =>
          rcases result with (label | value) | _ <;>
            simp only [Joins.next, control, Option.some.injEq] at action <;> subst action
          · exact h.goTo names
          · exact h.goTo names
          · exact h.goTo List.not_mem_nil
  | enlisting st' events =>
      simp only [Joins.next, control, Option.some.injEq] at action
      subst action
      rw [control] at names
      have other : st ≠ st' := by simpa [JoinThread.states] using names
      refine Unknown.goTo ?_ names
      refine ⟨h.threads, fun e proxy member => ?_⟩
      rcases StateEventAll.enlist_queue st' events 0 s.events _ e proxy member with before | own
      · exact h.queues e proxy before
      · rw [own]
        exact other.symm
  | unlocking st' events program =>
      rw [control] at names
      cases program with
      | call o next =>
          simp only [Joins.next, control] at action
          exact h.call (fun result => .unlocking st' events (next result)) action fun _ => names
      | halt result =>
          simp only [Joins.next, control, Option.some.injEq] at action
          subst action
          exact h.goTo List.not_mem_nil
  | timeoutEntry st' =>
      simp only [Joins.next, control] at action
      rw [control] at names
      refine h.acquire action fun u unknown => ?_
      unfold Joins.timeoutEntry
      split
      · exact unknown.goTo names
      · exact (unknown.setState _ _).goTo names
  | sweeping st' rest =>
      simp only [Joins.next, control, Option.some.injEq] at action
      subst action
      rw [control] at names
      unfold Joins.sweeping
      split
      · exact (h.setState _ _).goTo names
      · dsimp only
        split
        · exact (h.setState _ _).goTo names
        · exact (h.setState _ _).goTo names
  | removing st' rest idx e =>
      simp only [Joins.next, control, Option.some.injEq] at action
      subst action
      rw [control] at names
      refine Unknown.goTo (Unknown.release ?_ _) names
      exact h.setEvent fun proxy member => List.mem_of_mem_erase member

theorem Unknown.waitAll {handler : Nat} {timed : Bool} (h : Unknown among st s)
    (created : st ≠ s.created) : Unknown among st (s.waitAll q events handler timed) := by
  have elsewhere : st ∉ (JoinThread.locking s.created events
      (lockRange (lockesOf s.created events).length)).states := by
    simpa [JoinThread.states] using created
  exact ⟨(h.goTo elsewhere).threads, h.queues⟩

theorem Unknown.timeout {st' : Nat} {state : StateEventAll} (h : Unknown among st s)
    (other : st ≠ st') : Unknown among st ((s.setState st' state).goTo q (.timeoutEntry st')) :=
  (h.setState _ _).goTo (by simpa [JoinThread.states] using other)

theorem unknown_of_reachable {counters : Nat → Int} (reachable : (system counters).Reachable s)
    (later : s.created ≤ st) : Unknown (fun _ => True) st s := by
  induction reachable with
  | init => exact ⟨fun _ _ => List.not_mem_nil, fun _ _ member => by cases member⟩
  | @step s t action _ _ action_ ih =>
      cases calls_of_step action_ with
      | next q _ action =>
          have before := ih ((frames_of_next action).created ▸ later)
          exact before.next (before.threads q trivial) action
      | signal q e all idle => exact (ih later).goTo List.not_mem_nil
      | waitAll q events handler timed idle =>
          have earlier : s.created < st := later
          exact (ih (Nat.le_of_lt earlier)).waitAll (Nat.ne_of_gt earlier)
      | timeout q st' idle old own =>
          have earlier : s.created ≤ st := later
          exact (ih later).timeout (by omega)

/-! ## Who holds the lock of a state -/

theorem unlisted_of_listed {locks : List JoinLock} (unlisted : l ∉ locks) :
    (0 + listed locks 0 locks.length) l = 0 := by
  rw [zero_add, listed_all]
  exact List.count_eq_zero_of_not_mem unlisted

theorem unlisted_of_turning {locks : List JoinLock} (unlisted : l ∉ locks)
    {result : Ending (Retry ⊕ Unit)} {hold : JoinLock → Nat} (turning : Turning locks 0 result hold) :
    hold l = 0 := by
  rcases result with ((label | hardLock) | value) | _
  · exact congrFun turning.1 l
  · exact congrFun turning.1 l
  · exact congrFun (turning : hold = _) l ▸ unlisted_of_listed unlisted
  · exact congrFun (turning : hold = 0) l

theorem unlisted_of_restored (l : JoinLock) {result : Ending Unit} {hold : JoinLock → Nat}
    (restored : Restored 0 result hold) : hold l = 0 := by
  cases result with
  | returned value => exact congrFun (restored : hold = 0) l
  | raised => exact restored.elim

theorem mem_states_of_holds {thread : JoinThread} {hold : JoinLock → Nat}
    (follows : thread.Follows hold) (holds : 0 < hold (.state st)) : st ∈ thread.states := by
  by_contra names
  refine Nat.ne_of_gt holds ?_
  have unlisted (st' : Nat) (events : List Nat) (other : st ≠ st') :
      .state st ∉ lockesOf st' events := by
    simpa [lockesOf] using other
  cases thread with
  | idle | signalEntry e all | timeoutEntry st' => exact congrFun (follows : hold = 0) _
  | signaling e all | notifyEntry e all proxy | signalExit e =>
      rw [show hold = raise 0 (.event e) from follows]
      simp [raise]
  | notifying e all proxy =>
      rw [show hold = raise (raise 0 (.event e)) (.state proxy.state) from follows]
      have other : st ≠ proxy.state := by simpa [JoinThread.states] using names
      simp [raise, other]
  | locking st' events program =>
      have other : st ≠ st' := by simpa [JoinThread.states] using names
      exact eq_zero_of_meets (unlisted st' events other)
        (fun _ _ => unlisted_of_turning (unlisted st' events other)) follows
  | enlisting st' events =>
      have other : st ≠ st' := by simpa [JoinThread.states] using names
      rw [show hold = _ from follows]
      exact unlisted_of_listed (unlisted st' events other)
  | unlocking st' events program =>
      have other : st ≠ st' := by simpa [JoinThread.states] using names
      exact eq_zero_of_meets (unlisted st' events other) (fun _ _ => unlisted_of_restored _) follows
  | sweeping st' rest | removeEntry st' rest idx e | timeoutExit st' =>
      rw [show hold = raise 0 (.state st') from follows]
      have other : st ≠ st' := by simpa [JoinThread.states] using names
      simp [raise, other]
  | removing st' rest idx e =>
      rw [show hold = raise (raise 0 (.state st')) (.event e) from follows]
      have other : st ≠ st' := by simpa [JoinThread.states] using names
      simp [raise, other]

/-! ## One suspension -/

end Joins

def JoinAction.thread : JoinAction → Nat
  | signal p _ _ | waitAll p _ _ _ | timeout p _ | next p => p

namespace JoinThread

def isLocking : JoinThread → Bool
  | locking _ _ _ => true
  | _ => false

inductive Suspends (st : Nat) (events : List Nat) : JoinThread → Prop
  | locking (program : LockProgram (Retry ⊕ Unit)) (quiet : program.Quiet) :
      Suspends st events (.locking st events program)
  | enlisting : Suspends st events (.enlisting st events)
  | unlocking (first count : Nat) (within : first + count = (lockesOf st events).length) :
      Suspends st events (.unlocking st events (unlockLocks first count))
  | idle : Suspends st events .idle

end JoinThread

namespace Joins

def Clear (s : Joins) (p : Nat) (events : List Nat) : Prop :=
  ∀ e ∈ events, ∀ q, q ≠ p → (s.locks (.event e)).holds q = 0

/-- The other threads leave the locks of the events alone while `p` takes them, and `p` calls
nothing else. -/
def Unhindered (p : Nat) (events : List Nat) (s : Joins) (action : JoinAction) : Prop :=
  ((s.threads p).isLocking = true → s.Clear p events) ∧ (action.thread = p → action = .next p)

structure Suspending (p st : Nat) (events : List Nat) (s : Joins) : Prop where
  following : s.Following
  place : (s.threads p).Suspends st events
  old : st < s.created
  own : (s.states st).thread = p
  unknown : (s.threads p).isLocking = true → Unknown (· ≠ p) st s

variable {s t : Joins} {p q st : Nat} {events : List Nat} {l : JoinLock}

theorem Suspending.exclusive {program : LockProgram (Retry ⊕ Unit)} (h : Suspending p st events s)
    (control : s.threads p = .locking st events program) (clear : s.Clear p events)
    (listed : l ∈ lockesOf st events) (other : q ≠ p) : s.view q l = 0 := by
  rcases List.mem_append.1 listed with event | state
  · obtain ⟨e, member, rfl⟩ := List.mem_map.1 event
    exact clear e member q other
  · obtain rfl := List.mem_singleton.1 state
    by_contra held
    have knows := mem_states_of_holds (h.following q) (Nat.pos_of_ne_zero held)
    exact (h.unknown (by rw [control]; rfl)).threads q other knows

theorem holds_le_one (k : Spinlock) (p : Nat) : k.holds p ≤ 1 := by
  unfold Spinlock.holds
  split <;> omega

theorem view_le_one (s : Joins) (p : Nat) (l : JoinLock) : s.view p l ≤ 1 :=
  holds_le_one (s.locks l) p

theorem alone_of_call {o : LockOp} {result : Ending o.answer}
    (exclusive : ∀ l ∈ lockesOf st events, ∀ q, q ≠ p → s.view q l = 0)
    (called : s.call p st events o = some (result, t)) :
    alone (lockesOf st events) (s.view p) o = (result, t.view p) := by
  obtain ⟨⟨result', locks, handed⟩, ran, ends⟩ := Option.map_eq_some_iff.mp called
  cases ends
  cases o with
  | lockRef i =>
      simp only [LockModel.run, Option.bind_eq_some_iff, Option.ite_none_right_eq_some,
        Option.some.injEq, Prod.mk.injEq] at ran
      obtain ⟨l, at_, locked, rfl, rfl, -⟩ := ran
      have taken := view_of_tryLock (M := spinlock) locked p
      rw [if_pos rfl] at taken
      simp [alone, at_, taken]
  | tryLockRef i =>
      simp only [LockModel.run, Option.map_eq_some_iff, Prod.mk.injEq] at ran
      obtain ⟨l, at_, rfl, rfl, -⟩ := ran
      cases owner : (s.locks l).ownerThreadId with
      | none =>
          have locked : (spinlock.tryLock (s.locks l) p).1 = true := by
            simp [spinlock, Spinlock.tryLock, owner]
          have free : s.view p l = 0 := by
            simp [LockModel.view, spinlock, Spinlock.holds, owner]
          have taken := view_of_tryLock (M := spinlock) locked p
          rw [if_pos rfl] at taken
          simp [alone, at_, free, locked, taken]
      | some q =>
          have held : s.view q l = 1 := by
            simp [LockModel.view, spinlock, Spinlock.holds, owner]
          obtain rfl : q = p := by
            by_contra other
            rw [exclusive l (List.mem_of_getElem? at_) q other] at held
            cases held
          have refused : spinlock.tryLock (s.locks l) q = (false, s.locks l) := by
            simp [spinlock, Spinlock.tryLock, owner]
          simp [alone, at_, held, refused]
  | unlockRef i =>
      simp only [LockModel.run, Option.map_eq_some_iff, Prod.mk.injEq] at ran
      obtain ⟨l, at_, rfl, rfl, -⟩ := ran
      have most := view_le_one s p l
      have free : s.view p l - 1 = 0 := by omega
      have released : spinlock.view p (Function.update s.locks l (spinlock.unlock (s.locks l) p).1) =
          lower (s.view p) l := by
        rw [view_update, lower, free]
        rfl
      simp [alone, at_, released]
  | yield =>
      cases ran
      rfl

theorem exists_call {o : LockOp}
    (exclusive : ∀ l ∈ lockesOf st events, ∀ q, q ≠ p → s.view q l = 0)
    (requires : (Batch.holding (lockesOf st events) 0).requires (s.view p) o) :
    ∃ result t, s.call p st events o = some (result, t) := by
  cases o with
  | lockRef i =>
      obtain ⟨bound, empty⟩ := requires
      obtain ⟨l, at_⟩ := exists_at bound
      have free : (s.locks l).ownerThreadId = none := by
        by_contra taken
        obtain ⟨q, owner⟩ := Option.ne_none_iff_exists'.1 taken
        have held : s.view q l = 1 := by
          simp [LockModel.view, spinlock, Spinlock.holds, owner]
        rcases eq_or_ne q p with rfl | other
        · rw [empty] at held
          cases held
        · rw [exclusive l (List.mem_of_getElem? at_) q other] at held
          cases held
      simp [Joins.call, LockModel.run, at_, spinlock, Spinlock.tryLock, free]
  | tryLockRef i =>
      obtain ⟨l, at_⟩ : ∃ l, (lockesOf st events)[i]? = some l := exists_at requires
      simp [Joins.call, LockModel.run, at_]
  | unlockRef i =>
      obtain ⟨l, at_, -⟩ := requires
      simp [Joins.call, LockModel.run, at_]
  | yield => exact ⟨_, _, rfl⟩

inductive Advances (p st : Nat) (events : List Nat) (s t : Joins) : Prop
  | call (o : LockOp) (next : Ending o.answer → LockProgram (Retry ⊕ Unit)) (value : o.answer)
      (control : s.threads p = .locking st events (.call o next))
      (answers : alone (lockesOf st events) (s.view p) o = (.returned value, t.view p))
      (now : t.threads p = .locking st events (next (.returned value)))
      (queues : t.events = s.events)
  | again (label : Retry) (control : s.threads p = .locking st events (.halt (.returned (.inl label))))
      (view : t.view p = s.view p)
      (now : t.threads p = .locking st events (retry (lockesOf st events).length label))
      (queues : t.events = s.events)
  | locked (control : s.threads p = .locking st events (.halt (.returned (.inr ()))))
      (now : t.threads p = .enlisting st events)
  | enlisted (control : s.threads p = .enlisting st events)
      (now : t.threads p = .unlocking st events (unlockLocks 0 (lockesOf st events).length))
  | unlocked (first count : Nat) (within : first + (count + 1) = (lockesOf st events).length)
      (control : s.threads p = .unlocking st events (unlockLocks first (count + 1)))
      (now : t.threads p = .unlocking st events (unlockLocks (first + 1) count))
  | done (first : Nat) (control : s.threads p = .unlocking st events (unlockLocks first 0))
      (now : t.threads p = .idle)

theorem alone_returns {ι : Type} [DecidableEq ι] (locks : List ι) (hold : ι → Nat) (o : LockOp) :
    ∃ value, (alone locks hold o).1 = .returned value := by
  cases o with
  | tryLockRef i =>
      simp only [alone]
      split
      · split <;> exact ⟨_, rfl⟩
      · exact ⟨_, rfl⟩
  | _ => exact ⟨(), rfl⟩

theorem call_unlockRef {i : Nat} (bound : i < (lockesOf st events).length) :
    ∃ t, s.call p st events (.unlockRef i) = some (.returned (), t) := by
  obtain ⟨l, at_⟩ := exists_at bound
  simp [Joins.call, LockModel.run, at_]

theorem Suspending.exists_next (h : Suspending p st events s)
    (clear : (s.threads p).isLocking = true → s.Clear p events) (busy : s.threads p ≠ .idle) :
    ∃ t, s.next p = some t ∧ Advances p st events s t := by
  have place := h.place
  have follows := h.following p
  generalize control : s.threads p = thread at place follows
  cases place with
  | idle => exact absurd control busy
  | enlisting =>
      refine ⟨s.enlisting p st events, ?_, .enlisted control (goTo_self _)⟩
      simp only [Joins.next, control]
  | unlocking first count within =>
      cases count with
      | zero =>
          refine ⟨s.goTo p .idle, ?_, .done first control (goTo_self _)⟩
          have program : unlockLocks first 0 = .halt (.returned ()) := rfl
          simp only [Joins.next, control, program]
      | succ count =>
          have bound : first < (lockesOf st events).length := by omega
          obtain ⟨u, called⟩ : ∃ u, s.call p st events (.unlockRef first) = some (.returned (), u) :=
            call_unlockRef bound
          refine ⟨u.goTo p (.unlocking st events (unlockLocks (first + 1) count)), ?_,
            .unlocked first count within control (goTo_self _)⟩
          have program : unlockLocks first (count + 1) = .call (.unlockRef first) fun result =>
            (Program.halt result).bind fun _ => unlockLocks (first + 1) count := rfl
          simp only [Joins.next, control, program, called]
          rfl
  | locking program quiet =>
      have clear := clear (by rw [control]; rfl)
      cases program with
      | call o next =>
          have exclusive : ∀ l ∈ lockesOf st events, ∀ q, q ≠ p → s.view q l = 0 :=
            fun l listed q other => h.exclusive control clear listed other
          obtain ⟨result, u, called⟩ := exists_call exclusive follows.1
          have answers := alone_of_call exclusive called
          obtain ⟨value, returns⟩ := alone_returns (lockesOf st events) (s.view p) o
          rw [answers] at returns
          obtain rfl : result = .returned value := returns
          refine ⟨u.goTo p (.locking st events (next (.returned value))), ?_, ?_⟩
          · simp [Joins.next, control, called]
          · obtain ⟨locks, rfl⟩ := call_eq called
            exact .call o next value control answers (goTo_self _) rfl
      | halt result =>
          rcases result with (label | ⟨⟩) | _
          · refine ⟨s.goTo p (.locking st events (retry (lockesOf st events).length label)), ?_,
              .again label control rfl (goTo_self _) rfl⟩
            simp only [Joins.next, control]
          · refine ⟨s.goTo p (.enlisting st events), ?_, .locked control (goTo_self _)⟩
            simp only [Joins.next, control]
          · exact quiet.elim

theorem Suspending.advances (h : Suspending p st events s)
    (clear : (s.threads p).isLocking = true → s.Clear p events) (action : s.next p = some t) :
    Advances p st events s t := by
  have busy : s.threads p ≠ .idle := by
    intro idle
    simp [Joins.next, idle] at action
  obtain ⟨t', action', advances⟩ := h.exists_next clear busy
  obtain rfl : t' = t := Option.some.inj (action'.symm.trans action)
  exact advances

theorem Suspending.next (h : Suspending p st events s)
    (clear : (s.threads p).isLocking = true → s.Clear p events) (action : s.next p = some t) :
    Suspending p st events t := by
  have frames := frames_of_next action
  have unknown (locking : (s.threads p).isLocking = true) (queues : t.events = s.events) :
      Unknown (· ≠ p) st t := by
    constructor
    · intro q other
      rw [frames.threads q other]
      exact (h.unknown locking).threads q other
    · rw [queues]
      exact (h.unknown locking).queues
  have place := h.place
  constructor
  · exact h.following.next action
  · cases h.advances clear action with
    | call o next value control _ now _ =>
        rw [control] at place
        rw [now]
        cases place with
        | locking _ quiet => exact .locking _ (quiet value)
    | again label control _ now _ =>
        rw [now]
        exact .locking _ (quiet_retry _ label)
    | locked control now =>
        rw [now]
        exact .enlisting
    | enlisted control now =>
        rw [now]
        exact .unlocking 0 _ (Nat.zero_add _)
    | unlocked first count within control now =>
        rw [now]
        exact .unlocking (first + 1) count (by omega)
    | done first control now =>
        rw [now]
        exact .idle
  · rw [frames.created]
    exact h.old
  · rw [frames.thread]
    exact h.own
  · intro locking
    cases h.advances clear action with
    | call o next value control _ _ queues => exact unknown (by rw [control]; rfl) queues
    | again label control _ _ queues => exact unknown (by rw [control]; rfl) queues
    | locked control now => rw [now] at locking; cases locking
    | enlisted control now => rw [now] at locking; cases locking
    | unlocked first count within control now => rw [now] at locking; cases locking
    | done first control now => rw [now] at locking; cases locking

structure Foreign (p : Nat) (s t : Joins) : Prop where
  control : t.threads p = s.threads p
  view : t.view p = s.view p

theorem foreign_of_step {action : JoinAction} (h : s.Following) (other : action.thread ≠ p)
    (action_ : Joins.step s action = some t) : Foreign p s t := by
  cases calls_of_step action_ with
  | next q _ action =>
      have moves := moves_of_next h action
      exact ⟨moves.threads p (Ne.symm other), moves.view p (Ne.symm other)⟩
  | signal q e all idle => exact ⟨goTo_of_ne (Ne.symm other), rfl⟩
  | waitAll q events handler timed idle => exact ⟨goTo_of_ne (Ne.symm other), rfl⟩
  | timeout q st idle old own => exact ⟨goTo_of_ne (Ne.symm other), rfl⟩

theorem Suspending.foreign {action : JoinAction} (h : Suspending p st events s)
    (other : action.thread ≠ p) (action_ : Joins.step s action = some t) :
    Suspending p st events t := by
  have foreign := foreign_of_step h.following other action_
  have following := h.following.step action_
  have place : (t.threads p).Suspends st events := by
    rw [foreign.control]
    exact h.place
  have locking : (t.threads p).isLocking = true → (s.threads p).isLocking = true := by
    rw [foreign.control]
    exact id
  cases calls_of_step action_ with
  | next q _ action =>
      have frames := frames_of_next action
      refine ⟨following, place, ?_, ?_, fun locks => ?_⟩
      · rw [frames.created]
        exact h.old
      · rw [frames.thread]
        exact h.own
      · have unknown := h.unknown (locking locks)
        exact unknown.next (unknown.threads q other) action
  | signal q e all idle =>
      refine ⟨following, place, h.old, h.own, fun locks => ?_⟩
      exact (h.unknown (locking locks)).goTo List.not_mem_nil
  | waitAll q events handler timed idle =>
      have created : st ≠ s.created := Nat.ne_of_lt h.old
      refine ⟨following, place, Nat.lt_succ_of_lt h.old, ?_, fun locks => ?_⟩
      · simpa [Joins.waitAll, Function.update_of_ne created] using h.own
      · exact (h.unknown (locking locks)).waitAll created
  | timeout q st' idle old own =>
      have different : st ≠ st' := by
        rintro rfl
        exact other (own.symm.trans h.own)
      refine ⟨following, place, h.old, ?_, fun locks => ?_⟩
      · simpa [Joins.setState, goTo, Function.update_of_ne different] using h.own
      · exact (h.unknown (locking locks)).timeout different

theorem Suspending.step {action : JoinAction} (h : Suspending p st events s)
    (unhindered : Unhindered p events s action) (action_ : Joins.step s action = some t) :
    Suspending p st events t := by
  by_cases mine : action.thread = p
  · obtain rfl := unhindered.2 mine
    exact h.next unhindered.1 action_
  · exact h.foreign mine action_

theorem suspending_waitAll {counters : Nat → Int} {handler : Nat} {timed : Bool}
    (reachable : (system counters).Reachable s) (idle : s.threads p = .idle) :
    Suspending p s.created events (s.waitAll p events handler timed) := by
  have place : (s.waitAll p events handler timed).threads p = .locking s.created events _ :=
    goTo_self _
  have fresh := unknown_of_reachable reachable (Nat.le_refl _)
  constructor
  · exact (following_of_reachable reachable).waitAll idle
  · rw [place]
    exact .locking _ (quiet_lockRange _)
  · exact Nat.lt_succ_self _
  · simp [Joins.waitAll]
  · intro _
    constructor
    · intro q other
      have same : (s.waitAll p events handler timed).threads q = s.threads q := goTo_of_ne other
      rw [same]
      exact fresh.threads q trivial
    · exact fresh.queues

end Joins

/-! ## Distinct events -/

theorem nodup_lockesOf (st : Nat) {events : List Nat} :
    (lockesOf st events).Nodup ↔ events.Nodup := by
  have injective : Function.Injective JoinLock.event := fun _ _ same => JoinLock.event.inj same
  simp [lockesOf, List.nodup_append, List.nodup_map_iff injective]

namespace JoinThread

def work (hold : JoinLock → Nat) : JoinThread → Nat
  | locking st events (.halt (.returned (.inl label))) =>
      ((retry (lockesOf st events).length label).exec (alone (lockesOf st events)) hold).calls +
        (lockesOf st events).length + 4
  | locking st events program =>
      (program.exec (alone (lockesOf st events)) hold).calls + (lockesOf st events).length + 3
  | enlisting st events => (lockesOf st events).length + 2
  | unlocking st events program => (program.exec (alone (lockesOf st events)) hold).calls + 1
  | _ => 0

def Succeeding (hold : JoinLock → Nat) : JoinThread → Prop
  | locking st events program => Succeeds (lockesOf st events) program hold ∨
      ∃ label, program = pure (.inl label) ∧
        Succeeds (lockesOf st events) (retry (lockesOf st events).length label) hold
  | _ => True

end JoinThread

theorem not_succeeds_again {locks : List JoinLock} {label : Retry} {hold : JoinLock → Nat} :
    ¬ Succeeds locks (.halt (.returned (.inl label))) hold := by
  rintro ⟨_, returned, _⟩
  cases returned

theorem succeeds_of_call {locks : List JoinLock} {o : LockOp} {value : o.answer}
    {next : Ending o.answer → LockProgram (Retry ⊕ Unit)} {hold after : JoinLock → Nat}
    (answers : alone locks hold o = (.returned value, after))
    (succeeds : Succeeds locks (.call o next) hold) :
    Succeeds locks (next (.returned value)) after := by
  obtain ⟨last, returned⟩ := succeeds
  simp only [Program.Returns, Program.exec, answers] at returned
  exact ⟨last, returned⟩

theorem work_of_succeeds {st : Nat} {events : List Nat} {program : LockProgram (Retry ⊕ Unit)}
    {hold : JoinLock → Nat} (succeeds : Succeeds (lockesOf st events) program hold) :
    (JoinThread.locking st events program).work hold =
      (program.exec (alone (lockesOf st events)) hold).calls + (lockesOf st events).length + 3 := by
  cases program with
  | call o next => rfl
  | halt result =>
      rcases result with (label | value) | _
      · exact absurd succeeds not_succeeds_again
      · rfl
      · rfl

theorem work_unlocking {st : Nat} {events : List Nat} (first count : Nat) (hold : JoinLock → Nat) :
    (JoinThread.unlocking st events (unlockLocks first count)).work hold = count + 1 :=
  congrArg (· + 1) (calls_unlockLocks first count)

namespace Joins

variable {s t : Joins} {p q st : Nat} {events : List Nat} {l : JoinLock}

theorem Advances.succeeding (h : Advances p st events s t)
    (succeeding : (s.threads p).Succeeding (s.view p)) :
    (t.threads p).Succeeding (t.view p) := by
  cases h with
  | call o next value control answers now queues =>
      rw [control] at succeeding
      rw [now]
      rcases succeeding with succeeds | ⟨label, program, -⟩
      · exact .inl (succeeds_of_call answers succeeds)
      · cases program
  | again label control view now queues =>
      rw [control] at succeeding
      rw [now, view]
      rcases succeeding with again | ⟨label', program, succeeds⟩
      · exact absurd again not_succeeds_again
      · cases program
        exact .inl succeeds
  | locked control now => rw [now]; trivial
  | enlisted control now => rw [now]; trivial
  | unlocked first count within control now => rw [now]; trivial
  | done first control now => rw [now]; trivial

theorem Advances.work_falls (h : Advances p st events s t)
    (succeeding : (s.threads p).Succeeding (s.view p)) :
    (t.threads p).work (t.view p) < (s.threads p).work (s.view p) := by
  cases h with
  | call o next value control answers now queues =>
      rw [control] at succeeding ⊢
      rw [now]
      rcases succeeding with succeeds | ⟨label, program, -⟩
      · rw [work_of_succeeds succeeds, work_of_succeeds (succeeds_of_call answers succeeds)]
        simp only [Program.exec, answers]
        omega
      · cases program
  | again label control view now queues =>
      rw [control] at succeeding ⊢
      rw [now, view]
      rcases succeeding with again | ⟨label', program, succeeds⟩
      · exact absurd again not_succeeds_again
      · cases program
        rw [work_of_succeeds succeeds]
        exact Nat.lt_succ_self _
  | locked control now =>
      rw [now, control]
      show _ < 0 + _ + 3
      simp only [JoinThread.work]
      omega
  | enlisted control now =>
      rw [now, control, work_unlocking]
      exact Nat.lt_succ_self _
  | unlocked first count within control now =>
      rw [now, control, work_unlocking, work_unlocking]
      exact Nat.lt_succ_self _
  | done first control now =>
      rw [now, control, work_unlocking]
      exact Nat.lt_succ_self _

/-- From here on the suspension of `p` is undisturbed and the first attempt succeeds. -/
structure Finishing (p st : Nat) (events : List Nat) (s : Joins) : Prop where
  suspending : Suspending p st events s
  succeeding : (s.threads p).Succeeding (s.view p)

theorem Finishing.step {action : JoinAction} (h : Finishing p st events s)
    (unhindered : Unhindered p events s action) (action_ : Joins.step s action = some t) :
    Finishing p st events t ∧ (t.threads p).work (t.view p) ≤ (s.threads p).work (s.view p) ∧
      (action = .next p → (t.threads p).work (t.view p) < (s.threads p).work (s.view p)) := by
  have suspending := h.suspending.step unhindered action_
  by_cases mine : action.thread = p
  · obtain rfl := unhindered.2 mine
    have advances := h.suspending.advances unhindered.1 action_
    have falls := advances.work_falls h.succeeding
    exact ⟨⟨suspending, advances.succeeding h.succeeding⟩, Nat.le_of_lt falls, fun _ => falls⟩
  · have foreign := foreign_of_step h.suspending.following mine action_
    rw [foreign.control, foreign.view]
    refine ⟨⟨suspending, ?_⟩, Nat.le_refl _, ?_⟩
    · rw [foreign.control, foreign.view]
      exact h.succeeding
    · rintro rfl
      exact absurd rfl mine

theorem finishing_waitAll {counters : Nat → Int} {handler : Nat} {timed : Bool}
    (reachable : (system counters).Reachable s) (idle : s.threads p = .idle)
    (nodup : events.Nodup) : Finishing p s.created events (s.waitAll p events handler timed) := by
  refine ⟨suspending_waitAll reachable idle, ?_⟩
  have place : (s.waitAll p events handler timed).threads p = .locking s.created events _ :=
    goTo_self _
  have empty : (s.waitAll p events handler timed).view p = 0 :=
    (following_of_reachable reachable).empty idle
  rw [place, empty]
  exact succeeds_lockRange ((nodup_lockesOf _).2 nodup)

/-! ## An event that is listed twice -/

theorem Suspending.nodup_of_locked (h : Suspending p st events s)
    (control : s.threads p = .locking st events (.halt (.returned (.inr ())))) : events.Nodup := by
  have follows := h.following p
  rw [control] at follows
  have all : s.view p = 0 + listed (lockesOf st events) 0 (lockesOf st events).length := follows
  refine (nodup_lockesOf st).1 (List.nodup_iff_count_le_one.2 fun l => ?_)
  have most := view_le_one s p l
  rwa [all, zero_add, listed_all] at most

structure Spinning (p st : Nat) (events : List Nat) (s : Joins) : Prop where
  suspending : Suspending p st events s
  locking : (s.threads p).isLocking = true
  clear : s.Clear p events

theorem Spinning.next (h : Spinning p st events s) (twice : ¬ events.Nodup) :
    ∃ t, s.next p = some t ∧ Spinning p st events t := by
  have busy : s.threads p ≠ .idle := by
    intro idle
    have locking := h.locking
    rw [idle] at locking
    cases locking
  obtain ⟨t, action, advances⟩ := h.suspending.exists_next (fun _ => h.clear) busy
  have moves := moves_of_next h.suspending.following action
  refine ⟨t, action, h.suspending.next (fun _ => h.clear) action, ?_, ?_⟩
  · have locking := h.locking
    cases advances with
    | call o next value control answers now queues => rw [now]; rfl
    | again label control view now queues => rw [now]; rfl
    | locked control now => exact absurd (h.suspending.nodup_of_locked control) twice
    | enlisted control now => rw [control] at locking; cases locking
    | unlocked first count within control now => rw [control] at locking; cases locking
    | done first control now => rw [control] at locking; cases locking
  · intro e member q other
    have same := congrFun (moves.view q other) (.event e)
    exact same.trans (h.clear e member q other)

/-! ## When the suspension ends -/

structure Terminates (M : Transition.System Joins JoinAction) (p : Nat) (events : List Nat)
    (s : Joins) : Prop where
  goesOn : ∀ t, (M.after s).ReachableBy (Unhindered p events) t →
    ((t.threads p).isLocking = true → t.Clear p events) → t.threads p ≠ .idle →
    ∃ u, M.step t (.next p) = some u
  finite : ∀ run : (M.after s).Endless (Unhindered p events) s,
    {i | run.events i = .next p}.Finite

theorem suspending_of_reachableBy {counters : Nat → Int} (h : Suspending p st events s)
    (reached : ((system counters).after s).ReachableBy (Unhindered p events) t) :
    Suspending p st events t := by
  induction reached with
  | init => exact h
  | step _ unhindered action ih => exact ih.step unhindered action

theorem finishing_of_reachableBy {counters : Nat → Int} (h : Finishing p st events s)
    (reached : ((system counters).after s).ReachableBy (Unhindered p events) t) :
    Finishing p st events t := by
  induction reached with
  | init => exact h
  | step _ unhindered action ih => exact (ih.step unhindered action).1

theorem Finishing.terminates {counters : Nat → Int} (h : Finishing p st events s) :
    Terminates (system counters) p events s where
  goesOn t reached clear busy := by
    obtain ⟨u, action, -⟩ := (suspending_of_reachableBy h.suspending reached).exists_next clear busy
    exact ⟨u, action⟩
  finite run := by
    refine run.finite (fun s => (s.threads p).work (s.view p)) (· = .next p) .init ?_
    intro s' action t reached unhindered action_
    exact ((finishing_of_reachableBy h reached).step unhindered action_).2

theorem Spinning.not_terminates {counters : Nat → Int} (h : Spinning p st events s)
    (twice : ¬ events.Nodup) : ¬ Terminates (system counters) p events s := by
  intro terminates
  obtain ⟨run, always⟩ := ((system counters).after s).exists_endless (Unhindered p events)
    (.next p) h fun s' spinning => ⟨⟨fun _ => spinning.clear, fun _ => rfl⟩, spinning.next twice⟩
  have finite := terminates.finite run
  have everything : {i | run.events i = .next p} = Set.univ := Set.eq_univ_of_forall always
  rw [everything] at finite
  exact Set.infinite_univ finite

theorem spinning_waitAll {counters : Nat → Int} {handler : Nat} {timed : Bool}
    (reachable : (system counters).Reachable s) (idle : s.threads p = .idle)
    (clear : s.Clear p events) :
    Spinning p s.created events (s.waitAll p events handler timed) := by
  refine ⟨suspending_waitAll reachable idle, ?_, clear⟩
  have place : (s.waitAll p events handler timed).threads p = .locking s.created events _ :=
    goTo_self _
  rw [place]
  rfl

/-- The suspension ends if and only if no event is listed twice. -/
theorem wait_all_terminates (counters : Nat → Int) (s : Joins)
    (reachable : (system counters).Reachable s) (p : Nat) (idle : s.threads p = .idle)
    (events : List Nat) (clear : s.Clear p events) (handler : Nat) (timed : Bool) :
    Terminates (system counters) p events (s.waitAll p events handler timed) ↔ events.Nodup := by
  constructor
  · intro terminates
    by_contra twice
    exact (spinning_waitAll reachable idle clear).not_terminates twice terminates
  · intro nodup
    exact (finishing_waitAll reachable idle nodup).terminates

theorem wait_all_terminates_distinct :
    Terminates (system fun _ => 0) 0 [0, 1] ((system fun _ => 0).init.waitAll 0 [0, 1] 7 true) :=
  (wait_all_terminates (fun _ => 0) _ .init 0 rfl [0, 1] (fun _ _ _ _ => rfl) 7 true).2 (by decide)

theorem wait_all_spins : ∃ s, (system fun _ => 0).Reachable s ∧ s.threads 0 = .idle ∧
    s.Clear 0 [0, 0] ∧ ¬ Terminates (system fun _ => 0) 0 [0, 0] (s.waitAll 0 [0, 0] 7 false) := by
  have clear : (system fun _ => 0).init.Clear 0 [0, 0] := fun _ _ _ _ => rfl
  exact ⟨_, .init, rfl, clear, (spinning_waitAll .init rfl clear).not_terminates (by decide)⟩

end Joins

end Librf
