import Librf.Batch.Exact
import Librf.Event.All

/-!
# The locks of `wait_all`

Threads that signal events, suspend in `wait_all` and run its time-outs. Every acquisition and every
release of an event's `_lock` and of a state's `_lock` is a step of its own.
-/

namespace Librf

open Batch

inductive JoinLock
  | event (e : Nat)
  | state (st : Nat)
  deriving DecidableEq, Repr

structure Proxy where
  state : Nat
  index : Nat
  deriving DecidableEq, Repr

/-- Where a thread is. The names with `Entry` wait for a lock. -/
inductive JoinThread
  | idle
  -- `signal` and `signal_all`
  | signalEntry (e : Nat) (all : Bool)
  | signaling (e : Nat) (all : Bool)
  -- `on_notify`
  | notifyEntry (e : Nat) (all : Bool) (proxy : Proxy)
  | notifying (e : Nat) (all : Bool) (proxy : Proxy)
  | signalExit (e : Nat)
  -- `await_suspend2`
  | locking (st : Nat) (events : List Nat) (program : LockProgram (Retry ⊕ Unit))
  | enlisting (st : Nat) (events : List Nat)
  | unlocking (st : Nat) (events : List Nat) (program : LockProgram Unit)
  -- `on_timeout`, and its calls of `remove_wait_list`
  | timeoutEntry (st : Nat)
  | sweeping (st : Nat) (rest : List Nat)
  | removeEntry (st : Nat) (rest : List Nat) (idx e : Nat)
  | removing (st : Nat) (rest : List Nat) (idx e : Nat)
  | timeoutExit (st : Nat)

structure JoinState extends StateEventAll where
  -- the thread of its scheduler
  thread : Nat

inductive JoinAction
  | signal (p e : Nat) (all : Bool)
  -- `wait_all` or `wait_all_for`
  | waitAll (p : Nat) (events : List Nat) (handler : Nat) (timed : Bool)
  | timeout (p st : Nat)
  | next (p : Nat)
  deriving DecidableEq, Repr

structure Joins where
  locks : JoinLock → Spinlock := fun _ => {}
  events : Nat → EventImpl Proxy
  states : Nat → JoinState :=
    fun _ => { values := [], counter := 0, coro := none, timer := false, thread := 0 }
  created : Nat := 0
  threads : Nat → JoinThread := fun _ => .idle

def lockesOf (st : Nat) (events : List Nat) : List JoinLock := events.map .event ++ [.state st]

namespace Joins

def goTo (s : Joins) (p : Nat) (thread : JoinThread) : Joins :=
  { s with threads := Function.update s.threads p thread }

def setEvent (s : Joins) (e : Nat) (event : EventImpl Proxy) : Joins :=
  { s with events := Function.update s.events e event }

def setState (s : Joins) (st : Nat) (state : StateEventAll) : Joins :=
  { s with states := Function.update s.states st { s.states st with toStateEventAll := state } }

def acquire (s : Joins) (p : Nat) (l : JoinLock) : Option Joins :=
  let tried := (s.locks l).tryLock p
  if tried.1 then some { s with locks := Function.update s.locks l tried.2 } else none

def release (s : Joins) (l : JoinLock) : Joins :=
  { s with locks := Function.update s.locks l (s.locks l).unlock }

/-- One call of the batch lock. Spinlocks do not throw. -/
def call (s : Joins) (p st : Nat) (events : List Nat) (o : LockOp) :
    Option (Ending o.answer × Joins) :=
  (spinlock.run (lockesOf st events) s.locks p o false).map fun ends =>
    (ends.1, { s with locks := ends.2.1 })

def signaling (s : Joins) (p e : Nat) (all : Bool) : Joins :=
  match (s.events e).waitAwakes with
  | proxy :: rest =>
      (s.setEvent e { s.events e with waitAwakes := rest }).goTo p (.notifyEntry e all proxy)
  | [] =>
      (if all then s else s.setEvent e ((s.events e).fetchAdd 1).2).goTo p (.signalExit e)

def notifying (s : Joins) (p e : Nat) (all : Bool) (proxy : Proxy) : Joins :=
  let notified := (s.states proxy.state).onNotify proxy.index
  ((s.setState proxy.state notified.2).release (.state proxy.state)).goTo p
    (if notified.1 && !all then .signalExit e else .signaling e all)

/-- When no event is missing and no timer has a reference, the state is freed here, and the batch lock
then writes the `_lock` of the freed state. The model goes on with the state as it was left. -/
def enlisting (s : Joins) (p st : Nat) (events : List Nat) : Joins :=
  let enlisted := (s.states st).enlist (Proxy.mk st) events 0 s.events
  ({ s with events := enlisted.1 }.setState st enlisted.2).goTo p
    (.unlocking st events (unlockLocks 0 (lockesOf st events).length))

def timeoutEntry (s : Joins) (p st : Nat) : Joins :=
  match (s.states st).expire with
  | none => s.goTo p (.timeoutExit st)
  | some state =>
      (s.setState st state).goTo p (.sweeping st (List.range state.values.length))

def sweeping (s : Joins) (p st : Nat) : List Nat → Joins
  | [] => (s.setState st (s.states st).schedule).goTo p (.timeoutExit st)
  | idx :: rest =>
      let forgotten := (s.states st).forget idx
      (s.setState st forgotten.2).goTo p <| match forgotten.1 with
        | none => .sweeping st rest
        | some e => .removeEntry st rest idx e

def next (s : Joins) (p : Nat) : Option Joins :=
  match s.threads p with
  | .idle => none
  | .signalEntry e all => (s.acquire p (.event e)).map fun s => s.goTo p (.signaling e all)
  | .signaling e all => some (s.signaling p e all)
  | .notifyEntry e all proxy =>
      (s.acquire p (.state proxy.state)).map fun s => s.goTo p (.notifying e all proxy)
  | .notifying e all proxy => some (s.notifying p e all proxy)
  | .signalExit e => some ((s.release (.event e)).goTo p .idle)
  | .locking st events (.call o next) =>
      (s.call p st events o).map fun ends => ends.2.goTo p (.locking st events (next ends.1))
  | .locking st events (.halt (.returned (.inl label))) =>
      some (s.goTo p (.locking st events (retry (lockesOf st events).length label)))
  | .locking st events (.halt (.returned (.inr _))) => some (s.goTo p (.enlisting st events))
  | .locking _ _ (.halt .raised) => some (s.goTo p .idle)
  | .enlisting st events => some (s.enlisting p st events)
  | .unlocking st events (.call o next) =>
      (s.call p st events o).map fun ends => ends.2.goTo p (.unlocking st events (next ends.1))
  | .unlocking _ _ (.halt _) => some (s.goTo p .idle)
  | .timeoutEntry st => (s.acquire p (.state st)).map fun s => s.timeoutEntry p st
  | .sweeping st rest => some (s.sweeping p st rest)
  | .removeEntry st rest idx e =>
      (s.acquire p (.event e)).map fun s => s.goTo p (.removing st rest idx e)
  | .removing st rest idx e =>
      some (((s.setEvent e ((s.events e).removeWaitList ⟨st, idx⟩)).release (.event e)).goTo p
        (.sweeping st rest))
  | .timeoutExit st => some ((s.release (.state st)).goTo p .idle)

def waitAll (s : Joins) (p : Nat) (events : List Nat) (handler : Nat) (timed : Bool) : Joins :=
  { s.goTo p (.locking s.created events (lockRange (lockesOf s.created events).length)) with
      states := Function.update s.states s.created
        { StateEventAll.create events.length handler timed with thread := p }
      created := s.created + 1 }

def step (s : Joins) : JoinAction → Option Joins
  | .signal p e all => match s.threads p with
      | .idle => some (s.goTo p (.signalEntry e all))
      | _ => none
  | .waitAll p events handler timed => match s.threads p with
      | .idle => if events ≠ [] then some (s.waitAll p events handler timed) else none
      | _ => none
  -- A timer fires once, on the thread of its scheduler
  | .timeout p st => match s.threads p with
      | .idle =>
          if st < s.created ∧ (s.states st).thread = p ∧ (s.states st).timer = true then
            some ((s.setState st { s.states st with timer := false }).goTo p (.timeoutEntry st))
          else none
      | _ => none
  | .next p => s.next p

def system (counters : Nat → Int) : Transition.System Joins JoinAction where
  init := { events := fun e => { counter := counters e } }
  step := step

end Joins

/-! ## What each thread holds -/

namespace JoinThread

def Follows (hold : JoinLock → Nat) : JoinThread → Prop
  | idle | signalEntry _ _ | timeoutEntry _ => hold = 0
  | signaling e _ | notifyEntry e _ _ | signalExit e => hold = raise 0 (.event e)
  | notifying e _ proxy => hold = raise (raise 0 (.event e)) (.state proxy.state)
  | locking st events program => program.Meets (Batch.holding (lockesOf st events) 0)
      (Turning (lockesOf st events) 0) hold
  | enlisting st events =>
      hold = 0 + listed (lockesOf st events) 0 (lockesOf st events).length
  | unlocking st events program => program.Meets (Batch.holding (lockesOf st events) 0)
      (Restored 0) hold
  | sweeping st _ | removeEntry st _ _ _ | timeoutExit st => hold = raise 0 (.state st)
  | removing st _ _ e => hold = raise (raise 0 (.state st)) (.event e)

end JoinThread

namespace Joins

variable {s t : Joins} {p q : Nat} {l : JoinLock}

abbrev view (s : Joins) (p : Nat) : JoinLock → Nat := spinlock.view p s.locks

@[simp] theorem goTo_self (thread : JoinThread) : (s.goTo p thread).threads p = thread := by
  simp [goTo]

theorem goTo_of_ne {thread : JoinThread} (other : q ≠ p) :
    (s.goTo p thread).threads q = s.threads q := by
  simp [goTo, Function.update_of_ne other]

theorem view_acquire (acquired : s.acquire p l = some t) (q : Nat) :
    t.view q = (if q = p then raise (s.view q) l else s.view q) ∧ t.threads = s.threads := by
  simp only [acquire, Option.ite_none_right_eq_some, Option.some.injEq] at acquired
  obtain ⟨locked, rfl⟩ := acquired
  exact ⟨view_of_tryLock (M := spinlock) locked q, rfl⟩

theorem view_release (held : 0 < s.view p l) (q : Nat) :
    (s.release l).view q = if q = p then lower (s.view q) l else s.view q :=
  view_of_unlock (M := spinlock) held rfl q

theorem view_call {st : Nat} {events : List Nat} {o : LockOp} {result : Ending o.answer}
    (requires : (Batch.holding (lockesOf st events) 0).requires (s.view p) o)
    (called : s.call p st events o = some (result, t)) :
    (Batch.holding (lockesOf st events) 0).effect (s.view p) o result (t.view p) ∧
      (∀ q, q ≠ p → t.view q = s.view q) ∧ t.threads = s.threads := by
  obtain ⟨⟨result', locks, handed⟩, ran, ends⟩ := Option.map_eq_some_iff.mp called
  cases ends
  refine ⟨effect_of_calls requires (calls_of_run (fun _ => List.not_mem_nil) ran), ?_, rfl⟩
  intro q other
  show spinlock.view q locks = spinlock.view q s.locks
  cases turned_of_run ran with
  | same => rfl
  | locked l locked => rw [view_of_tryLock locked, if_neg other]
  | unlocked i l op at_ =>
      subst op
      obtain ⟨l', at', held⟩ := requires
      obtain rfl : l = l' := Option.some.inj (at_.symm.trans at')
      rw [view_of_unlock held rfl, if_neg other]

def Following (s : Joins) : Prop := ∀ p, (s.threads p).Follows (s.view p)

structure Moves (p : Nat) (s t : Joins) : Prop where
  threads : ∀ q, q ≠ p → t.threads q = s.threads q
  view : ∀ q, q ≠ p → t.view q = s.view q
  follows : (t.threads p).Follows (t.view p)

theorem Following.of_moves (h : s.Following) (moves : Moves p s t) : t.Following := by
  intro q
  by_cases same : q = p
  · exact same ▸ moves.follows
  · rw [moves.threads q same, moves.view q same]
    exact h q

theorem Moves.acquire {thread : JoinThread} {u : Joins} (acquired : s.acquire p l = some u)
    (locks : t.locks = u.locks) (threads : t.threads = Function.update u.threads p thread)
    (follows : thread.Follows (raise (s.view p) l)) : Moves p s t := by
  have view : ∀ q, t.view q = if q = p then raise (s.view q) l else s.view q := by
    intro q
    rw [← (view_acquire acquired q).1]
    exact congrArg (spinlock.view q) locks
  constructor
  · intro q other
    rw [threads, Function.update_of_ne other, (view_acquire acquired q).2]
  · intro q other
    rw [view, if_neg other]
  · rw [threads, Function.update_self, view, if_pos rfl]
    exact follows

theorem Moves.release {thread : JoinThread} (held : 0 < s.view p l)
    (locks : t.locks = (s.release l).locks)
    (threads : t.threads = Function.update s.threads p thread)
    (follows : thread.Follows (lower (s.view p) l)) : Moves p s t := by
  have view : ∀ q, t.view q = if q = p then lower (s.view q) l else s.view q := by
    intro q
    rw [← view_release held q]
    exact congrArg (spinlock.view q) locks
  constructor
  · intro q other
    rw [threads, Function.update_of_ne other]
  · intro q other
    rw [view, if_neg other]
  · rw [threads, Function.update_self, view, if_pos rfl]
    exact follows

theorem Moves.goOn {thread : JoinThread} (locks : t.locks = s.locks)
    (threads : t.threads = Function.update s.threads p thread)
    (follows : thread.Follows (s.view p)) : Moves p s t := by
  have view : ∀ q, t.view q = s.view q := fun q => congrArg (spinlock.view q) locks
  constructor
  · intro q other
    rw [threads, Function.update_of_ne other]
  · exact fun q _ => view q
  · rw [threads, Function.update_self, view]
    exact follows

theorem Moves.call {st : Nat} {events : List Nat} {o : LockOp} {result : Ending o.answer}
    {u : Joins} {thread : JoinThread}
    (requires : (Batch.holding (lockesOf st events) 0).requires (s.view p) o)
    (called : s.call p st events o = some (result, u))
    (follows : (Batch.holding (lockesOf st events) 0).effect (s.view p) o result (u.view p) →
      thread.Follows (u.view p)) : Moves p s (u.goTo p thread) := by
  obtain ⟨effect, view, threads⟩ := view_call requires called
  constructor
  · intro q other
    rw [goTo_of_ne other, threads]
  · exact view
  · rw [goTo_self]
    exact follows effect

theorem held_of_view {hold : JoinLock → Nat} (holds : s.view p = raise hold l) :
    0 < s.view p l := by
  rw [holds, raise, Function.update_self]
  exact Nat.succ_pos _

theorem moves_of_next (h : s.Following) (action : s.next p = some t) : Moves p s t := by
  have follows := h p
  cases control : s.threads p with
  | idle => simp [Joins.next, control] at action
  | signalEntry e all =>
      simp only [Joins.next, control, Option.map_eq_some_iff] at action
      obtain ⟨u, acquired, rfl⟩ := action
      rw [control] at follows
      have follows : s.view p = 0 := follows
      refine .acquire acquired rfl rfl ?_
      rw [follows]
      rfl
  | signaling e all =>
      simp only [Joins.next, control, Option.some.injEq] at action
      subst action
      rw [control] at follows
      unfold Joins.signaling
      split
      · exact .goOn rfl rfl follows
      · split <;> exact .goOn rfl rfl follows
  | notifyEntry e all proxy =>
      simp only [Joins.next, control, Option.map_eq_some_iff] at action
      obtain ⟨u, acquired, rfl⟩ := action
      rw [control] at follows
      have follows : s.view p = raise 0 (.event e) := follows
      refine .acquire acquired rfl rfl ?_
      rw [follows]
      rfl
  | notifying e all proxy =>
      simp only [Joins.next, control, Option.some.injEq] at action
      subst action
      rw [control] at follows
      have follows : s.view p = raise (raise 0 (.event e)) (.state proxy.state) := follows
      have rest : lower (s.view p) (.state proxy.state) = raise 0 (.event e) := by
        rw [follows, lower_raise]
      unfold Joins.notifying
      dsimp only
      split
      · exact .release (held_of_view follows) rfl rfl rest
      · exact .release (held_of_view follows) rfl rfl rest
  | signalExit e =>
      simp only [Joins.next, control, Option.some.injEq] at action
      subst action
      rw [control] at follows
      have follows : s.view p = raise 0 (.event e) := follows
      refine .release (held_of_view follows) rfl rfl ?_
      rw [follows, lower_raise]
      rfl
  | locking st events program =>
      rw [control] at follows
      cases program with
      | call o next =>
          simp only [Joins.next, control, Option.map_eq_some_iff] at action
          obtain ⟨⟨result, u⟩, called, rfl⟩ := action
          exact .call follows.1 called (follows.2 _ _)
      | halt result =>
          cases result with
          | returned value =>
              cases value with
              | inl label =>
                  simp only [Joins.next, control, Option.some.injEq] at action
                  subst action
                  exact .goOn rfl rfl (meets_retry label _ follows)
              | inr value =>
                  simp only [Joins.next, control, Option.some.injEq] at action
                  subst action
                  exact .goOn rfl rfl follows
          | raised =>
              simp only [Joins.next, control, Option.some.injEq] at action
              subst action
              exact .goOn rfl rfl follows
  | enlisting st events =>
      simp only [Joins.next, control, Option.some.injEq] at action
      subst action
      rw [control] at follows
      have follows : s.view p = 0 + listed (lockesOf st events) 0 (lockesOf st events).length :=
        follows
      unfold Joins.enlisting
      refine .goOn rfl rfl ?_
      rw [follows]
      exact meets_release
  | unlocking st events program =>
      rw [control] at follows
      cases program with
      | call o next =>
          simp only [Joins.next, control, Option.map_eq_some_iff] at action
          obtain ⟨⟨result, u⟩, called, rfl⟩ := action
          exact .call follows.1 called (follows.2 _ _)
      | halt result =>
          simp only [Joins.next, control, Option.some.injEq] at action
          subst action
          cases result with
          | returned value => exact .goOn rfl rfl follows
          | raised => exact False.elim follows
  | timeoutEntry st =>
      simp only [Joins.next, control, Option.map_eq_some_iff] at action
      obtain ⟨u, acquired, rfl⟩ := action
      rw [control] at follows
      have follows : s.view p = 0 := follows
      have locked : raise (s.view p) (.state st) = raise 0 (.state st) := by rw [follows]
      unfold Joins.timeoutEntry
      split
      · exact .acquire acquired rfl rfl locked
      · exact .acquire acquired rfl rfl locked
  | sweeping st rest =>
      simp only [Joins.next, control, Option.some.injEq] at action
      subst action
      rw [control] at follows
      unfold Joins.sweeping
      split
      · exact .goOn rfl rfl follows
      · dsimp only
        split
        · exact .goOn rfl rfl follows
        · exact .goOn rfl rfl follows
  | removeEntry st rest idx e =>
      simp only [Joins.next, control, Option.map_eq_some_iff] at action
      obtain ⟨u, acquired, rfl⟩ := action
      rw [control] at follows
      have follows : s.view p = raise 0 (.state st) := follows
      refine .acquire acquired rfl rfl ?_
      rw [follows]
      rfl
  | removing st rest idx e =>
      simp only [Joins.next, control, Option.some.injEq] at action
      subst action
      rw [control] at follows
      have follows : s.view p = raise (raise 0 (.state st)) (.event e) := follows
      refine .release (held_of_view follows) rfl rfl ?_
      rw [follows, lower_raise]
      rfl
  | timeoutExit st =>
      simp only [Joins.next, control, Option.some.injEq] at action
      subst action
      rw [control] at follows
      have follows : s.view p = raise 0 (.state st) := follows
      refine .release (held_of_view follows) rfl rfl ?_
      rw [follows, lower_raise]
      rfl

theorem Following.next (h : s.Following) (action : s.next p = some t) : t.Following :=
  h.of_moves (moves_of_next h action)

inductive Calls (s : Joins) : JoinAction → Joins → Prop
  | next (p : Nat) (t : Joins) (action : s.next p = some t) : Calls s (.next p) t
  | signal (p e : Nat) (all : Bool) (idle : s.threads p = .idle) :
      Calls s (.signal p e all) (s.goTo p (.signalEntry e all))
  | waitAll (p : Nat) (events : List Nat) (handler : Nat) (timed : Bool)
      (idle : s.threads p = .idle) :
      Calls s (.waitAll p events handler timed) (s.waitAll p events handler timed)
  | timeout (p st : Nat) (idle : s.threads p = .idle) (old : st < s.created)
      (own : (s.states st).thread = p) :
      Calls s (.timeout p st)
        ((s.setState st { s.states st with timer := false }).goTo p (.timeoutEntry st))

theorem calls_of_step {action : JoinAction} (h : Joins.step s action = some t) :
    s.Calls action t := by
  cases action with
  | next p => exact .next p t h
  | signal p e all =>
      simp only [Joins.step] at h
      split at h
      · rename_i idle
        cases h
        exact .signal p e all idle
      · cases h
  | waitAll p events handler timed =>
      simp only [Joins.step] at h
      split at h
      · rename_i idle
        simp only [Option.ite_none_right_eq_some, Option.some.injEq] at h
        obtain ⟨-, rfl⟩ := h
        exact .waitAll p events handler timed idle
      · cases h
  | timeout p st =>
      simp only [Joins.step] at h
      split at h
      · rename_i idle
        simp only [Option.ite_none_right_eq_some, Option.some.injEq] at h
        obtain ⟨⟨old, own, -⟩, rfl⟩ := h
        exact .timeout p st idle old own
      · cases h

theorem Following.empty (h : s.Following) (idle : s.threads p = .idle) : s.view p = 0 := by
  have follows := h p
  rw [idle] at follows
  exact follows

theorem Following.waitAll {events : List Nat} {handler : Nat} {timed : Bool} (h : s.Following)
    (idle : s.threads p = .idle) : (s.waitAll p events handler timed).Following := by
  refine h.of_moves (p := p) (.goOn rfl rfl ?_)
  rw [h.empty idle]
  exact meets_lockRange

theorem Following.step {action : JoinAction} (h : s.Following)
    (action_ : Joins.step s action = some t) : t.Following := by
  cases calls_of_step action_ with
  | next p _ action => exact h.next action
  | signal p e all idle => exact h.of_moves (p := p) (.goOn rfl rfl (h.empty idle))
  | waitAll p events handler timed idle => exact h.waitAll idle
  | timeout p st idle old own => exact h.of_moves (p := p) (.goOn rfl rfl (h.empty idle))

theorem following_of_reachable {counters : Nat → Int} (reachable : (system counters).Reachable s) :
    s.Following := by
  induction reachable with
  | init => exact fun _ => rfl
  | step _ _ action ih => exact ih.step action

/-! ## The steps of one thread -/

theorem acquire_eq (acquired : s.acquire p l = some t) : ∃ locks, t = { s with locks } := by
  simp only [acquire, Option.ite_none_right_eq_some, Option.some.injEq] at acquired
  exact ⟨_, acquired.2.symm⟩

theorem call_eq {st : Nat} {events : List Nat} {o : LockOp} {result : Ending o.answer}
    (called : s.call p st events o = some (result, t)) : ∃ locks, t = { s with locks } := by
  obtain ⟨_, _, ends⟩ := Option.map_eq_some_iff.mp called
  cases ends
  exact ⟨_, rfl⟩

structure Frames (p : Nat) (s t : Joins) : Prop where
  threads : ∀ q, q ≠ p → t.threads q = s.threads q
  created : t.created = s.created
  thread : ∀ st, (t.states st).thread = (s.states st).thread

theorem Frames.refl (p : Nat) (s : Joins) : Frames p s s :=
  ⟨fun _ _ => rfl, rfl, fun _ => rfl⟩

theorem Frames.goTo (frames : Frames p s t) (thread : JoinThread) : Frames p s (t.goTo p thread) where
  threads q other := by rw [goTo_of_ne other, frames.threads q other]
  created := frames.created
  thread := frames.thread

theorem Frames.setLocks (frames : Frames p s t) (locks : JoinLock → Spinlock) :
    Frames p s { t with locks } :=
  ⟨frames.threads, frames.created, frames.thread⟩

theorem Frames.setEvents (frames : Frames p s t) (events : Nat → EventImpl Proxy) :
    Frames p s { t with events } :=
  ⟨frames.threads, frames.created, frames.thread⟩

theorem Frames.setState (frames : Frames p s t) (st : Nat) (state : StateEventAll) :
    Frames p s (t.setState st state) where
  threads := frames.threads
  created := frames.created
  thread st' := by
    rw [← frames.thread st']
    by_cases same : st' = st
    · subst same
      simp [Joins.setState]
    · simp [Joins.setState, Function.update_of_ne same]

theorem Frames.acquire {f : Joins → Joins} (action : (s.acquire p l).map f = some t)
    (frames : ∀ locks, Frames p s (f { s with locks })) : Frames p s t := by
  obtain ⟨u, acquired, rfl⟩ := Option.map_eq_some_iff.1 action
  obtain ⟨locks, rfl⟩ := acquire_eq acquired
  exact frames locks

theorem Frames.call {st : Nat} {events : List Nat} {o : LockOp}
    (thread : Ending o.answer → JoinThread)
    (action : (s.call p st events o).map (fun ends => ends.2.goTo p (thread ends.1)) = some t) :
    Frames p s t := by
  obtain ⟨⟨result, u⟩, called, rfl⟩ := Option.map_eq_some_iff.1 action
  obtain ⟨locks, rfl⟩ := call_eq called
  exact ((Frames.refl p s).setLocks locks).goTo _

theorem frames_of_next (action : s.next p = some t) : Frames p s t := by
  have start := Frames.refl p s
  have locked (thread : JoinThread) (locks : JoinLock → Spinlock) :
      Frames p s (Joins.goTo { s with locks } p thread) := (start.setLocks locks).goTo thread
  cases control : s.threads p with
  | idle => simp [Joins.next, control] at action
  | signalEntry e all | notifyEntry e all proxy | removeEntry st rest idx e =>
      simp only [Joins.next, control] at action
      exact .acquire action (locked _)
  | signaling e all =>
      simp only [Joins.next, control, Option.some.injEq] at action
      subst action
      unfold Joins.signaling
      split
      · exact (start.setEvents _).goTo _
      · split
        · exact start.goTo _
        · exact (start.setEvents _).goTo _
  | notifying e all proxy =>
      simp only [Joins.next, control, Option.some.injEq] at action
      subst action
      exact ((start.setState _ _).setLocks _).goTo _
  | signalExit e | timeoutExit st =>
      simp only [Joins.next, control, Option.some.injEq] at action
      subst action
      exact locked _ _
  | locking st events program =>
      cases program with
      | call o next =>
          simp only [Joins.next, control] at action
          exact .call (fun result => .locking st events (next result)) action
      | halt result =>
          rcases result with (label | value) | _ <;>
            · simp only [Joins.next, control, Option.some.injEq] at action
              subst action
              exact start.goTo _
  | enlisting st events =>
      simp only [Joins.next, control, Option.some.injEq] at action
      subst action
      exact ((start.setEvents _).setState _ _).goTo _
  | unlocking st events program =>
      cases program with
      | call o next =>
          simp only [Joins.next, control] at action
          exact .call (fun result => .unlocking st events (next result)) action
      | halt result =>
          simp only [Joins.next, control, Option.some.injEq] at action
          subst action
          exact start.goTo _
  | timeoutEntry st =>
      simp only [Joins.next, control] at action
      refine .acquire action fun locks => ?_
      unfold Joins.timeoutEntry
      split
      · exact locked _ locks
      · exact ((start.setLocks locks).setState _ _).goTo _
  | sweeping st rest =>
      simp only [Joins.next, control, Option.some.injEq] at action
      subst action
      unfold Joins.sweeping
      split
      · exact (start.setState _ _).goTo _
      · exact (start.setState _ _).goTo _
  | removing st rest idx e =>
      simp only [Joins.next, control, Option.some.injEq] at action
      subst action
      exact ((start.setEvents _).setLocks _).goTo _

end Joins

end Librf
