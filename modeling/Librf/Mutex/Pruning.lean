import Librf.Mutex.Waiters

/-!
# Entries of timed-out waiters

Two states that differ only in the entries of claimed waiters have the same runs, up to the turns of
the loop of `unlock` that meet such an entry.
-/

namespace Librf.Mutex

variable {s t u : Mutex} {w : Nat} {q : List Nat}

def withQueue (s : Mutex) (q : List Nat) : Mutex := { s with waitAwakes := q }

def live (s : Mutex) (q : List Nat) : List Nat := q.filter fun w => (s.waiters w).value

theorem live_of_waiters (same : t.waiters = s.waiters) : t.live q = s.live q := by
  rw [live, live, same]

structure SameLive (s t : Mutex) : Prop where
  rest : t = s.withQueue t.waitAwakes
  live : s.live t.waitAwakes = s.live s.waitAwakes

theorem SameLive.waiters (same : s.SameLive t) : t.waiters = s.waiters :=
  (congrArg Mutex.waiters same.rest).trans rfl

theorem SameLive.lockSection (same : s.SameLive t) : t.lockSection = s.lockSection :=
  (congrArg Mutex.lockSection same.rest).trans rfl

theorem SameLive.log (same : s.SameLive t) : t.log = s.log :=
  (congrArg Mutex.log same.rest).trans rfl

theorem SameLive.created (same : s.SameLive t) : t.created = s.created :=
  (congrArg Mutex.created same.rest).trans rfl

theorem SameLive.symm (same : s.SameLive t) : t.SameLive s where
  rest := by rw [same.rest]; rfl
  live := by
    rw [live_of_waiters same.waiters, live_of_waiters same.waiters, same.live]

theorem SameLive.trans (first : s.SameLive t) (second : t.SameLive u) : s.SameLive u where
  rest := by
    rw [second.rest, first.rest]
    rfl
  live := by
    have live := second.live
    rw [live_of_waiters first.waiters, live_of_waiters first.waiters] at live
    rw [live, first.live]

/-! ## Steps that do not look at the queue -/

def QueueFree : MutexAction → Prop
  | .enqueue | .offer _ | .leave => False
  | _ => True

theorem tryLockLockless_withQueue (sch : Nat) :
    (s.withQueue q).tryLockLockless sch =
      ((s.tryLockLockless sch).1, { (s.tryLockLockless sch).2 with waitAwakes := q }) := by
  unfold MutexImpl.tryLockLockless
  dsimp only [withQueue]
  split
  · rfl
  · split <;> rfl

theorem tryLock_withQueue (sch : Nat) :
    (s.withQueue q).tryLock sch = (s.tryLock sch).withQueue q := by
  simp only [tryLock, tryLockLockless_withQueue]
  rfl

theorem lock_withQueue (handler root : Nat) (timed : Bool) :
    (s.withQueue q).lock handler root timed = (s.lock handler root timed).withQueue q := by
  simp only [lock, tryLockLockless_withQueue]
  split <;> rfl

theorem beginUnlock_withQueue (sch : Nat) :
    (s.withQueue q).beginUnlock sch = (s.beginUnlock sch).withQueue q := by
  by_cases holds : s.owner = some sch
  · by_cases last : s.counter = 1
    · rw [beginUnlock_of_last holds last, beginUnlock_of_last (s := s.withQueue q) holds last]
      rfl
    · rw [beginUnlock_of_recursive holds last,
        beginUnlock_of_recursive (s := s.withQueue q) holds last]
      rfl
  · rw [beginUnlock_of_other holds, beginUnlock_of_other (s := s.withQueue q) holds]
    rfl

theorem notify_withQueue (root : Nat) :
    (s.withQueue q).notify w root = (s.notify w root).withQueue q := by
  cases value : (s.waiters w).value with
  | true =>
      rw [notify_of_pending value, notify_of_pending (s := s.withQueue q) value]
      rfl
  | false =>
      rw [notify_of_claimed value, notify_of_claimed (s := s.withQueue q) value]
      rfl

theorem schedule_withQueue : (s.withQueue q).schedule w = (s.schedule w).withQueue q := by
  unfold schedule withQueue
  dsimp only
  split <;> rfl

theorem timeout_withQueue : (s.withQueue q).timeout w = (s.timeout w).withQueue q := by
  cases value : (s.waiters w).value with
  | true =>
      rw [timeout_of_pending value, timeout_of_pending (s := s.withQueue q) value]
      rfl
  | false => rw [timeout_of_claimed value, timeout_of_claimed (s := s.withQueue q) value]

theorem finishNotify_withQueue :
    (s.withQueue q).finishNotify w = (s.finishNotify w).withQueue q :=
  congrArg (fun u : Mutex => { u with lockSection := .free }) (schedule_withQueue
    (s := s.setWaiter w { s.waiters w with toStateMutex := (s.waiters w).notified }))

theorem finishTimeout_withQueue :
    (s.withQueue q).finishTimeout w = (s.finishTimeout w).withQueue q :=
  schedule_withQueue (s := s.setWaiter w { s.waiters w with
    toStateMutex := (s.waiters w).expired, expiring := false })

theorem resume_withQueue : (s.withQueue q).resume w = (s.resume w).withQueue q := by
  cases coro : (s.waiters w).coro with
  | none => simp [resume, withQueue, coro]
  | some handler =>
      rw [resume_of_coro coro, resume_of_coro (s := s.withQueue q) coro]
      rfl

theorem step_withQueue {action : MutexAction} (free : QueueFree action) :
    step (s.withQueue q) action = (step s action).map fun t => t.withQueue q := by
  have guarded (guard : Prop) [Decidable guard] (t : Mutex) :
      (if guard then some (t.withQueue q) else none) =
        (if guard then some t else none).map fun t => t.withQueue q := by
    split <;> rfl
  have section_ : (s.withQueue q).lockSection = s.lockSection := rfl
  cases action with
  | owner => exact guarded _ (s.record (.owner s.owner))
  | tryLock sch =>
      simp only [step, tryLock_withQueue]
      exact guarded _ _
  | lock handler root timed =>
      simp only [step, lock_withQueue]
      exact guarded _ _
  | enqueue => exact free.elim
  | unlock sch =>
      simp only [step, beginUnlock_withQueue]
      exact guarded _ _
  | offer root => exact free.elim
  | notify =>
      simp only [step, notify_withQueue, section_]
      cases s.lockSection <;> rfl
  | finishNotify =>
      simp only [step, finishNotify_withQueue, section_]
      cases s.lockSection <;> rfl
  | leave => exact free.elim
  | timeout w =>
      simp only [step, timeout_withQueue]
      exact guarded _ _
  | finishTimeout w =>
      simp only [step, finishTimeout_withQueue]
      exact guarded _ _
  | resume w =>
      simp only [step, resume_withQueue]
      exact guarded _ _

theorem step_waitAwakes {action : MutexAction} (free : QueueFree action)
    (action_ : step s action = some t) : t.waitAwakes = s.waitAwakes := by
  have both := step_withQueue (s := s) (q := s.waitAwakes) free
  rw [show s.withQueue s.waitAwakes = s from rfl, action_] at both
  simp only [Option.map_some, Option.some.injEq] at both
  rw [both]
  rfl

theorem live_of_step {action : MutexAction} (action_ : step s action = some t)
    (older : ∀ w ∈ q, w < s.created) : t.live q = t.live (s.live q) := by
  unfold live
  rw [List.filter_filter]
  apply List.filter_congr
  intro w member
  cases pending : (t.waiters w).value with
  | true => simp [(step_waiter action_ (older w member)).value pending]
  | false => rfl

theorem Served.older (served : s.Served) : ∀ w ∈ s.waitAwakes, w < s.created := by
  intro w member
  exact served.inLine.bounded w (by simp [Mutex.line, member])

theorem SameLive.of_step (same : s.SameLive t) (served : s.Served) (served' : t.Served)
    {action : MutexAction} (free : QueueFree action) (action_ : step s action = some u) :
    ∃ v, step t action = some v ∧ u.SameLive v := by
  refine ⟨u.withQueue t.waitAwakes, ?_, rfl, ?_⟩
  · rw [same.rest, step_withQueue free, action_]
    rfl
  · show u.live t.waitAwakes = u.live u.waitAwakes
    rw [step_waitAwakes free action_, live_of_step action_ (same.created ▸ served'.older),
      live_of_step action_ served.older, same.live]

/-! ## Hand-offs that are going to fail -/

def takeBack (s : Mutex) : Mutex :=
  match s.lockSection with
  | .offering w root => if (s.waiters w).value then s else s.notify w root
  | _ => s

theorem takeBack_of_claimed {root : Nat} (offering : s.lockSection = .offering w root)
    (claimed : (s.waiters w).value = false) :
    s.takeBack = { s with toMutexImpl := s.revert, lockSection := .releasing } := by
  simp [takeBack, offering, claimed, notify_of_claimed claimed]

theorem takeBack_of_pending
    (pending : ∀ w root, s.lockSection = .offering w root → (s.waiters w).value = true) :
    s.takeBack = s := by
  unfold takeBack
  split
  · rename_i w root offering
    simp [pending w root offering]
  · rfl

theorem takeBack_log : s.takeBack.log = s.log := by
  by_cases pending : ∀ w root, s.lockSection = .offering w root → (s.waiters w).value = true
  · rw [takeBack_of_pending pending]
  · push Not at pending
    obtain ⟨w, root, offering, claimed⟩ := pending
    rw [takeBack_of_claimed offering (by simpa using claimed)]

theorem SameLive.takeBack (same : s.SameLive t) : s.takeBack.SameLive t.takeBack := by
  by_cases pending : ∀ w root, s.lockSection = .offering w root → (s.waiters w).value = true
  · have pending' : ∀ w root, t.lockSection = .offering w root → (t.waiters w).value = true := by
      rw [same.lockSection, same.waiters]
      exact pending
    rwa [takeBack_of_pending pending, takeBack_of_pending pending']
  · push Not at pending
    obtain ⟨w, root, offering, claimed⟩ := pending
    have claimed : (s.waiters w).value = false := by simpa using claimed
    rw [takeBack_of_claimed offering claimed, takeBack_of_claimed
      (same.lockSection.trans offering) (same.waiters ▸ claimed)]
    refine ⟨?_, same.live⟩
    rw [same.rest]
    rfl

theorem takeBack_reached (s : Mutex) : ∃ events, system.replay s events = some s.takeBack := by
  by_cases pending : ∀ w root, s.lockSection = .offering w root → (s.waiters w).value = true
  · exact ⟨[], by rw [takeBack_of_pending pending]; rfl⟩
  · push Not at pending
    obtain ⟨w, root, offering, claimed⟩ := pending
    have claimed : (s.waiters w).value = false := by simpa using claimed
    refine ⟨[.notify], ?_⟩
    rw [takeBack_of_claimed offering claimed]
    simp [Transition.System.replay, system, step, offering, notify_of_claimed claimed]

theorem revert_transfer (unowned : s.owner = none) (root : Nat) (rest : List Nat) :
    MutexImpl.revert { s.transfer root with waitAwakes := rest } =
      { s.toMutexImpl with waitAwakes := rest } := by
  simp [MutexImpl.transfer, MutexImpl.revert, ← unowned]

theorem passes_over (dead : List Nat) (releasing : s.lockSection = .releasing)
    (unowned : s.owner = none) (queue : s.waitAwakes = dead ++ q)
    (claimed : ∀ w ∈ dead, (s.waiters w).value = false) :
    ∃ events, system.replay s events = some (s.withQueue q) := by
  induction dead generalizing s with
  | nil =>
      refine ⟨[], ?_⟩
      rw [← show s.waitAwakes = q from queue]
      rfl
  | cons w dead ih =>
      obtain ⟨events, run⟩ := ih (s := s.withQueue (dead ++ q)) releasing unowned rfl
        fun w' member => claimed w' (List.mem_cons_of_mem w member)
      have turn : system.replay s [.offer 0, .notify] = some (s.withQueue (dead ++ q)) := by
        have lost : (s.waiters w).value = false := claimed w (List.mem_cons_self)
        simp [Transition.System.replay, system, step, releasing, queue, notify, StateMutex.claim,
          lost, withQueue, revert_transfer unowned]
      refine ⟨[.offer 0, .notify] ++ events, ?_⟩
      rw [Transition.System.replay_append, turn]
      exact run

/-! ## The simulation -/

theorem Served.replay {events : List MutexAction} (served : s.Served)
    (run : system.replay s events = some t) : t.Served := by
  induction events generalizing s with
  | nil =>
      cases run
      exact served
  | cons action rest ih =>
      obtain ⟨u, next, run⟩ := Option.bind_eq_some_iff.1 run
      exact ih (served.step next) run

def abandon (s : Mutex) : Mutex := { s with toMutexImpl := s.revert, lockSection := .releasing }

theorem timeout_abandon : s.abandon.timeout w = (s.timeout w).abandon := by
  cases value : (s.waiters w).value with
  | true =>
      rw [timeout_of_pending value, timeout_of_pending (s := s.abandon) value]
      rfl
  | false => rw [timeout_of_claimed value, timeout_of_claimed (s := s.abandon) value]

theorem schedule_abandon : s.abandon.schedule w = (s.schedule w).abandon := by
  unfold schedule abandon
  dsimp only
  split <;> rfl

theorem finishTimeout_abandon : s.abandon.finishTimeout w = (s.finishTimeout w).abandon :=
  schedule_abandon (s := s.setWaiter w { s.waiters w with
    toStateMutex := (s.waiters w).expired, expiring := false })

theorem resume_abandon : s.abandon.resume w = (s.resume w).abandon := by
  cases coro : (s.waiters w).coro with
  | none => simp [resume, abandon, coro]
  | some handler =>
      rw [resume_of_coro coro, resume_of_coro (s := s.abandon) coro]
      rfl

theorem step_of_doomed {root : Nat} {action : MutexAction}
    (offering : s.lockSection = .offering w root) (claimed : (s.waiters w).value = false)
    (action_ : step s action = some t) :
    t = s.abandon ∨
      QueueFree action ∧ t.lockSection = s.lockSection ∧ step s.abandon action = some t.abandon := by
  cases effect_of_step action_ with
  | notify w' root' offering' =>
      cases offering.symm.trans offering'
      exact .inl (notify_of_claimed claimed)
  | timeout w' older timer queued =>
      refine .inr ⟨trivial, ?_, ?_⟩
      · unfold timeout
        split <;> rfl
      · rw [← timeout_abandon]
        exact if_pos ⟨older, timer, by simp [abandon]⟩
  | finishTimeout w' older expiring =>
      refine .inr ⟨trivial, schedule_lockSection _ w', ?_⟩
      rw [← finishTimeout_abandon]
      exact if_pos ⟨older, expiring⟩
  | resume w' member =>
      refine .inr ⟨trivial, ?_, ?_⟩
      · unfold resume
        dsimp only
        split <;> rfl
      · rw [← resume_abandon]
        exact if_pos member
  | _ => simp_all

theorem takeBack_of_turn {root : Nat} {rest : List Nat} (releasing : s.lockSection = .releasing)
    (unowned : s.owner = none) (claimed : (s.waiters w).value = false) :
    takeBack { s with
      toMutexImpl := { s.transfer root with waitAwakes := rest }
      lockSection := .offering w root } = s.withQueue rest := by
  simp [takeBack, notify, StateMutex.claim, claimed, withQueue, revert_transfer unowned,
    ← releasing]

theorem takeBack_of_releasing (releasing : s.lockSection = .releasing) : s.takeBack = s :=
  takeBack_of_pending fun w root offering => by simp [releasing] at offering

theorem SameLive.owner (same : s.SameLive t) : t.owner = s.owner :=
  (congrArg (fun u : Mutex => u.owner) same.rest).trans rfl

theorem SameLive.enqueue (same : s.SameLive t) (suspending : s.lockSection = .suspending w) :
    ∃ v, step t .enqueue = some v ∧
      SameLive { s with toMutexImpl := s.addWaitListLockless w, lockSection := .free } v := by
  simp only [step, same.lockSection, suspending]
  refine ⟨_, rfl, ?_, ?_⟩
  · rw [same.rest]
    rfl
  · have live := same.live
    simp only [Mutex.live, MutexImpl.addWaitListLockless, List.filter_append] at live ⊢
    rw [live]

theorem SameLive.withQueue (same : s.SameLive t) : t.withQueue q = s.withQueue q := by
  rw [same.rest]
  rfl

theorem SameLive.offer {rest : List Nat} (same : s.SameLive t)
    (releasing : s.lockSection = .releasing) (unowned : s.owner = none)
    (queue : s.waitAwakes = w :: rest) (value : (s.waiters w).value = true) (root : Nat) :
    ∃ events v, system.replay t (events ++ [.offer root]) = some v ∧
      SameLive { s with
        toMutexImpl := { s.transfer root with waitAwakes := rest }
        lockSection := .offering w root } v := by
  have live : t.waitAwakes.filter (fun w => (s.waiters w).value) =
      w :: rest.filter fun w => (s.waiters w).value := by
    have live := same.live
    rw [Mutex.live, Mutex.live, queue] at live
    rw [live]
    exact List.filter_cons_of_pos value
  obtain ⟨dead, after, split, claimed, -, rest_⟩ := List.filter_eq_cons_iff.mp live
  obtain ⟨events, run⟩ := passes_over (s := t) (q := w :: after) dead
    (same.lockSection.trans releasing) (same.owner.trans unowned) split
    fun w' member => by simpa [same.waiters] using claimed w' member
  refine ⟨events, Mutex.withQueue { s with
    toMutexImpl := { s.transfer root with waitAwakes := rest }
    lockSection := .offering w root } after, ?_, rfl, rest_⟩
  rw [Transition.System.replay_append, run, same.withQueue]
  simp [Transition.System.replay, system, step, Mutex.withQueue, releasing, MutexImpl.transfer]

theorem SameLive.leave (same : s.SameLive t) (releasing : s.lockSection = .releasing)
    (unowned : s.owner = none) (queue : s.waitAwakes = []) :
    ∃ events v, system.replay t (events ++ [.leave]) = some v ∧
      SameLive { s with lockSection := .free } v := by
  have live := same.live
  rw [Mutex.live, Mutex.live, queue, List.filter_nil, List.filter_eq_nil_iff] at live
  obtain ⟨events, run⟩ := passes_over (s := t) (q := []) t.waitAwakes
    (same.lockSection.trans releasing) (same.owner.trans unowned) (List.append_nil _).symm
    fun w' member => by simpa [same.waiters] using live w' member
  refine ⟨events, Mutex.withQueue { s with lockSection := .free } [], ?_, rfl, ?_⟩
  · rw [Transition.System.replay_append, run, same.withQueue]
    simp [Transition.System.replay, system, step, Mutex.withQueue, releasing]
  · simp [Mutex.live, Mutex.withQueue, queue]

theorem simulates {action : MutexAction} (same : s.takeBack.SameLive t.takeBack)
    (served : s.Served) (served' : t.Served) (action_ : step s action = some u) :
    ∃ events v, system.replay t events = some v ∧ u.takeBack.SameLive v.takeBack := by
  obtain ⟨back, reached⟩ := takeBack_reached t
  have servedBack := served'.replay reached
  have onward (next : MutexAction) (v : Mutex) (step_ : step t.takeBack next = some v) :
      system.replay t (back ++ [next]) = some v := by
    rw [Transition.System.replay_append, reached]
    simp [Transition.System.replay, system, step_]
  by_cases pending : ∀ w root, s.lockSection = .offering w root → (s.waiters w).value = true
  · rw [takeBack_of_pending pending] at same
    by_cases free : QueueFree action
    · obtain ⟨v, step_, after⟩ := same.of_step served servedBack free action_
      exact ⟨_, v, onward action v step_, after.takeBack⟩
    · have unowned (releasing : s.lockSection = .releasing) : s.owner = none := by
        have owned := served.owned
        simp only [Owned, releasing] at owned
        exact owned.owner
      cases effect_of_step action_ with
      | enqueue w suspending =>
          obtain ⟨v, step_, after⟩ := same.enqueue suspending
          exact ⟨_, v, onward .enqueue v step_, after.takeBack⟩
      | offer w root rest releasing queue =>
          cases value : (s.waiters w).value with
          | true =>
              obtain ⟨events, v, run, after⟩ :=
                same.offer releasing (unowned releasing) queue value root
              refine ⟨back ++ (events ++ [.offer root]), v, ?_, after.takeBack⟩
              rw [Transition.System.replay_append, reached]
              exact run
          | false =>
              -- `t` has no such turn to make: it stays where it is
              refine ⟨[], t, rfl, ?_⟩
              rw [takeBack_of_turn releasing (unowned releasing) value]
              apply SameLive.trans (SameLive.symm ⟨rfl, ?_⟩) same
              simp [live, withQueue, queue, value]
      | leave releasing queue =>
          obtain ⟨events, v, run, after⟩ := same.leave releasing (unowned releasing) queue
          refine ⟨back ++ (events ++ [.leave]), v, ?_, after.takeBack⟩
          rw [Transition.System.replay_append, reached]
          exact run
      | _ => exact absurd trivial free
  · push Not at pending
    obtain ⟨w, root, offering, claimed⟩ := pending
    have claimed : (s.waiters w).value = false := by simpa using claimed
    rw [takeBack_of_claimed offering claimed] at same
    obtain rfl | ⟨free, section_, commutes⟩ := step_of_doomed offering claimed action_
    · exact ⟨[], t, rfl, by rwa [takeBack_of_releasing rfl]⟩
    · have servedAbandon : s.abandon.Served := by
        have lost : step s .notify = some s.abandon := by
          simp only [step, offering, notify_of_claimed claimed, abandon]
        exact served.step lost
      obtain ⟨v, step_, after⟩ := SameLive.of_step same servedAbandon servedBack free commutes
      have older : w < s.created := served.inLine.bounded w (by simp [line, offered, offering])
      have lost : (u.waiters w).value = false := by
        cases value : (u.waiters w).value with
        | true => exact absurd ((step_waiter action_ older).value value) (by simp [claimed])
        | false => rfl
      refine ⟨_, v, onward action v step_, ?_⟩
      rw [takeBack_of_claimed (section_.trans offering) lost]
      rwa [takeBack_of_releasing (s := v) after.lockSection]

theorem simulates_run {events : List MutexAction} (same : s.takeBack.SameLive t.takeBack)
    (served : s.Served) (served' : t.Served) (run : system.replay s events = some u) :
    ∃ events' v, system.replay t events' = some v ∧ u.takeBack.SameLive v.takeBack := by
  induction events generalizing s t with
  | nil =>
      cases run
      exact ⟨[], t, rfl, same⟩
  | cons action rest ih =>
      obtain ⟨s', next, run⟩ := Option.bind_eq_some_iff.1 run
      obtain ⟨first, t', reached, same'⟩ := simulates same served served' next
      obtain ⟨others, v, run', after⟩ :=
        ih same' (served.step next) (served'.replay reached) run
      refine ⟨first ++ others, v, ?_, after⟩
      rw [Transition.System.replay_append, reached]
      exact run'

def deleteTimedOut (s : Mutex) (keep : Nat → Bool) : Mutex :=
  s.withQueue (s.waitAwakes.filter fun w => !(s.waiters w).timedOut || keep w)

/-- Every run of `s` has a run of `t` in which the same calls have the same results. -/
def ResultsOf (s t : Mutex) : Prop :=
  ∀ events u, system.replay s events = some u →
    ∃ events' v, system.replay t events' = some v ∧ v.log = u.log

theorem Staged.claimed_of_timedOut {stage : WaiterStage} (staged : s.Staged w stage)
    (timedOut : (s.waiters w).timedOut = true) : (s.waiters w).value = false := by
  obtain ⟨root, handler, timed, shape⟩ := staged.shape
  rw [shape] at timedOut ⊢
  cases stage <;> simp_all [WaiterStage.waiter]

theorem Served.deleteTimedOut_live (served : s.Served) (keep : Nat → Bool) :
    s.SameLive (s.deleteTimedOut keep) := by
  refine ⟨rfl, ?_⟩
  simp only [live, deleteTimedOut, withQueue, List.filter_filter]
  apply List.filter_congr
  intro w member
  obtain ⟨stage, staged⟩ := served.staged.1 w (served.older w member)
  cases timedOut : (s.waiters w).timedOut with
  | true => simp [staged.claimed_of_timedOut timedOut]
  | false => simp

theorem Served.deleteTimedOut (served : s.Served) (keep : Nat → Bool) :
    (s.deleteTimedOut keep).Served := by
  have live := served.deleteTimedOut_live keep
  have shorter : (s.deleteTimedOut keep).waitAwakes.Sublist s.waitAwakes := List.filter_sublist
  have line : (s.deleteTimedOut keep).line.Sublist s.line :=
    ((List.Sublist.refl _).append shorter).append (List.Sublist.refl _)
  have inLine := served.inLine
  refine ⟨Owned.of_quiet served.owned rfl rfl rfl fun _ => rfl, ?_, ?_⟩
  · exact served.staged.of_quiet rfl rfl rfl rfl fun _ => Iff.rfl
  refine ⟨inLine.order.sublist ((List.Sublist.refl _).append line), ?_, ?_, inLine.notifying,
    inLine.suspending, ?_⟩
  · exact fun w member => inLine.bounded w (((List.Sublist.refl _).append line).subset member)
  · intro w bound value
    have before := inLine.pending w bound value
    simp only [Mutex.line, List.mem_append] at before ⊢
    refine before.imp (Or.imp id fun member => ?_) id
    have alive : w ∈ s.live (s.deleteTimedOut keep).waitAwakes := by
      rw [live.live]
      exact List.mem_filter.mpr ⟨member, value⟩
    exact List.mem_of_mem_filter alive
  · intro free unowned
    have empty := inLine.unowned free unowned
    exact List.sublist_nil.mp (empty ▸ shorter)

theorem results_without_timedOut (served : s.Served) (keep : Nat → Bool) :
    s.ResultsOf (s.deleteTimedOut keep) ∧ (s.deleteTimedOut keep).ResultsOf s := by
  have same := served.deleteTimedOut_live keep
  have served' := served.deleteTimedOut keep
  constructor
  · intro events u run
    obtain ⟨events', v, run', after⟩ := simulates_run same.takeBack served served' run
    refine ⟨events', v, run', ?_⟩
    rw [← takeBack_log, after.log, takeBack_log]
  · intro events u run
    obtain ⟨events', v, run', after⟩ := simulates_run same.symm.takeBack served' served run
    refine ⟨events', v, run', ?_⟩
    rw [← takeBack_log, after.log, takeBack_log]

end Librf.Mutex
