import Librf.Mutex.Pruning

/-!
# Fair service

The runs in which lock and unlock are paired: an owner gives back only what it has received, and a
hand-off counts as received when its waiter is resumed.
-/

namespace Librf.Mutex

variable {s t : Mutex}

def paired (s : Mutex) : MutexAction → Prop
  | .unlock r => s.owner = some r → s.unlocks r + s.unreceived r < s.grants r
  | _ => True

def Received (s : Mutex) : Prop := ∀ r, s.unlocks r + s.unreceived r ≤ s.grants r

theorem Received.logged (received : s.Received) (event : MutexEvent)
    (logged : t.log = s.log ++ [event]) (other : ∀ r, event ≠ .unlocked r true)
    (outstanding : ∀ r, t.unreceived r ≤ s.unreceived r) : t.Received := by
  intro r
  have before := received r
  have fewer := outstanding r
  rw [unlocks_of_logged event logged, grants_of_logged event logged, if_neg (other r)]
  omega

theorem Received.of_same (received : s.Received) (logged : t.log = s.log)
    (outstanding : t.outstanding = s.outstanding) : t.Received := by
  intro r
  rw [unlocks, unreceived, grants, logged, outstanding]
  exact received r

theorem Received.unlock (received : s.Received) (sch : Nat)
    (permitted : s.owner = some sch → s.unlocks sch + s.unreceived sch < s.grants sch) :
    (s.beginUnlock sch).Received := by
  intro r
  have before := received r
  rw [unlocks_of_logged (s := s) _ rfl, grants_of_logged (s := s) _ rfl]
  show _ + s.unreceived r ≤ _
  by_cases mine : MutexEvent.unlocked sch (s.toMutexImpl.unlock sch).1 = .unlocked r true
  · rw [if_pos mine]
    simp only [MutexEvent.unlocked.injEq] at mine
    obtain ⟨rfl, done⟩ := mine
    have owner : s.owner = some sch := by
      by_contra other
      simp [MutexImpl.unlock, other] at done
    have := permitted owner
    omega
  · rw [if_neg mine]
    omega

theorem Received.notify {w root : Nat} (received : s.Received) : (s.notify w root).Received := by
  cases value : (s.waiters w).value with
  | true =>
      rw [notify_of_pending value]
      intro r
      have before := received r
      rw [unlocks_of_logged (s := s) (.handed w root) rfl,
        grants_of_logged (s := s) (.handed w root) rfl, if_neg (by simp)]
      by_cases same : root = r
      · simp [unreceived, MutexEvent.grants, same] at before ⊢
        omega
      · simp [unreceived, MutexEvent.grants, same] at before ⊢
        omega
  | false =>
      rw [notify_of_claimed value]
      exact received.of_same rfl rfl

@[simp] theorem schedule_outstanding (s : Mutex) (w : Nat) :
    (s.schedule w).outstanding = s.outstanding := by
  unfold schedule
  split <;> rfl

theorem Received.step {action : MutexAction} (received : s.Received)
    (permitted : paired s action) (action_ : step s action = some t) : t.Received := by
  cases effect_of_step action_ with
  | owner free => exact received.logged (.owner s.owner) rfl (fun _ => by simp) fun _ => Nat.le_refl _
  | tryLock sch free =>
      exact received.logged (.tried sch _) rfl (fun _ => by simp) fun _ => Nat.le_refl _
  | lock handler root timed free =>
      cases tried : (s.tryLockLockless root).1 with
      | true =>
          rw [lock_of_locked tried]
          exact received.logged (.locked root) rfl (fun _ => by simp) fun _ => Nat.le_refl _
      | false =>
          rw [lock_of_refused tried]
          exact received.logged (.suspended s.created) rfl (fun _ => by simp) fun _ => Nat.le_refl _
  | unlock sch free => exact received.unlock sch permitted
  | notify w root offering => exact received.notify
  | finishNotify w notifying =>
      exact received.of_same (schedule_log _ _) (schedule_outstanding _ _)
  | timeout w older timer queued =>
      cases value : (s.waiters w).value with
      | true =>
          rw [timeout_of_pending value]
          exact received.logged (.timedOut w) rfl (fun _ => by simp) fun _ => Nat.le_refl _
      | false => rwa [timeout_of_claimed value]
  | finishTimeout w older expiring =>
      exact received.of_same (schedule_log _ _) (schedule_outstanding _ _)
  | resume w member =>
      cases coro : (s.waiters w).coro with
      | none =>
          simp only [resume, coro, Option.isSome_none, Bool.false_eq_true, if_false]
          exact received.of_same rfl rfl
      | some handler =>
          rw [resume_of_coro coro]
          apply received.logged (.awaited w _) rfl (fun _ => by simp)
          intro r
          exact List.filter_sublist.countP_le
  | _ => exact received.of_same rfl rfl

theorem received (reachable : system.ReachableBy paired s) : s.Received :=
  Transition.System.Inductive.holds (M := system) (I := Received)
    ⟨fun _ => Nat.le_refl _, fun _ _ _ _ received permitted action =>
      received.step permitted action⟩ reachable

theorem owner_of_outstanding {w r : Nat} (owned : s.Owned) (received : s.Received)
    (member : (w, r) ∈ s.outstanding) : s.owner = some r := by
  have counted : 0 < s.unreceived r := List.countP_pos_iff.mpr ⟨_, member, by simp⟩
  have positive : s.balance r ≠ 0 := by
    have := received r
    unfold balance
    omega
  have settled (settled : s.Settled) : s.owner = some r := by
    cases settled with
    | inl idle => exact absurd (idle.balance r) positive
    | inr held =>
        obtain ⟨holder, held⟩ := held
        by_cases same : r = holder
        · rw [held.owner, same]
        · exact absurd (held.others r same) positive
  unfold Owned at owned
  split at owned
  · exact absurd (owned.balance r) positive
  · exact absurd (owned.2.2 r) positive
  · exact settled owned

theorem handedOver_of_step {action : MutexAction} (action_ : step s action = some t) :
    t.handedOver = s.handedOver ∨ ∃ w root, s.lockSection = .offering w root ∧
      (s.waiters w).value = true ∧ t.handedOver = s.handedOver ++ [w] := by
  have silent (event : MutexEvent) (logged : t.log = s.log ++ [event])
      (other : event.handed? = none) : t.handedOver = s.handedOver := by
    rw [handedOver_of_logged event logged, other]
    exact List.append_nil _
  have same (logged : t.log = s.log) : t.handedOver = s.handedOver := by
    rw [handedOver, handedOver, logged]
  cases effect_of_step action_ with
  | owner free => exact .inl (silent (.owner s.owner) rfl rfl)
  | tryLock sch free => exact .inl (silent (.tried sch (s.tryLockLockless sch).1) rfl rfl)
  | unlock sch free => exact .inl (silent (.unlocked sch (s.toMutexImpl.unlock sch).1) rfl rfl)
  | lock handler root timed free =>
      left
      cases tried : (s.tryLockLockless root).1 with
      | true => exact silent (.locked root) (by rw [lock_of_locked tried]; rfl) rfl
      | false => exact silent (.suspended s.created) (by rw [lock_of_refused tried]; rfl) rfl
  | notify w root offering =>
      cases value : (s.waiters w).value with
      | true =>
          refine .inr ⟨w, root, offering, value, ?_⟩
          exact handedOver_of_logged (.handed w root) (by rw [notify_of_pending value]; rfl)
      | false => exact .inl (same (by rw [notify_of_claimed value]))
  | finishNotify w notifying => exact .inl (same (schedule_log _ _))
  | timeout w older timer queued =>
      left
      cases value : (s.waiters w).value with
      | true => exact silent (.timedOut w) (by rw [timeout_of_pending value]; rfl) rfl
      | false => rw [timeout_of_claimed value]
  | finishTimeout w older expiring => exact .inl (same (schedule_log _ _))
  | resume w member =>
      left
      cases coro : (s.waiters w).coro with
      | none => exact same (by simp [resume, coro])
      | some handler =>
          exact silent (.awaited w (s.waiters w).mutex) (by rw [resume_of_coro coro]; rfl) rfl
  | _ => exact .inl rfl

/-! ## Entries of the queue -/

theorem tryLockLockless_waitAwakes {m : MutexImpl} (sch : Nat) :
    (m.tryLockLockless sch).2.waitAwakes = m.waitAwakes := by
  cases tried : (m.tryLockLockless sch).1 with
  | true => rw [(tryLockLockless_locked tried).2]
  | false => rw [(tryLockLockless_refused tried).1]

/-- The entries of the wait queue, with the one that `await_suspend2` is about to add. -/
def entries (s : Mutex) : List Nat := s.waitAwakes ++ s.entering

theorem step_entries {action : MutexAction} (action_ : step s action = some t) :
    (t.created = s.created ∧ (∀ w ∈ t.entries, w ∈ s.entries) ∧
      ∀ w, t.lockSection = .suspending w → s.lockSection = .suspending w) ∨
      ∃ handler root timed, action = .lock handler root timed ∧ s.lockSection = .free ∧
        t = s.suspend handler root timed := by
  have unchanged (created : t.created = s.created) (queue : t.waitAwakes = s.waitAwakes)
      (entering : t.entering = [] ∨ t.lockSection = s.lockSection) :
      t.created = s.created ∧ (∀ w ∈ t.entries, w ∈ s.entries) ∧
        ∀ w, t.lockSection = .suspending w → s.lockSection = .suspending w := by
    refine ⟨created, fun w member => ?_, fun w suspending => ?_⟩
    · rw [entries, queue] at member
      cases entering with
      | inl none => simpa [none, entries] using Or.inl (by simpa [none] using member)
      | inr same => simpa [entries, Mutex.entering, same] using member
    · cases entering with
      | inl none => simp [Mutex.entering, suspending] at none
      | inr same => rwa [← same]
  have idle (free : t.lockSection = .free ∨ t.lockSection = .releasing) : t.entering = [] := by
    cases free with
    | inl free => simp [Mutex.entering, free]
    | inr releasing => simp [Mutex.entering, releasing]
  cases effect_of_step action_ with
  | lock handler root timed free =>
      cases tried : (s.tryLockLockless root).1 with
      | true =>
          rw [lock_of_locked tried] at *
          exact .inl (unchanged rfl (tryLockLockless_waitAwakes root) (.inr rfl))
      | false => exact .inr ⟨handler, root, timed, rfl, free, lock_of_refused tried⟩
  | owner free => exact .inl (unchanged rfl rfl (.inr rfl))
  | tryLock sch free => exact .inl (unchanged rfl (tryLockLockless_waitAwakes sch) (.inr rfl))
  | enqueue w suspending =>
      refine .inl ⟨rfl, fun w' member => ?_, fun _ => by simp⟩
      simpa [entries, Mutex.entering, suspending, MutexImpl.addWaitListLockless] using member
  | unlock sch free =>
      by_cases holds : s.owner = some sch
      · by_cases last : s.counter = 1
        · rw [beginUnlock_of_last holds last] at *
          exact .inl (unchanged rfl rfl (.inl (idle (.inr rfl))))
        · rw [beginUnlock_of_recursive holds last] at *
          exact .inl (unchanged rfl rfl (.inl (idle (.inl rfl))))
      · rw [beginUnlock_of_other holds] at *
        exact .inl (unchanged rfl rfl (.inl (idle (.inl rfl))))
  | offer w root rest releasing queue =>
      refine .inl ⟨rfl, fun w' member => ?_, fun _ => by simp⟩
      have later : w' ∈ rest := by simpa [entries, Mutex.entering] using member
      simp [entries, queue, later]
  | notify w root offering =>
      cases value : (s.waiters w).value with
      | true =>
          rw [notify_of_pending value] at *
          exact .inl (unchanged rfl rfl (.inl (by simp [Mutex.entering])))
      | false =>
          rw [notify_of_claimed value] at *
          exact .inl (unchanged rfl rfl (.inl (idle (.inr rfl))))
  | finishNotify w notifying =>
      exact .inl (unchanged (schedule_created _ _)
        (congrArg MutexImpl.waitAwakes (schedule_toMutexImpl _ _)) (.inl (idle (.inl rfl))))
  | leave releasing queue => exact .inl (unchanged rfl rfl (.inl (idle (.inl rfl))))
  | timeout w older timer queued =>
      cases value : (s.waiters w).value with
      | true =>
          rw [timeout_of_pending value] at *
          exact .inl (unchanged rfl rfl (.inr rfl))
      | false =>
          rw [timeout_of_claimed value]
          exact .inl ⟨rfl, fun _ member => member, fun _ suspending => suspending⟩
  | finishTimeout w older expiring =>
      exact .inl (unchanged (schedule_created _ _)
        (congrArg MutexImpl.waitAwakes (schedule_toMutexImpl _ _))
        (.inr (schedule_lockSection _ _)))
  | resume w member =>
      cases coro : (s.waiters w).coro with
      | none =>
          have after : s.resume w = { s with runQueue := s.runQueue.erase w } := by
            simp [resume, coro]
          rw [after] at unchanged ⊢
          exact .inl (unchanged rfl rfl (.inr rfl))
      | some handler =>
          rw [resume_of_coro coro] at *
          exact .inl (unchanged rfl rfl (.inr rfl))

def Handed (s : Mutex) : Prop :=
  ∀ w, w < s.created → (s.waiters w).handedTo.isSome = true → w ∈ s.handedOver

theorem Handed.step {action : MutexAction} (handed : s.Handed)
    (action_ : Mutex.step s action = some t) : t.Handed := by
  intro w bound given
  have kept : w ∈ s.handedOver → w ∈ t.handedOver := by
    intro member
    obtain same | ⟨_, _, _, _, extended⟩ := handedOver_of_step action_
    · rwa [same]
    · rw [extended]
      exact List.mem_append_left _ member
  by_cases older : w < s.created
  · cases step_waiter action_ older with
    | idle after => exact kept (handed w older (after ▸ given))
    | handOff root offering value after extended => simp [extended]
    | notified n after => exact kept (handed w older (by simpa [after] using given))
    | claimed value settled after => exact kept (handed w older (by simpa [after] using given))
    | expired n after => exact kept (handed w older (by simpa [after] using given))
    | resumed after => exact kept (handed w older (by simpa [after] using given))
  · obtain ⟨created, _⟩ | ⟨handler, root, timed, _, _, rfl⟩ := step_entries action_
    · exact absurd (created ▸ bound) older
    · have fresh : w = s.created :=
        Nat.le_antisymm (Nat.le_of_lt_succ bound) (Nat.le_of_not_lt older)
      simp [suspend, record, setWaiter, fresh] at given

theorem handed {allowed : Mutex → MutexAction → Prop} (reachable : system.ReachableBy allowed s) :
    s.Handed :=
  Transition.System.Inductive.holds (M := system) (I := Handed)
    ⟨fun w bound => absurd bound (Nat.not_lt_zero w),
      fun _ _ _ _ handed _ action => handed.step action⟩ reachable

theorem pending_of_suspending {allowed : Mutex → MutexAction → Prop}
    (reachable : system.ReachableBy allowed s) :
    ∀ w, s.lockSection = .suspending w → w < s.created ∧ (s.waiters w).value = true := by
  induction reachable with
  | init =>
      intro w suspending
      cases suspending
  | step previous permitted action_ ih =>
      intro w suspending
      obtain ⟨created, _, section_⟩ | ⟨handler, root, timed, _, _, rfl⟩ := step_entries action_
      · obtain ⟨older, pending⟩ := ih w (section_ w suspending)
        refine ⟨created ▸ older, ?_⟩
        cases step_waiter action_ older with
        | idle after => rwa [after]
        | handOff root offering value after handed => simp [section_ w suspending] at offering
        | notified n after => simpa [after, StateMutex.notified] using pending
        | claimed value settled after => exact absurd (section_ w suspending) settled
        | expired n after => simpa [after, StateMutex.expired] using pending
        | resumed after => simpa [after] using pending
      · cases suspending
        exact ⟨Nat.lt_succ_self _, by simp [suspend, record, setWaiter]⟩

theorem older_of_entry {allowed : Mutex → MutexAction → Prop} {w : Nat}
    (reachable : system.ReachableBy allowed s) (member : w ∈ s.entries) : w < s.created := by
  apply (served reachable).inLine.bounded
  simp only [entries, List.mem_append] at member
  cases member with
  | inl queued => simp [line, queued]
  | inr entering => simp [line, entering]

theorem coro_of_pending {allowed : Mutex → MutexAction → Prop} {w : Nat}
    (reachable : system.ReachableBy allowed s) (older : w < s.created)
    (pending : (s.waiters w).value = true) : ∃ h, (s.waiters w).coro = some h := by
  obtain ⟨stage, staged⟩ := (served reachable).staged.1 w older
  cases staged.pending_of_value pending
  obtain ⟨root, handler, timed, shape⟩ := staged.shape
  exact ⟨handler, by rw [shape]; rfl⟩

theorem timedOut_of_queued {allowed : Mutex → MutexAction → Prop} {w : Nat}
    (reachable : system.ReachableBy allowed s) (member : w ∈ s.waitAwakes)
    (gone : (s.waiters w).value = false) : (s.waiters w).timedOut = true := by
  have served := served reachable
  have older := served.older w member
  obtain ⟨stage, staged⟩ := served.staged.1 w older
  obtain ⟨root, handler, timed, shape⟩ := staged.shape
  by_contra waiting
  have given : (s.waiters w).handedTo.isSome = true := by
    rw [shape] at gone waiting ⊢
    cases stage <;> simp_all [WaiterStage.waiter]
  have inHandedOver := handed reachable w older given
  have inLine : w ∈ s.line := by simp [line, member]
  exact Nat.lt_irrefl w
    ((List.pairwise_append.mp served.inLine.order).2.2 w inHandedOver w inLine)

structure ServedFairly (s : Mutex) : Prop where
  unstranded : s.lockSection = .free → s.owner = none →
    ∀ w ∈ s.waitAwakes, (s.waiters w).value = false
  inOrder : s.handedOver.Pairwise (· < ·)
  firstLive : ∀ action t w, step s action = some t → t.handedOver = s.handedOver ++ [w] →
    (s.waiters w).timedOut = false ∧
      ∀ w', w' < s.created → (s.waiters w').value = true → w ≤ w'
  shut : s.lockSection ≠ .free → ∀ sch, step s (.tryLock sch) = none ∧
    ∀ handler timed, step s (.lock handler sch timed) = none
  kept : ∀ w r, w < s.created → (s.waiters w).handedTo = some r → (s.waiters w).results = [] →
    s.owner = some r
  scheduledOnce : ∀ w, w < s.created → (s.waiters w).scheduled ≤ 1
  answer : ∀ w, w < s.created → ∀ b ∈ (s.waiters w).results,
    (b = true ↔ (s.waiters w).handedTo.isSome = true) ∧ (b = false ↔ (s.waiters w).timedOut = true)
  exclusive : ∀ w, w < s.created → (s.waiters w).handedTo = none ∨ (s.waiters w).timedOut = false
  claimed : ∀ w, w < s.created → (s.waiters w).value = false →
    (s.waiters w).scheduled = 1 ∨ s.lockSection = .notifying w ∨ (s.waiters w).expiring = true

theorem Staged.timedOut_of_value {w : Nat} {stage : WaiterStage} (staged : s.Staged w stage)
    (pending : (s.waiters w).value = true) : (s.waiters w).timedOut = false := by
  cases staged.pending_of_value pending
  obtain ⟨root, handler, timed, shape⟩ := staged.shape
  rw [shape]
  rfl

theorem Staged.owed_of_handedTo {w r : Nat} {stage : WaiterStage} (staged : s.Staged w stage)
    (handed : (s.waiters w).handedTo = some r) (waiting : (s.waiters w).results = []) :
    (w, r) ∈ s.outstanding := by
  obtain ⟨root, handler, timed, shape⟩ := staged.shape
  rw [shape] at handed waiting
  apply staged.owed r ?_
  cases stage <;> simp_all [WaiterStage.waiter, WaiterStage.owes]

theorem Served.fairly (served : s.Served) (received : s.Received) : s.ServedFairly where
  unstranded := by
    intro free unowned w member
    rw [served.inLine.unowned free unowned] at member
    exact absurd member List.not_mem_nil
  inOrder := (List.pairwise_append.mp served.inLine.order).1
  firstLive := by
    intro action t w action_ handed
    obtain same | ⟨w', root, offering, pending, extended⟩ := handedOver_of_step action_
    · exact absurd (same.symm.trans handed) (by simp)
    · have same : w' = w := by simpa using List.append_cancel_left (extended.symm.trans handed)
      subst same
      have line : s.line = w' :: s.waitAwakes := by simp [line, offered, entering, offering]
      have order := (List.pairwise_append.mp served.inLine.order).2.1
      have member : w' ∈ s.handedOver ++ s.line := by simp [line]
      obtain ⟨stage, staged⟩ := served.staged.1 w' (served.inLine.bounded w' member)
      refine ⟨staged.timedOut_of_value pending, fun other bound alive => ?_⟩
      have inLine := served.inLine.pending other bound alive
      rw [line] at order inLine
      cases List.mem_cons.mp inLine with
      | inl same => exact Nat.le_of_eq same.symm
      | inr later => exact Nat.le_of_lt ((List.pairwise_cons.mp order).1 other later)
  shut := by
    intro busy sch
    exact ⟨by simp [Mutex.step, busy], fun handler timed => by simp [Mutex.step, busy]⟩
  kept := by
    intro w r bound handed waiting
    obtain ⟨stage, staged⟩ := served.staged.1 w bound
    exact owner_of_outstanding served.owned received (staged.owed_of_handedTo handed waiting)
  scheduledOnce := by
    intro w bound
    obtain ⟨stage, staged⟩ := served.staged.1 w bound
    obtain ⟨root, handler, timed, shape⟩ := staged.shape
    rw [shape]
    cases stage <;> simp [WaiterStage.waiter]
  answer := by
    intro w bound b member
    obtain ⟨stage, staged⟩ := served.staged.1 w bound
    obtain ⟨root, handler, timed, shape⟩ := staged.shape
    rw [shape] at member ⊢
    cases stage <;> simp_all [WaiterStage.waiter]
  exclusive := by
    intro w bound
    obtain ⟨stage, staged⟩ := served.staged.1 w bound
    obtain ⟨root, handler, timed, shape⟩ := staged.shape
    rw [shape]
    cases stage <;> simp [WaiterStage.waiter]
  claimed := by
    intro w bound gone
    obtain ⟨stage, staged⟩ := served.staged.1 w bound
    have notifying := staged.notifying
    obtain ⟨root, handler, timed, shape⟩ := staged.shape
    rw [shape] at gone ⊢
    cases stage <;> simp_all [WaiterStage.waiter, WaiterStage.isNotified]

theorem waiters_served_fairly (reachable : system.ReachableBy paired s) :
    s.ServedFairly ∧
    ∀ keep, s.ResultsOf (s.deleteTimedOut keep) ∧ (s.deleteTimedOut keep).ResultsOf s :=
  ⟨(served reachable).fairly (received reachable), results_without_timedOut (served reachable)⟩

theorem waiters_served_fairly_second :
    ∃ s : Mutex, system.ReachableBy paired s ∧ s.handedOver = [1] ∧
      (s.waiters 0).timedOut = true ∧ (s.waiters 1).results = [true] ∧ s.ServedFairly := by
  let start : system.ReachableBy paired system.init := .init
  let run := start.next (.tryLock 5) rfl trivial |>.next (.lock 1 2 true) rfl trivial
    |>.next .enqueue rfl trivial |>.next (.lock 3 4 false) rfl trivial
    |>.next .enqueue rfl trivial |>.next (.timeout 0) rfl trivial
    |>.next (.unlock 5) rfl (fun _ => by decide) |>.next (.offer 2) rfl trivial
    |>.next .notify rfl trivial |>.next (.offer 4) rfl trivial |>.next .notify rfl trivial
    |>.next .finishNotify rfl trivial |>.next (.resume 1) rfl trivial
  exact ⟨_, run, rfl, rfl, rfl, (waiters_served_fairly run).1⟩

end Librf.Mutex
