import Mathlib.Data.List.Count
import Librf.Mutex.Ownership

/-!
# The waiters of a mutex

Each waiter goes through its stages alone: one compare-exchange takes it out of `pending`, and the
call that made it puts it into a run queue. The queue keeps the order of suspension.
-/

namespace Librf

inductive WaiterStage
  | pending
  | notified (r : Nat)
  | granted (r : Nat)
  | acquired (r : Nat)
  | expiring
  | expired
  | abandoned

namespace WaiterStage

def waiter (root handler : Nat) (timed : Bool) : WaiterStage → MutexWaiter
  | pending => { root, coro := some handler, timer := timed }
  | notified r => { root, coro := some handler, timer := timed, value := false, handedTo := some r }
  | granted r =>
      { root, coro := some handler, timer := false, value := false, handedTo := some r,
        scheduled := 1 }
  | acquired r =>
      { root, coro := none, timer := false, value := false, handedTo := some r, scheduled := 1,
        results := [true] }
  | expiring =>
      { root, coro := some handler, timer := timed, value := false, expiring := true,
        timedOut := true }
  | expired =>
      { root, coro := some handler, timer := false, value := false, mutex := false,
        timedOut := true, scheduled := 1 }
  | abandoned =>
      { root, coro := none, timer := false, value := false, mutex := false, timedOut := true,
        scheduled := 1, results := [false] }

def queued : WaiterStage → Nat
  | granted _ | expired => 1
  | _ => 0

def isNotified : WaiterStage → Prop
  | notified _ => True
  | _ => False

/-- The owner that a hand-off has chosen, until the waiter is resumed. -/
def owes : WaiterStage → Option Nat
  | notified r | granted r => some r
  | _ => none

end WaiterStage

namespace Mutex

variable {s t : Mutex} {w : Nat}

structure Staged (s : Mutex) (w : Nat) (stage : WaiterStage) : Prop where
  shape : ∃ root handler timed, s.waiters w = stage.waiter root handler timed
  queued : s.runQueue.count w = stage.queued
  notifying : s.lockSection = .notifying w ↔ stage.isNotified
  owed : ∀ r, stage.owes = some r → (w, r) ∈ s.outstanding

def AllStaged (s : Mutex) : Prop :=
  (∀ w, w < s.created → ∃ stage, s.Staged w stage) ∧ ∀ w ∈ s.runQueue, w < s.created

theorem Staged.of_same {stage : WaiterStage} (staged : s.Staged w stage)
    (waiters : t.waiters w = s.waiters w) (queue : t.runQueue.count w = s.runQueue.count w)
    (section_ : t.lockSection = .notifying w ↔ s.lockSection = .notifying w)
    (outstanding : ∀ r, (w, r) ∈ s.outstanding → (w, r) ∈ t.outstanding) : t.Staged w stage where
  shape := by rw [waiters]; exact staged.shape
  queued := queue.trans staged.queued
  notifying := section_.trans staged.notifying
  owed := fun r owes => outstanding r (staged.owed r owes)

theorem Staged.pending_of_value {stage : WaiterStage} (staged : s.Staged w stage)
    (value : (s.waiters w).value = true) : stage = .pending := by
  obtain ⟨root, handler, timed, shape⟩ := staged.shape
  rw [shape] at value
  cases stage <;> simp_all [WaiterStage.waiter]

theorem Staged.notified_of_notifying {stage : WaiterStage} (staged : s.Staged w stage)
    (notifying : s.lockSection = .notifying w) : ∃ r, stage = .notified r := by
  have isNotified := staged.notifying.mp notifying
  cases stage with
  | notified r => exact ⟨r, rfl⟩
  | _ => exact isNotified.elim

theorem Staged.expiring_of_flag {stage : WaiterStage} (staged : s.Staged w stage)
    (expiring : (s.waiters w).expiring = true) : stage = .expiring := by
  obtain ⟨root, handler, timed, shape⟩ := staged.shape
  rw [shape] at expiring
  cases stage <;> simp_all [WaiterStage.waiter]

theorem Staged.of_queued {stage : WaiterStage} (staged : s.Staged w stage) (member : w ∈ s.runQueue) :
    (∃ r, stage = .granted r) ∨ stage = .expired := by
  have positive : 0 < stage.queued := staged.queued ▸ List.count_pos_iff.mpr member
  cases stage with
  | granted r => exact .inl ⟨r, rfl⟩
  | expired => exact .inr rfl
  | _ => exact absurd positive (Nat.lt_irrefl 0)

theorem AllStaged.of_quiet (all : s.AllStaged) (waiters : t.waiters = s.waiters)
    (created : t.created = s.created) (queue : t.runQueue = s.runQueue)
    (outstanding : t.outstanding = s.outstanding)
    (section_ : ∀ w, t.lockSection = .notifying w ↔ s.lockSection = .notifying w) :
    t.AllStaged := by
  refine ⟨fun w bound => ?_, fun w member => ?_⟩
  · obtain ⟨stage, staged⟩ := all.1 w (created ▸ bound)
    exact ⟨stage, staged.of_same (congrFun waiters w) (by rw [queue]) (section_ w)
      (fun r member => outstanding ▸ member)⟩
  · rw [created]
    exact all.2 w (queue ▸ member)

theorem AllStaged.of_one (all : s.AllStaged) (stage : WaiterStage) (next : t.Staged w stage)
    (waiters : ∀ w', w' ≠ w → t.waiters w' = s.waiters w')
    (created : t.created = s.created) (bound : w < s.created)
    (queue : ∀ w', w' ≠ w → t.runQueue.count w' = s.runQueue.count w')
    (section_ : ∀ w', w' ≠ w → (t.lockSection = .notifying w' ↔ s.lockSection = .notifying w'))
    (outstanding : ∀ w' r, w' ≠ w → (w', r) ∈ s.outstanding → (w', r) ∈ t.outstanding) :
    t.AllStaged := by
  refine ⟨fun w' bound' => ?_, fun w' member => ?_⟩
  · by_cases same : w' = w
    · exact ⟨stage, same ▸ next⟩
    · obtain ⟨stage', staged⟩ := all.1 w' (created ▸ bound')
      exact ⟨stage', staged.of_same (waiters w' same) (queue w' same) (section_ w' same)
        (fun r => outstanding w' r same)⟩
  · rw [created]
    by_cases same : w' = w
    · exact same ▸ bound
    · exact all.2 w' (List.count_pos_iff.mp (queue w' same ▸ List.count_pos_iff.mpr member))

theorem AllStaged.suspend (all : s.AllStaged) (free : s.lockSection = .free)
    (handler root : Nat) (timed : Bool) : (s.suspend handler root timed).AllStaged := by
  refine ⟨fun w bound => ?_, fun w member => Nat.lt_succ_of_lt (all.2 w member)⟩
  by_cases fresh : w = s.created
  · refine ⟨.pending, ⟨root, handler, timed, ?_⟩, ?_, by simp [Mutex.suspend, WaiterStage.isNotified],
      by simp [WaiterStage.owes]⟩
    · simp [Mutex.suspend, record, setWaiter, fresh, WaiterStage.waiter]
    · refine List.count_eq_zero.mpr fun member => ?_
      exact absurd (all.2 w member) (fresh ▸ Nat.lt_irrefl _)
  · have older : w < s.created := Nat.lt_of_le_of_ne (Nat.le_of_lt_succ bound) fresh
    obtain ⟨stage, staged⟩ := all.1 w older
    refine ⟨stage, staged.of_same ?_ rfl (by simp [Mutex.suspend, free]) fun r member => member⟩
    simp [Mutex.suspend, record, setWaiter, Function.update_of_ne fresh]

theorem AllStaged.notify {root : Nat} (all : s.AllStaged) (bound : w < s.created)
    (offering : s.lockSection = .offering w root) : (s.notify w root).AllStaged := by
  cases value : (s.waiters w).value with
  | true =>
      obtain ⟨stage, staged⟩ := all.1 w bound
      cases staged.pending_of_value value
      obtain ⟨root', handler, timed, shape⟩ := staged.shape
      rw [notify_of_pending value]
      refine all.of_one (w := w) (.notified root) ⟨⟨root', handler, timed, ?_⟩, ?_, ?_, ?_⟩
        ?_ rfl bound (fun _ _ => rfl) ?_ ?_
      · simp [record, setWaiter, shape, WaiterStage.waiter]
      · exact staged.queued
      · simp [WaiterStage.isNotified]
      · simp [WaiterStage.owes]
      · intro w' other
        simp [record, setWaiter, Function.update_of_ne other]
      · intro w' other
        simp [offering, other.symm]
      · intro w' r _ member
        exact List.mem_append_left _ member
  | false =>
      rw [notify_of_claimed value]
      exact all.of_quiet rfl rfl rfl rfl fun w' => by simp [offering]

theorem AllStaged.finishNotify (all : s.AllStaged) (bound : w < s.created)
    (notifying : s.lockSection = .notifying w) : (s.finishNotify w).AllStaged := by
  obtain ⟨stage, staged⟩ := all.1 w bound
  obtain ⟨r, rfl⟩ := staged.notified_of_notifying notifying
  obtain ⟨root, handler, timed, shape⟩ := staged.shape
  have coro : ((s.setWaiter w { s.waiters w with
      toStateMutex := (s.waiters w).notified }).waiters w).coro = some handler := by
    simp [setWaiter, shape, StateMutex.notified, WaiterStage.waiter]
  rw [Mutex.finishNotify, schedule, if_pos (Option.isSome_of_eq_some coro)]
  refine all.of_one (w := w) (.granted r) ⟨⟨root, handler, timed, ?_⟩, ?_, ?_, ?_⟩
    ?_ rfl bound ?_ ?_ (fun _ _ _ member => member)
  · simp [setWaiter, shape, StateMutex.notified, WaiterStage.waiter]
  · have := staged.queued
    simp_all [setWaiter, WaiterStage.queued]
  · simp [WaiterStage.isNotified]
  · exact staged.owed
  · intro w' other
    simp [setWaiter, Function.update_of_ne other]
  · intro w' other
    simp [setWaiter, List.count_append, other.symm]
  · intro w' other
    simp [notifying, other.symm]

theorem AllStaged.timeout (all : s.AllStaged) (bound : w < s.created) : (s.timeout w).AllStaged := by
  cases value : (s.waiters w).value with
  | true =>
      obtain ⟨stage, staged⟩ := all.1 w bound
      cases staged.pending_of_value value
      obtain ⟨root, handler, timed, shape⟩ := staged.shape
      rw [timeout_of_pending value]
      refine all.of_one (w := w) .expiring ⟨⟨root, handler, timed, ?_⟩, staged.queued,
        staged.notifying, by simp [WaiterStage.owes]⟩ ?_ rfl bound (fun _ _ => rfl) (fun _ _ => Iff.rfl)
        (fun _ _ _ member => member)
      · simp [record, setWaiter, shape, WaiterStage.waiter]
      · intro w' other
        simp [record, setWaiter, Function.update_of_ne other]
  | false => rwa [timeout_of_claimed value]

theorem AllStaged.finishTimeout (all : s.AllStaged) (bound : w < s.created)
    (expiring : (s.waiters w).expiring = true) : (s.finishTimeout w).AllStaged := by
  obtain ⟨stage, staged⟩ := all.1 w bound
  cases staged.expiring_of_flag expiring
  obtain ⟨root, handler, timed, shape⟩ := staged.shape
  have coro : ((s.setWaiter w { s.waiters w with
      toStateMutex := (s.waiters w).expired, expiring := false }).waiters w).coro =
      some handler := by
    simp [setWaiter, shape, StateMutex.expired, WaiterStage.waiter]
  rw [Mutex.finishTimeout, schedule, if_pos (Option.isSome_of_eq_some coro)]
  refine all.of_one (w := w) .expired ⟨⟨root, handler, timed, ?_⟩, ?_, staged.notifying,
    by simp [WaiterStage.owes]⟩ ?_ rfl bound ?_ (fun _ _ => Iff.rfl) (fun _ _ _ member => member)
  · simp [setWaiter, shape, StateMutex.expired, WaiterStage.waiter]
  · have := staged.queued
    simp_all [setWaiter, WaiterStage.queued]
  · intro w' other
    simp [setWaiter, Function.update_of_ne other]
  · intro w' other
    simp [setWaiter, List.count_append, other.symm]

theorem resume_of_coro {handler : Nat} (coro : (s.waiters w).coro = some handler) :
    s.resume w =
      { (s.setWaiter w { s.waiters w with
            coro := none, results := (s.waiters w).results ++ [(s.waiters w).mutex] }).record
              (.awaited w (s.waiters w).mutex) with
          runQueue := s.runQueue.erase w
          outstanding := s.outstanding.filter fun handOff => handOff.1 != w } := by
  simp [resume, coro, setWaiter, record]

theorem AllStaged.resume (all : s.AllStaged) (member : w ∈ s.runQueue) : (s.resume w).AllStaged := by
  have bound := all.2 w member
  obtain ⟨stage, staged⟩ := all.1 w bound
  obtain ⟨root, handler, timed, shape⟩ := staged.shape
  have single : s.runQueue.count w = 1 := by
    rcases staged.of_queued member with ⟨r, rfl⟩ | rfl
    · exact staged.queued
    · exact staged.queued
  obtain ⟨next, advanced, kept, unqueued, quiet⟩ : ∃ next : WaiterStage,
      { s.waiters w with coro := none, results := (s.waiters w).results ++ [(s.waiters w).mutex] } =
        next.waiter root handler timed ∧ (next.isNotified ↔ stage.isNotified) ∧
      next.queued = 0 ∧ next.owes = none := by
    rcases staged.of_queued member with ⟨r, rfl⟩ | rfl
    · exact ⟨.acquired r, by simp [shape, WaiterStage.waiter], Iff.rfl, rfl, rfl⟩
    · exact ⟨.abandoned, by simp [shape, WaiterStage.waiter], Iff.rfl, rfl, rfl⟩
  have coro : (s.waiters w).coro = some handler := by
    rcases staged.of_queued member with ⟨r, rfl⟩ | rfl <;> simp [shape, WaiterStage.waiter]
  rw [resume_of_coro coro]
  refine all.of_one (w := w) next ⟨⟨root, handler, timed, ?_⟩, ?_, ?_, ?_⟩
    ?_ rfl bound ?_ (fun _ _ => Iff.rfl) ?_
  · simpa [record, setWaiter] using advanced
  · rw [unqueued]
    simp [single]
  · exact staged.notifying.trans kept.symm
  · simp [quiet]
  · intro w' other
    simp [record, setWaiter, Function.update_of_ne other]
  · intro w' other
    simp [List.count_erase_of_ne other]
  · intro w' r other member
    simp [member, other]

/-! ## The line -/

def offered (s : Mutex) : List Nat :=
  match s.lockSection with
  | .offering w _ => [w]
  | _ => []

def entering (s : Mutex) : List Nat :=
  match s.lockSection with
  | .suspending w => [w]
  | _ => []

/-- The waiters that have no answer from `unlock` yet, the longest waiting first. -/
def line (s : Mutex) : List Nat := s.offered ++ s.waitAwakes ++ s.entering

structure InLine (s : Mutex) : Prop where
  order : (s.handedOver ++ s.line).Pairwise (· < ·)
  bounded : ∀ w ∈ s.handedOver ++ s.line, w < s.created
  pending : ∀ w, w < s.created → (s.waiters w).value = true → w ∈ s.line
  notifying : ∀ w, s.lockSection = .notifying w → w < s.created ∧ s.owner ≠ none
  suspending : ∀ w, s.lockSection = .suspending w → s.owner ≠ none
  unowned : s.lockSection = .free → s.owner = none → s.waitAwakes = []

theorem line_of_free (free : s.lockSection = .free) : s.line = s.waitAwakes := by
  simp [line, offered, entering, free]

theorem line_of_same (section_ : t.lockSection = s.lockSection)
    (queue : t.waitAwakes = s.waitAwakes) : t.line = s.line := by
  simp only [line, offered, entering, section_, queue]

theorem handedOver_of_logged (event : MutexEvent) (logged : t.log = s.log ++ [event]) :
    t.handedOver = s.handedOver ++ event.handed?.toList := by
  cases handed : event.handed? <;> simp [handedOver, logged, handed]

theorem schedule_value (s : Mutex) (w w' : Nat) :
    ((s.schedule w).waiters w').value = (s.waiters w').value := by
  unfold schedule
  split
  · by_cases same : w' = w <;> simp [setWaiter, same]
  · rfl

theorem schedule_created (s : Mutex) (w : Nat) : (s.schedule w).created = s.created := by
  unfold schedule
  split <;> rfl

theorem InLine.of_quiet (inLine : s.InLine) (section_ : t.lockSection = s.lockSection)
    (impl : t.toMutexImpl = s.toMutexImpl) (created : t.created = s.created)
    (handed : t.handedOver = s.handedOver)
    (value : ∀ w, (t.waiters w).value = true → (s.waiters w).value = true) : t.InLine := by
  have queue : t.waitAwakes = s.waitAwakes := congrArg MutexImpl.waitAwakes impl
  have owner : t.owner = s.owner := congrArg MutexImpl.owner impl
  have line := line_of_same section_ queue
  refine ⟨?_, ?_, ?_, ?_, ?_, ?_⟩
  · rw [handed, line]
    exact inLine.order
  · rw [handed, line, created]
    exact inLine.bounded
  · intro w bound pending
    rw [line]
    exact inLine.pending w (created ▸ bound) (value w pending)
  · intro w notifying
    rw [created, owner]
    exact inLine.notifying w (section_ ▸ notifying)
  · intro w suspending
    rw [owner]
    exact inLine.suspending w (section_ ▸ suspending)
  · intro free unowned
    rw [queue]
    exact inLine.unowned (section_ ▸ free) (owner ▸ unowned)

theorem InLine.of_line (inLine : s.InLine) (line : t.line = s.line)
    (handed : t.handedOver = s.handedOver) (created : t.created = s.created)
    (value : ∀ w, (t.waiters w).value = true → (s.waiters w).value = true)
    (notifying : ∀ w, t.lockSection ≠ .notifying w)
    (suspending : ∀ w, t.lockSection ≠ .suspending w)
    (unowned : t.lockSection = .free → t.owner = none → t.waitAwakes = []) : t.InLine where
  order := by
    rw [handed, line]
    exact inLine.order
  bounded := by
    rw [handed, line, created]
    exact inLine.bounded
  pending := by
    intro w bound pending
    rw [line]
    exact inLine.pending w (created ▸ bound) (value w pending)
  notifying := fun w at_ => absurd at_ (notifying w)
  suspending := fun w at_ => absurd at_ (suspending w)
  unowned := unowned

theorem InLine.of_free (inLine : s.InLine) (free : s.lockSection = .free)
    (section_ : t.lockSection = .free ∨ t.lockSection = .releasing)
    (queue : t.waitAwakes = s.waitAwakes) (created : t.created = s.created)
    (handed : t.handedOver = s.handedOver) (waiters : t.waiters = s.waiters)
    (unowned : t.lockSection = .free → t.owner = none → s.owner = none) : t.InLine := by
  have line : t.line = s.line := by
    rw [line_of_free free]
    cases section_ with
    | inl free => rw [line_of_free free, queue]
    | inr releasing => simp [line, offered, entering, releasing, queue]
  apply inLine.of_line line handed created
  · intro w pending
    exact waiters ▸ pending
  · intro w notifying
    simp [notifying] at section_
  · intro w suspending
    simp [suspending] at section_
  · intro free' none
    rw [queue]
    exact inLine.unowned free (unowned free' none)

theorem InLine.tryLock (inLine : s.InLine) (free : s.lockSection = .free) (sch : Nat) :
    (s.tryLock sch).InLine := by
  have handed := handedOver_of_logged (t := s.tryLock sch) (s := s) _ rfl
  cases tried : (s.tryLockLockless sch).1 with
  | true =>
      have after := (tryLockLockless_locked tried).2
      refine inLine.of_free free (.inl free) ?_ rfl (by simpa [MutexEvent.handed?] using handed) rfl
        fun _ none => ?_
      · show (s.tryLockLockless sch).2.waitAwakes = s.waitAwakes
        rw [after]
      · have owner : (s.tryLock sch).owner = some sch := congrArg MutexImpl.owner after
        simp [owner] at none
  | false =>
      have same := (tryLockLockless_refused tried).1
      refine inLine.of_free free (.inl free) ?_ rfl (by simpa [MutexEvent.handed?] using handed) rfl
        fun _ none => ?_
      · exact congrArg MutexImpl.waitAwakes same
      · exact (congrArg MutexImpl.owner same).symm.trans none

theorem InLine.lock (inLine : s.InLine) (free : s.lockSection = .free) (handler root : Nat)
    (timed : Bool) : (s.lock handler root timed).InLine := by
  cases tried : (s.tryLockLockless root).1 with
  | true =>
      rw [lock_of_locked tried]
      have after := (tryLockLockless_locked tried).2
      refine inLine.of_free free (.inl free) ?_ rfl ?_ rfl fun _ none => ?_
      · show (s.tryLockLockless root).2.waitAwakes = s.waitAwakes
        rw [after]
      · simpa [MutexEvent.handed?] using handedOver_of_logged (s := s) (.locked root) rfl
      · have owner := congrArg MutexImpl.owner after
        exact absurd (owner.symm.trans none) (by simp)
  | false =>
      rw [lock_of_refused tried]
      obtain ⟨holder, owner, _⟩ := (tryLockLockless_refused tried).2
      have handed : (s.suspend handler root timed).handedOver = s.handedOver := by
        simpa [MutexEvent.handed?] using handedOver_of_logged (s := s) (.suspended s.created) rfl
      have line : (s.suspend handler root timed).line = s.line ++ [s.created] := by
        rw [line_of_free free]
        simp [Mutex.line, offered, entering, suspend, record, setWaiter]
      have bounded := inLine.bounded
      refine ⟨?_, ?_, ?_, ?_, ?_, ?_⟩
      · rw [handed, line, ← List.append_assoc, List.pairwise_append]
        refine ⟨inLine.order, List.pairwise_singleton _ _, fun w member w' last => ?_⟩
        rw [List.mem_singleton.mp last]
        exact bounded w member
      · rw [handed, line, ← List.append_assoc]
        intro w member
        rcases List.mem_append.mp member with older | last
        · exact Nat.lt_succ_of_lt (bounded w older)
        · exact List.mem_singleton.mp last ▸ Nat.lt_succ_self _
      · intro w bound pending
        rw [line]
        by_cases fresh : w = s.created
        · simp [fresh]
        · have older : w < s.created := Nat.lt_of_le_of_ne (Nat.le_of_lt_succ bound) fresh
          apply List.mem_append_left _ (inLine.pending w older ?_)
          simpa [suspend, record, setWaiter, Function.update_of_ne fresh] using pending
      · intro w notifying
        simp [suspend] at notifying
      · intro w _
        simp [suspend, record, setWaiter, owner]
      · intro free' _
        simp [suspend] at free'

theorem InLine.enqueue (inLine : s.InLine) (suspending : s.lockSection = .suspending w) :
    InLine { s with toMutexImpl := s.addWaitListLockless w, lockSection := .free } := by
  apply inLine.of_line
  · simp [Mutex.line, offered, entering, suspending, MutexImpl.addWaitListLockless]
  · rfl
  · rfl
  · exact fun _ pending => pending
  · simp
  · simp
  · intro _ none
    exact absurd none (inLine.suspending w suspending)

theorem InLine.unlock (inLine : s.InLine) (free : s.lockSection = .free) (sch : Nat) :
    (s.beginUnlock sch).InLine := by
  have handed : (s.beginUnlock sch).handedOver = s.handedOver := by
    simpa [MutexEvent.handed?] using
      handedOver_of_logged (t := s.beginUnlock sch) (s := s) _ rfl
  by_cases holds : s.owner = some sch
  · by_cases last : s.counter = 1
    · rw [beginUnlock_of_last holds last] at handed ⊢
      exact inLine.of_free free (.inr rfl) rfl rfl handed rfl (by simp)
    · rw [beginUnlock_of_recursive holds last] at handed ⊢
      exact inLine.of_free free (.inl rfl) rfl rfl handed rfl fun _ none => none
  · rw [beginUnlock_of_other holds] at handed ⊢
    exact inLine.of_free free (.inl rfl) rfl rfl handed rfl fun _ none => none

theorem InLine.offer {root : Nat} {rest : List Nat} (inLine : s.InLine)
    (releasing : s.lockSection = .releasing) (queue : s.waitAwakes = w :: rest) :
    InLine { s with
      toMutexImpl := { s.transfer root with waitAwakes := rest }
      lockSection := .offering w root } := by
  apply inLine.of_line
  · simp [Mutex.line, offered, entering, releasing, queue]
  · rfl
  · rfl
  · exact fun _ pending => pending
  · simp
  · simp
  · simp

theorem InLine.notify {root : Nat} (inLine : s.InLine)
    (offering : s.lockSection = .offering w root) (owner : s.owner = some root) :
    (s.notify w root).InLine := by
  have line : s.line = w :: s.waitAwakes := by simp [Mutex.line, offered, entering, offering]
  have order := inLine.order
  have bounded := inLine.bounded
  rw [line] at order bounded
  cases value : (s.waiters w).value with
  | true =>
      -- `w` moves from the head of the line to the end of the waiters served
      rw [notify_of_pending value]
      have handed := handedOver_of_logged (s := s) (t := s.notify w root) (.handed w root)
        (by rw [notify_of_pending value]; rfl)
      rw [notify_of_pending value] at handed
      refine ⟨?_, ?_, ?_, ?_, ?_, ?_⟩
      · rw [handed]
        simpa [Mutex.line, offered, entering, record, setWaiter, MutexEvent.handed?] using order
      · rw [handed]
        simpa [Mutex.line, offered, entering, record, setWaiter, MutexEvent.handed?] using bounded
      · intro w' bound pending
        by_cases same : w' = w
        · simp [record, setWaiter, same] at pending
        · have before := inLine.pending w' bound
            (by simpa [record, setWaiter, Function.update_of_ne same] using pending)
          rw [line, List.mem_cons] at before
          simpa [Mutex.line, offered, entering, record, setWaiter] using before.resolve_left same
      · intro w' notifying
        cases notifying
        exact ⟨bounded w (by simp), by simp [record, setWaiter, owner]⟩
      · intro w' suspending
        cases suspending
      · intro free
        cases free
  | false =>
      rw [notify_of_claimed value]
      have rest : Mutex.line { s with toMutexImpl := s.revert, lockSection := .releasing } =
          s.waitAwakes := by
        simp [Mutex.line, offered, entering, MutexImpl.revert]
      have shorter : (s.handedOver ++ s.waitAwakes).Sublist (s.handedOver ++ w :: s.waitAwakes) :=
        (List.Sublist.refl _).append (List.sublist_cons_self w _)
      refine ⟨?_, ?_, ?_, ?_, ?_, ?_⟩
      · rw [rest]
        exact order.sublist shorter
      · rw [rest]
        exact fun w' member => bounded w' (shorter.subset member)
      · intro w' bound pending
        have before := inLine.pending w' bound pending
        rw [line, List.mem_cons] at before
        rw [rest]
        apply before.resolve_left
        rintro rfl
        exact absurd (value.symm.trans pending) Bool.false_ne_true
      · intro w' notifying
        cases notifying
      · intro w' suspending
        cases suspending
      · intro free
        cases free

theorem schedule_handedOver (s : Mutex) (w : Nat) : (s.schedule w).handedOver = s.handedOver := by
  rw [handedOver, handedOver, schedule_log]

theorem InLine.leave (inLine : s.InLine) (releasing : s.lockSection = .releasing)
    (queue : s.waitAwakes = []) : InLine { s with lockSection := .free } := by
  apply inLine.of_line
  · simp [Mutex.line, offered, entering, releasing]
  · rfl
  · rfl
  · exact fun _ pending => pending
  · simp
  · simp
  · exact fun _ _ => queue

theorem InLine.timeout (inLine : s.InLine) (w : Nat) : (s.timeout w).InLine := by
  cases value : (s.waiters w).value with
  | true =>
      rw [timeout_of_pending value]
      refine inLine.of_quiet rfl rfl rfl ?_ fun w' pending => ?_
      · apply (handedOver_of_logged (.timedOut w) rfl).trans ?_
        simp [MutexEvent.handed?, handedOver, setWaiter]
      · by_cases same : w' = w
        · exact same ▸ value
        · simpa [record, setWaiter, Function.update_of_ne same] using pending
  | false => rwa [timeout_of_claimed value]

theorem setWaiter_value (waiter : MutexWaiter) (kept : waiter.value = (s.waiters w).value)
    (w' : Nat) : ((s.setWaiter w waiter).waiters w').value = (s.waiters w').value := by
  by_cases same : w' = w
  · simp [setWaiter, same, kept]
  · simp [setWaiter, Function.update_of_ne same]

theorem InLine.finishTimeout (inLine : s.InLine) (w : Nat) : (s.finishTimeout w).InLine := by
  refine inLine.of_quiet ?_ ?_ ?_ ?_ fun w' pending => ?_
  · exact schedule_lockSection _ w
  · exact schedule_toMutexImpl _ w
  · exact schedule_created _ w
  · exact schedule_handedOver _ w
  · apply Eq.trans (Eq.symm ?_) pending
    rw [Mutex.finishTimeout, schedule_value]
    apply setWaiter_value
    rfl

theorem InLine.resume (inLine : s.InLine) (w : Nat) : (s.resume w).InLine := by
  cases coro : (s.waiters w).coro with
  | some handler =>
      rw [resume_of_coro coro]
      refine inLine.of_quiet rfl rfl rfl ?_ fun w' pending => ?_
      · apply (handedOver_of_logged (.awaited w (s.waiters w).mutex) rfl).trans ?_
        simp [MutexEvent.handed?, handedOver, setWaiter]
      · apply Eq.trans (Eq.symm ?_) pending
        apply setWaiter_value
        rfl
  | none =>
      simp only [Mutex.resume, coro, Option.isSome_none, Bool.false_eq_true, if_false]
      exact inLine.of_quiet rfl rfl rfl rfl fun _ value => value

theorem InLine.finishNotify (inLine : s.InLine) (notifying : s.lockSection = .notifying w) :
    (s.finishNotify w).InLine := by
  have free : (s.finishNotify w).lockSection = .free := rfl
  have impl : (s.finishNotify w).toMutexImpl = s.toMutexImpl := schedule_toMutexImpl _ w
  apply inLine.of_line
  · rw [line_of_free free, congrArg MutexImpl.waitAwakes impl]
    simp [Mutex.line, offered, entering, notifying]
  · exact schedule_handedOver _ w
  · exact schedule_created _ w
  · intro w' pending
    apply Eq.trans (Eq.symm ?_) pending
    apply (schedule_value _ w w').trans ?_
    apply setWaiter_value
    rfl
  · simp [free]
  · simp [free]
  · intro _ none
    exact absurd ((congrArg MutexImpl.owner impl).symm.trans none) (inLine.notifying w notifying).2

/-! ## Every run -/

structure Served (s : Mutex) : Prop where
  owned : s.Owned
  staged : s.AllStaged
  inLine : s.InLine

theorem Served.step {action : MutexAction} (served : s.Served) (action_ : step s action = some t) :
    t.Served := by
  have owned' := served.owned.step action_
  obtain ⟨owned, staged, inLine⟩ := served
  suffices kept : t.AllStaged ∧ t.InLine from ⟨owned', kept.1, kept.2⟩
  cases effect_of_step action_ with
  | owner free =>
      have handed : (s.record (.owner s.owner)).handedOver = s.handedOver := by
        simpa [MutexEvent.handed?] using handedOver_of_logged (s := s) (.owner s.owner) rfl
      exact ⟨staged.of_quiet rfl rfl rfl rfl fun _ => Iff.rfl,
        inLine.of_quiet rfl rfl rfl handed fun _ value => value⟩
  | tryLock sch free =>
      exact ⟨staged.of_quiet rfl rfl rfl rfl fun _ => Iff.rfl, inLine.tryLock free sch⟩
  | lock handler root timed free =>
      refine ⟨?_, inLine.lock free handler root timed⟩
      cases tried : (s.tryLockLockless root).1 with
      | true =>
          rw [lock_of_locked tried]
          exact staged.of_quiet rfl rfl rfl rfl fun _ => Iff.rfl
      | false =>
          rw [lock_of_refused tried]
          exact staged.suspend free handler root timed
  | enqueue w suspending =>
      exact ⟨staged.of_quiet rfl rfl rfl rfl fun w' => by simp [suspending],
        inLine.enqueue suspending⟩
  | unlock sch free =>
      refine ⟨staged.of_quiet rfl rfl rfl rfl fun w => ?_, inLine.unlock free sch⟩
      rw [free]
      unfold beginUnlock
      dsimp only
      split <;> simp
  | offer w root rest releasing queue =>
      exact ⟨staged.of_quiet rfl rfl rfl rfl fun w' => by simp [releasing],
        inLine.offer releasing queue⟩
  | notify w root offering =>
      have member : w ∈ s.handedOver ++ s.line := by simp [Mutex.line, offered, offering]
      refine ⟨staged.notify (inLine.bounded w member) offering, inLine.notify offering ?_⟩
      simp only [Owned, offering] at owned
      exact owned.1
  | finishNotify w notifying =>
      exact ⟨staged.finishNotify (inLine.notifying w notifying).1 notifying,
        inLine.finishNotify notifying⟩
  | leave releasing queue =>
      exact ⟨staged.of_quiet rfl rfl rfl rfl fun w' => by simp [releasing],
        inLine.leave releasing queue⟩
  | timeout w older timer queued => exact ⟨staged.timeout older, inLine.timeout w⟩
  | finishTimeout w older expiring =>
      exact ⟨staged.finishTimeout older expiring, inLine.finishTimeout w⟩
  | resume w member => exact ⟨staged.resume member, inLine.resume w⟩

theorem served {allowed : Mutex → MutexAction → Prop} (reachable : system.ReachableBy allowed s) :
    s.Served := by
  apply Transition.System.Inductive.holds (M := system) (I := Served) ⟨⟨?_, ⟨?_, ?_⟩, ?_⟩,
    fun _ _ _ _ served _ action => served.step action⟩ reachable
  · exact .inl ⟨rfl, rfl, fun _ => rfl⟩
  · exact fun w bound => absurd bound (Nat.not_lt_zero w)
  · exact fun w member => absurd member List.not_mem_nil
  · refine ⟨List.Pairwise.nil, fun w member => absurd member List.not_mem_nil,
      fun w bound => absurd bound (Nat.not_lt_zero w), ?_, ?_, fun _ _ => rfl⟩
    · intro w notifying
      cases notifying
    · intro w suspending
      cases suspending

/-! ## What a step does to one waiter -/

inductive WaiterStep (s t : Mutex) (w : Nat) : Prop
  | idle : t.waiters w = s.waiters w → WaiterStep s t w
  | handOff (root : Nat) : s.lockSection = .offering w root → (s.waiters w).value = true →
      t.waiters w = { s.waiters w with value := false, handedTo := some root } →
      t.handedOver = s.handedOver ++ [w] → WaiterStep s t w
  | notified (n : Nat) : t.waiters w =
      { s.waiters w with toStateMutex := (s.waiters w).notified, scheduled := n } → WaiterStep s t w
  | claimed : (s.waiters w).value = true → s.lockSection ≠ .suspending w →
      t.waiters w = { s.waiters w with value := false, expiring := true, timedOut := true } →
      WaiterStep s t w
  | expired (n : Nat) : t.waiters w = { s.waiters w with
      toStateMutex := (s.waiters w).expired, expiring := false, scheduled := n } → WaiterStep s t w
  | resumed : t.waiters w = { s.waiters w with
      coro := none, results := (s.waiters w).results ++ [(s.waiters w).mutex] } → WaiterStep s t w

theorem setWaiter_self {waiter : MutexWaiter} : (s.setWaiter w waiter).waiters w = waiter := by
  simp [setWaiter]

theorem setWaiter_of_ne {waiter : MutexWaiter} {w' : Nat} (other : w' ≠ w) :
    (s.setWaiter w waiter).waiters w' = s.waiters w' := by
  simp [setWaiter, Function.update_of_ne other]

theorem schedule_self (s : Mutex) (w : Nat) :
    ∃ n, (s.schedule w).waiters w = { s.waiters w with scheduled := n } := by
  unfold schedule
  split
  · exact ⟨_, setWaiter_self⟩
  · exact ⟨(s.waiters w).scheduled, rfl⟩

theorem schedule_of_ne {w' : Nat} (other : w' ≠ w) :
    (s.schedule w).waiters w' = s.waiters w' := by
  unfold schedule
  split
  · exact setWaiter_of_ne other
  · rfl

theorem step_waiter {action : MutexAction} (action_ : step s action = some t)
    (older : w < s.created) : WaiterStep s t w := by
  cases effect_of_step action_ with
  | lock handler root timed free =>
      apply WaiterStep.idle
      cases tried : (s.tryLockLockless root).1 with
      | true => rw [lock_of_locked tried]; rfl
      | false =>
          rw [lock_of_refused tried]
          exact setWaiter_of_ne (Nat.ne_of_lt older)
  | notify w' root offering =>
      cases value : (s.waiters w').value with
      | true =>
          by_cases same : w = w'
          · subst same
            have handed := handedOver_of_logged (s := s) (t := s.notify w root) (.handed w root)
              (by rw [notify_of_pending value]; rfl)
            apply WaiterStep.handOff root offering value ?_ handed
            rw [notify_of_pending value]
            exact setWaiter_self
          · rw [notify_of_pending value]
            exact .idle (setWaiter_of_ne same)
      | false =>
          rw [notify_of_claimed value]
          exact .idle rfl
  | finishNotify w' notifying =>
      by_cases same : w = w'
      · subst same
        obtain ⟨n, after⟩ := schedule_self (s.setWaiter w { s.waiters w with
          toStateMutex := (s.waiters w).notified }) w
        exact .notified n (after.trans (by rw [setWaiter_self]))
      · exact .idle ((schedule_of_ne same).trans (setWaiter_of_ne same))
  | timeout w' older' timer queued =>
      cases value : (s.waiters w').value with
      | true =>
          rw [timeout_of_pending value]
          by_cases same : w = w'
          · subst same
            exact .claimed value queued setWaiter_self
          · exact .idle (setWaiter_of_ne same)
      | false =>
          rw [timeout_of_claimed value]
          exact .idle rfl
  | finishTimeout w' older' expiring =>
      by_cases same : w = w'
      · subst same
        obtain ⟨n, after⟩ := schedule_self (s.setWaiter w { s.waiters w with
          toStateMutex := (s.waiters w).expired, expiring := false }) w
        exact .expired n (after.trans (by rw [setWaiter_self]))
      · exact .idle ((schedule_of_ne same).trans (setWaiter_of_ne same))
  | resume w' member =>
      cases coro : (s.waiters w').coro with
      | none => exact .idle (by simp [Mutex.resume, coro])
      | some handler =>
          rw [resume_of_coro coro]
          by_cases same : w = w'
          · subst same
            exact .resumed setWaiter_self
          · exact .idle (setWaiter_of_ne same)
  | _ => exact .idle rfl

theorem WaiterStep.value (change : WaiterStep s t w) (pending : (t.waiters w).value = true) :
    (s.waiters w).value = true := by
  cases change with
  | idle after => rwa [after] at pending
  | handOff root offering value after handed => exact value
  | notified n after => simpa [after, StateMutex.notified] using pending
  | claimed value settled after => exact value
  | expired n after => simpa [after, StateMutex.expired] using pending
  | resumed after => simpa [after] using pending

theorem WaiterStep.root (change : WaiterStep s t w) : (t.waiters w).root = (s.waiters w).root := by
  cases change with
  | idle after => rw [after]
  | handOff root offering value after handed => rw [after]
  | notified n after => rw [after]; rfl
  | claimed value settled after => rw [after]
  | expired n after => rw [after]; rfl
  | resumed after => rw [after]

theorem WaiterStep.coro {h : Nat} (change : WaiterStep s t w)
    (handler : (t.waiters w).coro = some h) : (s.waiters w).coro = some h := by
  cases change with
  | idle after => rwa [after] at handler
  | handOff root offering value after handed => rwa [after] at handler
  | notified n after => simpa [after, StateMutex.notified] using handler
  | claimed value settled after => rwa [after] at handler
  | expired n after => simpa [after, StateMutex.expired] using handler
  | resumed after => simp [after] at handler

end Mutex

end Librf
