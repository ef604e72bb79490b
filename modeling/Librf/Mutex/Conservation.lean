import Librf.Mutex.Guards

/-!
# Guards conserve locks

A move assignment drops what its target holds, and the guard of a `mutex_t::lock` that throws
unlocks what it has not adopted; but for that, the locks given and not unlocked are those that no
guard has adopted and those that the guards account for.
-/

namespace Librf

namespace Mutex

variable {s t : Mutex} {action : MutexAction} {sch r : Nat}

theorem logged_of_step (h : step s action = some t) :
    ∃ events, t.log = s.log ++ events ∧ ∀ r, events.count (.unlocked r true) =
      if action = .unlock r ∧ s.owner = some r then 1 else 0 := by
  cases effect_of_step h with
  | owner free => exact ⟨[.owner s.owner], rfl, fun r => by simp⟩
  | tryLock sch free => exact ⟨[.tried sch (s.tryLockLockless sch).1], rfl, fun r => by simp⟩
  | lock handler root timed free =>
      cases tried : (s.tryLockLockless root).1 with
      | true => exact ⟨[.locked root], by rw [lock_of_locked tried]; rfl, fun r => by simp⟩
      | false =>
          refine ⟨[.suspended s.created], ?_, fun r => by simp⟩
          rw [lock_of_refused tried]
          rfl
  | enqueue w suspending => exact ⟨[], by simp, fun r => by simp⟩
  | unlock sch free =>
      refine ⟨[.unlocked sch (s.toMutexImpl.unlock sch).1], rfl, fun r => ?_⟩
      by_cases same : sch = r
      · subst same
        by_cases holds : s.owner = some sch
        · by_cases last : s.counter = 1 <;> simp [MutexImpl.unlock, holds, last]
        · simp [MutexImpl.unlock, holds]
      · simp [same]
  | offer w root rest releasing queue => exact ⟨[], by simp, fun r => by simp⟩
  | notify w root offering =>
      cases pending : (s.waiters w).value with
      | true => exact ⟨[.handed w root], by rw [notify_of_pending pending]; rfl, fun r => by simp⟩
      | false => exact ⟨[], by rw [notify_of_claimed pending]; simp, fun r => by simp⟩
  | finishNotify w notifying =>
      exact ⟨[], by rw [List.append_nil]; exact schedule_log _ w, fun r => by simp⟩
  | leave releasing queue => exact ⟨[], by simp, fun r => by simp⟩
  | timeout w older timer queued =>
      cases pending : (s.waiters w).value with
      | true => exact ⟨[.timedOut w], by rw [timeout_of_pending pending]; rfl, fun r => by simp⟩
      | false => exact ⟨[], by rw [timeout_of_claimed pending]; simp, fun r => by simp⟩
  | finishTimeout w older expiring =>
      exact ⟨[], by rw [List.append_nil]; exact schedule_log _ w, fun r => by simp⟩
  | resume w member =>
      unfold Mutex.resume
      dsimp only
      split
      · exact ⟨[.awaited w (s.waiters w).mutex], rfl, fun r => by simp⟩
      · exact ⟨[], by simp, fun r => by simp⟩

theorem grants_of_step (h : step s action = some t) (r : Nat) : s.grants r ≤ t.grants r := by
  obtain ⟨events, logged, -⟩ := logged_of_step h
  rw [grants, grants, logged, List.countP_append]
  exact Nat.le_add_right _ _

theorem unlocks_of_step (h : step s action = some t) (r : Nat) :
    t.unlocks r = s.unlocks r + if action = .unlock r ∧ s.owner = some r then 1 else 0 := by
  obtain ⟨events, logged, counted⟩ := logged_of_step h
  rw [unlocks, unlocks, logged, List.count_append, counted]

theorem free_of_unlock (h : step s (.unlock sch) = some t) : s.lockSection = .free := by
  cases effect_of_step h with
  | unlock _ free => exact free

theorem Owned.heldBy (owned : s.Owned) (free : s.lockSection = .free) (positive : 0 < s.balance r) :
    s.HeldBy r := by
  have settled : s.Settled := by simpa only [Owned, free] using owned
  cases settled with
  | inl idle =>
      rw [idle.balance r] at positive
      cases positive
  | inr held =>
      obtain ⟨holder, held⟩ := held
      rcases eq_or_ne r holder with rfl | other
      · exact held
      · rw [held.others r other] at positive
        cases positive

theorem Owned.balance_of_free (owned : s.Owned) (free : s.lockSection = .free) (sch : Nat) :
    s.balance sch = if s.owner = some sch then s.counter else 0 := by
  have settled : s.Settled := by simpa only [Owned, free] using owned
  cases settled with
  | inl idle => rw [idle.balance, idle.owner, if_neg (by simp)]
  | inr held =>
      obtain ⟨holder, held⟩ := held
      rcases eq_or_ne sch holder with rfl | other
      · rw [if_pos held.owner, held.balance]
      · rw [held.others sch other, held.owner, if_neg (by simpa using other.symm)]

theorem Owned.balance_pos (owned : s.Owned) (free : s.lockSection = .free)
    (holds : s.owner = some sch) : 0 < s.balance sch := by
  have settled : s.Settled := by simpa only [Owned, free] using owned
  have held := settled.holder holds
  rw [held.balance]
  exact held.positive

theorem unlock_fst (holds : s.owner = some sch) : (s.toMutexImpl.unlock sch).1 = true := by
  by_cases last : s.counter = 1 <;> simp [MutexImpl.unlock, holds, last]

theorem unlock_fst_of_other (other : s.owner ≠ some sch) : (s.toMutexImpl.unlock sch).1 = false := by
  simp [MutexImpl.unlock, other]

theorem balance_of_refused (h : step s (.unlock sch) = some t) (other : s.owner ≠ some sch) (r : Nat) :
    t.balance r = s.balance r := by
  cases effect_of_step h with
  | unlock _ free =>
      refine (balance_of_logged (.unlocked sch false) ?_ r).trans (add_zero _)
      rw [← unlock_fst_of_other other]
      rfl

theorem balance_of_unlock (h : step s (.unlock sch) = some t) (holds : s.owner = some sch) (r : Nat) :
    t.balance r = s.balance r + if sch = r then -1 else 0 := by
  cases effect_of_step h with
  | unlock _ free =>
      refine balance_of_logged (.unlocked sch true) ?_ r
      rw [← unlock_fst holds]
      rfl

end Mutex

namespace Guards

variable {w t u : Guards} {g m : Nat} {k : Grant} {guard : Guard} {object : GuardObject}

structure Balanced (w : Guards) : Prop where
  owned : ∀ m, (w.mutexes m).Owned
  balance : ∀ k : Grant, (w.mutexes k.mutex).balance k.owner =
    w.unadopted k + w.accounted k + w.overwritten k
  adopted : ∀ k, w.adopted k = w.released k + w.accounted k + w.overwritten k
  fresh : ∀ g, w.created ≤ g → w.objects g = .none ∧ w.moved g = false
  moved : ∀ g, w.moved g = true → (w.objects g).grants = []

theorem accounted_construct (w : Guards) (object : GuardObject) (k : Grant) :
    (w.construct object).accounted k = w.accounted k + object.grants.count k :=
  Totals.total_push (fun object : GuardObject => object.grants.count k) w.objects object

theorem accounted_setObject (object : GuardObject) (bound : g < w.created) (k : Grant) :
    (w.setObject g object).accounted k + (w.objects g).grants.count k =
      w.accounted k + object.grants.count k :=
  Totals.total_update (fun object : GuardObject => object.grants.count k) w.objects object bound

theorem accounted_setObject_of_same (same : object.grants = (w.objects g).grants) (k : Grant) :
    (w.setObject g object).accounted k = w.accounted k :=
  Totals.total_update_of_same object
    (by rw [same])

theorem count_le_accounted (bound : g < w.created) (k : Grant) :
    (w.objects g).grants.count k ≤ w.accounted k :=
  Totals.weight_le_total (fun object : GuardObject => object.grants.count k) bound

theorem Balanced.bound (balanced : w.Balanced) (object : w.objects g ≠ .none) : g < w.created := by
  by_contra out
  exact object (balanced.fresh g (Nat.le_of_not_lt out)).1

theorem Balanced.setObject (balanced : w.Balanced) (known : w.objects g ≠ .none)
    (same : object.grants = (w.objects g).grants) : (w.setObject g object).Balanced := by
  have bound := balanced.bound known
  refine ⟨balanced.owned, fun k => ?_, fun k => ?_, fun g' out => ?_, fun g' moved => ?_⟩
  · rw [accounted_setObject_of_same same]
    exact balanced.balance k
  · rw [accounted_setObject_of_same same]
    exact balanced.adopted k
  · have other : g' ≠ g := Nat.ne_of_gt (Nat.lt_of_lt_of_le bound out)
    simpa [Guards.setObject, Function.update_of_ne other] using balanced.fresh g' out
  · rcases eq_or_ne g' g with rfl | other
    · simpa [Guards.setObject, same] using balanced.moved g' moved
    · simpa [Guards.setObject, Function.update_of_ne other] using balanced.moved g' moved

theorem fresh_construct (balanced : w.Balanced) (g' : Nat)
    (out : (w.construct object).created ≤ g') :
    (w.construct object).objects g' = .none ∧ (w.construct object).moved g' = false := by
  have later : w.created < g' := out
  simpa [construct, Guards.setObject, Function.update_of_ne (Nat.ne_of_gt later)] using
    balanced.fresh g' (Nat.le_of_lt later)

theorem moved_construct (balanced : w.Balanced) (g' : Nat)
    (moved : (w.construct object).moved g' = true) :
    ((w.construct object).objects g').grants = [] := by
  rcases eq_or_ne g' w.created with rfl | other
  · have unmoved := (balanced.fresh w.created (Nat.le_refl _)).2
    have contradiction_ : w.moved w.created = true := moved
    rw [unmoved] at contradiction_
    cases contradiction_
  · simpa [construct, Guards.setObject, Function.update_of_ne other] using balanced.moved g' moved

theorem Balanced.construct (balanced : w.Balanced) (empty : object.grants = []) :
    (w.construct object).Balanced := by
  refine ⟨balanced.owned, fun k => ?_, fun k => ?_, fresh_construct balanced,
    moved_construct balanced⟩
  · rw [accounted_construct, empty]
    exact balanced.balance k
  · rw [accounted_construct, empty]
    exact balanced.adopted k

theorem adopt_eq (h : w.adopt guard = some u) : (∀ k, guard.grants.count k ≤ w.unadopted k) ∧
    u = { w with
      unadopted := fun k => w.unadopted k - guard.grants.count k
      adopted := fun k => w.adopted k + guard.grants.count k } := by
  simp only [Guards.adopt, Option.ite_none_right_eq_some, Option.some.injEq] at h
  obtain ⟨given, rfl⟩ := h
  refine ⟨fun k => ?_, rfl⟩
  by_cases member : k ∈ guard.grants
  · exact given k member
  · rw [List.count_eq_zero_of_not_mem member]
    exact Nat.zero_le _

theorem Balanced.adopt {objects : Nat → GuardObject} {created : Nat} {moved : Nat → Bool}
    (balanced : w.Balanced) (enough : ∀ k, guard.grants.count k ≤ w.unadopted k)
    (accounted : ∀ k, ({ w with objects, created, moved } : Guards).accounted k =
      w.accounted k + guard.grants.count k)
    (fresh : ∀ g, created ≤ g → objects g = .none ∧ moved g = false)
    (emptied : ∀ g, moved g = true → (objects g).grants = []) :
    ({ w with
      objects, created, moved
      unadopted := fun k => w.unadopted k - guard.grants.count k
      adopted := fun k => w.adopted k + guard.grants.count k } : Guards).Balanced := by
  refine ⟨balanced.owned, fun k => ?_, fun k => ?_, fresh, emptied⟩
  · have before := balanced.balance k
    have available := enough k
    have accounted := accounted k
    show (w.mutexes k.mutex).balance k.owner =
      ((w.unadopted k - guard.grants.count k : Nat) : Int) +
        (({ w with objects, created, moved } : Guards).accounted k : Int) + w.overwritten k
    omega
  · have before := balanced.adopted k
    have accounted := accounted k
    show w.adopted k + guard.grants.count k =
      w.released k + ({ w with objects, created, moved } : Guards).accounted k + w.overwritten k
    omega

theorem Balanced.adoptNew (balanced : w.Balanced) (h : w.adopt guard = some u) :
    (u.construct (.live guard)).Balanced := by
  obtain ⟨enough, rfl⟩ := adopt_eq h
  have fresh := @fresh_construct w (.live guard) balanced
  exact balanced.adopt enough (accounted_construct w (.live guard)) fresh (moved_construct balanced)

theorem Balanced.locked (balanced : w.Balanced) (armed : w.objects g = .armed guard)
    (h : w.adopt guard = some u) : ({ u.setObject g (.live guard) with
      moved := Function.update u.moved g false } : Guards).Balanced := by
  obtain ⟨enough, rfl⟩ := adopt_eq h
  have bound : g < w.created := balanced.bound (by rw [armed]; exact GuardObject.noConfusion)
  have accounted (k : Grant) : (w.setObject g (.live guard)).accounted k =
      w.accounted k + guard.grants.count k := by
    have changed := accounted_setObject (.live guard) bound k
    rwa [armed, GuardObject.grants, List.count_nil, Nat.add_zero] at changed
  refine balanced.adopt enough accounted (fun g' out => ?_) fun g' moved => ?_
  · have later : w.created ≤ g' := out
    have other : g' ≠ g := Nat.ne_of_gt (Nat.lt_of_lt_of_le bound later)
    simpa [Guards.setObject, Function.update_of_ne other] using balanced.fresh g' later
  · rcases eq_or_ne g' g with rfl | other
    · simp at moved
    · simp only [Guards.setObject, Function.update_of_ne other] at moved ⊢
      exact balanced.moved g' moved

theorem Balanced.mutex {action : MutexAction} {mutex : Mutex} (balanced : w.Balanced)
    (paired : w.paired m action = true) (h : (w.mutexes m).step action = some mutex) :
    ({ w.setMutex m mutex with
        unadopted := bookkeep w.unadopted m (w.mutexes m) mutex } : Guards).Balanced := by
  refine ⟨fun m' => ?_, fun k => ?_, balanced.adopted, balanced.fresh, balanced.moved⟩
  · rcases eq_or_ne m' m with rfl | other
    · simpa [setMutex] using (balanced.owned m').step h
    · simpa [setMutex, Function.update_of_ne other] using balanced.owned m'
  · have before := balanced.balance k
    show (Function.update w.mutexes m mutex k.mutex).balance k.owner =
      (bookkeep w.unadopted m (w.mutexes m) mutex k : Int) + w.accounted k + w.overwritten k
    by_cases same : k.mutex = m
    · subst same
      have granted := Mutex.grants_of_step h k.owner
      have unlocked := Mutex.unlocks_of_step h k.owner
      rw [Function.update_self, bookkeep, if_pos rfl]
      simp only [Mutex.balance] at before ⊢
      split at unlocked
      · rename_i byHand
        obtain ⟨rfl, holds⟩ := byHand
        have enough : 0 < w.unadopted k := by
          simpa [Guards.paired, holds] using paired
        omega
      · omega
    · rw [Function.update_of_ne same, bookkeep, if_neg same]
      exact before

theorem Balanced.heldBy {calls : List Grant} {dying : Bool} (balanced : w.Balanced)
    (unlocking : w.objects g = .unlocking guard (k :: calls) dying)
    (free : (w.mutexes k.mutex).lockSection = .free) : (w.mutexes k.mutex).HeldBy k.owner := by
  refine (balanced.owned k.mutex).heldBy free ?_
  have bound : g < w.created := balanced.bound (by rw [unlocking]; exact GuardObject.noConfusion)
  have counted := count_le_accounted bound k
  have first : 0 < (w.objects g).grants.count k := by
    rw [unlocking]
    exact List.count_pos_iff.2 List.mem_cons_self
  have before := balanced.balance k
  omega

theorem Balanced.call {calls : List Grant} {dying : Bool} (balanced : w.Balanced)
    (unlocking : w.objects g = .unlocking guard (k :: calls) dying)
    (h : w.call g k (.unlocking guard calls dying) = some t) : t.Balanced := by
  have known : w.objects g ≠ .none := by
    rw [unlocking]
    exact GuardObject.noConfusion
  have bound := balanced.bound known
  unfold Guards.call at h
  obtain ⟨mutex, action, rfl⟩ := Option.map_eq_some_iff.1 h
  have held := balanced.heldBy unlocking (Mutex.free_of_unlock action)
  have accounted (k' : Grant) : (w.setObject g (.unlocking guard calls dying)).accounted k' +
      (if k = k' then 1 else 0) = w.accounted k' := by
    have changed := accounted_setObject (.unlocking guard calls dying) bound k'
    simp only [unlocking, GuardObject.grants, List.count_cons, beq_iff_eq] at changed
    omega
  refine ⟨fun m' => ?_, fun k' => ?_, fun k' => ?_, fun g' out => ?_, fun g' moved => ?_⟩
  · show (Function.update w.mutexes k.mutex mutex m').Owned
    rcases eq_or_ne m' k.mutex with rfl | other
    · simpa using (balanced.owned k.mutex).step action
    · simpa [Function.update_of_ne other] using balanced.owned m'
  · have before := balanced.balance k'
    have changed := accounted k'
    show (Function.update w.mutexes k.mutex mutex k'.mutex).balance k'.owner =
      (w.unadopted k' : Int) + (w.setObject g (.unlocking guard calls dying)).accounted k' +
        w.overwritten k'
    by_cases same : k'.mutex = k.mutex
    · have owner_iff : k.owner = k'.owner ↔ k = k' := by
        cases k
        cases k'
        simp_all
      rw [same] at before ⊢
      rw [Function.update_self, Mutex.balance_of_unlock action held.owner]
      simp only [owner_iff]
      split at changed
      · rename_i equal
        rw [if_pos equal]
        omega
      · rename_i different
        rw [if_neg different]
        omega
    · rw [Function.update_of_ne same]
      rw [if_neg (by rintro rfl; exact same rfl)] at changed
      omega
  · have before := balanced.adopted k'
    have changed := accounted k'
    show w.adopted k' = Function.update w.released k
      (w.released k + ((w.mutexes k.mutex).toMutexImpl.unlock k.owner).1.toNat) k' +
        (w.setObject g (.unlocking guard calls dying)).accounted k' + w.overwritten k'
    rw [Mutex.unlock_fst held.owner]
    rcases eq_or_ne k k' with rfl | other
    · rw [Function.update_self]
      simp only [if_true, Bool.toNat_true] at changed ⊢
      omega
    · rw [Function.update_of_ne other.symm]
      rw [if_neg other] at changed
      omega
  · have other : g' ≠ g := Nat.ne_of_gt (Nat.lt_of_lt_of_le bound out)
    simpa [Guards.setObject, setMutex, Function.update_of_ne other] using balanced.fresh g' out
  · rcases eq_or_ne g' g with rfl | other
    · have empty := balanced.moved g' moved
      rw [unlocking] at empty
      cases empty
    · simpa [Guards.setObject, setMutex, Function.update_of_ne other] using balanced.moved g' moved

theorem Balanced.callUnwinding {calls : List Grant} (balanced : w.Balanced)
    (unwinding : w.objects g = .unwinding (k :: calls))
    (other : (w.mutexes k.mutex).owner ≠ some k.owner)
    (h : w.call g k (.unwinding calls) = some t) : t.Balanced := by
  have same : (GuardObject.unwinding calls).grants = (w.objects g).grants := by
    rw [unwinding]
    rfl
  have after := balanced.setObject (by rw [unwinding]; exact GuardObject.noConfusion) same
  unfold Guards.call at h
  obtain ⟨mutex, action, rfl⟩ := Option.map_eq_some_iff.1 h
  refine ⟨fun m' => ?_, fun k' => ?_, fun k' => ?_, after.fresh, after.moved⟩
  · show (Function.update w.mutexes k.mutex mutex m').Owned
    rcases eq_or_ne m' k.mutex with rfl | different
    · simpa using (balanced.owned k.mutex).step action
    · simpa [Function.update_of_ne different] using balanced.owned m'
  · refine Eq.trans ?_ (after.balance k')
    show (Function.update w.mutexes k.mutex mutex k'.mutex).balance k'.owner =
      (w.mutexes k'.mutex).balance k'.owner
    rcases eq_or_ne k'.mutex k.mutex with equal | different
    · rw [equal, Function.update_self]
      exact Mutex.balance_of_refused action other k'.owner
    · rw [Function.update_of_ne different]
  · refine (after.adopted k').trans ?_
    show w.released k' + _ + _ = Function.update w.released k
      (w.released k + ((w.mutexes k.mutex).toMutexImpl.unlock k.owner).1.toNat) k' + _ + _
    rw [Mutex.unlock_fst_of_other other, Bool.toNat_false, Nat.add_zero, Function.update_eq_self]
    rfl

theorem Balanced.moveConstruct {right : Nat} (balanced : w.Balanced)
    (source : w.objects right = .live guard) :
    ({ (w.construct (.live guard)).setObject right (.live guard.movedFrom) with
        moved := Function.update w.moved right true } : Guards).Balanced := by
  have bound : right < w.created :=
    balanced.bound (by rw [source]; exact GuardObject.noConfusion)
  have older : right ≠ w.created := Nat.ne_of_lt bound
  have accounted (k : Grant) :
      ((w.construct (.live guard)).setObject right (.live guard.movedFrom)).accounted k =
        w.accounted k := by
    have made : _ = w.accounted k + guard.grants.count k :=
      accounted_construct w (.live guard) k
    have emptied := accounted_setObject (w := w.construct (.live guard)) (g := right)
      (.live guard.movedFrom) (Nat.lt_succ_of_lt bound) k
    have kept : (w.construct (.live guard)).objects right = .live guard := by
      simpa [Guards.construct, Guards.setObject, Function.update_of_ne older] using source
    simp only [kept, GuardObject.grants, Guard.grants_movedFrom, List.count_nil] at emptied
    omega
  refine ⟨balanced.owned, fun k => ?_, fun k => ?_, fun g' out => ?_, fun g' moved => ?_⟩
  · show (w.mutexes k.mutex).balance k.owner = (w.unadopted k : Int) +
      ((w.construct (.live guard)).setObject right (.live guard.movedFrom)).accounted k +
        w.overwritten k
    rw [accounted]
    exact balanced.balance k
  · show w.adopted k = w.released k +
      ((w.construct (.live guard)).setObject right (.live guard.movedFrom)).accounted k +
        w.overwritten k
    rw [accounted]
    exact balanced.adopted k
  · have later : w.created < g' := out
    have other : g' ≠ right := Nat.ne_of_gt (Nat.lt_trans bound later)
    simpa [Guards.construct, Guards.setObject, Function.update_of_ne other,
      Function.update_of_ne (Nat.ne_of_gt later)] using balanced.fresh g' (Nat.le_of_lt later)
  · rcases eq_or_ne g' right with rfl | other
    · simp [Guards.setObject, GuardObject.grants]
    · have moved' : w.moved g' = true := by simpa [Function.update_of_ne other] using moved
      simpa [Guards.setObject, Function.update_of_ne other] using moved_construct balanced g' moved'

theorem Balanced.moveAssign {right : Nat} {source : Guard} (balanced : w.Balanced)
    (target : w.objects g = .live guard) (source_ : w.objects right = .live source)
    (different : g ≠ right) : (w.moveAssign g right guard source).Balanced := by
  have first : g < w.created := balanced.bound (by rw [target]; exact GuardObject.noConfusion)
  have second : right < w.created :=
    balanced.bound (by rw [source_]; exact GuardObject.noConfusion)
  have accounted (k : Grant) : (w.moveAssign g right guard source).accounted k +
      guard.grants.count k = w.accounted k := by
    have left : (GuardObject.live source.movedFrom).grants.count k = 0 := by
      simp [GuardObject.grants]
    have moved := Totals.total_move (fun object : GuardObject => object.grants.count k) w.objects
      different first second (by rw [source_]) left
    rw [target] at moved
    exact moved
  refine ⟨balanced.owned, fun k => ?_, fun k => ?_, fun g' out => ?_, fun g' moved => ?_⟩
  · have before := balanced.balance k
    have changed := accounted k
    show (w.mutexes k.mutex).balance k.owner = (w.unadopted k : Int) +
      (w.moveAssign g right guard source).accounted k +
        (w.overwritten k + guard.grants.count k : Nat)
    omega
  · have before := balanced.adopted k
    have changed := accounted k
    show w.adopted k = w.released k + (w.moveAssign g right guard source).accounted k +
      (w.overwritten k + guard.grants.count k)
    omega
  · have later : w.created ≤ g' := out
    have target_ : g' ≠ g := Nat.ne_of_gt (Nat.lt_of_lt_of_le first later)
    have right_ : g' ≠ right := Nat.ne_of_gt (Nat.lt_of_lt_of_le second later)
    simpa [Guards.moveAssign, Guards.setObject, Function.update_of_ne target_,
      Function.update_of_ne right_] using balanced.fresh g' later
  · rcases eq_or_ne g' g with rfl | target_
    · simp [Guards.moveAssign] at moved
    · rcases eq_or_ne g' right with rfl | right_
      · simp [Guards.moveAssign, Guards.setObject, Function.update_of_ne target_,
          GuardObject.grants]
      · simp only [Guards.moveAssign, Guards.setObject, Function.update_of_ne target_,
          Function.update_of_ne right_] at moved ⊢
        exact balanced.moved g' moved

theorem Balanced.selfMove (balanced : w.Balanced) (target : w.objects g = .live guard) :
    (w.selfMove g guard).Balanced := by
  cases guard with
  | one mutex owner => exact balanced
  | many arity mutexes owner =>
      have bound : g < w.created := balanced.bound (by rw [target]; exact GuardObject.noConfusion)
      have accounted (k : Grant) : (w.selfMove g (.many arity mutexes owner)).accounted k +
          (Guard.many arity mutexes owner).grants.count k = w.accounted k := by
        have changed := accounted_setObject (.live (Guard.many arity mutexes owner).movedFrom) bound k
        simp only [target, GuardObject.grants, Guard.grants_movedFrom, List.count_nil,
          Nat.add_zero] at changed
        exact changed
      refine ⟨balanced.owned, fun k => ?_, fun k => ?_, fun g' out => ?_, fun g' moved => ?_⟩
      · have before := balanced.balance k
        have changed := accounted k
        show (w.mutexes k.mutex).balance k.owner = (w.unadopted k : Int) +
          (w.selfMove g (.many arity mutexes owner)).accounted k +
            (w.overwritten k + (Guard.many arity mutexes owner).grants.count k : Nat)
        omega
      · have before := balanced.adopted k
        have changed := accounted k
        show w.adopted k = w.released k + (w.selfMove g (.many arity mutexes owner)).accounted k +
          (w.overwritten k + (Guard.many arity mutexes owner).grants.count k)
        omega
      · have later : w.created ≤ g' := out
        have other : g' ≠ g := Nat.ne_of_gt (Nat.lt_of_lt_of_le bound later)
        simpa [Guards.selfMove, Guards.setObject, Function.update_of_ne other] using
          balanced.fresh g' later
      · rcases eq_or_ne g' g with rfl | other
        · simp [Guards.selfMove, Guards.setObject, GuardObject.grants]
        · simp only [Guards.selfMove, Guards.setObject, Function.update_of_ne other] at moved ⊢
          exact balanced.moved g' moved

theorem Balanced.step {action : GuardAction} (balanced : w.Balanced) (harmless : Harmless w action)
    (h : w.step action = some t) : t.Balanced := by
  cases action with
  | mutex m action =>
      simp only [Guards.step, Option.ite_none_right_eq_some] at h
      obtain ⟨paired, h⟩ := h
      obtain ⟨mutex, action_, rfl⟩ := Option.map_eq_some_iff.1 h
      exact balanced.mutex paired action_
  | default | arm arity sch mtxs =>
      cases h
      exact balanced.construct rfl
  | adoptOne sch mtx | adoptMany arity sch mtxs =>
      obtain ⟨u, adopted, rfl⟩ := Option.map_eq_some_iff.1 h
      exact balanced.adoptNew adopted
  | locked g =>
      simp only [Guards.step] at h
      split at h
      · rename_i guard armed
        obtain ⟨u, adopted, rfl⟩ := Option.map_eq_some_iff.1 h
        exact balanced.locked armed adopted
      · cases h
  | threw g =>
      simp only [Guards.step] at h
      split at h
      · rename_i guard armed
        cases h
        exact balanced.setObject (by rw [armed]; exact GuardObject.noConfusion) (by rw [armed]; rfl)
      · cases h
  | moveConstruct right =>
      simp only [Guards.step] at h
      split at h
      · rename_i source live
        cases h
        exact balanced.moveConstruct live
      · cases h
  | moveAssign g right =>
      simp only [Guards.step] at h
      split at h
      · rename_i target source live live'
        split at h
        · split at h
          · cases h
            exact balanced.selfMove live
          · rename_i different
            cases h
            exact balanced.moveAssign live live' different
        · cases h
      · cases h
  | unlock g | destroy g =>
      simp only [Guards.step] at h
      split at h
      · rename_i guard live
        cases h
        exact balanced.setObject (by rw [live]; exact GuardObject.noConfusion) (by rw [live]; rfl)
      · cases h
  | call g =>
      simp only [Guards.step] at h
      split at h
      · rename_i guard k rest dying unlocking
        exact balanced.call unlocking h
      · rename_i k rest unwinding
        simp only [Harmless, unwinding] at harmless
        exact balanced.callUnwinding unwinding harmless h
      · cases h
  | finish g =>
      simp only [Guards.step] at h
      split at h
      · rename_i guard dying unlocking
        cases h
        refine balanced.setObject (by rw [unlocking]; exact GuardObject.noConfusion) ?_
        rw [unlocking]
        cases dying
        · exact Guard.grants_unlocked guard
        · rfl
      · rename_i unwinding
        cases h
        exact balanced.setObject (by rw [unwinding]; exact GuardObject.noConfusion)
          (by rw [unwinding]; rfl)
      · cases h

theorem balanced (reachable : system.ReachableBy Harmless w) : w.Balanced := by
  refine Transition.System.Inductive.holds (M := system) (I := Balanced) ⟨?_, ?_⟩ reachable
  · exact ⟨fun _ => .inl ⟨rfl, rfl, fun _ => rfl⟩, fun _ => rfl, fun _ => rfl,
      fun _ _ => ⟨rfl, rfl⟩, fun _ moved => by cases moved⟩
  · exact fun s e t _ balanced harmless h => balanced.step harmless h

theorem overwritten_of_step {action : GuardAction} (h : w.step action = some t) :
    Vacant w action ∧ t.overwritten = w.overwritten ∨ ∃ g right target, action = .moveAssign g right ∧
      w.objects g = .live target ∧ (g = right → ∀ mutex owner, target ≠ .one mutex owner) ∧
      ∀ k, t.overwritten k = w.overwritten k + target.grants.count k := by
  cases action with
  | mutex m action =>
      simp only [step, Option.ite_none_right_eq_some] at h
      obtain ⟨-, h⟩ := h
      obtain ⟨mutex, -, rfl⟩ := Option.map_eq_some_iff.1 h
      exact .inl ⟨trivial, rfl⟩
  | default | arm arity sch mtxs =>
      cases h
      exact .inl ⟨trivial, rfl⟩
  | adoptOne sch mtx | adoptMany arity sch mtxs =>
      obtain ⟨u, adopted, rfl⟩ := Option.map_eq_some_iff.1 h
      obtain ⟨-, rfl⟩ := adopt_eq adopted
      exact .inl ⟨trivial, rfl⟩
  | locked g =>
      simp only [step] at h
      split at h
      · obtain ⟨u, adopted, rfl⟩ := Option.map_eq_some_iff.1 h
        obtain ⟨-, rfl⟩ := adopt_eq adopted
        exact .inl ⟨trivial, rfl⟩
      · cases h
  | moveAssign g right =>
      simp only [step] at h
      split at h
      · rename_i target source live live'
        split at h
        · split at h
          · rename_i same
            cases h
            cases target with
            | one mutex owner => exact .inl ⟨.inr ⟨same, mutex, owner, live⟩, rfl⟩
            | many arity mutexes owner =>
                refine .inr ⟨g, right, _, rfl, live, fun _ mutex owner => ?_, fun _ => rfl⟩
                exact Guard.noConfusion
          · rename_i different
            cases h
            exact .inr ⟨g, right, target, rfl, live, fun same => absurd same different,
              fun _ => rfl⟩
        · cases h
      · cases h
  | call g =>
      simp only [step] at h
      split at h
      · obtain ⟨mutex, -, rfl⟩ := Option.map_eq_some_iff.1 h
        exact .inl ⟨trivial, rfl⟩
      · obtain ⟨mutex, -, rfl⟩ := Option.map_eq_some_iff.1 h
        exact .inl ⟨trivial, rfl⟩
      · cases h
  | finish g =>
      simp only [step] at h
      split at h
      · cases h
        exact .inl ⟨trivial, rfl⟩
      · cases h
        exact .inl ⟨trivial, rfl⟩
      · cases h
  | threw g | moveConstruct right | unlock g | destroy g =>
      simp only [step] at h
      split at h
      · cases h
        exact .inl ⟨trivial, rfl⟩
      · cases h

theorem overwritten_le_of_step {action : GuardAction} (h : w.step action = some t) (k : Grant) :
    w.overwritten k ≤ t.overwritten k := by
  rcases overwritten_of_step h with ⟨-, same⟩ | ⟨g, right, target, -, -, -, more⟩
  · rw [same]
  · rw [more]
    exact Nat.le_add_right _ _

theorem overwritten_of_occupied {action : GuardAction} (occupied : ¬ Vacant w action)
    (h : w.step action = some t) : ∃ k, 0 < t.overwritten k := by
  rcases overwritten_of_step h with ⟨vacant, -⟩ | ⟨g, right, target, rfl, live, -, more⟩
  · exact absurd vacant occupied
  · have holds : (w.objects g).grants ≠ [] := fun empty => occupied (.inl empty)
    rw [live] at holds
    obtain ⟨k, member⟩ := List.exists_mem_of_ne_nil _ holds
    have counted : 0 < target.grants.count k := List.count_pos_iff.2 member
    refine ⟨k, ?_⟩
    rw [more]
    exact Nat.add_pos_right _ counted

theorem none_overwritten (reachable : system.ReachableBy Conserving w) :
    ∀ k, w.overwritten k = 0 := by
  have inductive_ : system.Inductive Conserving fun w => ∀ k, w.overwritten k = 0 := by
    refine ⟨fun _ => rfl, fun s e t _ none conserving h => ?_⟩
    rcases overwritten_of_step h with ⟨-, same⟩ | ⟨g, right, target, rfl, live, other, more⟩
    · rwa [same]
    · intro k
      have empty : target.grants = [] := by
        rcases conserving.1 with empty | ⟨same, mutex, owner, live'⟩
        · rwa [live] at empty
        · exact absurd (GuardObject.live.inj (live.symm.trans live')) (other same mutex owner)
      rw [more, none k, empty, List.count_nil]
  exact inductive_.holds reachable

structure Conserved (w : Guards) : Prop where
  outstanding : ∀ k : Grant,
    (w.mutexes k.mutex).balance k.owner = w.unadopted k + w.accounted k
  counted : ∀ m, (w.mutexes m).lockSection = .free → ∀ sch,
    (if (w.mutexes m).owner = some sch then (w.mutexes m).counter else 0) =
      w.unadopted ⟨m, sch⟩ + w.accounted ⟨m, sch⟩
  once : ∀ k, w.adopted k = w.released k + w.accounted k
  -- Each call that a guard makes unlocks.
  releases : ∀ g guard k calls dying, w.objects g = .unlocking guard (k :: calls) dying →
    (w.mutexes k.mutex).lockSection = .free → (w.mutexes k.mutex).owner = some k.owner
  destroyed : (∀ g, w.objects g = .none) → ∀ m, (w.mutexes m).lockSection = .free → ∀ sch,
    (w.mutexes m).owner = some sch → 0 < w.unadopted ⟨m, sch⟩
  moved : ∀ g, w.moved g = true → (w.objects g).grants = []

theorem stays_locked (balanced : w.Balanced) (dropped : 0 < w.overwritten k) :
    ¬ w.Conserved ∧ ((w.mutexes k.mutex).lockSection = .free →
      (w.mutexes k.mutex).owner = some k.owner) := by
  have before := balanced.balance k
  constructor
  · intro conserved
    have outstanding := conserved.outstanding k
    omega
  · intro free
    exact ((balanced.owned k.mutex).heldBy free (by omega)).owner

/-- The guard of a `mutex_t::lock` that has thrown takes a lock away that it never adopted. -/
theorem not_conserved_of_harm {action : GuardAction} (conserved : w.Conserved)
    (harms : ¬ Harmless w action) (h : w.step action = some t) : ¬ t.Conserved := by
  intro conserved'
  cases action with
  | call g =>
      simp only [Harmless] at harms
      split at harms
      · rename_i k calls unwinding
        have owner := Decidable.not_not.1 harms
        simp only [step, unwinding] at h
        obtain ⟨mutex, action, rfl⟩ := Option.map_eq_some_iff.1 h
        have less := Mutex.balance_of_unlock action owner k.owner
        have before := conserved.outstanding k
        have after := conserved'.outstanding k
        have same : (w.setObject g (.unwinding calls)).accounted k = w.accounted k :=
          accounted_setObject_of_same (by rw [unwinding]; rfl) k
        change (Function.update w.mutexes k.mutex mutex k.mutex).balance k.owner =
          (w.unadopted k : Int) + (w.setObject g (.unwinding calls)).accounted k at after
        rw [Function.update_self, less, same, if_pos rfl] at after
        omega
      · exact harms trivial
  | _ => exact harms trivial

theorem conserved (reachable : system.ReachableBy Conserving w) : w.Conserved := by
  have known := balanced (reachable.mono fun _ _ conserving => conserving.2)
  have none := none_overwritten reachable
  have outstanding (k : Grant) :
      (w.mutexes k.mutex).balance k.owner = w.unadopted k + w.accounted k := by
    have balance := known.balance k
    rw [none k] at balance
    simpa using balance
  refine ⟨outstanding, fun m free sch => ?_, fun k => ?_, ?_, fun gone m free sch owner => ?_,
    known.moved⟩
  · rw [← (known.owned m).balance_of_free free sch]
    exact outstanding ⟨m, sch⟩
  · rw [known.adopted k, none k, Nat.add_zero]
  · intro g guard k calls dying unlocking free
    exact (known.heldBy unlocking free).owner
  · have nothing : w.accounted ⟨m, sch⟩ = 0 := by
      unfold accounted Totals.total
      exact Finset.sum_eq_zero fun g _ => by rw [gone g]; rfl
    have positive := (known.owned m).balance_pos free owner
    have all := outstanding ⟨m, sch⟩
    rw [nothing] at all
    simp only at all
    omega

/-- What an assignment has dropped stays locked; only the guard of a `lock` that throws could
unlock it. -/
theorem dropped_for_good {action : GuardAction} (reachable : system.ReachableBy Harmless w)
    (occupied : ¬ Vacant w action) (h : w.step action = some t) :
    ∃ k : Grant, ∀ u, (system.after t).ReachableBy Harmless u → ¬ u.Conserved ∧
      ((u.mutexes k.mutex).lockSection = .free → (u.mutexes k.mutex).owner = some k.owner) := by
  obtain ⟨k, dropped⟩ := overwritten_of_occupied occupied h
  refine ⟨k, fun u later => ?_⟩
  have harmless : Harmless w action := by
    cases action with
    | moveAssign g right => trivial
    | _ => exact absurd trivial occupied
  have after := reachable.next action h harmless
  have still : 0 < u.overwritten k := by
    have inductive_ : (system.after t).Inductive Harmless fun u => 0 < u.overwritten k :=
      ⟨dropped, fun s e u _ positive _ h => Nat.lt_of_lt_of_le positive (overwritten_le_of_step h k)⟩
    exact inductive_.holds later
  exact stays_locked (balanced (after.after later)) still

/-- Guards conserve locks in the runs whose steps all conserve them, and no other step does. -/
theorem guards_conserve (reachable : system.ReachableBy Conserving w) :
    w.Conserved ∧
    (∀ action t, ¬ Conserving w action → w.step action = some t → ¬ t.Conserved) ∧
    ∀ action t, ¬ Vacant w action → w.step action = some t →
      ∃ k : Grant, ∀ u, (system.after t).ReachableBy Harmless u → ¬ u.Conserved ∧
        ((u.mutexes k.mutex).lockSection = .free → (u.mutexes k.mutex).owner = some k.owner) := by
  have harmless : system.ReachableBy Harmless w :=
    reachable.mono fun _ _ conserving => conserving.2
  refine ⟨conserved reachable, fun action t unsafe_ h => ?_, fun action t occupied h =>
    dropped_for_good harmless occupied h⟩
  by_cases vacant : Vacant w action
  · exact not_conserved_of_harm (conserved reachable) (fun harmless => unsafe_ ⟨vacant, harmless⟩) h
  · obtain ⟨k, dropped⟩ := dropped_for_good harmless vacant h
    exact (dropped t .init).1

/-- A guard is moved from and assigned to, a `lock` for someone else throws, and all guards are
destroyed: the lock is unlocked once. An assignment to the guard that holds it loses it. -/
theorem guards_conserve_moved :
    (∃ w : Guards, w.moved 1 = true ∧ w.released ⟨0, 1⟩ = 1 ∧ (∀ g, w.objects g = .none) ∧
      w.Conserved) ∧
    ∃ w, system.ReachableBy Conserving w ∧
      ∃ t, w.step (.moveAssign 0 1) = some t ∧ ¬ t.Conserved := by
  have start : system.ReachableBy Conserving ({} : Guards) := .init
  have adopted := (start.next (.mutex 0 (.tryLock 1)) rfl ⟨trivial, trivial⟩).next
    (.adoptOne 1 (some 0)) rfl ⟨trivial, trivial⟩
  constructor
  · have moved := adopted.next (.moveConstruct 0) rfl ⟨trivial, trivial⟩
    have back := moved.next (.moveAssign 0 1) rfl ⟨.inl rfl, trivial⟩
    have threw := (back.next (.arm 2 2 [0, 1]) rfl ⟨trivial, trivial⟩).next (.threw 2) rfl
      ⟨trivial, trivial⟩
    have owned : some 1 ≠ some 2 := by decide
    have free : none ≠ some 2 := by decide
    have unwound := ((threw.next (.call 2) rfl ⟨trivial, owned⟩).next (.call 2) rfl
      ⟨trivial, free⟩).next (.finish 2) rfl ⟨trivial, trivial⟩
    have emptied := (unwound.next (.destroy 1) rfl ⟨trivial, trivial⟩).next (.finish 1) rfl
      ⟨trivial, trivial⟩
    have unlocked := (emptied.next (.destroy 0) rfl ⟨trivial, trivial⟩).next (.call 0) rfl
      ⟨trivial, trivial⟩
    have gone := unlocked.next (.finish 0) rfl ⟨trivial, trivial⟩
    refine ⟨_, rfl, rfl, fun g => ?_, (guards_conserve gone).1⟩
    match g with
    | 0 | 1 | 2 => rfl
    | g + 3 => rfl
  · have both := adopted.next .default rfl ⟨trivial, trivial⟩
    have lost := (guards_conserve both).2.1 (.moveAssign 0 1) _ ?_ rfl
    · exact ⟨_, both, _, rfl, lost⟩
    · rintro ⟨empty | ⟨same, -⟩, -⟩
      · cases empty
      · cases same

/-- An empty guard is assigned to the one that holds the lock: with all guards destroyed, and no
lock left that a guard has not adopted, the mutex stays locked. -/
theorem overwritten_lock : ∃ w : Guards, system.Reachable w ∧ (∀ g, w.objects g = .none) ∧
    (w.mutexes 0).lockSection = .free ∧ (w.mutexes 0).owner = some 1 ∧
      (∀ k, w.unadopted k = 0) ∧ w.adopted ⟨0, 1⟩ = 1 ∧ w.released ⟨0, 1⟩ = 0 ∧ ¬ w.Conserved := by
  have start : system.Reachable ({} : Guards) := .init
  have adopted := (start.next (.mutex 0 (.tryLock 1)) rfl trivial).next
    (.adoptOne 1 (some 0)) rfl trivial
  have assigned := (adopted.next .default rfl trivial).next (.moveAssign 0 1) rfl trivial
  have emptied := (assigned.next (.destroy 0) rfl trivial).next (.finish 0) rfl trivial
  have gone := (emptied.next (.destroy 1) rfl trivial).next (.finish 1) rfl trivial
  refine ⟨_, gone, ?_, rfl, rfl, ?_, rfl, rfl, fun conserved => ?_⟩
  · intro g
    match g with
    | 0 | 1 => rfl
    | g + 2 => rfl
  · intro k
    match k with
    | ⟨0, 0⟩ | ⟨0, 1⟩ => rfl
    | ⟨0, sch + 2⟩ => rfl
    | ⟨m + 1, sch⟩ => rfl
  · cases conserved.once ⟨0, 1⟩

end Guards

end Librf
