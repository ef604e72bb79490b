import Librf.Batch.Locks

/-!
# Batch locking is exact

One caller among others. Whatever they do to the locks between and during its calls, they leave what
it holds as it is, except that one of them may hand it the lock it waits for.
-/

namespace Librf.Batch

variable {ι κ : Type} [DecidableEq ι]

/-- How often the caller holds each lock. -/
def LockModel.view (M : LockModel κ) (caller : Nat) (s : ι → κ) (l : ι) : Nat :=
  M.holds (s l) caller

def LockModel.Undisturbed (M : LockModel κ) (caller : Nat) (s t : ι → κ) : Prop :=
  M.view caller t = M.view caller s

def LockModel.Acquires (M : LockModel κ) (caller : Nat) (k k' : κ) : Prop :=
  M.tryLock k caller = (true, k') ∨
    ∃ q, q ≠ caller ∧ 0 < M.holds k q ∧ M.unlock k q = (k', some caller)

def LockModel.Calls (M : LockModel κ) (locks : List ι) (caller : Nat) (s : ι → κ) :
    (o : LockOp) → Ending o.answer → (ι → κ) → Prop
  | .lockRef i, .returned _, t => ∃ l k, locks[i]? = some l ∧ M.Acquires caller (s l) k ∧
      t = Function.update s l k
  | .tryLockRef i, .returned answer, t => ∃ l, locks[i]? = some l ∧
      answer = (M.tryLock (s l) caller).1 ∧ t = Function.update s l (M.tryLock (s l) caller).2
  -- a caller that runs waits in no queue
  | .unlockRef i, .returned _, t => ∃ l, locks[i]? = some l ∧ caller ∉ M.queue (s l) ∧
      t = Function.update s l (M.unlock (s l) caller).1
  | .unlockRef _, .raised, _ => False
  | _, _, t => t = s

def LockModel.environment (M : LockModel κ) (locks : List ι) (caller : Nat) :
    Program.Environment LockOp.answer (ι → κ) where
  requires _
    | .lockRef i | .tryLockRef i | .unlockRef i => i < locks.length
    | .yield => True
  effect s o result t := ∃ before after, M.Undisturbed caller s before ∧
    M.Calls locks caller before o result after ∧ M.Undisturbed caller after t

variable {M : LockModel κ} {caller : Nat} {locks : List ι} {s t : ι → κ}

/-! ## One call -/

theorem view_update (l : ι) (k : κ) : M.view caller (Function.update s l k) =
    Function.update (M.view caller s) l (M.holds k caller) := by
  funext l'
  by_cases same : l' = l
  · subst same
    simp [LockModel.view]
  · simp [LockModel.view, Function.update_of_ne same]

theorem holds_of_acquires {k k' : κ} (acquires : M.Acquires caller k k') :
    M.holds k' caller = M.holds k caller + 1 := by
  rcases acquires with tried | ⟨q, other, held, handed⟩
  · have raised := M.tryLock_holds k caller (by rw [tried])
    rw [tried] at raised
    simp [raised, raise]
  · have moved := M.unlock_holds k q held
    rw [handed] at moved
    simp [moved, raise, lower, Function.update_of_ne other.symm]

theorem holds_of_unlock {k : κ} (held : 0 < M.holds k caller) (running : caller ∉ M.queue k) :
    M.holds (M.unlock k caller).1 caller = M.holds k caller - 1 := by
  have moved := M.unlock_holds k caller held
  have queue := M.unlock_queue k caller
  cases handed : (M.unlock k caller).2 with
  | none => simp [moved, handed, lower]
  | some w =>
      have other : caller ≠ w := by
        rintro rfl
        rw [handed] at queue
        exact running (by simp [queue])
      simp [moved, handed, raise, lower, Function.update_of_ne other]

theorem view_raised {l : ι} {k : κ} (holds : M.holds k caller = M.holds (s l) caller + 1) :
    M.view caller (Function.update s l k) = raise (M.view caller s) l := by
  rw [view_update, holds]
  rfl

theorem view_of_tryLock {l : ι} (locked : (M.tryLock (s l) caller).1 = true) (q : Nat) :
    M.view q (Function.update s l (M.tryLock (s l) caller).2) =
      if q = caller then raise (M.view q s) l else M.view q s := by
  rw [view_update, M.tryLock_holds _ _ locked]
  split
  · rename_i same
    subst same
    simp [raise, LockModel.view]
  · rename_i other
    rw [raise, Function.update_of_ne other]
    exact Function.update_eq_self l (M.view q s)

theorem view_of_unlock {l : ι} (held : 0 < M.holds (s l) caller)
    (handed : (M.unlock (s l) caller).2 = none) (q : Nat) :
    M.view q (Function.update s l (M.unlock (s l) caller).1) =
      if q = caller then lower (M.view q s) l else M.view q s := by
  rw [view_update, M.unlock_holds _ _ held, handed]
  split
  · rename_i same
    subst same
    simp [lower, LockModel.view]
  · rename_i other
    rw [Option.elim_none, lower, Function.update_of_ne other]
    exact Function.update_eq_self l (M.view q s)

theorem effect_of_calls {base : ι → Nat} {o : LockOp} {result : Ending o.answer}
    (requires : (holding locks base).requires (M.view caller s) o)
    (calls : M.Calls locks caller s o result t) :
    (holding locks base).effect (M.view caller s) o result (M.view caller t) := by
  cases o with
  | lockRef i =>
      cases result with
      | returned value =>
          obtain ⟨l, k, at_, acquires, rfl⟩ := calls
          exact ⟨l, at_, view_raised (holds_of_acquires acquires)⟩
      | raised =>
          obtain rfl : t = s := calls
          rfl
  | tryLockRef i =>
      cases result with
      | returned answer =>
          obtain ⟨l, at_, answered, rfl⟩ := calls
          cases answer with
          | true => exact ⟨l, at_, view_raised (holds_of_acquires (.inl (by simp [answered])))⟩
          | false =>
              have refused := (M.tryLock_refused (s l) caller answered.symm).1
              show M.view caller _ = M.view caller s
              rw [refused, Function.update_eq_self]
      | raised =>
          obtain rfl : t = s := calls
          rfl
  | unlockRef i =>
      cases result with
      | returned value =>
          obtain ⟨l, at_, running, rfl⟩ := calls
          obtain ⟨l', at', held⟩ := requires
          obtain rfl : l = l' := Option.some.inj (at_.symm.trans at')
          refine ⟨l, at_, ?_⟩
          rw [view_update, holds_of_unlock (Nat.zero_lt_of_lt held) running]
          rfl
      | raised => exact calls
  | yield =>
      cases result <;>
        · obtain rfl : t = s := calls
          rfl

/-! ## The executable call -/

theorem calls_of_run {o : LockOp} {throws : Bool} {result : Ending o.answer} {handed : Option Nat}
    (running : ∀ l, caller ∉ M.queue (s l))
    (ran : M.run locks s caller o throws = some (result, t, handed)) :
    M.Calls locks caller s o result t := by
  cases o with
  | lockRef i =>
      cases throws with
      | true =>
          cases ran
          rfl
      | false =>
          simp only [LockModel.run, Option.bind_eq_some_iff, Option.ite_none_right_eq_some,
            Option.some.injEq, Prod.mk.injEq] at ran
          obtain ⟨l, at_, locked, rfl, rfl, -⟩ := ran
          exact ⟨l, _, at_, .inl (by rw [← locked]), rfl⟩
  | tryLockRef i =>
      cases throws with
      | true =>
          cases ran
          rfl
      | false =>
          simp only [LockModel.run, Option.map_eq_some_iff, Prod.mk.injEq] at ran
          obtain ⟨l, at_, rfl, rfl, -⟩ := ran
          exact ⟨l, at_, rfl, rfl⟩
  | unlockRef i =>
      cases throws with
      | true => cases ran
      | false =>
          simp only [LockModel.run, Option.map_eq_some_iff, Prod.mk.injEq] at ran
          obtain ⟨l, at_, rfl, rfl, -⟩ := ran
          exact ⟨l, at_, running l, rfl⟩
  | yield =>
      cases throws <;>
        · cases ran
          rfl

inductive LockModel.Turned (M : LockModel κ) (locks : List ι) (p : Nat) (s : ι → κ) (o : LockOp) :
    (ι → κ) → Option Nat → Prop
  | same : Turned M locks p s o s none
  | locked (l : ι) (locked : (M.tryLock (s l) p).1 = true) :
      Turned M locks p s o (Function.update s l (M.tryLock (s l) p).2) none
  | unlocked (i : Nat) (l : ι) (op : o = .unlockRef i) (at_ : locks[i]? = some l) :
      Turned M locks p s o (Function.update s l (M.unlock (s l) p).1) (M.unlock (s l) p).2

theorem turned_of_run {o : LockOp} {throws : Bool} {result : Ending o.answer} {handed : Option Nat}
    (ran : M.run locks s caller o throws = some (result, t, handed)) :
    M.Turned locks caller s o t handed := by
  cases o with
  | lockRef i =>
      cases throws with
      | true =>
          cases ran
          exact .same
      | false =>
          simp only [LockModel.run, Option.bind_eq_some_iff, Option.ite_none_right_eq_some,
            Option.some.injEq, Prod.mk.injEq] at ran
          obtain ⟨l, -, locked, -, rfl, rfl⟩ := ran
          exact .locked l locked
  | tryLockRef i =>
      cases throws with
      | true =>
          cases ran
          exact .same
      | false =>
          simp only [LockModel.run, Option.map_eq_some_iff, Prod.mk.injEq] at ran
          obtain ⟨l, -, -, rfl, rfl⟩ := ran
          cases locked : (M.tryLock (s l) caller).1 with
          | true => exact .locked l locked
          | false =>
              rw [(M.tryLock_refused _ _ locked).1, Function.update_eq_self]
              exact .same
  | unlockRef i =>
      cases throws with
      | true => cases ran
      | false =>
          simp only [LockModel.run, Option.map_eq_some_iff, Prod.mk.injEq] at ran
          obtain ⟨l, at_, -, rfl, rfl⟩ := ran
          exact .unlocked i l rfl at_
  | yield =>
      cases throws <;>
        · cases ran
          exact .same

theorem refines_holding {base : ι → Nat} : Program.Refines (M.environment locks caller)
    (holding locks base) (M.view caller) fun _ => True where
  requires s o _ requires := by
    cases o with
    | lockRef i => exact requires.1
    | tryLockRef i => exact requires
    | unlockRef i =>
        obtain ⟨l, at_, -⟩ := requires
        exact (List.getElem?_eq_some_iff.mp at_).1
    | yield => trivial
  effect := by
    rintro s o result t - requires ⟨before, after, same, calls, same'⟩
    have same : M.view caller before = M.view caller s := same
    have same' : M.view caller t = M.view caller after := same'
    rw [same', ← same]
    rw [← same] at requires
    exact ⟨effect_of_calls requires calls, trivial⟩

/-! ## Every run -/

theorem ends_of_meets {α : Type} {base : ι → Nat} {post : Ending α → (ι → Nat) → Prop}
    {p : LockProgram α} {result : Ending α}
    (run : Program.Run (M.environment locks caller) s p result t)
    (meets : p.Meets (holding locks base) post (M.view caller s)) : post result (M.view caller t) :=
  (run.ends (meets.refine refines_holding trivial)).2

theorem range_ends {result : Ending Unit}
    (run : Program.LoopRun (M.environment locks caller) (retry locks.length) s
      (lockRange locks.length) result t) :
    Taken locks (M.view caller s) result (M.view caller t) :=
  (run.refine refines_holding meets_retry trivial meets_lockRange).2

def Restored (base : ι → Nat) : Ending Unit → (ι → Nat) → Prop
  | .returned _, hold => hold = base
  | .raised, _ => False

def Disarmed (base : ι → Nat) : Ending BatchUnlock → (ι → Nat) → Prop
  | .returned guard, hold => guard.owner = none ∧ hold = base
  | .raised, _ => False

/-- The caller holds each lock once more for every position that lists it. -/
def LockModel.Took (M : LockModel κ) (locks : List ι) (caller : Nat) (s t : ι → κ) : Prop :=
  ∀ l, M.view caller t l = M.view caller s l + locks.count l

theorem took_iff : M.Took locks caller s t ↔
    M.view caller t = M.view caller s + listed locks 0 locks.length := by
  rw [funext_iff]
  simp [LockModel.Took, listed_all]

def Exactly {α : Type} [DecidableEq α] (success : Ending α) (gain base : ι → Nat) :
    Ending α → (ι → Nat) → Prop :=
  fun result hold => hold = if result = success then base + gain else base

theorem took_of_exactly {α : Type} [DecidableEq α] {success result : Ending α}
    (exactly : Exactly success (listed locks 0 locks.length) (M.view caller s) result
      (M.view caller t)) :
    if result = success then M.Took locks caller s t else M.view caller t = M.view caller s := by
  unfold Exactly at exactly
  split
  · rename_i locked
    rw [took_iff, exactly, if_pos locked]
  · rename_i failed
    rw [exactly, if_neg failed]

theorem listed_pair {idx0 idx1 : Nat} {l0 l1 : ι} (at0 : locks[idx0]? = some l0)
    (at1 : locks[idx1]? = some l1) :
    listed locks idx0 1 + listed locks idx1 1 = listed [l0, l1] 0 [l0, l1].length := by
  have first : ([l0, l1] : List ι)[0]? = some l0 := rfl
  have second : ([l0, l1] : List ι)[1]? = some l1 := rfl
  rw [listed_one at0, listed_one at1, ← listed_one first, ← listed_one second]
  exact listed_append 0 1 1

theorem meets_release {base : ι → Nat} : (unlockLocks 0 locks.length).Meets (holding locks base)
    (Restored base) (base + listed locks 0 locks.length) :=
  meets_unlockLocks 0 locks.length (by omega) (fun _ => Nat.le_refl _) rfl

theorem meets_destroy {base : ι → Nat} {guard : BatchUnlock} (size : guard.size = locks.length)
    (owner : guard.owner = some caller) : guard.destroy.Meets (holding locks base) (Restored base)
      (base + listed locks 0 locks.length) := by
  simp only [BatchUnlock.destroy, owner, Option.isSome_some, if_pos, size]
  exact meets_release

theorem meets_unlock {base : ι → Nat} {guard : BatchUnlock} (size : guard.size = locks.length)
    (owner : guard.owner = some caller) : guard.unlock.Meets (holding locks base) (Disarmed base)
      (base + listed locks 0 locks.length) := by
  simp only [BatchUnlock.unlock, owner, Option.isSome_some, if_pos, size]
  apply Program.meets_bind
  exact meets_unlockLocks 0 locks.length (by omega) (fun _ => Nat.le_refl _) ⟨rfl, rfl⟩

theorem meets_destroy_disarmed {base : ι → Nat} {guard : BatchUnlock} (owner : guard.owner = none) :
    guard.destroy.Meets (holding locks base) (Restored base) base := by
  simp only [BatchUnlock.destroy, owner, Option.isSome_none]
  rfl

theorem ends_of_took {α : Type} {post : Ending α → (ι → Nat) → Prop} {p : LockProgram α}
    {result : Ending α} {u : ι → κ} (took : M.Took locks caller s t)
    (run : Program.Run (M.environment locks caller) t p result u)
    (meets : p.Meets (holding locks (M.view caller s)) post
      (M.view caller s + listed locks 0 locks.length)) : post result (M.view caller u) :=
  ends_of_meets run (took_iff.mp took ▸ meets)

/-- What the batch functions do to the caller's hold counts when it calls them in the state `s`. -/
structure LockModel.Exact (M : LockModel κ) (locks : List ι) (caller : Nat) (s : ι → κ) : Prop where
  attempt : ∀ hardLock result t, hardLock < locks.length →
    Program.Run (M.environment locks caller) s (lockAttempt locks.length hardLock) result t →
    if result = .returned none then M.Took locks caller s t else M.view caller t = M.view caller s
  attemptSmall2 : ∀ idx0 idx1 l0 l1 result t, locks[idx0]? = some l0 → locks[idx1]? = some l1 →
    Program.Run (M.environment locks caller) s (lockAttemptSmall2 idx0 idx1) result t →
    if result = .returned false then M.Took [l0, l1] caller s t
    else M.view caller t = M.view caller s
  range : ∀ result t, Program.LoopRun (M.environment locks caller) (retry locks.length) s
      (lockRange locks.length) result t →
    if result = .returned () then M.Took locks caller s t else M.view caller t = M.view caller s
  release : ∀ t result u, M.Took locks caller s t →
    Program.Run (M.environment locks caller) t (unlockLocks 0 locks.length) result u →
    Restored (M.view caller s) result (M.view caller u)
  guardUnlock : ∀ (guard : BatchUnlock) t result u, guard.size = locks.length →
    guard.owner = some caller → M.Took locks caller s t →
    Program.Run (M.environment locks caller) t guard.unlock result u →
    Disarmed (M.view caller s) result (M.view caller u)
  guardDestroy : ∀ (guard : BatchUnlock) t result u, guard.size = locks.length →
    (guard.owner = some caller ∧ M.Took locks caller s t ∨
      guard.owner = none ∧ M.view caller t = M.view caller s) →
    Program.Run (M.environment locks caller) t guard.destroy result u →
    Restored (M.view caller s) result (M.view caller u)

theorem LockModel.exact (M : LockModel κ) (locks : List ι) (caller : Nat) (s : ι → κ) :
    M.Exact locks caller s where
  attempt hardLock result t bound run := by
    apply took_of_exactly
    exact ends_of_meets run (meets_lockAttempt bound rfl (fun _ _ => rfl) rfl)
  attemptSmall2 idx0 idx1 l0 l1 result t at0 at1 run := by
    have gain := listed_pair at0 at1
    apply took_of_exactly
    rw [← gain]
    exact ends_of_meets run (meets_lockAttemptSmall2 (List.getElem?_eq_some_iff.mp at0).1
      (List.getElem?_eq_some_iff.mp at1).1 (by rw [add_assoc]; rfl) rfl rfl)
  range result t run := by
    have ends := range_ends run
    cases result with
    | returned value =>
        rw [if_pos rfl]
        exact took_iff.mpr ends
    | raised => exact ends
  release t result u took run := ends_of_took took run meets_release
  guardUnlock guard t result u size owner took run :=
    ends_of_took took run (meets_unlock size owner)
  guardDestroy := by
    rintro guard t result u size (⟨owner, took⟩ | ⟨owner, same⟩) run
    · exact ends_of_took took run (meets_destroy size owner)
    · have disarmed : guard.destroy.Meets (holding locks (M.view caller s))
          (Restored (M.view caller s)) (M.view caller t) := by
        rw [same]
        exact meets_destroy_disarmed owner
      exact ends_of_meets run disarmed

/-! ## `mutex_t::lock` -/

/-- A call of `mutex_t::lock` whose `_Lock_range` ends with `ends`. -/
def LockModel.Locking (M : LockModel κ) (locks : List ι) (caller : Nat) (s : ι → κ)
    (ends : Ending Unit) (result : Ending BatchUnlock) (u : ι → κ) : Prop :=
  ∃ t, Program.LoopRun (M.environment locks caller) (retry locks.length) s (lockRange locks.length)
      ends t ∧
    Program.Run (M.environment locks caller) t (mutexLock caller locks.length ends) result u

/-- The call returns a guard for every listed position, or it throws and leaves everything alone. -/
def LockModel.Guarded (M : LockModel κ) (locks : List ι) (caller : Nat) (s : ι → κ) :
    Ending BatchUnlock → (ι → κ) → Prop
  | .returned guard, t =>
      guard = { owner := some caller, size := locks.length } ∧ M.Took locks caller s t
  | .raised, t => M.view caller t = M.view caller s

theorem holds_of_release {k : OwnedMutex} (running : caller ∉ mutex.queue k) :
    mutex.holds (mutex.unlock k caller).1 caller = mutex.holds k caller - 1 := by
  by_cases held : 0 < mutex.holds k caller
  · exact holds_of_unlock held running
  · have unheld : mutex.holds k caller = 0 := Nat.eq_zero_of_not_pos held
    have same : mutex.unlock k caller = (k, none) := OwnedMutex.unlock_of_other unheld
    rw [same, unheld]

theorem refines_releasing : Program.Refines (mutex.environment locks caller) (releasing locks)
    (mutex.view caller) fun _ => True where
  requires s o _ requires := by
    cases o with
    | unlockRef i => exact requires
    | lockRef i | tryLockRef i | yield => exact requires.elim
  effect := by
    rintro s o result t - requires ⟨before, after, same, calls, same'⟩
    have same : mutex.view caller before = mutex.view caller s := same
    have same' : mutex.view caller t = mutex.view caller after := same'
    cases o with
    | unlockRef i =>
        cases result with
        | returned value =>
            obtain ⟨l, at_, running, rfl⟩ := calls
            refine ⟨⟨l, at_, ?_⟩, trivial⟩
            rw [same', ← same, view_update, holds_of_release running]
            rfl
        | raised => exact calls.elim
    | lockRef i | tryLockRef i | yield => exact requires.elim

/-- The guard releases each position once, whether the caller has taken it or not. -/
theorem unwinds {s t : ι → OwnedMutex} {result : Ending BatchUnlock}
    (run : Program.Run (mutex.environment locks caller) s (mutexLock caller locks.length .raised)
      result t) : result = .raised ∧
      mutex.view caller t = mutex.view caller s - listed locks 0 locks.length := by
  have meets : (mutexLock caller locks.length .raised).Meets (releasing locks)
      (fun result hold => result = .raised ∧
        hold = mutex.view caller s - listed locks 0 locks.length) (mutex.view caller s) := by
    apply Program.meets_bind
    exact meets_releasing 0 locks.length (by omega) ⟨rfl, rfl⟩
  exact (run.ends (meets.refine refines_releasing trivial)).2

theorem sub_listed_eq {hold : ι → Nat} :
    hold - listed locks 0 locks.length = hold ↔ ∀ l ∈ locks, hold l = 0 := by
  rw [funext_iff]
  simp only [Pi.sub_apply, listed_all]
  constructor
  · intro same l member
    have positive := List.count_pos_iff.mpr member
    have here := same l
    omega
  · intro none_ l
    by_cases member : l ∈ locks
    · rw [none_ l member, Nat.zero_sub]
    · rw [List.count_eq_zero_of_not_mem member, Nat.sub_zero]

theorem guarded_iff {s t : ι → OwnedMutex} {ends : Ending Unit} {result : Ending BatchUnlock}
    (locking : mutex.Locking locks caller s ends result t) :
    mutex.Guarded locks caller s result t ↔
      ends = .returned () ∨ ∀ l ∈ locks, mutex.view caller s l = 0 := by
  obtain ⟨u, taking, run⟩ := locking
  have range := (mutex.exact locks caller s).range ends u taking
  cases ends with
  | returned value =>
      cases run
      exact ⟨fun _ => .inl rfl, fun _ => ⟨rfl, range⟩⟩
  | raised =>
      obtain ⟨rfl, view⟩ := unwinds run
      have nothing : mutex.view caller u = mutex.view caller s := range
      rw [nothing] at view
      show mutex.view caller t = mutex.view caller s ↔ _
      rw [view, sub_listed_eq]
      simp

/-- What the batch functions and the guards do is exact; so is `mutex_t::lock`, unless it throws
while the caller has one of the mutexes. -/
theorem batch_locking_exact (locks : List ι) (caller : Nat) (spinlocks : ι → Spinlock)
    (mutexes : ι → OwnedMutex) :
    spinlock.Exact locks caller spinlocks ∧ mutex.Exact locks caller mutexes ∧
      ∀ ends result t, mutex.Locking locks caller mutexes ends result t →
        (mutex.Guarded locks caller mutexes result t ↔
          ends = .returned () ∨ ∀ l ∈ locks, mutex.view caller mutexes l = 0) :=
  ⟨spinlock.exact locks caller spinlocks, mutex.exact locks caller mutexes,
    fun _ _ _ => guarded_iff⟩

/-! ## Runs -/

theorem effect_of_undisturbed {o : LockOp} {result : Ending o.answer}
    (calls : M.Calls locks caller s o result t) :
    (M.environment locks caller).effect s o result t := ⟨s, t, rfl, calls, rfl⟩

theorem run_unlockLocks (first count : Nat) (bound : first + count ≤ locks.length)
    (running : ∀ l, caller ∉ M.queue (s l)) : ∃ t,
      Program.Run (M.environment locks caller) s (unlockLocks first count) (.returned ()) t := by
  induction count generalizing first s with
  | zero => exact ⟨s, .halt _ _⟩
  | succ count ih =>
      obtain ⟨l, at_⟩ : ∃ l, locks[first]? = some l := exists_at (by omega)
      have still : ∀ l', caller ∉
          M.queue (Function.update s l (M.unlock (s l) caller).1 l') := by
        intro l'
        by_cases same : l' = l
        · subst same
          have queue := M.unlock_queue (s l') caller
          rw [Function.update_self]
          exact fun member => running l' (queue ▸ List.mem_append_right _ member)
        · rw [Function.update_of_ne same]
          exact running l'
      obtain ⟨t, run⟩ := ih (first + 1) (by omega) still
      have released : M.Calls locks caller s (.unlockRef first) (.returned ()) _ :=
        ⟨l, at_, running l, rfl⟩
      exact ⟨t, .call (effect_of_undisturbed released) run⟩

/-- Two mutexes, of which the caller has the first. -/
def firstHeld (l : Nat) : OwnedMutex :=
  if l = 0 then (mutex.tryLock mutex.free 7).2 else mutex.free

def bothTaken : Nat → OwnedMutex :=
  let first := Function.update firstHeld 0 (mutex.tryLock (firstHeld 0) 7).2
  Function.update first 1 (mutex.tryLock (first 1) 7).2

theorem queue_firstHeld (l : Nat) : 7 ∉ mutex.queue (firstHeld l) := by
  unfold firstHeld
  split <;> exact List.not_mem_nil

theorem queue_bothTaken (l : Nat) : 7 ∉ mutex.queue (bothTaken l) := by
  simp only [bothTaken, Function.update_apply]
  split
  · exact List.not_mem_nil
  · split
    · exact List.not_mem_nil
    · exact queue_firstHeld l

theorem range_firstHeld : Program.LoopRun (mutex.environment [0, 1] 7) (retry 2) firstHeld
    (lockRange 2) (.returned ()) bothTaken := by
  have locked : (mutex.environment [0, 1] 7).effect firstHeld (.lockRef 0) (.returned ())
      (Function.update firstHeld 0 (mutex.tryLock (firstHeld 0) 7).2) :=
    effect_of_undisturbed ⟨0, _, rfl, .inl rfl, rfl⟩
  have tried : (mutex.environment [0, 1] 7).effect
      (Function.update firstHeld 0 (mutex.tryLock (firstHeld 0) 7).2) (.tryLockRef 1)
      (.returned true) bothTaken := effect_of_undisturbed ⟨1, rfl, rfl, rfl⟩
  exact .again (.halt _ _) (.returned (.call locked (.call tried (.halt _ _))))

/-- `_Lock_ref` throws for the first one. -/
theorem locking_firstHeld : ∃ t, mutex.Locking [0, 1] 7 firstHeld .raised .raised t := by
  have threw : (mutex.environment [0, 1] 7).effect firstHeld (.lockRef 0) .raised firstHeld :=
    effect_of_undisturbed rfl
  obtain ⟨t, run⟩ : ∃ t, Program.Run (mutex.environment [0, 1] 7) firstHeld (unlockLocks 0 2)
      (.returned ()) t := run_unlockLocks 0 2 (by decide) queue_firstHeld
  exact ⟨t, firstHeld, .again (.halt _ _) (.raised (.call threw (.halt _ _))),
    run.bind rfl (.halt _ _)⟩

theorem batch_locking_exact_pair :
    (mutex.Took [0, 1] 7 firstHeld bothTaken ∧ ∃ t,
      Program.Run (mutex.environment [0, 1] 7) bothTaken (unlockLocks 0 2) (.returned ()) t ∧
        Restored (mutex.view 7 firstHeld) (.returned ()) (mutex.view 7 t)) ∧
    ∃ t, mutex.Locking [0, 1] 7 firstHeld .raised .raised t ∧
      ¬ mutex.Guarded [0, 1] 7 firstHeld .raised t := by
  obtain ⟨-, exact_, guarded⟩ := batch_locking_exact [0, 1] 7 (fun _ => spinlock.free) firstHeld
  have took : mutex.Took [0, 1] 7 firstHeld bothTaken := by
    simpa using exact_.range _ _ range_firstHeld
  obtain ⟨t, run⟩ : ∃ t, Program.Run (mutex.environment [0, 1] 7) bothTaken (unlockLocks 0 2)
      (.returned ()) t := run_unlockLocks 0 2 (by decide) queue_bothTaken
  obtain ⟨u, locking⟩ := locking_firstHeld
  refine ⟨⟨took, t, run, exact_.release _ _ _ took run⟩, u, locking, ?_⟩
  rw [guarded _ _ _ locking]
  rintro (returned | none_)
  · cases returned
  · exact absurd (none_ 0 (by decide)) (by decide)

theorem guard_unlocks_unlocked : ¬ ∀ (locks : List Nat) (caller : Nat) (s : Nat → OwnedMutex)
    (ends : Ending Unit) (result : Ending BatchUnlock) (t : Nat → OwnedMutex),
    mutex.Locking locks caller s ends result t → mutex.Guarded locks caller s result t := by
  intro exact_
  obtain ⟨t, locking⟩ := locking_firstHeld
  rcases (guarded_iff locking).1 (exact_ _ _ _ _ _ _ locking) with returned | none_
  · cases returned
  · exact absurd (none_ 0 (by decide)) (by decide)

end Librf.Batch
