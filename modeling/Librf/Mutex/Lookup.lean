import Librf.Mutex.Fairness
import Librf.Mutex.Lifetime

/-!
# The lookups of `unlock`

Who waits without having timed out is suspended, and so is every coroutine above it up to its root:
their frames keep their states in the table. An entry whose wait has timed out says nothing about
its root.
-/

namespace Librf

namespace Frame

def started : Frame → Bool
  | running | awaiting _ | locked .. => true
  | _ => false

def unfinished : Frame → Bool
  | initial | running | awaiting _ | locked .. => true
  | _ => false

end Frame

namespace Lifetime

variable {α ε : Type*} {s t : Lifetime α ε} {n : Nat} {c c' : CountedState α ε}

structure Fits (frame : Frame) (c : CountedState α ε) : Prop where
  initial : c.state.isInitor = .initial ↔ frame = .initial
  final : c.state.isInitor = .final → frame = .final
  first : frame = .initial → c.queued ≤ 1
  quiet : frame.started = true → c.queued = 0
  promise : frame ≠ .destroyed → c.promise = true

structure Chained (s : Lifetime α ε) : Prop where
  fresh : ∀ n, s.created ≤ n → s.table n = none ∧ s.frames n = .absent
  present : ∀ n, s.frames n ≠ .absent → s.frames n ≠ .destroyed → ∃ c, s.table n = some c
  fits : ∀ n c, s.table n = some c → Fits (s.frames n) c
  parent : ∀ n c p, s.table n = some c → c.state.parent = some p →
    p < n ∧ ((s.frames n).unfinished = true → s.frames p = .awaiting n)
  coro : ∀ n c h, s.table n = some c → c.state.coro = some h → s.frames h = .awaiting n

theorem references_ne_zero (promise : c.promise = true) : c.references ≠ 0 := by
  unfold CountedState.references
  simp only [promise, Bool.toNat_true]
  omega

theorem Chained.created_of_frame (chained : s.Chained) (known : s.frames n ≠ .absent) :
    n < s.created := by
  by_contra older
  exact known (chained.fresh n (Nat.le_of_not_lt older)).2

theorem Chained.created_of_entry (chained : s.Chained) (lookup : s.table n = some c) :
    n < s.created := by
  by_contra older
  simp [(chained.fresh n (Nat.le_of_not_lt older)).1] at lookup

theorem put_table_of_ne {n' : Nat} (other : n' ≠ n) : (s.put n c).table n' = s.table n' :=
  CountedTable.put_of_ne other

theorem setFrame_self {frame : Frame} : (s.setFrame n frame).frames n = frame := by
  simp [setFrame]

theorem setFrame_of_ne {frame : Frame} {n' : Nat} (other : n' ≠ n) :
    (s.setFrame n frame).frames n' = s.frames n' := by
  simp [setFrame, Function.update_of_ne other]

theorem Chained.change (chained : s.Chained) {frame : Frame} (lookup : s.table n = some c)
    (fits : Fits frame c') (parent : c'.state.parent = c.state.parent)
    (coro : ∀ h, c'.state.coro = some h → c.state.coro = some h)
    (unfinished : frame.unfinished = true → (s.frames n).unfinished = true)
    (kept : frame = s.frames n ∨ ∀ x, s.frames n ≠ .awaiting x) :
    ((s.put n c').setFrame n frame).Chained := by
  have awaiting (p x : Nat) (before : s.frames p = .awaiting x) :
      ((s.put n c').setFrame n frame).frames p = .awaiting x := by
    by_cases same : p = n
    · subst same
      cases kept with
      | inl same => rw [setFrame_self, same, before]
      | inr never => exact absurd before (never x)
    · rw [setFrame_of_ne same]
      exact before
  refine ⟨fun x older => ?_, fun x known alive => ?_, fun x e found => ?_, fun x e p found link => ?_,
    fun x e h found handler => ?_⟩
  · have other : x ≠ n := Nat.ne_of_gt (Nat.lt_of_lt_of_le (chained.created_of_entry lookup) older)
    rw [setFrame_of_ne other]
    exact ⟨(put_table_of_ne other).trans (chained.fresh x older).1, (chained.fresh x older).2⟩
  · by_cases same : x = n
    · subst same
      rw [setFrame_self] at alive
      exact ⟨c', CountedTable.put_self (references_ne_zero (fits.promise alive))⟩
    · rw [setFrame_of_ne same] at known alive
      obtain ⟨e, found⟩ := chained.present x known alive
      exact ⟨e, (put_table_of_ne same).trans found⟩
  · by_cases same : x = n
    · subst same
      cases CountedTable.eq_of_put_self found
      rw [setFrame_self]
      exact fits
    · rw [setFrame_of_ne same]
      exact chained.fits x e ((put_table_of_ne same).symm.trans found)
  · by_cases same : x = n
    · subst same
      cases CountedTable.eq_of_put_self found
      obtain ⟨below, up⟩ := chained.parent x c p lookup (parent ▸ link)
      rw [setFrame_self]
      exact ⟨below, fun going => awaiting p x (up (unfinished going))⟩
    · obtain ⟨below, up⟩ := chained.parent x e p ((put_table_of_ne same).symm.trans found) link
      rw [setFrame_of_ne same]
      exact ⟨below, fun going => awaiting p x (up going)⟩
  · by_cases same : x = n
    · subst same
      cases CountedTable.eq_of_put_self found
      exact awaiting h x (chained.coro x c h lookup (coro h handler))
    · exact awaiting h x (chained.coro x e h ((put_table_of_ne same).symm.trans found) handler)

theorem setFrame_same : s.setFrame n (s.frames n) = s := by
  simp [setFrame]

theorem Chained.put (chained : s.Chained) (lookup : s.table n = some c)
    (fits : Fits (s.frames n) c') (parent : c'.state.parent = c.state.parent)
    (coro : ∀ h, c'.state.coro = some h → c.state.coro = some h) : (s.put n c').Chained := by
  have after := chained.change lookup fits parent coro id (.inl rfl)
  rwa [show (s.put n c').setFrame n (s.frames n) = s.put n c' from setFrame_same (s := s.put n c')]
    at after

theorem Chained.setMutex (chained : s.Chained) (m : Nat) (mutex : Mutex) :
    (s.setMutex m mutex).Chained := { chained with }

theorem Chained.setFrame (chained : s.Chained) {frame : Frame}
    (begun : (s.frames n).started = true) (going : frame.started = true)
    (released : ∀ x c, s.frames n = .awaiting x → s.table x = some c →
      (s.frames x).unfinished = false ∧ c.state.coro = none) :
    (s.setFrame n frame).Chained := by
  have known : s.frames n ≠ .absent := by
    intro absent
    simp [absent, Frame.started] at begun
  have alive : s.frames n ≠ .destroyed := by
    intro destroyed
    simp [destroyed, Frame.started] at begun
  have begun_ : (s.frames n).unfinished = true := by
    cases place : s.frames n <;> simp_all [Frame.started, Frame.unfinished]
  have unfinished (x : Nat) (after : ((s.setFrame n frame).frames x).unfinished = true) :
      (s.frames x).unfinished = true := by
    by_cases same : x = n
    · exact same ▸ begun_
    · rwa [setFrame_of_ne same] at after
  have notInitial : s.frames n ≠ .initial := by
    intro initial
    simp [initial, Frame.started] at begun
  have notFinal : s.frames n ≠ .final := by
    intro final
    simp [final, Frame.started] at begun
  refine ⟨fun x older => ?_, fun x known' alive' => ?_, fun x e found => ?_,
    fun x e p found link => ?_, fun x e h found handler => ?_⟩
  · have other : x ≠ n := Nat.ne_of_gt (Nat.lt_of_lt_of_le (chained.created_of_frame known) older)
    rw [setFrame_of_ne other]
    exact chained.fresh x older
  · by_cases same : x = n
    · exact same ▸ chained.present n known alive
    · rw [setFrame_of_ne same] at known' alive'
      exact chained.present x known' alive'
  · have fits := chained.fits x e found
    by_cases same : x = n
    · subst same
      rw [setFrame_self]
      refine ⟨?_, fun final => absurd (fits.final final) notFinal, ?_, fun _ => fits.quiet begun,
        fun _ => fits.promise alive⟩
      · constructor
        · exact fun initial => absurd (fits.initial.mp initial) notInitial
        · rintro rfl
          cases going
      · rintro rfl
        cases going
    · rwa [setFrame_of_ne same]
  · obtain ⟨below, up⟩ := chained.parent x e p found link
    refine ⟨below, fun going => ?_⟩
    have waiting := up (unfinished x going)
    by_cases same : p = n
    · subst same
      have done := (released x e waiting found).1
      rw [unfinished x going] at done
      cases done
    · rwa [setFrame_of_ne same]
  · have waiting := chained.coro x e h found handler
    by_cases same : h = n
    · subst same
      rw [(released x e waiting found).2] at handler
      cases handler
    · rwa [setFrame_of_ne same]

theorem Chained.create (chained : s.Chained) (fits : Fits .initial c)
    (parent : ∀ p, c.state.parent = some p → p < s.created ∧ s.frames p = .awaiting s.created)
    (coro : ∀ h, c.state.coro = some h → s.frames h = .awaiting s.created) :
    Chained { (s.put s.created c).setFrame s.created .initial with created := s.created + 1 } := by
  have new : s.frames s.created = .absent := (chained.fresh s.created (Nat.le_refl _)).2
  have awaiting (p x : Nat) (before : s.frames p = .awaiting x) :
      ((s.put s.created c).setFrame s.created .initial).frames p = .awaiting x := by
    have other : p ≠ s.created := by
      rintro rfl
      simp [new] at before
    rw [setFrame_of_ne other]
    exact before
  refine ⟨fun x older => ?_, fun x known alive => ?_, fun x e found => ?_, fun x e p found link => ?_,
    fun x e h found handler => ?_⟩
  · have other : x ≠ s.created := Nat.ne_of_gt older
    refine ⟨(put_table_of_ne other).trans ?_, (setFrame_of_ne other).trans ?_⟩
    · exact (chained.fresh x (Nat.le_of_lt older)).1
    · exact (chained.fresh x (Nat.le_of_lt older)).2
  · by_cases same : x = s.created
    · subst same
      exact ⟨c, CountedTable.put_self (references_ne_zero (fits.promise (by simp)))⟩
    · have place : ((s.put s.created c).setFrame s.created .initial).frames x = s.frames x :=
        setFrame_of_ne same
      obtain ⟨e, found⟩ := chained.present x (place ▸ known) (place ▸ alive)
      exact ⟨e, (put_table_of_ne same).trans found⟩
  · by_cases same : x = s.created
    · subst same
      cases CountedTable.eq_of_put_self found
      apply Eq.mpr ?_ fits
      exact congrArg (fun frame => Fits frame c) setFrame_self
    · have place : ((s.put s.created c).setFrame s.created .initial).frames x = s.frames x :=
        setFrame_of_ne same
      apply Eq.mpr ?_ (chained.fits x e ((put_table_of_ne same).symm.trans found))
      exact congrArg (fun frame => Fits frame e) place
  · by_cases same : x = s.created
    · subst same
      cases CountedTable.eq_of_put_self found
      obtain ⟨below, waiting⟩ := parent p link
      exact ⟨below, fun _ => awaiting p _ waiting⟩
    · have place : ((s.put s.created c).setFrame s.created .initial).frames x = s.frames x :=
        setFrame_of_ne same
      obtain ⟨below, up⟩ := chained.parent x e p ((put_table_of_ne same).symm.trans found) link
      exact ⟨below, fun going => awaiting p x (up (place ▸ going))⟩
  · by_cases same : x = s.created
    · subst same
      cases CountedTable.eq_of_put_self found
      exact awaiting h _ (coro h handler)
    · exact awaiting h x (chained.coro x e h ((put_table_of_ne same).symm.trans found) handler)

theorem Chained.go (chained : s.Chained) (sch : Nat) : (s.go sch).Chained := by
  refine chained.create ⟨?_, ?_, ?_, ?_, fun _ => rfl⟩ ?_ ?_
  · exact iff_of_true rfl rfl
  · intro final
    cases final
  · intro _
    exact Nat.le_refl 1
  · intro started
    cases started
  · intro p link
    cases link
  · intro h handler
    cases handler

theorem futureAwaitSuspend_new (child : FutureState α ε) {x : Nat} (sch : Option Nat)
    (new : child.coro = none) (other : x ≠ n) :
    (child.futureAwaitSuspend (some x) n sch).1 =
      { child with parent := some n, scheduler := sch, coro := some n } ∧
    (child.futureAwaitSuspend (some x) n sch).2.length ≤ 1 := by
  cases sch with
  | none => simp [FutureState.futureAwaitSuspend, other, new]
  | some sch =>
      simp only [FutureState.futureAwaitSuspend, Option.some.injEq, other, if_false, new,
        Option.isNone_none, if_true, true_and]
      split <;> simp

theorem Chained.call (chained : s.Chained) (running : s.frames n = .running) :
    (s.call n c).Chained := by
  have bound : n < s.created := chained.created_of_frame (by simp [running])
  have other : s.created ≠ n := Nat.ne_of_gt bound
  have awaiting : (s.setFrame n (.awaiting s.created)).Chained :=
    chained.setFrame (by rw [running]; rfl) rfl fun x _ waiting _ => by simp [running] at waiting
  have place : (s.setFrame n (.awaiting s.created)).frames n = .awaiting s.created := setFrame_self
  let sch := c.state.getScheduler (s.rootScheduler n)
  let child : FutureState α ε :=
    { FutureState.promiseInitialSuspend { isFuture := true } with scheduler := sch }
  let entry : CountedState α ε :=
    { state := child, task := false, promise := true, futures := 1, queued := 0 }
  obtain ⟨state, single⟩ := futureAwaitSuspend_new child sch rfl other
  have after := awaiting.create
    (c := entry.notify (child.futureAwaitSuspend (some s.created) n sch)) ⟨?_, ?_, ?_, ?_, fun _ => rfl⟩
    ?_ ?_
  · have same : s.call n c = { ((s.setFrame n (.awaiting s.created)).put s.created
        (entry.notify (child.futureAwaitSuspend (some s.created) n sch))).setFrame s.created
          .initial with created := s.created + 1 } := by
      simp only [Lifetime.call, Lifetime.setFrame, Lifetime.put, Lifetime.mk.injEq, and_true]
      exact ⟨rfl, Function.update_comm other _ _ _⟩
    rw [same]
    exact after
  · apply iff_of_true ?_ rfl
    show (child.futureAwaitSuspend (some s.created) n sch).1.isInitor = .initial
    rw [state]
    rfl
  · intro final
    have : (child.futureAwaitSuspend (some s.created) n sch).1.isInitor = .final := final
    rw [state] at this
    cases this
  · intro _
    show 0 + List.countP _ _ ≤ 1
    rw [Nat.zero_add]
    exact List.countP_le_length.trans single
  · intro started
    cases started
  · intro p link
    have : (child.futureAwaitSuspend (some s.created) n sch).1.parent = some p := link
    rw [state] at this
    cases this
    exact ⟨bound, place⟩
  · intro h handler
    have : (child.futureAwaitSuspend (some s.created) n sch).1.coro = some h := handler
    rw [state] at this
    cases this
    exact place

theorem Chained.resume (chained : s.Chained) (lookup : s.table n = some c)
    (queued : 0 < c.queued) : (s.resume n c).Chained := by
  have fits := chained.fits n c lookup
  have notStarted : (s.frames n).started = false := by
    cases started : (s.frames n).started with
    | true => exact absurd (fits.quiet started) (Nat.ne_of_gt queued)
    | false => rfl
  have notAwaiting (x : Nat) : s.frames n ≠ .awaiting x := by
    intro awaiting
    simp [awaiting, Frame.started] at notStarted
  unfold Lifetime.resume FutureState.resume
  by_cases initial : c.state.isInitor = .initial
  · have place := fits.initial.mp initial
    have single : c.queued - 1 = 0 := Nat.sub_eq_zero_of_le (fits.first place)
    simp only [initial, if_true, continueWith]
    refine chained.change lookup ⟨?_, ?_, ?_, fun _ => single, ?_⟩ rfl (fun _ same => same) ?_
      (.inr notAwaiting)
    · exact iff_of_false (by simp) (by simp)
    · intro final
      cases final
    · intro start
      cases start
    · intro _
      exact fits.promise (by simp [place])
    · intro _
      simp [place, Frame.unfinished]
  · have notInitial : s.frames n ≠ .initial := fun place => initial (fits.initial.mpr place)
    have finished : (s.frames n).unfinished = false := by
      cases place : s.frames n <;> simp_all [Frame.unfinished, Frame.started]
    have fewer (st : FutureState α ε) (same : st.isInitor = c.state.isInitor) :
        Fits (s.frames n) { c with
          state := st, queued := c.queued - 1, cached := c.cached + 1 } := by
      refine ⟨?_, ?_, fun place => absurd place notInitial, ?_, fits.promise⟩
      · exact iff_of_false (same ▸ initial) notInitial
      · intro final
        exact fits.final (same ▸ final)
      · intro started
        rw [notStarted] at started
        cases started
    simp only [initial, if_false]
    cases handler : c.state.coro with
    | some h =>
        simp only [continueWith]
        have waiting := chained.coro n c h lookup handler
        have after := chained.put lookup (fewer { c.state with coro := none } rfl) rfl
          (by simp)
        refine after.setFrame ?_ rfl fun x e awaiting found => ?_
        · show (s.frames h).started = true
          rw [waiting]
          rfl
        · have same : x = n := by
            have := waiting.symm.trans awaiting
            simpa using this.symm
          subst same
          cases CountedTable.eq_of_put_self found
          exact ⟨finished, rfl⟩
    | none =>
        by_cases final : c.state.isInitor = .final
        · simp only [final, if_true, continueWith]
          refine chained.change lookup ⟨?_, ?_, ?_, ?_, fun alive => absurd rfl alive⟩ rfl ?_
            (fun unfinished => by cases unfinished) (.inr notAwaiting)
          · exact iff_of_false (by simp) (by simp)
          · intro final
            cases final
          · intro place
            cases place
          · intro started
            cases started
          · intro h same
            simp at same
        · simp only [final, if_false, continueWith]
          exact chained.put lookup (fewer c.state rfl) rfl fun _ same => same

theorem Chained.complete (chained : s.Chained) (lookup : s.table n = some c) (kind : Kind)
    (o : Outcome α ε) (root : Option Nat) (running : s.frames n = .running) :
    ((s.put n (c.notify (c.state.complete kind o root))).setFrame n .returned).Chained := by
  have fits := chained.fits n c lookup
  have state : (c.notify (c.state.complete kind o root)).state = c.state.assign kind o :=
    FutureState.complete_state kind o c.state root
  apply chained.change lookup ⟨?_, ?_, ?_, ?_, ?_⟩ ?_ ?_ ?_ (.inr ?_)
  · rw [state, FutureState.assign_isInitor, fits.initial, running]
    exact iff_of_false (by simp) (by simp)
  · rw [state, FutureState.assign_isInitor]
    intro final
    have := fits.final final
    simp [running] at this
  · intro start
    cases start
  · intro started
    cases started
  · intro _
    exact fits.promise (by simp [running])
  · rw [state, FutureState.assign_parent]
  · rw [state, FutureState.assign_coro]
    exact fun _ same => same
  · intro unfinished
    cases unfinished
  · simp [running]

theorem Chained.finalSuspend (chained : s.Chained) (lookup : s.table n = some c)
    {root : Option Nat} {updated : FutureState α ε × List Call} (returned : s.frames n = .returned)
    (suspended : c.state.promiseFinalSuspend root = .ok updated) :
    ((s.put n (c.notify updated)).setFrame n .final).Chained := by
  have fits := chained.fits n c lookup
  rw [FutureState.promiseFinalSuspend_eq] at suspended
  split at suspended
  · cases suspended
    refine chained.change lookup ⟨?_, fun _ => rfl, ?_, ?_, ?_⟩ rfl (fun _ same => same) ?_
      (.inr (by simp [returned]))
    · exact iff_of_false (fun initial => by cases initial) (fun initial => by cases initial)
    · intro start
      cases start
    · intro started
      cases started
    · intro _
      exact fits.promise (by simp [returned])
    · intro unfinished
      cases unfinished
  · cases suspended

/-! ## The waiters -/

abbrev RootOf (s : Lifetime α ε) : Nat → Nat → Prop :=
  CountedTable.RootOf (fun c : CountedState α ε => c.state.parent) s.table

structure Waiting (s : Lifetime α ε) : Prop where
  mutexes : ∀ m, Mutex.system.Reachable (s.mutexes m)
  -- A waiter that has not been resumed is suspended under its root
  suspended : ∀ m w h, w < (s.mutexes m).created → ((s.mutexes m).waiters w).coro = some h →
    s.frames h = .locked m w ∧ s.RootOf h ((s.mutexes m).waiters w).root
  roots : ∀ m w, w ∈ (s.mutexes m).entries →
    ∃ c, s.table ((s.mutexes m).waiters w).root = some c ∧ c.state.parent = none

theorem Chained.upward (chained : s.Chained) (n : Nat) (c : CountedState α ε) (p : Nat)
    (going : (s.frames n).unfinished = true) (lookup : s.table n = some c)
    (link : c.state.parent = some p) : (s.frames p).unfinished = true := by
  rw [(chained.parent n c p lookup link).2 going]
  rfl

theorem Waiting.rootUnfinished (waiting : s.Waiting) (chained : s.Chained) {m w h : Nat}
    (bound : w < (s.mutexes m).created) (handler : ((s.mutexes m).waiters w).coro = some h) :
    (s.frames ((s.mutexes m).waiters w).root).unfinished = true := by
  obtain ⟨place, rootOf⟩ := waiting.suspended m w h bound handler
  refine rootOf.along (P := fun n => (s.frames n).unfinished = true) chained.upward ?_
  rw [place]
  rfl

theorem Waiting.of_table (waiting : s.Waiting) (chained : s.Chained)
    (mutexes : t.mutexes = s.mutexes)
    (frames : ∀ h m w, s.frames h = .locked m w → t.frames h = .locked m w)
    (kept : ∀ n c, s.table n = some c → ((s.frames n).unfinished = true ∨
      ∃ m w, w ∈ (s.mutexes m).entries ∧ ((s.mutexes m).waiters w).root = n) →
      ∃ c', t.table n = some c' ∧ c'.state.parent = c.state.parent) : t.Waiting := by
  refine ⟨fun m => ?_, fun m w h bound handler => ?_, fun m w member => ?_⟩
  · rw [mutexes]
    exact waiting.mutexes m
  · rw [mutexes] at bound handler ⊢
    obtain ⟨place, rootOf⟩ := waiting.suspended m w h bound handler
    refine ⟨frames h m w place, rootOf.keep (P := fun n => (s.frames n).unfinished = true)
      chained.upward (fun n c going lookup => kept n c lookup (.inl going)) ?_⟩
    rw [place]
    rfl
  · rw [mutexes] at member ⊢
    obtain ⟨c, lookup, link⟩ := waiting.roots m w member
    obtain ⟨c', lookup', link'⟩ := kept _ c lookup (.inr ⟨m, w, member, rfl⟩)
    exact ⟨c', lookup', link'.trans link⟩

theorem setMutex_self {m : Nat} {mutex : Mutex} : (s.setMutex m mutex).mutexes m = mutex := by
  simp [setMutex]

theorem setMutex_of_ne {m m' : Nat} {mutex : Mutex} (other : m' ≠ m) :
    (s.setMutex m mutex).mutexes m' = s.mutexes m' := by
  simp [setMutex, Function.update_of_ne other]

theorem Waiting.of_mutex (waiting : s.Waiting) {m : Nat} {mutex : Mutex} {action : MutexAction}
    (action_ : (s.mutexes m).step action = some mutex)
    (created : mutex.created = (s.mutexes m).created)
    (entries : ∀ w ∈ mutex.entries, w ∈ (s.mutexes m).entries) : (s.setMutex m mutex).Waiting := by
  have change (w : Nat) (bound : w < (s.mutexes m).created) := Mutex.step_waiter action_ bound
  refine ⟨fun m' => ?_, fun m' w h bound handler => ?_, fun m' w member => ?_⟩
  · by_cases same : m' = m
    · subst same
      rw [setMutex_self]
      exact (waiting.mutexes m').step trivial action_
    · rw [setMutex_of_ne same]
      exact waiting.mutexes m'
  · by_cases same : m' = m
    · subst same
      rw [setMutex_self] at bound handler ⊢
      rw [created] at bound
      rw [(change w bound).root]
      exact waiting.suspended m' w h bound ((change w bound).coro handler)
    · rw [setMutex_of_ne same] at bound handler ⊢
      exact waiting.suspended m' w h bound handler
  · by_cases same : m' = m
    · subst same
      rw [setMutex_self] at member ⊢
      have before := entries w member
      have bound := Mutex.older_of_entry (waiting.mutexes m') before
      rw [(change w bound).root]
      exact waiting.roots m' w before
    · rw [setMutex_of_ne same] at member ⊢
      exact waiting.roots m' w member

theorem Waiting.setFrame (waiting : s.Waiting) {frame : Frame}
    (idle : ∀ m w, w < (s.mutexes m).created → ((s.mutexes m).waiters w).coro ≠ some n) :
    (s.setFrame n frame).Waiting := by
  refine ⟨waiting.mutexes, fun m w h bound handler => ?_, waiting.roots⟩
  obtain ⟨place, rootOf⟩ := waiting.suspended m w h bound handler
  have other : h ≠ n := by
    rintro rfl
    exact idle m w bound handler
  exact ⟨(setFrame_of_ne other).trans place, rootOf⟩

theorem Waiting.suspend (waiting : s.Waiting) {m r : Nat} {timed : Bool}
    (idle : ∀ m w, w < (s.mutexes m).created → ((s.mutexes m).waiters w).coro ≠ some n)
    (rootOf : s.RootOf n r)
    (action_ : (s.mutexes m).step (.lock n r timed) = some ((s.mutexes m).suspend n r timed)) :
    ((s.setMutex m ((s.mutexes m).suspend n r timed)).setFrame n
      (.locked m (s.mutexes m).created)).Waiting := by
  have fresh : ((s.mutexes m).suspend n r timed).waiters (s.mutexes m).created =
      { root := r, coro := some n, timer := timed } := by
    simp [Mutex.suspend, Mutex.record, Mutex.setWaiter]
  have older (w : Nat) (other : w ≠ (s.mutexes m).created) :
      ((s.mutexes m).suspend n r timed).waiters w = (s.mutexes m).waiters w := by
    simp [Mutex.suspend, Mutex.record, Mutex.setWaiter, Function.update_of_ne other]
  have mutexes : ((s.setMutex m ((s.mutexes m).suspend n r timed)).setFrame n
      (.locked m (s.mutexes m).created)).mutexes =
      Function.update s.mutexes m ((s.mutexes m).suspend n r timed) := rfl
  have still (m' w h : Nat) (bound : w < (s.mutexes m').created)
      (handler : ((s.mutexes m').waiters w).coro = some h) :
      ((s.setMutex m ((s.mutexes m).suspend n r timed)).setFrame n
        (.locked m (s.mutexes m).created)).frames h = .locked m' w ∧
        s.RootOf h ((s.mutexes m').waiters w).root := by
    have other : h ≠ n := by
      rintro rfl
      exact idle m' w bound handler
    obtain ⟨place, above⟩ := waiting.suspended m' w h bound handler
    exact ⟨(setFrame_of_ne other).trans place, above⟩
  refine ⟨fun m' => ?_, fun m' w h bound handler => ?_, fun m' w member => ?_⟩
  · rw [mutexes]
    by_cases same : m' = m
    · subst same
      rw [Function.update_self]
      exact (waiting.mutexes m').next (.lock n r timed) action_ trivial
    · rw [Function.update_of_ne same]
      exact waiting.mutexes m'
  · rw [mutexes] at bound handler ⊢
    by_cases same : m' = m
    · subst same
      rw [Function.update_self] at bound handler ⊢
      by_cases new : w = (s.mutexes m').created
      · subst new
        rw [fresh] at handler ⊢
        cases handler
        exact ⟨setFrame_self, rootOf⟩
      · rw [older w new] at handler ⊢
        exact still m' w h (Nat.lt_of_le_of_ne (Nat.le_of_lt_succ bound) new) handler
    · rw [Function.update_of_ne same] at bound handler ⊢
      exact still m' w h bound handler
  · rw [mutexes] at member ⊢
    by_cases same : m' = m
    · subst same
      rw [Function.update_self] at member ⊢
      by_cases new : w = (s.mutexes m').created
      · subst new
        rw [fresh]
        exact rootOf.root
      · rw [older w new]
        apply waiting.roots m' w
        have entered : w ∈ (s.mutexes m').waitAwakes := by
          simpa [Mutex.entries, Mutex.entering, Mutex.suspend, Mutex.record, Mutex.setWaiter,
            new] using member
        simp [Mutex.entries, entered]
    · rw [Function.update_of_ne same] at member ⊢
      exact waiting.roots m' w member

theorem Waiting.lock (waiting : s.Waiting) {m r : Nat} {timed : Bool}
    {mutex : Mutex} (running : s.frames n = .running) (root : s.getRoot n = some r)
    (action_ : (s.mutexes m).step (.lock n r timed) = some mutex) :
    ((s.setMutex m mutex).setFrame n (lockFrame n m mutex s)).Waiting := by
  obtain ⟨created, entries, section_⟩ | ⟨handler, root', timed', same, free, rfl⟩ :=
    Mutex.step_entries action_
  · have after := waiting.of_mutex action_ created entries
    have free : (s.mutexes m).lockSection = .free := by
      cases Mutex.effect_of_step action_ with
      | lock handler root timed free => exact free
    have kept : lockFrame n m mutex s = (s.setMutex m mutex).frames n := by
      unfold lockFrame
      split
      · rename_i w suspending
        simp [free] at section_
        exact absurd suspending (section_ w)
      · rfl
    rw [kept, setFrame_same]
    exact after
  · cases same
    apply waiting.suspend ?_ (CountedTable.rootOf_of_rootFrom root) action_
    intro m' w bound handler
    have place := (waiting.suspended m' w n bound handler).1
    simp [running] at place

theorem Waiting.resumed (waiting : s.Waiting) {m w handler : Nat} {mutex : Mutex}
    (action_ : (s.mutexes m).step (.resume w) = some mutex)
    (coro : ((s.mutexes m).waiters w).coro = some handler) :
    w < (s.mutexes m).created ∧ s.frames handler = .locked m w := by
  cases Mutex.effect_of_step action_ with
  | resume w queued =>
      have bound := (Mutex.served (waiting.mutexes m)).staged.2 w queued
      exact ⟨bound, (waiting.suspended m w handler bound coro).1⟩

theorem Waiting.wake (waiting : s.Waiting) {m w : Nat} {mutex : Mutex}
    (action_ : (s.mutexes m).step (.resume w) = some mutex) :
    Waiting (match ((s.mutexes m).waiters w).coro with
      | some handler => (s.setMutex m mutex).setFrame handler .running
      | none => s.setMutex m mutex) := by
  obtain ⟨created, entries, _⟩ | ⟨_, _, _, same, _⟩ := Mutex.step_entries action_
  · have after := waiting.of_mutex action_ created entries
    cases coro : ((s.mutexes m).waiters w).coro with
    | none => exact after
    | some handler =>
        obtain ⟨bound, place⟩ := waiting.resumed action_ coro
        obtain rfl : mutex = (s.mutexes m).resume w := by
          cases Mutex.effect_of_step action_ with
          | resume w member => rfl
        refine after.setFrame fun m' w' bound' handler' => ?_
        have place' : s.frames handler = .locked m' w' := (after.suspended m' w' _ bound' handler').1
        have same := place.symm.trans place'
        simp only [Frame.locked.injEq] at same
        obtain ⟨rfl, rfl⟩ := same
        rw [setMutex_self, Mutex.resume_of_coro coro] at handler'
        simp [Mutex.record, Mutex.setWaiter] at handler'
  · cases same

/-! ## Every run -/

structure Alive (s : Lifetime α ε) : Prop where
  chained : s.Chained
  waiting : s.Waiting

/-- No last reference to a state is released while an entry of it whose wait has timed out lies in a
wait queue. -/
def rootOutlives (s : Lifetime α ε) : LifetimeAction α ε → Prop
  | .drop n | .discard n => ∀ c, s.table n = some c → c.references = 1 →
      ∀ m w, w ∈ (s.mutexes m).waitAwakes → ((s.mutexes m).waiters w).root = n →
        ((s.mutexes m).waiters w).timedOut = false
  | _ => True

theorem kept_of_put (lookup : s.table n = some c) (parent : c'.state.parent = c.state.parent)
    (held : c'.references ≠ 0) (x : Nat) (e : CountedState α ε) (found : s.table x = some e) :
    ∃ e', (s.put n c').table x = some e' ∧ e'.state.parent = e.state.parent := by
  by_cases same : x = n
  · subst same
    cases lookup.symm.trans found
    exact ⟨c', CountedTable.put_self held, parent⟩
  · exact ⟨e, (put_table_of_ne same).trans found, rfl⟩

theorem setFrame_locked {frame : Frame} {x h m w : Nat} (other : ∀ m w, s.frames x ≠ .locked m w)
    (place : s.frames h = .locked m w) : (s.setFrame x frame).frames h = .locked m w := by
  have apart : h ≠ x := by
    rintro rfl
    exact other m w place
  rwa [setFrame_of_ne apart]

theorem Waiting.create (waiting : s.Waiting) (chained : s.Chained) {frames : Nat → Frame}
    (kept : ∀ h m w, s.frames h = .locked m w → frames h = .locked m w) :
    Waiting { s.put s.created c with frames := frames, created := s.created + 1 } := by
  refine waiting.of_table chained rfl kept fun x e found _ => ⟨e, ?_, rfl⟩
  have bound := chained.created_of_entry found
  exact (put_table_of_ne (Nat.ne_of_lt bound)).trans found

theorem Waiting.change (waiting : s.Waiting) (chained : s.Chained) {frame : Frame} {x : Nat}
    (lookup : s.table n = some c) (parent : c'.state.parent = c.state.parent)
    (held : c'.references ≠ 0) (free : ∀ m w, s.frames x ≠ .locked m w) :
    ((s.put n c').setFrame x frame).Waiting :=
  waiting.of_table chained rfl (fun _ _ _ place => setFrame_locked (s := s.put n c') free place)
    fun y e found _ => kept_of_put lookup parent held y e found

theorem Waiting.put (waiting : s.Waiting) (chained : s.Chained) (lookup : s.table n = some c)
    (parent : c'.state.parent = c.state.parent) (held : c'.references ≠ 0) : (s.put n c').Waiting :=
  waiting.of_table chained rfl (fun _ _ _ place => place)
    fun y e found _ => kept_of_put lookup parent held y e found

theorem Alive.resume (alive : s.Alive) (lookup : s.table n = some c) (queued : 0 < c.queued) :
    (s.resume n c).Alive := by
  refine ⟨alive.chained.resume lookup queued, ?_⟩
  have fits := alive.chained.fits n c lookup
  have cached (st : FutureState α ε) (promise : Bool) : CountedState.references
      { c with state := st, promise, queued := c.queued - 1, cached := c.cached + 1 } ≠ 0 := by
    unfold CountedState.references
    exact Nat.succ_ne_zero _
  have free (m w : Nat) : s.frames n ≠ .locked m w := by
    intro place
    have := fits.quiet (by rw [place]; rfl)
    exact absurd this (Nat.ne_of_gt queued)
  unfold Lifetime.resume FutureState.resume
  split
  · exact alive.waiting.change alive.chained lookup rfl (cached _ _) free
  · split
    · rename_i h handler
      have place := alive.chained.coro n c h lookup handler
      exact alive.waiting.change alive.chained lookup rfl (cached _ _) (by simp [place])
    · split
      · exact alive.waiting.change alive.chained lookup rfl (cached _ _) free
      · exact alive.waiting.put alive.chained lookup rfl (cached _ _)

theorem Alive.held (alive : s.Alive) (lookup : s.table n = some c)
    (outlives : c.references = 1 → ∀ m w, w ∈ (s.mutexes m).waitAwakes →
      ((s.mutexes m).waiters w).root = n → ((s.mutexes m).waiters w).timedOut = false)
    (used : (s.frames n).unfinished = true ∨
      ∃ m w, w ∈ (s.mutexes m).entries ∧ ((s.mutexes m).waiters w).root = n)
    (promise : c'.promise = c.promise) (fewer : c.references = c'.references + 1) :
    c'.references ≠ 0 := by
  intro gone
  have unfinished : (s.frames n).unfinished = true := by
    rcases used with going | ⟨m, w, member, root⟩
    · exact going
    · have reachable := alive.waiting.mutexes m
      have pending : ((s.mutexes m).waiters w).value = true := by
        rcases List.mem_append.mp member with queued | entering
        · have waiting := outlives (by rw [fewer, gone]) m w queued root
          by_contra claimed
          have timedOut := Mutex.timedOut_of_queued reachable queued (by simpa using claimed)
          rw [waiting] at timedOut
          cases timedOut
        · apply (Mutex.pending_of_suspending reachable w ?_).2
          unfold Mutex.entering at entering
          split at entering
          · rename_i w' suspending
            rw [suspending, List.mem_singleton.mp entering]
          · cases entering
      have bound := Mutex.older_of_entry reachable member
      obtain ⟨h, handler⟩ := Mutex.coro_of_pending reachable bound pending
      exact root ▸ alive.waiting.rootUnfinished alive.chained bound handler
  have present : c.promise = true := by
    apply (alive.chained.fits n c lookup).promise
    intro destroyed
    rw [destroyed] at unfinished
    cases unfinished
  exact references_ne_zero (promise.trans present) gone

theorem Alive.release (alive : s.Alive) (lookup : s.table n = some c)
    (outlives : c.references = 1 → ∀ m w, w ∈ (s.mutexes m).waitAwakes →
      ((s.mutexes m).waiters w).root = n → ((s.mutexes m).waiters w).timedOut = false)
    (state : c'.state = c.state) (queued : c'.queued = c.queued)
    (promise : c'.promise = c.promise) (fewer : c.references = c'.references + 1) :
    (s.put n c').Alive := by
  have fits := alive.chained.fits n c lookup
  constructor
  · refine alive.chained.put lookup ?_ (by rw [state]) fun h handler => by rwa [state] at handler
    rcases c' with ⟨_, _, _, _, _, _⟩
    cases state
    cases queued
    cases promise
    exact ⟨fits.initial, fits.final, fits.first, fits.quiet, fits.promise⟩
  · refine alive.waiting.of_table alive.chained rfl (fun _ _ _ place => place)
      fun x e found used => ?_
    by_cases same : x = n
    · subst same
      cases lookup.symm.trans found
      have held := alive.held lookup outlives used promise fewer
      exact ⟨c', CountedTable.put_self held, by rw [state]⟩
    · exact ⟨e, (put_table_of_ne same).trans found, rfl⟩

theorem Alive.go (alive : s.Alive) (sch : Nat) : (s.go sch).Alive := by
  refine ⟨alive.chained.go sch, alive.waiting.create alive.chained fun h m w place => ?_⟩
  apply setFrame_locked (s := s.put s.created _) ?_ place
  simp [Lifetime.put, (alive.chained.fresh s.created (Nat.le_refl _)).2]

theorem Alive.call (alive : s.Alive) (running : s.frames n = .running) : (s.call n c).Alive := by
  refine ⟨alive.chained.call running, alive.waiting.create alive.chained fun h m w place => ?_⟩
  have new := (alive.chained.fresh s.created (Nat.le_refl _)).2
  have first : (s.setFrame s.created .initial).frames h = .locked m w :=
    setFrame_locked (by simp [new]) place
  apply setFrame_locked (s := s.setFrame s.created .initial) ?_ first
  have other : n ≠ s.created := Nat.ne_of_lt (alive.chained.created_of_frame (by simp [running]))
  simp [setFrame_of_ne other, running]

theorem Alive.complete (alive : s.Alive) (lookup : s.table n = some c) (kind : Kind)
    (o : Outcome α ε) (root : Option Nat) (running : s.frames n = .running) :
    ((s.put n (c.notify (c.state.complete kind o root))).setFrame n .returned).Alive := by
  have present : c.promise = true := (alive.chained.fits n c lookup).promise (by simp [running])
  refine ⟨alive.chained.complete lookup kind o root running,
    alive.waiting.change alive.chained lookup ?_ (references_ne_zero present) (by simp [running])⟩
  have state := FutureState.complete_state kind o c.state root
  exact (congrArg FutureState.parent state).trans (FutureState.assign_parent kind o c.state)

theorem Alive.finalSuspend (alive : s.Alive) (lookup : s.table n = some c) {root : Option Nat}
    {updated : FutureState α ε × List Call} (returned : s.frames n = .returned)
    (suspended : c.state.promiseFinalSuspend root = .ok updated) :
    ((s.put n (c.notify updated)).setFrame n .final).Alive := by
  have present : c.promise = true := (alive.chained.fits n c lookup).promise (by simp [returned])
  refine ⟨alive.chained.finalSuspend lookup returned suspended,
    alive.waiting.change alive.chained lookup ?_ (references_ne_zero present) (by simp [returned])⟩
  show updated.1.parent = c.state.parent
  rw [FutureState.promiseFinalSuspend_state suspended]

theorem Alive.setMutex (alive : s.Alive) {m : Nat} {mutex : Mutex} {action : MutexAction}
    (action_ : (s.mutexes m).step action = some mutex)
    (suspendsNone : ∀ handler root timed, action ≠ .lock handler root timed) :
    (s.setMutex m mutex).Alive := by
  refine ⟨alive.chained.setMutex m mutex, ?_⟩
  obtain ⟨created, entries, _⟩ | ⟨_, _, _, same, _⟩ := Mutex.step_entries action_
  · exact alive.waiting.of_mutex action_ created entries
  · exact absurd same (suspendsNone _ _ _)

theorem Alive.lock (alive : s.Alive) {m r : Nat} {timed : Bool} {mutex : Mutex}
    (running : s.frames n = .running) (root : s.getRoot n = some r)
    (action_ : (s.mutexes m).step (.lock n r timed) = some mutex) :
    ((s.setMutex m mutex).setFrame n (lockFrame n m mutex s)).Alive := by
  refine ⟨?_, alive.waiting.lock running root action_⟩
  apply (alive.chained.setMutex m mutex).setFrame
  · show (s.frames n).started = true
    rw [running]
    rfl
  · unfold lockFrame
    split
    · rfl
    · rw [running]
      rfl
  · intro x c awaiting
    exact absurd (running.symm.trans awaiting) (by simp)

theorem Alive.wake (alive : s.Alive) {m w : Nat} {mutex : Mutex}
    (action_ : (s.mutexes m).step (.resume w) = some mutex) :
    Alive (match ((s.mutexes m).waiters w).coro with
      | some handler => (s.setMutex m mutex).setFrame handler .running
      | none => s.setMutex m mutex) := by
  refine ⟨?_, alive.waiting.wake action_⟩
  have after := alive.chained.setMutex m mutex
  cases coro : ((s.mutexes m).waiters w).coro with
  | none => exact after
  | some handler =>
      have place := (alive.waiting.resumed action_ coro).2
      apply after.setFrame
      · show (s.frames handler).started = true
        rw [place]
        rfl
      · rfl
      · intro x c awaiting
        exact absurd (place.symm.trans awaiting) (by simp)

theorem Alive.step {action : LifetimeAction α ε} (alive : s.Alive)
    (permitted : rootOutlives s action) (action_ : step s action = some t) : t.Alive := by
  cases action with
  | go sch =>
      cases action_
      exact alive.go sch
  | call n =>
      simp only [Lifetime.step, Option.ite_none_right_eq_some, Option.map_eq_some_iff] at action_
      obtain ⟨running, c, lookup, rfl⟩ := action_
      exact alive.call running
  | resume n =>
      simp only [Lifetime.step, Option.bind_eq_some_iff, Option.ite_none_right_eq_some,
        Option.some.injEq] at action_
      obtain ⟨c, lookup, queued, rfl⟩ := action_
      exact alive.resume lookup queued
  | drop n =>
      simp only [Lifetime.step, Option.bind_eq_some_iff, Option.ite_none_right_eq_some,
        Option.some.injEq] at action_
      obtain ⟨c, lookup, cached, rfl⟩ := action_
      apply alive.release lookup (permitted c lookup)
      · rfl
      · rfl
      · rfl
      · simp only [CountedState.references]
        omega
  | discard n =>
      simp only [Lifetime.step, Option.bind_eq_some_iff, Option.ite_none_right_eq_some,
        Option.some.injEq] at action_
      obtain ⟨c, lookup, ⟨futures, _⟩, rfl⟩ := action_
      apply alive.release lookup (permitted c lookup)
      · rfl
      · rfl
      · rfl
      · simp only [CountedState.references]
        omega
  | complete n kind o =>
      simp only [Lifetime.step, Option.ite_none_right_eq_some, Option.map_eq_some_iff] at action_
      obtain ⟨running, c, lookup, rfl⟩ := action_
      exact alive.complete lookup kind o _ running
  | finalSuspend n =>
      simp only [Lifetime.step, Option.ite_none_right_eq_some, Option.bind_eq_some_iff] at action_
      obtain ⟨returned, c, lookup, action_⟩ := action_
      split at action_
      · rename_i updated suspended
        cases action_
        exact alive.finalSuspend lookup returned suspended
      · cases action_
  | lock n m timed =>
      simp only [Lifetime.step, Option.ite_none_right_eq_some, Option.bind_eq_some_iff,
        Option.map_eq_some_iff] at action_
      obtain ⟨running, r, root, mutex, next, rfl⟩ := action_
      exact alive.lock running root next
  | offer m =>
      simp only [Lifetime.step] at action_
      split at action_
      · cases action_
      · simp only [Option.bind_eq_some_iff, Option.map_eq_some_iff] at action_
        obtain ⟨r, _, mutex, next, rfl⟩ := action_
        exact alive.setMutex next (by simp)
  | wake m w =>
      simp only [Lifetime.step, Option.map_eq_some_iff] at action_
      obtain ⟨mutex, next, rfl⟩ := action_
      exact alive.wake next
  | mutex m action =>
      simp only [Lifetime.step, Option.ite_none_right_eq_some, Option.map_eq_some_iff] at action_
      obtain ⟨only, mutex, next, rfl⟩ := action_
      apply alive.setMutex next
      rintro handler root timed rfl
      cases only

theorem alive (reachable : (system α ε).ReachableBy rootOutlives s) : s.Alive := by
  apply Transition.System.Inductive.holds (M := system α ε) (I := Alive) ⟨⟨?_, ?_⟩,
    fun _ _ _ _ alive permitted action => alive.step permitted action⟩ reachable
  · refine ⟨fun _ _ => ⟨rfl, rfl⟩, fun _ known => absurd rfl known, ?_, ?_, ?_⟩
    · intro n c lookup
      cases lookup
    · intro n c p lookup
      cases lookup
    · intro n c h lookup
      cases lookup
  · exact ⟨fun _ => .init, fun _ w _ bound => absurd bound (Nat.not_lt_zero w),
      fun _ _ member => absurd member List.not_mem_nil⟩

/-- Every entry that `unlock` takes from its queue leads to a root, through states that are all in
the table. -/
theorem lookup_succeeds (reachable : (system α ε).ReachableBy rootOutlives s) (m w : Nat)
    (rest : List Nat) (releasing : (s.mutexes m).lockSection = .releasing)
    (queue : (s.mutexes m).waitAwakes = w :: rest) :
    ∃ r, s.getRoot ((s.mutexes m).waiters w).root = some r ∧ (step s (.offer m)).isSome = true := by
  obtain ⟨chained, waiting⟩ := alive reachable
  obtain ⟨c, lookup, link⟩ := waiting.roots m w (by simp [Mutex.entries, queue])
  have rootOf : s.RootOf ((s.mutexes m).waiters w).root ((s.mutexes m).waiters w).root :=
    .here lookup link
  have found : s.getRoot ((s.mutexes m).waiters w).root = some ((s.mutexes m).waiters w).root :=
    rootOf.rootFrom (fun n c p lookup link => (chained.parent n c p lookup link).1)
      (Nat.lt_succ_self _)
  exact ⟨_, found, by simp [Lifetime.step, queue, found, Mutex.step, releasing]⟩

theorem lookup_succeeds_held : ∃ s : Lifetime Nat Nat,
    s.frames 1 = .destroyed ∧ ((s.mutexes 0).waiters 0).timedOut = true ∧
      (s.mutexes 0).waitAwakes = [0] ∧
        ∃ r, s.getRoot ((s.mutexes 0).waiters 0).root = some r ∧
          (step s (.offer 0)).isSome = true := by
  let start : (system Nat Nat).ReachableBy rootOutlives (system Nat Nat).init := .init
  let run := start.next (.go 9) rfl trivial |>.next (.go 9) rfl trivial
    |>.next (.resume 0) rfl trivial |>.next (.lock 0 0 false) rfl trivial
    |>.next (.resume 1) rfl trivial |>.next (.lock 1 0 true) rfl trivial
    |>.next (.mutex 0 .enqueue) rfl trivial |>.next (.mutex 0 (.timeout 0)) rfl trivial
    |>.next (.mutex 0 (.finishTimeout 0)) rfl trivial |>.next (.wake 0 0) rfl trivial
    |>.next (.complete 1 .unit (.value 0)) rfl trivial |>.next (.finalSuspend 1) rfl trivial
    |>.next (.resume 1) rfl trivial |>.next (.mutex 0 (.unlock 0)) rfl trivial
  exact ⟨_, rfl, rfl, rfl, lookup_succeeds run 0 0 [] rfl rfl⟩

/-- A waiter times out, its coroutine ends and its state is gone when `unlock` comes to its entry. -/
theorem lookup_of_dead_root : ∃ s : Lifetime Nat Nat, (system Nat Nat).Reachable s ∧
    (s.mutexes 0).lockSection = .releasing ∧ (s.mutexes 0).waitAwakes = [0] ∧
      ((s.mutexes 0).waiters 0).root = 1 ∧ s.table 1 = none ∧ s.getRoot 1 = none := by
  let start : (system Nat Nat).Reachable (system Nat Nat).init := .init
  let run := start.next (.go 9) rfl trivial |>.next (.go 9) rfl trivial
    |>.next (.resume 0) rfl trivial |>.next (.lock 0 0 false) rfl trivial
    |>.next (.resume 1) rfl trivial |>.next (.lock 1 0 true) rfl trivial
    |>.next (.mutex 0 .enqueue) rfl trivial |>.next (.discard 1) rfl trivial
    |>.next (.drop 1) rfl trivial |>.next (.mutex 0 (.timeout 0)) rfl trivial
    |>.next (.mutex 0 (.finishTimeout 0)) rfl trivial |>.next (.wake 0 0) rfl trivial
    |>.next (.complete 1 .unit (.value 0)) rfl trivial |>.next (.finalSuspend 1) rfl trivial
    |>.next (.resume 1) rfl trivial |>.next (.drop 1) rfl trivial
    |>.next (.mutex 0 (.unlock 0)) rfl trivial
  exact ⟨_, run, rfl, rfl, rfl, rfl, rfl⟩

end Lifetime

end Librf
