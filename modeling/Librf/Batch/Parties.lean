import Librf.Base.Transition
import Librf.Base.WaitsFor
import Librf.Batch.Exact

/-!
# Parties that take batches

Any number of parties over one set of locks. Every call of a lock assembly is a step of its own. A
party that finds a mutex taken may wait in its queue or ask again; a spinlock has no queue.
-/

namespace Librf.Batch

variable {ι κ : Type} [DecidableEq ι]

inductive Control
  | idle
  | acquiring (program : LockProgram (Retry ⊕ Unit))
  -- in the queue of the lock at position `i`; `program` goes on when it is handed over
  | suspended (i : Nat) (program : LockProgram (Retry ⊕ Unit))
  | holding
  | releasing (program : LockProgram Unit)

structure Party (ι : Type) where
  locks : List ι := []
  control : Control := .idle

inductive BatchAction (ι : Type)
  | lockRange (p : Nat) (locks : List ι)
  -- the next call of `p` returns, or it throws
  | call (p : Nat) (throws : Bool)
  | suspend (p : Nat)
  | retry (p : Nat)
  | finish (p : Nat)
  | unlockLocks (p : Nat)

structure Parties (ι κ : Type) where
  locks : ι → κ
  parties : Nat → Party ι := fun _ => {}

namespace Parties

def setLock (s : Parties ι κ) (l : ι) (k : κ) : Parties ι κ :=
  { s with locks := Function.update s.locks l k }

def setParty (s : Parties ι κ) (p : Nat) (party : Party ι) : Parties ι κ :=
  { s with parties := Function.update s.parties p party }

def setControl (s : Parties ι κ) (p : Nat) (control : Control) : Parties ι κ :=
  s.setParty p { s.parties p with control }

def handOver (s : Parties ι κ) : Option Nat → Parties ι κ
  | none => s
  | some w => match (s.parties w).control with
      | .suspended _ program => s.setControl w (.acquiring program)
      | _ => s

def call (M : LockModel κ) (s : Parties ι κ) (p : Nat) (o : LockOp) (throws : Bool) :
    Option (Ending o.answer × Parties ι κ) :=
  (M.run (s.parties p).locks s.locks p o throws).map fun ends =>
    (ends.1, { s with locks := ends.2.1 }.handOver ends.2.2)

def suspend (M : LockModel κ) (s : Parties ι κ) (p i : Nat) (program : LockProgram (Retry ⊕ Unit)) :
    Option (Parties ι κ) :=
  (s.parties p).locks[i]?.bind fun l =>
    if (M.tryLock (s.locks l) p).1 then none
    else (M.suspend (s.locks l) p).map fun k => (s.setLock l k).setControl p (.suspended i program)

def step (M : LockModel κ) (s : Parties ι κ) : BatchAction ι → Option (Parties ι κ)
  | .lockRange p locks => match (s.parties p).control with
      | .idle => some (s.setParty p ⟨locks, .acquiring (Batch.lockRange locks.length)⟩)
      | _ => none
  | .call p throws => match (s.parties p).control with
      | .acquiring (.call o next) =>
          (s.call M p o throws).map fun ends => ends.2.setControl p (.acquiring (next ends.1))
      | .releasing (.call o next) =>
          (s.call M p o throws).map fun ends => ends.2.setControl p (.releasing (next ends.1))
      | _ => none
  | .suspend p => match (s.parties p).control with
      | .acquiring (.call (.lockRef i) next) => s.suspend M p i (next (.returned ()))
      | _ => none
  | .retry p => match (s.parties p).control with
      | .acquiring (.halt (.returned (.inl label))) =>
          some (s.setControl p (.acquiring (Batch.retry (s.parties p).locks.length label)))
      | _ => none
  | .finish p => match (s.parties p).control with
      | .acquiring (.halt (.returned (.inr _))) => some (s.setControl p .holding)
      | .acquiring (.halt .raised) | .releasing (.halt _) => some (s.setControl p .idle)
      | _ => none
  | .unlockLocks p => match (s.parties p).control with
      | .holding =>
          some (s.setControl p (.releasing (Batch.unlockLocks 0 (s.parties p).locks.length)))
      | _ => none

def system (ι : Type) [DecidableEq ι] (M : LockModel κ) :
    Transition.System (Parties ι κ) (BatchAction ι) where
  init := { locks := fun _ => M.free }
  step := step M

def Wants (M : LockModel κ) (s : Parties ι κ) (p : Nat) (l : ι) : Prop :=
  match (s.parties p).control with
  | .acquiring (.call (.lockRef i) _) =>
      (s.parties p).locks[i]? = some l ∧ (M.tryLock (s.locks l) p).1 = false
  | .suspended i _ => (s.parties p).locks[i]? = some l
  | _ => False

def contention (M : LockModel κ) (s : Parties ι κ) : Contention Nat ι where
  holds p l := 0 < M.holds (s.locks l) p
  wants := s.Wants M

end Parties

/-! ## One party -/

def Control.Follows (locks : List ι) (hold : ι → Nat) : Control → Prop
  | .idle => hold = 0
  | .acquiring program => program.Meets (Batch.holding locks 0) (Turning locks 0) hold
  | .suspended i program => hold = 0 ∧ ∃ l, locks[i]? = some l ∧
      program.Meets (Batch.holding locks 0) (Turning locks 0) (raise 0 l)
  | .holding => hold = 0 + listed locks 0 locks.length
  | .releasing program => program.Meets (Batch.holding locks 0) (Restored 0) hold

structure Parties.Kept (M : LockModel κ) (s : Parties ι κ) : Prop where
  follows : ∀ p, (s.parties p).control.Follows (s.parties p).locks (M.view p s.locks)
  queued : ∀ l p, p ∈ M.queue (s.locks l) → ∃ i program,
    (s.parties p).control = .suspended i program ∧ (s.parties p).locks[i]? = some l
  nodup : ∀ l, (M.queue (s.locks l)).Nodup

/-- What a call of `p` leaves alone: every other party, but for a waiter that goes on because the
lock was handed over to it. -/
structure Parties.Frames (M : LockModel κ) (p : Nat) (s t : Parties ι κ) : Prop where
  own : t.parties p = s.parties p
  other : ∀ q, q ≠ p →
    (t.parties q = s.parties q ∧ M.view q t.locks = M.view q s.locks) ∨
    ∃ i program l, (s.parties q).control = .suspended i program ∧
      (s.parties q).locks[i]? = some l ∧
      t.parties q = { s.parties q with control := .acquiring program } ∧
      M.view q t.locks = raise (M.view q s.locks) l
  queue : ∀ l q, q ∈ M.queue (t.locks l) → q ∈ M.queue (s.locks l) ∧ t.parties q = s.parties q
  nodup : ∀ l, (M.queue (t.locks l)).Nodup

namespace Parties

variable {M : LockModel κ} {s t : Parties ι κ} {p : Nat}

@[simp] theorem setLock_self (l : ι) (k : κ) : (s.setLock l k).locks l = k := by
  simp [setLock]

theorem setLock_of_ne {l l' : ι} {k : κ} (other : l' ≠ l) :
    (s.setLock l k).locks l' = s.locks l' := by
  simp [setLock, Function.update_of_ne other]

omit [DecidableEq ι] in
@[simp] theorem setParty_self (party : Party ι) : (s.setParty p party).parties p = party := by
  simp [setParty]

omit [DecidableEq ι] in
theorem setParty_of_ne {q : Nat} {party : Party ι} (other : q ≠ p) :
    (s.setParty p party).parties q = s.parties q := by
  simp [setParty, Function.update_of_ne other]

theorem view_setLock (q : Nat) (l : ι) (k : κ) : M.view q (s.setLock l k).locks =
    Function.update (M.view q s.locks) l (M.holds k q) := view_update l k

theorem view_kept {q : Nat} {l : ι} {k : κ} (same : M.holds k q = M.holds (s.locks l) q) :
    M.view q (s.setLock l k).locks = M.view q s.locks := by
  rw [view_setLock, same]
  exact Function.update_eq_self l (M.view q s.locks)

omit [DecidableEq ι] in
theorem handOver_locks (handed : Option Nat) : (s.handOver handed).locks = s.locks := by
  unfold handOver
  split
  · rfl
  · split <;> rfl

theorem Kept.frames_setLock {l : ι} {k : κ} (h : s.Kept M)
    (holds : ∀ q, q ≠ p → M.holds k q = M.holds (s.locks l) q)
    (queue : M.queue k = M.queue (s.locks l)) : s.Frames M p (s.setLock l k) where
  own := rfl
  other q other := .inl ⟨rfl, view_kept (holds q other)⟩
  queue l' q member := by
    refine ⟨?_, rfl⟩
    by_cases same : l' = l
    · subst same
      rwa [setLock_self, queue] at member
    · rwa [setLock_of_ne same] at member
  nodup l' := by
    by_cases same : l' = l
    · subst same
      rw [setLock_self, queue]
      exact h.nodup l'
    · rw [setLock_of_ne same]
      exact h.nodup l'

theorem Kept.frames_handOver {l : ι} {k : κ} {w : Nat} (h : s.Kept M)
    (running : ∀ l, p ∉ M.queue (s.locks l)) (held : 0 < M.holds (s.locks l) p)
    (handed : M.unlock (s.locks l) p = (k, some w)) :
    s.Frames M p ((s.setLock l k).handOver (some w)) := by
  have queue := M.unlock_queue (s.locks l) p
  have holds := M.unlock_holds (s.locks l) p held
  rw [handed] at queue holds
  have nodup := h.nodup l
  rw [show M.queue (s.locks l) = w :: M.queue k from queue] at nodup
  have first : w ∈ M.queue (s.locks l) := by simp [queue]
  have other : w ≠ p := by
    rintro rfl
    exact running l first
  obtain ⟨i, program, waiting, at_⟩ := h.queued l w first
  have goesOn : (s.setLock l k).handOver (some w) =
      (s.setLock l k).setControl w (.acquiring program) := by
    have same : ((s.setLock l k).parties w).control = .suspended i program := waiting
    simp [handOver, same]
  rw [goesOn]
  constructor
  · exact setParty_of_ne other.symm
  · intro q notP
    by_cases same : q = w
    · subst same
      refine .inr ⟨i, program, l, waiting, at_, by simp [setControl, setLock], ?_⟩
      show M.view q (s.setLock l k).locks = _
      rw [view_setLock, holds]
      simp [raise, lower, Function.update_of_ne notP, LockModel.view]
    · refine .inl ⟨setParty_of_ne same, view_kept ?_⟩
      rw [holds]
      simp [raise, lower, Function.update_of_ne same, Function.update_of_ne notP]
  · intro l' q member
    have member' : q ∈ M.queue ((s.setLock l k).locks l') := member
    by_cases same : l' = l
    · subst same
      rw [setLock_self] at member'
      have notW : q ≠ w := by
        rintro rfl
        exact (List.nodup_cons.mp nodup).1 member'
      exact ⟨by simp [queue, member'], setParty_of_ne notW⟩
    · rw [setLock_of_ne same] at member'
      refine ⟨member', setParty_of_ne ?_⟩
      -- a waiter is in one queue only
      rintro rfl
      obtain ⟨i', program', waiting', at'⟩ := h.queued l' q member'
      rw [waiting] at waiting'
      cases waiting'
      exact same (Option.some.inj (at'.symm.trans at_))
  · intro l'
    show (M.queue ((s.setLock l k).locks l')).Nodup
    by_cases same : l' = l
    · subst same
      rw [setLock_self]
      exact (List.nodup_cons.mp nodup).2
    · rw [setLock_of_ne same]
      exact h.nodup l'

theorem Kept.frames_refl (h : s.Kept M) : s.Frames M p s where
  own := rfl
  other _ _ := .inl ⟨rfl, rfl⟩
  queue _ _ member := ⟨member, rfl⟩
  nodup := h.nodup

theorem Kept.call {o : LockOp} {throws : Bool} {result : Ending o.answer} (h : s.Kept M)
    (running : ∀ l, p ∉ M.queue (s.locks l))
    (requires : (Batch.holding (s.parties p).locks 0).requires (M.view p s.locks) o)
    (called : s.call M p o throws = some (result, t)) :
    s.Frames M p t ∧ M.Calls (s.parties p).locks p s.locks o result t.locks := by
  obtain ⟨⟨result, locks', handed⟩, ran, ends⟩ := Option.map_eq_some_iff.mp called
  cases ends
  rw [handOver_locks]
  refine ⟨?_, calls_of_run running ran⟩
  cases turned_of_run ran with
  | same => exact h.frames_refl
  | locked l locked =>
      apply h.frames_setLock ?_ (M.tryLock_queue _ _)
      intro q other
      rw [M.tryLock_holds _ _ locked]
      simp [raise, Function.update_of_ne other]
  | unlocked i l op at_ =>
      subst op
      obtain ⟨l', at', held⟩ := requires
      obtain rfl : l = l' := Option.some.inj (at_.symm.trans at')
      have held : 0 < M.holds (s.locks l) p := held
      have holds := M.unlock_holds (s.locks l) p held
      have queue := M.unlock_queue (s.locks l) p
      cases handed : (M.unlock (s.locks l) p).2 with
      | none =>
          rw [handed] at holds queue
          apply h.frames_setLock ?_ queue.symm
          intro q other
          rw [holds]
          simp [lower, Function.update_of_ne other]
      | some w => exact h.frames_handOver running held (by rw [← handed])

theorem Kept.of_frames {party : Party ι} (h : s.Kept M) (running : ∀ l, p ∉ M.queue (s.locks l))
    (frames : s.Frames M p t)
    (follows : party.control.Follows party.locks (M.view p t.locks)) :
    (t.setParty p party).Kept M where
  follows q := by
    by_cases same : q = p
    · subst same
      rw [setParty_self]
      exact follows
    · rw [setParty_of_ne same]
      show (t.parties q).control.Follows _ (M.view q t.locks)
      rcases frames.other q same with ⟨party, view⟩ | ⟨i, program, l, waiting, at_, party, view⟩
      · rw [party, view]
        exact h.follows q
      · have before := h.follows q
        rw [waiting] at before
        obtain ⟨nothing, l', at', meets⟩ := before
        obtain rfl : l = l' := Option.some.inj (at_.symm.trans at')
        rw [party, view, nothing]
        exact meets
  queued l q member := by
    obtain ⟨before, party⟩ := frames.queue l q member
    have other : q ≠ p := by
      rintro rfl
      exact running l before
    rw [setParty_of_ne other, party]
    exact h.queued l q before
  nodup := frames.nodup

theorem Kept.running (h : s.Kept M)
    (control : ∀ i program, (s.parties p).control ≠ .suspended i program) :
    ∀ l, p ∉ M.queue (s.locks l) := by
  intro l member
  obtain ⟨i, program, waiting, -⟩ := h.queued l p member
  exact control i program waiting

theorem Kept.of_call {control : Control} (h : s.Kept M) (running : ∀ l, p ∉ M.queue (s.locks l))
    (frames : s.Frames M p t)
    (follows : control.Follows (s.parties p).locks (M.view p t.locks)) :
    (t.setControl p control).Kept M := by
  refine h.of_frames running frames ?_
  rw [frames.own]
  exact follows

theorem Kept.of_control {control : Control} (h : s.Kept M)
    (running : ∀ i program, (s.parties p).control ≠ .suspended i program)
    (follows : control.Follows (s.parties p).locks (M.view p s.locks)) :
    (s.setControl p control).Kept M :=
  h.of_call (h.running running) h.frames_refl follows

theorem Kept.of_program {α : Type} {post : Ending α → (ι → Nat) → Prop} {o : LockOp}
    {next : Ending o.answer → LockProgram α} {control : LockProgram α → Control} {throws : Bool}
    {result : Ending o.answer} (h : s.Kept M)
    (here : (s.parties p).control = control (.call o next))
    (running : ∀ program i rest, control program ≠ .suspended i rest)
    (follows : ∀ program hold, (control program).Follows (s.parties p).locks hold ↔
      program.Meets (holding (s.parties p).locks 0) post hold)
    (called : s.call M p o throws = some (result, t)) :
    (t.setControl p (control (next result))).Kept M := by
  have meets := h.follows p
  rw [here, follows] at meets
  have running := h.running (p := p) (here ▸ running _)
  obtain ⟨frames, calls⟩ := h.call running meets.1 called
  exact h.of_call running frames ((follows _ _).2 (meets.2 _ _ (effect_of_calls meets.1 calls)))

theorem Kept.suspend {i : Nat} {next : Ending Unit → LockProgram (Retry ⊕ Unit)} (h : s.Kept M)
    (control : (s.parties p).control = .acquiring (.call (.lockRef i) next))
    (suspended : s.suspend M p i (next (.returned ())) = some t) : t.Kept M := by
  simp only [Parties.suspend, Option.bind_eq_some_iff, Option.ite_none_left_eq_some,
    Option.map_eq_some_iff] at suspended
  obtain ⟨l, at_, refused, k, joined, rfl⟩ := suspended
  have holds := M.suspend_holds _ _ _ joined
  have queue := M.suspend_queue _ _ _ joined
  have before := h.follows p
  rw [control] at before
  obtain ⟨⟨bound, nothing⟩, meets⟩ := before
  have running := h.running (p := p) (by simp [control])
  have view : ∀ q, M.view q (s.setLock l k).locks = M.view q s.locks :=
    fun q => view_kept (by rw [holds])
  constructor
  · intro q
    show Control.Follows _ (M.view q (s.setLock l k).locks) _
    rw [view]
    by_cases same : q = p
    · subst same
      rw [setControl, setParty_self]
      refine ⟨nothing, l, at_, meets (.returned ()) (raise 0 l) ⟨l, at_, ?_⟩⟩
      rw [nothing]
    · rw [setControl, setParty_of_ne same]
      exact h.follows q
  · intro l' q member
    have member' : q ∈ M.queue ((s.setLock l k).locks l') := member
    by_cases same : q = p
    · subst same
      rw [setControl, setParty_self]
      by_cases here : l' = l
      · subst here
        exact ⟨i, _, rfl, at_⟩
      · rw [setLock_of_ne here] at member'
        exact absurd member' (running l')
    · rw [setControl, setParty_of_ne same]
      apply h.queued l' q
      by_cases here : l' = l
      · subst here
        rw [setLock_self, queue] at member'
        simpa [same] using member'
      · rwa [setLock_of_ne here] at member'
  · intro l'
    show (M.queue ((s.setLock l k).locks l')).Nodup
    by_cases here : l' = l
    · subst here
      rw [setLock_self, queue, List.nodup_append]
      refine ⟨h.nodup l', by simp, ?_⟩
      intro a member b last
      rw [List.mem_singleton.mp last]
      rintro rfl
      exact running l' member
    · rw [setLock_of_ne here]
      exact h.nodup l'

theorem Kept.step {action : BatchAction ι} (h : s.Kept M)
    (action_ : Parties.step M s action = some t) : t.Kept M := by
  cases action with
  | lockRange p locks =>
      simp only [Parties.step] at action_
      split at action_
      · rename_i control
        cases action_
        have before := h.follows p
        rw [control] at before
        have nothing : M.view p s.locks = 0 := before
        refine h.of_frames (h.running (by simp [control])) h.frames_refl ?_
        rw [nothing]
        exact meets_lockRange
      · cases action_
  | call p throws =>
      simp only [Parties.step] at action_
      split at action_
      · rename_i o next control
        obtain ⟨⟨result, t⟩, called, rfl⟩ := Option.map_eq_some_iff.mp action_
        exact h.of_program control (fun _ _ _ => Control.noConfusion) (fun _ _ => Iff.rfl) called
      · rename_i o next control
        obtain ⟨⟨result, t⟩, called, rfl⟩ := Option.map_eq_some_iff.mp action_
        exact h.of_program control (fun _ _ _ => Control.noConfusion) (fun _ _ => Iff.rfl) called
      · cases action_
  | suspend p =>
      simp only [Parties.step] at action_
      split at action_
      · rename_i i next control
        exact h.suspend control action_
      · cases action_
  | retry p =>
      simp only [Parties.step] at action_
      split at action_
      · rename_i label control
        cases action_
        have before := h.follows p
        rw [control] at before
        exact h.of_control (by simp [control]) (meets_retry _ _ before)
      · cases action_
  | finish p =>
      simp only [Parties.step] at action_
      split at action_
      · rename_i control
        cases action_
        have before := h.follows p
        rw [control] at before
        exact h.of_control (by simp [control]) before
      · rename_i control
        cases action_
        have before := h.follows p
        rw [control] at before
        exact h.of_control (by simp [control]) before
      · rename_i result control
        cases action_
        have before := h.follows p
        rw [control] at before
        cases result with
        | returned value => exact h.of_control (by simp [control]) before
        | raised => exact False.elim before
      · cases action_
  | unlockLocks p =>
      simp only [Parties.step] at action_
      split at action_
      · rename_i control
        cases action_
        have before := h.follows p
        rw [control] at before
        apply h.of_control (by simp [control])
        rw [before]
        exact meets_release
      · cases action_

theorem kept_of_reachable (reachable : (system ι M).Reachable s) : s.Kept M := by
  induction reachable with
  | init =>
      constructor
      · intro p
        funext l
        exact M.free_holds p
      · intro l p member
        rw [show M.queue ((system ι M).init.locks l) = [] from M.free_queue] at member
        exact absurd member List.not_mem_nil
      · intro l
        rw [show M.queue ((system ι M).init.locks l) = [] from M.free_queue]
        exact List.nodup_nil
  | step _ _ action ih => exact ih.step action

theorem Kept.empty_handed {l : ι} (h : s.Kept M) (wants : s.Wants M p l) (l' : ι) :
    M.holds (s.locks l') p = 0 := by
  have before := h.follows p
  unfold Wants at wants
  split at wants
  · rename_i control
    rw [control] at before
    exact congrFun before.1.2 l'
  · rename_i control
    rw [control] at before
    exact congrFun before.1 l'
  · exact False.elim wants

structure HoldAndWaitFree (M : LockModel κ) (s : Parties ι κ) : Prop where
  blocked : ∀ p l, s.Wants M p l → ∀ l', M.holds (s.locks l') p = 0
  acyclic : ¬ (s.contention M).Deadlocked

theorem Kept.holdAndWaitFree (h : s.Kept M) : s.HoldAndWaitFree M where
  blocked _ _ := h.empty_handed
  acyclic := Contention.not_deadlocked_of_empty_handed fun _ _ l' wants held =>
    Nat.ne_of_gt held (h.empty_handed wants l')

theorem hold_and_wait_free (ι : Type) [DecidableEq ι] :
    (∀ s, (system ι spinlock).Reachable s → s.HoldAndWaitFree spinlock) ∧
    ∀ s, (system ι mutex).Reachable s → s.HoldAndWaitFree mutex :=
  ⟨fun _ reachable => (kept_of_reachable reachable).holdAndWaitFree,
    fun _ reachable => (kept_of_reachable reachable).holdAndWaitFree⟩

def waitsIn (s : Parties ι κ) (p : Nat) : Bool :=
  match (s.parties p).control with
  | .suspended _ _ => true
  | _ => false

/-- Two parties with opposite lists: the first waits for the lock of the second, empty-handed. -/
theorem hold_and_wait_free_opposite : ∃ s : Parties Nat OwnedMutex, (system Nat mutex).Reachable s ∧
    s.waitsIn 0 = true ∧ s.HoldAndWaitFree mutex := by
  obtain ⟨s, reachable, waits⟩ := (system Nat mutex).reachable_of_replay
    [.lockRange 0 [0, 1], .lockRange 1 [1, 0], .retry 0, .retry 1, .call 0 false, .call 1 false,
      .call 0 false, .call 0 false, .call 0 false, .suspend 0] (fun s => s.waitsIn 0) (by decide)
  exact ⟨s, reachable, waits, (hold_and_wait_free Nat).2 s reachable⟩

end Parties

end Librf.Batch
