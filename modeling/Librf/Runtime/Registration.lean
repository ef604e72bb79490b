import Librf.Runtime.Tasks

/-!
# `go` of an awaitable's future while it is completed

The steps that `new_task` and a `set_value` or `set_exception` in another thread make on one state,
which has number 0 here. `_scheduler` is written without a lock; the completion holds `_mtx` from
`assign` to `notify`.
-/

namespace Librf

inductive NewTask
  | notCalled
  -- behind `set_scheduler`
  | scheduled (sch : Nat)
  -- behind the insertion into `_ready_task`
  | inserted (sch : Nat)
  | returned (sch : Nat)
  deriving DecidableEq, Repr

inductive Completion
  | notCalled
  -- behind `get_scheduler`
  | assigned (found : Option Nat)
  | returned
  deriving DecidableEq, Repr

inductive RegistrationAction (α ε : Type*)
  | setScheduler (sch : Nat)
  | insert
  | testHandler
  -- `root` is the scheduler of the root above `_parent`
  | assign (kind : Kind) (o : Outcome α ε) (root : Option Nat)
  | notify
  -- `co_await` of the future
  | transform (sch : Option Nat)
  | suspend (handler : Nat) (sch : Option Nat)
  | resume
  deriving DecidableEq, Repr

structure Registration (α ε : Type*) where
  state : FutureState α ε := { isFuture := false }
  schedulers : Schedulers := fun _ => {}
  newTask : NewTask := .notCalled
  completion : Completion := .notCalled

namespace Registration

variable {α ε : Type*}

def locked (s : Registration α ε) : Bool :=
  match s.completion with
  | .assigned _ => true
  | .notCalled | .returned => false

def assign (s : Registration α ε) (kind : Kind) (o : Outcome α ε) (root : Option Nat) :
    Registration α ε :=
  let st := s.state.assign kind o
  { s with state := st, completion := .assigned (st.getScheduler root) }

def notify (s : Registration α ε) (found : Option Nat) : Registration α ε :=
  { s with
    completion := .returned
    schedulers := match found with
      | some sch =>
          if s.state.hasHandlerSkipLock then s.schedulers.addGenerator sch 0
          else s.schedulers.delFinal sch 0
      | none => s.schedulers }

def suspend (s : Registration α ε) (handler : Nat) (sch : Option Nat) : Registration α ε :=
  let updated := s.state.futureAwaitSuspend none handler sch
  { s with state := updated.1, schedulers := updated.2.foldl (Schedulers.call 0) s.schedulers }

def step (s : Registration α ε) : RegistrationAction α ε → Option (Registration α ε)
  | .setScheduler sch => match s.newTask with
      | .notCalled => some
          { s with state := { s.state with scheduler := some sch }, newTask := .scheduled sch }
      | _ => none
  | .insert => match s.newTask with
      | .scheduled sch => some
          { s with schedulers := s.schedulers.emplace sch 0, newTask := .inserted sch }
      | _ => none
  | .testHandler => match s.newTask with
      | .inserted sch =>
          if s.locked then none
          else some { s with
            newTask := .returned sch
            schedulers := if s.state.hasHandlerSkipLock then s.schedulers.addGenerator sch 0
              else s.schedulers }
      | _ => none
  | .assign kind o root => match s.completion with
      | .notCalled => some (s.assign kind o root)
      | _ => none
  | .notify => match s.completion with
      | .assigned found => some (s.notify found)
      | _ => none
  | .transform sch => some { s with state := { s.state with scheduler := sch } }
  | .suspend handler sch => if s.locked then none else some (s.suspend handler sch)
  | .resume => if s.locked then none else some { s with state := s.state.resume.2 }

def system (α ε : Type*) : Transition.System (Registration α ε) (RegistrationAction α ε) where
  init := {}
  step := step

variable {s t : Registration α ε}

/-- The two steps of the completion, one behind the other. -/
theorem notify_assign (kind : Kind) (o : Outcome α ε) (root : Option Nat) :
    ((s.assign kind o root).notify ((s.state.assign kind o).getScheduler root)).schedulers =
      (s.state.complete kind o root).2.foldl (Schedulers.call 0) s.schedulers := by
  have same : (s.state.assign kind o).getScheduler root = s.state.getScheduler root := by
    simp [FutureState.getScheduler]
  have handler : (s.state.assign kind o).hasHandlerSkipLock = s.state.hasHandlerSkipLock := by
    simp [FutureState.hasHandlerSkipLock]
  simp only [notify, assign, same, handler, FutureState.complete_calls]
  cases s.state.getScheduler root with
  | none => rfl
  | some sch =>
      dsimp only
      split <;> rfl

/-- The entry that `go` has inserted. -/
def entry (s : Registration α ε) : Option Nat :=
  match s.newTask with
  | .inserted sch | .returned sch => some sch
  | .notCalled | .scheduled _ => none

def listed (s : Registration α ε) (x : Nat) : Bool := s.schedulers.ready x 0

theorem suspend_listed (handler : Nat) (sch : Option Nat) (s : Registration α ε) :
    (s.suspend handler sch).listed = s.listed := by
  have calls : ∀ (calls : List Call) (x : Schedulers), (∀ c ∈ calls, ∃ y, c = .addGenerator y) →
      ∀ home, Schedulers.ready (calls.foldl (Schedulers.call 0) x) home 0 = x.ready home 0 := by
    intro calls
    induction calls with
    | nil => exact fun _ _ _ => rfl
    | cons c rest ih =>
        intro x all home
        obtain ⟨y, rfl⟩ := all c List.mem_cons_self
        rw [List.foldl_cons, ih _ (fun d member => all d (List.mem_cons_of_mem _ member))]
        exact Schedulers.ready_addGenerator ..
  funext home
  apply calls
  intro c member
  cases sch with
  | none => simp [FutureState.futureAwaitSuspend] at member
  | some y =>
      rw [FutureState.futureAwaitSuspend_calls] at member
      split at member
      · exact ⟨y, List.mem_singleton.1 member⟩
      · cases member

theorem step_listed {action : RegistrationAction α ε} (h : s.step action = some t) :
    (∃ sch, s.entry = none ∧ t.entry = some sch ∧ t.completion = s.completion ∧
      t.schedulers = s.schedulers.emplace sch 0) ∨
    (∃ found, action = .notify ∧ s.completion = .assigned found ∧ t = s.notify found) ∨
    (t.listed = s.listed ∧ t.entry = s.entry ∧ (t.completion = s.completion ∨
      s.completion = .notCalled ∧ ∃ kind o root, action = .assign kind o root ∧
        t.completion = .assigned (s.state.getScheduler root))) := by
  cases action with
  | setScheduler sch =>
      simp only [step] at h
      split at h
      · rename_i before
        cases h
        exact .inr (.inr ⟨rfl, by simp [entry, before], .inl rfl⟩)
      · cases h
  | insert =>
      simp only [step] at h
      split at h
      · rename_i sch before
        cases h
        exact .inl ⟨sch, by simp [entry, before], rfl, rfl, rfl⟩
      · cases h
  | testHandler =>
      simp only [step] at h
      split at h
      · rename_i sch before
        split at h
        · cases h
        · cases h
          refine .inr (.inr ⟨?_, by simp [entry, before], .inl rfl⟩)
          funext x
          by_cases handler : s.state.hasHandlerSkipLock = true <;> simp [listed, handler]
      · cases h
  | assign kind o root =>
      simp only [step] at h
      split at h
      · rename_i before
        cases h
        exact .inr (.inr ⟨rfl, rfl, .inr ⟨before, kind, o, root, rfl, by
          simp [assign, FutureState.getScheduler]⟩⟩)
      · cases h
  | notify =>
      simp only [step] at h
      split at h
      · rename_i found before
        cases h
        exact .inr (.inl ⟨found, rfl, before, rfl⟩)
      · cases h
  | transform sch =>
      cases h
      exact .inr (.inr ⟨rfl, rfl, .inl rfl⟩)
  | suspend handler sch =>
      simp only [step] at h
      split at h
      · cases h
      · cases h
        exact .inr (.inr ⟨suspend_listed handler sch s, rfl, .inl rfl⟩)
  | resume =>
      simp only [step] at h
      split at h
      · cases h
      · cases h
        exact .inr (.inr ⟨rfl, rfl, .inl rfl⟩)

theorem emplace_listed {sch : Nat} (schedulers : t.schedulers = s.schedulers.emplace sch 0)
    (x : Nat) : t.listed x = if x = sch then true else s.listed x := by
  rw [listed, schedulers, Schedulers.ready_emplace_eq]
  split
  · rename_i here
    simp [here]
  · rename_i away
    rw [decide_eq_false away]
    rfl

structure Good (s : Registration α ε) : Prop where
  only : ∀ x, s.listed x = true → s.entry = some x
  kept : s.completion ≠ .returned → ∀ x, s.entry = some x → s.listed x = true

theorem notify_listed (s : Registration α ε) (found : Option Nat) (x : Nat) :
    (s.notify found).listed x =
      (s.listed x && !(decide (found = some x) && !s.state.hasHandlerSkipLock)) := by
  cases found with
  | none => simp [listed, notify]
  | some sch =>
      by_cases handler : s.state.hasHandlerSkipLock = true
      · simp [listed, notify, handler]
      · by_cases here : x = sch <;>
          simp [listed, notify, handler, Schedulers.ready_delFinal_self, here, eq_comm]

theorem Good.step (good : s.Good) {action : RegistrationAction α ε} (h : s.step action = some t) :
    t.Good := by
  rcases step_listed h with ⟨sch, before, after, completion, schedulers⟩ | ⟨found, -, -, rfl⟩ |
    ⟨same, entry, completion⟩
  · have listed := emplace_listed schedulers
    constructor
    · intro x member
      by_cases here : x = sch
      · rw [here, after]
      · rw [listed, if_neg here] at member
        have := good.only x member
        rw [before] at this
        cases this
    · intro _ x here
      rw [after] at here
      rw [listed, if_pos (Option.some.inj here).symm]
  · constructor
    · intro x member
      rw [notify_listed, Bool.and_eq_true] at member
      exact good.only x member.1
    · exact fun pending => absurd rfl pending
  · constructor
    · rw [same, entry]
      exact good.only
    · rw [same, entry]
      intro pending
      apply good.kept
      rcases completion with completion | ⟨before, -⟩
      · rwa [completion] at pending
      · simp [before]

theorem good_of_reachable (reachable : (system α ε).Reachable s) : s.Good := by
  have inductive_ : (system α ε).Inductive (fun _ _ => True) Good := by
    refine ⟨⟨fun x member => ?_, fun _ x here => ?_⟩, fun _ _ _ _ good _ h => good.step h⟩
    · cases member
    · cases here
  exact inductive_.holds reachable

/-! ### Runs -/

/-- A run to `last` whose completion reads the scheduler in `x` and goes on in `y`. -/
structure CompletedRun (x : Registration α ε) (root : Option Nat) (y last : Registration α ε) :
    Prop where
  reachable : (system α ε).Reachable x
  read : ∃ kind o t between, x.step (.assign kind o root) = some t ∧
    (system α ε).replay t between = some y
  notify : ∃ t after, y.step .notify = some t ∧ (system α ε).replay t after = some last

/-- The completion finds what `go` has written and the entry that `go` has inserted, and no
coroutine in the state. -/
def Erases (x : Registration α ε) (root : Option Nat) (y : Registration α ε) : Prop :=
  ∃ sch, x.state.getScheduler root = some sch ∧ y.entry = some sch ∧
    y.state.hasHandlerSkipLock = false

theorem assigned_step {found : Option Nat} {action : RegistrationAction α ε}
    (before : s.completion = .assigned found ∨ s.completion = .returned)
    (h : s.step action = some t) :
    t.completion = .assigned found ∨ t.completion = .returned := by
  rcases step_listed h with ⟨-, -, -, same, -⟩ | ⟨-, -, -, rfl⟩ | ⟨-, -, same | ⟨other, -⟩⟩
  · rwa [same]
  · exact .inr rfl
  · rwa [same]
  · simp [other] at before

theorem returned_step {action : RegistrationAction α ε} (before : s.completion = .returned)
    (h : s.step action = some t) : t.completion = .returned ∧
      (t.listed = s.listed ∧ t.entry = s.entry ∨
        s.entry = none ∧ ∀ x, t.entry = some x → t.listed x = true) := by
  rcases step_listed h with ⟨sch, none, after, same, schedulers⟩ | ⟨found, -, assigned, -⟩ |
    ⟨listed, entry, same | ⟨other, -⟩⟩
  · refine ⟨same.trans before, .inr ⟨none, fun x here => ?_⟩⟩
    rw [after] at here
    rw [emplace_listed schedulers, if_pos (Option.some.inj here).symm]
  · rw [before] at assigned
    cases assigned
  · exact ⟨same.trans before, .inl ⟨listed, entry⟩⟩
  · rw [before] at other
    cases other

theorem CompletedRun.found {x y last : Registration α ε} {root : Option Nat}
    (run : CompletedRun x root y last) : (system α ε).Reachable y ∧
      y.completion = .assigned (x.state.getScheduler root) ∧ y.step .notify =
        some (y.notify (x.state.getScheduler root)) := by
  obtain ⟨kind, o, t, between, read, first⟩ := run.read
  obtain ⟨u, after, notify, -⟩ := run.notify
  have at_t : (system α ε).Reachable t := run.reachable.next (.assign kind o root) read trivial
  have begins : t.completion = .assigned (x.state.getScheduler root) := by
    simp only [step] at read
    split at read
    · cases read
      simp [assign, FutureState.getScheduler]
    · cases read
  have ends := Transition.System.Reachable.keeps at_t first (.inl begins)
    (fun _ _ _ _ before h => assigned_step before h)
  have assigned : y.completion = .assigned (x.state.getScheduler root) := by
    refine ends.resolve_right fun returned => ?_
    simp [step, returned] at notify
  exact ⟨at_t.replay first, assigned, by simp [step, assigned]⟩

theorem replay_snoc {u : Registration α ε} {events : List (RegistrationAction α ε)}
    {action : RegistrationAction α ε} (run : (system α ε).replay u events = some s)
    (h : s.step action = some t) : (system α ε).replay u (events ++ [action]) = some t := by
  rw [Transition.System.replay_append, run]
  simp [Transition.System.replay, system, h]

theorem origin_of_reachable (reachable : (system α ε).Reachable s) :
    (∀ found, s.completion = .assigned found → ∃ x root kind o t between,
      (system α ε).Reachable x ∧ x.step (.assign kind o root) = some t ∧
        (system α ε).replay t between = some s) ∧
    (s.completion = .returned → ∃ x root y, CompletedRun x root y s) := by
  induction reachable with
  | init =>
      constructor
      · intro found here
        cases here
      · intro here
        cases here
  | @step s t action reached _ h ih =>
      have h : s.step action = some t := h
      obtain ⟨reading, notified⟩ := ih
      have carry (same : t.completion = s.completion) :
          (∀ found, t.completion = .assigned found → ∃ x root kind o u between,
            (system α ε).Reachable x ∧ x.step (.assign kind o root) = some u ∧
              (system α ε).replay u between = some t) ∧
          (t.completion = .returned → ∃ x root y, CompletedRun x root y t) := by
        rw [same]
        constructor
        · intro found here
          obtain ⟨x, root, kind, o, u, between, at_x, read, run⟩ := reading found here
          exact ⟨x, root, kind, o, u, _, at_x, read, replay_snoc run h⟩
        · intro here
          obtain ⟨x, root, y, at_x, read, u, after, notify, run⟩ := notified here
          exact ⟨x, root, y, at_x, read, u, _, notify, replay_snoc run h⟩
      rcases step_listed h with ⟨-, -, -, same, -⟩ | ⟨found, rfl, assigned, rfl⟩ |
        ⟨-, -, same | ⟨-, kind, o, root, rfl, after⟩⟩
      · exact carry same
      · constructor
        · intro other here
          cases here
        · intro _
          obtain ⟨x, root, kind, o, u, between, at_x, read, run⟩ := reading found assigned
          exact ⟨x, root, s, at_x, ⟨kind, o, u, between, read, run⟩, _, [], h, rfl⟩
      · exact carry same
      · constructor
        · intro found _
          exact ⟨s, root, kind, o, t, [], reached, h, rfl⟩
        · intro here
          rw [after] at here
          cases here

theorem CompletedRun.gone_iff {x y last : Registration α ε} {root : Option Nat}
    (run : CompletedRun x root y last) {sch : Nat} (went : last.entry = some sch) :
    (∀ z, last.listed z = false) ↔ Erases x root y := by
  obtain ⟨at_y, assigned, notified⟩ := run.found
  obtain ⟨t, after, notify, behind⟩ := run.notify
  have good := good_of_reachable at_y
  have pending : y.completion ≠ .returned := by simp [assigned]
  have at_t : (system α ε).Reachable t := at_y.next .notify notify trivial
  obtain rfl : y.notify (x.state.getScheduler root) = t :=
    Option.some.inj (notified.symm.trans notify)
  cases inserted : y.entry with
  | none =>
      -- The entry comes behind the completion.
      have begins : (y.notify (x.state.getScheduler root)).completion = .returned ∧
          ∀ z, (y.notify (x.state.getScheduler root)).entry = some z →
            (y.notify (x.state.getScheduler root)).listed z = true := by
        refine ⟨rfl, fun z here => ?_⟩
        have here : y.entry = some z := here
        rw [inserted] at here
        cases here
      have ends := at_t.keeps (I := fun u => u.completion = .returned ∧
        ∀ z, u.entry = some z → u.listed z = true) behind begins (fun u action v _ before h => by
          obtain ⟨returned, ⟨listed, entry⟩ | ⟨-, late⟩⟩ := returned_step before.1 h
          · exact ⟨returned, by rw [listed, entry]; exact before.2⟩
          · exact ⟨returned, late⟩)
      constructor
      · intro gone
        have listed := ends.2 sch went
        rw [gone sch] at listed
        cases listed
      · rintro ⟨own, -, entry, -⟩
        rw [inserted] at entry
        cases entry
  | some own =>
      have begins : (y.notify (x.state.getScheduler root)).completion = .returned ∧
          (y.notify (x.state.getScheduler root)).entry = some own ∧
          (y.notify (x.state.getScheduler root)).listed =
            (y.notify (x.state.getScheduler root)).listed := ⟨rfl, inserted, rfl⟩
      have ends := at_t.keeps (I := fun u => u.completion = .returned ∧ u.entry = some own ∧
        u.listed = (y.notify (x.state.getScheduler root)).listed) behind begins
        (fun u action v _ before h => by
          obtain ⟨returned, ⟨listed, entry⟩ | ⟨none, -⟩⟩ := returned_step before.1 h
          · exact ⟨returned, entry.trans before.2.1, listed.trans before.2.2⟩
          · rw [before.2.1] at none
            cases none)
      rw [ends.2.2]
      constructor
      · intro gone
        have here := gone own
        rw [notify_listed, good.kept pending own inserted] at here
        simp only [Bool.true_and, Bool.not_eq_false', Bool.and_eq_true, decide_eq_true_eq,
          Bool.not_eq_true'] at here
        exact ⟨own, here.1, inserted, here.2⟩
      · rintro ⟨other, found, entry, handler⟩ z
        obtain rfl := Option.some.inj (inserted.symm.trans entry)
        rw [notify_listed, found, handler]
        cases listed : y.listed z with
        | false => rfl
        | true =>
            have here := good.only z listed
            rw [inserted] at here
            simp [Option.some.inj here]

/-- The entry of a future is gone, once `go` has returned and the completion too, exactly if the
completion has found it. -/
theorem entry_gone_iff {last : Registration α ε} (reachable : (system α ε).Reachable last) {sch : Nat}
    (went : last.newTask = .returned sch) (completed : last.completion = .returned) :
    (∃ x root y, CompletedRun x root y last) ∧
      ∀ x root y, CompletedRun x root y last →
        ((∀ z, 0 ∉ (last.schedulers z).readyTask) ↔ Erases x root y) := by
  refine ⟨(origin_of_reachable reachable).2 completed, fun x root y run => ?_⟩
  have entered : last.entry = some sch := by simp [entry, went]
  rw [← run.gone_iff entered]
  simp [listed, Schedulers.ready]

/-- `set_value` behind `go`. -/
theorem entry_gone_iff_behind : ∃ s : Registration Unit Unit, (system Unit Unit).Reachable s ∧
    s.newTask = .returned 0 ∧ s.completion = .returned ∧ ∃ x root y, CompletedRun x root y s ∧
      ((∀ z, 0 ∉ (s.schedulers z).readyTask) ↔ Erases x root y) := by
  obtain ⟨s, reachable, test⟩ := Transition.System.reachable_of_replay (M := system Unit Unit)
    [.setScheduler 0, .insert, .testHandler, .assign .unit (.value ()) none, .notify]
    (fun s => s.newTask = .returned 0 ∧ s.completion = .returned) (by decide)
  obtain ⟨went, completed⟩ := of_decide_eq_true test
  obtain ⟨⟨x, root, y, run⟩, gone⟩ := entry_gone_iff reachable went completed
  exact ⟨s, reachable, went, completed, x, root, y, run, gone x root y run⟩

/-- `set_value` before `go`. -/
theorem entry_left_before : ∃ s : Registration Unit Unit, (system Unit Unit).Reachable s ∧
    s.newTask = .returned 0 ∧ s.completion = .returned ∧ 0 ∈ (s.schedulers 0).readyTask := by
  obtain ⟨s, reachable, test⟩ := Transition.System.reachable_of_replay (M := system Unit Unit)
    [.assign .unit (.value ()) none, .notify, .setScheduler 0, .insert, .testHandler]
    (fun s => s.newTask = .returned 0 ∧ s.completion = .returned ∧ 0 ∈ (s.schedulers 0).readyTask)
    (by decide)
  exact ⟨s, reachable, of_decide_eq_true test⟩

end Registration

end Librf
