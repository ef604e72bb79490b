import Librf.Base.Ledger
import Librf.Timer.Runs

/-!
# Callbacks that call the manager

A callback may call `add`, `stop`, `clear` and `empty` of the manager whose loop has called it. The
loops that wait for a callback to return are kept innermost first.
-/

namespace Librf

def TimerSection.isFiring : TimerSection → Bool
  | .firing _ _ _ => true
  | _ => false

def TimerSection.isUpdate : TimerSection → Bool
  | .moving _ _ | .firing _ _ _ => true
  | _ => false

/-- The timers that a loop has moved out of the containers. -/
def TimerSection.rests : TimerSection → List Nat
  | .moving _ rest | .clearingAdded _ rest => rest
  | .clearingRuning _ rest => rest.map Prod.snd
  | _ => []

def TimerCause.firedBy (update : Nat) : TimerCause → Bool
  | .fired number _ => number == update
  | _ => false

def TimerManager.empty (s : TimerManager) : Bool := s.runingTimers.isEmpty && s.addedTimers.isEmpty

/-- The timers called by the second loop of the last `update`. -/
def TimerManager.visitedTimers (s : TimerManager) : List Nat :=
  (s.calls.filter (·.cause.firedBy s.updates)).map (·.timer)

structure TimerCallback where
  timer : Nat
  -- the loop that has called it, which is to take its next turn
  caller : TimerSection
  -- `_runing_timers` at the call
  map : List (Int × Nat)
  deriving DecidableEq, Repr

inductive TimerEvent
  | action (action : TimerAction)
  | empty
  | returns
  deriving DecidableEq, Repr

structure TimerCallbacks where
  manager : TimerManager := {}
  callbacks : List TimerCallback := []
  -- `update` has gone on from an entry that is not in the map
  dangling : Bool := false

namespace TimerCallbacks

/-- A turn stops where it calls a callback. -/
def turn (s : TimerCallbacks) (action : TimerAction) : Option TimerCallbacks :=
  (s.manager.step action).map fun after =>
    match (after.calls.drop s.manager.calls.length).head? with
    | none => { s with manager := after }
    | some call => { s with
        manager := { after with timerSection := .idle }
        callbacks := ⟨call.timer, after.timerSection, after.runingTimers⟩ :: s.callbacks }

def step (s : TimerCallbacks) (event : TimerEvent) : Option TimerCallbacks :=
  if s.dangling then none
  else match event with
    | .action .update => if s.callbacks = [] then s.turn .update else none
    | .action (.add tp) => if s.manager.timerSection = .idle then s.turn (.add tp) else none
    | .action (.stop t) => if s.manager.timerSection = .idle then s.turn (.stop t) else none
    | .action action => s.turn action
    | .empty => if s.manager.timerSection = .idle then some s else none
    | .returns => match s.callbacks with
        | [] => none
        | callback :: rest =>
            if s.manager.timerSection = .idle then some {
              manager := { s.manager with timerSection := callback.caller }
              callbacks := rest
              dangling := callback.caller.isFiring &&
                !(s.manager.runingTimers.map Prod.snd).contains callback.timer }
            else none

def system : Transition.System TimerCallbacks TimerEvent where
  init := {}
  step := step

def callers (s : TimerCallbacks) : List TimerSection := s.callbacks.map (·.caller)

def loops (s : TimerCallbacks) : List TimerSection :=
  if s.manager.timerSection = .idle then s.callers else s.manager.timerSection :: s.callers

end TimerCallbacks

namespace TimerManager

def visited : List TimerSection → Nat
  | [] => 0
  | .firing _ _ iter :: _ => iter
  | _ :: rest => visited rest

def pending (m : TimerManager) (loops : List TimerSection) : List Nat :=
  m.addedTimers ++ loops.flatMap TimerSection.rests ++
    (m.runingTimers.drop (visited loops)).map Prod.snd

structure Nested (m : TimerManager) (loops : List TimerSection) : Prop where
  once : Ledger.Once (m.calls.map (·.timer) ++ m.pending loops) m.created
  has : ∀ x ∈ m.pending loops, (m.targets x).cb = true
  sorted : m.runingTimers.Pairwise fun a b => a.1 ≤ b.1
  outer : ∀ l ∈ loops.tail, l.isFiring = false
  bottom : ∀ l ∈ loops.dropLast, l.isUpdate = false
  numbered : ∀ c ∈ m.calls, ∀ number now, c.cause = .fired number now → number ≤ m.updates
  moving : ∀ older rest, .moving older rest ∈ loops → m.visitedTimers = []
  firing : ∀ older now iter, .firing older now iter ∈ loops → iter ≤ m.runingTimers.length ∧
    m.visitedTimers = (m.runingTimers.take iter).map Prod.snd ∧
    ∀ e ∈ m.runingTimers.take iter, e.1 ≤ now

variable {m t : TimerManager} {loops rest : List TimerSection} {loop : TimerSection}

theorem visited_of_quiet (quiet : ∀ l ∈ loops, l.isFiring = false) : visited loops = 0 := by
  induction loops with
  | nil => rfl
  | cons l loops ih =>
      have first := quiet l List.mem_cons_self
      have later := ih fun x member => quiet x (List.mem_cons_of_mem _ member)
      cases l with
      | firing older now iter => cases first
      | _ => exact later

theorem not_firing_of_quiet (quiet : ∀ l ∈ loops, l.isFiring = false) {older iter : Nat} {now : Int} :
    .firing older now iter ∉ loops := by
  intro member
  have firing := quiet _ member
  cases firing

@[simp] theorem setTarget_updates (m : TimerManager) (x : Nat) (target : TimerTarget) :
    (m.setTarget x target).updates = m.updates := rfl

theorem setTarget_cb (m : TimerManager) (x : Nat) (st : TimerState) (y : Nat) :
    ((m.setTarget x { m.targets x with st }).targets y).cb = (m.targets y).cb := by
  by_cases self : y = x
  · subst self
    rw [setTarget_self]
  · rw [setTarget_other self]

theorem visitedTimers_call {x : Nat} (has : (m.targets x).cb = true) (canceled : Bool)
    (cause : TimerCause) : (m.callTarget x canceled cause).visitedTimers =
      m.visitedTimers ++ if cause.firedBy m.updates then [x] else [] := by
  rw [callTarget_eq has, visitedTimers, List.filter_append, List.map_append]
  congr 1
  cases same : cause.firedBy m.updates <;> simp [same]

theorem insert_ascending (tp : Int) (x : Nat) {entries : List (Int × Nat)}
    (sorted : entries.Pairwise fun a b => a.1 ≤ b.1) :
    (TimerManager.insert tp x entries).Pairwise fun a b => a.1 ≤ b.1 := by
  induction entries with
  | nil => exact List.pairwise_singleton ..
  | cons e rest ih =>
      obtain ⟨head, tail⟩ := List.pairwise_cons.1 sorted
      rw [TimerManager.insert]
      split
      · rename_i le
        refine List.pairwise_cons.2 ⟨fun y member => ?_, ih tail⟩
        rcases List.mem_cons.1 ((insert_perm tp x rest).mem_iff.1 member) with rfl | behind
        · exact le
        · exact head y behind
      · rename_i gt
        refine List.pairwise_cons.2 ⟨fun y member => ?_, sorted⟩
        rcases List.mem_cons.1 member with rfl | behind
        · exact Int.le_of_lt (Int.not_le.1 gt)
        · exact Int.le_trans (Int.le_of_lt (Int.not_le.1 gt)) (head y behind)

theorem visited_of_clearing (clears : loop.isUpdate = false) :
    visited (loop :: rest) = visited rest := by
  cases loop with
  | firing older now iter => cases clears
  | _ => rfl

theorem bottom_cons (bottom : ∀ l ∈ loops.dropLast, l.isUpdate = false)
    (clears : loop.isUpdate = false) : ∀ l ∈ (loop :: loops).dropLast, l.isUpdate = false := by
  intro l member
  cases loops with
  | nil => simp at member
  | cons first others =>
      rcases List.mem_cons.1 member with rfl | behind
      · exact clears
      · exact bottom l behind

theorem mem_of_clearing {l : TimerSection} (member : l ∈ loop :: rest) (clears : loop.isUpdate = false)
    (updates : l.isUpdate = true) : l ∈ rest := by
  rcases List.mem_cons.1 member with rfl | behind
  · rw [clears] at updates
    cases updates
  · exact behind

namespace Nested

theorem initial : Nested {} [] := by
  refine ⟨.nil, ?_, .nil, ?_, ?_, ?_, ?_, ?_⟩ <;> simp [pending, visited]

theorem transfer (nested : Nested m loops) {later : List TimerSection}
    (targets : t.targets = m.targets) (created : t.created = m.created)
    (calls : t.calls = m.calls) (updates : t.updates = m.updates)
    (same : (t.pending later).Perm (m.pending loops))
    (sorted : t.runingTimers.Pairwise fun a b => a.1 ≤ b.1)
    (outer : ∀ l ∈ later.tail, l.isFiring = false)
    (bottom : ∀ l ∈ later.dropLast, l.isUpdate = false)
    (moving : ∀ older rest, .moving older rest ∈ later → m.visitedTimers = [])
    (firing : ∀ older now iter, .firing older now iter ∈ later → iter ≤ t.runingTimers.length ∧
      m.visitedTimers = (t.runingTimers.take iter).map Prod.snd ∧
      ∀ e ∈ t.runingTimers.take iter, e.1 ≤ now) : Nested t later := by
  have visits : t.visitedTimers = m.visitedTimers := by
    rw [visitedTimers, visitedTimers, calls, updates]
  constructor
  · rw [calls, created]
    exact nested.once.perm (same.append_left _)
  · intro x member
    rw [targets]
    exact nested.has x (same.mem_iff.1 member)
  · exact sorted
  · exact outer
  · exact bottom
  · rw [calls, updates]
    exact nested.numbered
  · rwa [visits]
  · rwa [visits]

theorem withSection (nested : Nested m loops) (timerSection : TimerSection) :
    Nested { m with timerSection } loops :=
  ⟨nested.once, nested.has, nested.sorted, nested.outer, nested.bottom, nested.numbered,
    nested.moving, nested.firing⟩

theorem quiet (nested : Nested m (loop :: rest)) : ∀ l ∈ rest, l.isFiring = false := nested.outer

theorem tail (nested : Nested m (loop :: rest)) : ∀ l ∈ rest.tail, l.isFiring = false :=
  fun l member => nested.outer l (List.mem_of_mem_tail member)

theorem alone (nested : Nested m (loop :: rest)) (updates : loop.isUpdate = true) : rest = [] := by
  by_contra others
  have quiet := nested.bottom loop (by simp [List.dropLast_cons_of_ne_nil others])
  rw [updates] at quiet
  cases quiet

theorem under (nested : Nested m (loop :: rest)) : ∀ l ∈ rest.dropLast, l.isUpdate = false := by
  intro l member
  have others : rest ≠ [] := by
    rintro rfl
    simp at member
  apply nested.bottom
  rw [List.dropLast_cons_of_ne_nil others]
  exact List.mem_cons_of_mem _ member

theorem call {later : List TimerSection} {x : Nat} {canceled : Bool} {cause : TimerCause}
    (nested : Nested m loops) (leaves : (m.pending loops).Perm (x :: m.pending later))
    (number : ∀ n now, cause = .fired n now → n ≤ m.updates)
    (outer : ∀ l ∈ later.tail, l.isFiring = false)
    (bottom : ∀ l ∈ later.dropLast, l.isUpdate = false)
    (moving : ∀ older rest, .moving older rest ∈ later →
      (m.callTarget x canceled cause).visitedTimers = [])
    (firing : ∀ older now iter, .firing older now iter ∈ later → iter ≤ m.runingTimers.length ∧
      (m.callTarget x canceled cause).visitedTimers = (m.runingTimers.take iter).map Prod.snd ∧
      ∀ e ∈ m.runingTimers.take iter, e.1 ≤ now) :
    Nested (m.callTarget x canceled cause) later := by
  have has := nested.has x (leaves.mem_iff.2 List.mem_cons_self)
  rw [callTarget_eq has] at moving firing ⊢
  have gone : x ∉ m.pending later := by
    have once := (nested.once.perm (leaves.symm.append_left _)).nodup
    exact (List.nodup_cons.1 (List.nodup_append.1 once).2.1).1
  constructor
  · rw [List.map_append, List.append_assoc]
    exact nested.once.perm (leaves.symm.append_left _)
  · intro y member
    have other : y ≠ x := fun same => gone (same ▸ member)
    have waited := nested.has y (leaves.mem_iff.2 (List.mem_cons_of_mem _ member))
    exact (congrArg TimerTarget.cb (setTarget_other other _)).trans waited
  · exact nested.sorted
  · exact outer
  · exact bottom
  · intro c member
    rcases List.mem_append.1 member with before | last
    · exact nested.numbered c before
    · rw [List.mem_singleton] at last
      subst last
      exact number
  · exact moving
  · exact firing

theorem add (nested : Nested m loops) (tp : Int) : Nested (m.add tp) loops := by
  have waits : ((m.add tp).pending loops).Perm (m.pending loops ++ [m.created]) := by
    rw [List.perm_iff_count]
    intro x
    simp only [pending, TimerManager.add, setTarget, List.count_append]
    omega
  constructor
  · have once := nested.once.make
    rw [List.append_assoc] at once
    exact once.perm (waits.append_left _)
  · intro x member
    by_cases new : x = m.created
    · subst new
      exact congrArg TimerTarget.cb (setTarget_self ..)
    · refine (congrArg TimerTarget.cb (setTarget_other new _)).trans (nested.has x ?_)
      rcases List.mem_append.1 (waits.mem_iff.1 member) with before | last
      · exact before
      · exact absurd (List.mem_singleton.1 last) new
  · exact nested.sorted
  · exact nested.outer
  · exact nested.bottom
  · exact nested.numbered
  · exact nested.moving
  · exact nested.firing

theorem stop (nested : Nested m loops) (x : Nat) : Nested (m.stop x).2 loops := by
  by_cases finished : (m.targets x).st = .invalid
  · rwa [stop_false finished]
  · rw [stop_true finished]
    refine ⟨nested.once, ?_, nested.sorted, nested.outer, nested.bottom, nested.numbered, nested.moving,
      nested.firing⟩
    exact fun y member => (setTarget_cb m x .invalid y).trans (nested.has y member)

theorem beginUpdate (nested : Nested m []) :
    Nested m.beginUpdate [.moving m.created m.addedTimers] := by
  have fresh : m.beginUpdate.visitedTimers = [] := by
    simp only [visitedTimers, List.map_eq_nil_iff, List.filter_eq_nil_iff]
    intro c member fired
    cases cause : c.cause with
    | fired number now =>
        have bound := nested.numbered c member number now cause
        simp [cause, TimerCause.firedBy, TimerManager.beginUpdate] at fired
        omega
    | dropped => simp [cause, TimerCause.firedBy] at fired
    | cleared => simp [cause, TimerCause.firedBy] at fired
  have same : m.beginUpdate.pending [.moving m.created m.addedTimers] = m.pending [] := by
    simp [pending, TimerManager.beginUpdate, TimerSection.rests, visited]
  refine ⟨?_, ?_, nested.sorted, by simp, by simp, ?_, fun _ _ _ => fresh, ?_⟩
  · rw [same]
    exact nested.once
  · rw [same]
    exact nested.has
  · exact fun c member number now cause =>
      Nat.le_succ_of_le (nested.numbered c member number now cause)
  · intro older now iter member
    simp at member

theorem move {older x : Nat} {waiting : List Nat}
    (nested : Nested m (.moving older (x :: waiting) :: rest)) :
    Nested (m.move x) (.moving older waiting :: rest) := by
  obtain rfl := nested.alone rfl
  have unmoved := nested.moving _ _ List.mem_cons_self
  by_cases fresh : (m.targets x).st = .added
  · have moved : m.move x = { m.setTarget x { m.targets x with st := .runing } with
        runingTimers := TimerManager.insert (m.targets x).tp x m.runingTimers } := if_pos fresh
    have same : ((m.move x).pending [.moving older waiting]).Perm
        (m.pending [.moving older (x :: waiting)]) := by
      have inserted := (insert_perm (m.targets x).tp x m.runingTimers).map Prod.snd
      rw [List.perm_iff_count] at inserted ⊢
      intro y
      simp only [moved, pending, visited, setTarget, List.drop_zero, List.flatMap_cons,
        TimerSection.rests, List.count_append, inserted y, List.map_cons, List.count_cons]
      omega
    constructor
    · rw [moved] at same ⊢
      exact nested.once.perm (same.append_left _)
    · intro y member
      have waited := nested.has y (same.mem_iff.1 member)
      rw [moved]
      exact (setTarget_cb m x .runing y).trans waited
    · rw [moved]
      exact insert_ascending _ _ nested.sorted
    · exact nested.quiet
    · simp
    · rw [moved]
      exact nested.numbered
    · rw [moved]
      exact fun _ _ _ => unmoved
    · intro a b c member
      simp at member
  · have called : m.move x = m.callTarget x true .dropped := if_neg fresh
    have waits : x ∈ m.pending [.moving older (x :: waiting)] := by
      simp [pending, TimerSection.rests]
    rw [called]
    apply nested.call
    · rw [List.perm_iff_count]
      intro y
      simp only [pending, visited, List.flatMap_cons, TimerSection.rests, List.count_append,
        List.count_cons]
      omega
    · rintro n now ⟨⟩
    · exact nested.quiet
    · simp
    · intro _ _ _
      rw [visitedTimers_call (nested.has x waits), unmoved]
      rfl
    · intro a b c member
      simp at member

theorem clock {older : Nat} (nested : Nested m (.moving older [] :: rest)) (now : Int) :
    Nested m (.firing older now 0 :: rest) := by
  obtain rfl := nested.alone rfl
  refine nested.transfer rfl rfl rfl rfl ?_ nested.sorted nested.quiet (by simp) ?_ ?_
  · simp [pending, visited, TimerSection.rests]
  · intro a b member
    simp at member
  · intro a b c member
    cases List.mem_singleton.1 member
    exact ⟨Nat.zero_le _, nested.moving _ _ List.mem_cons_self, by simp⟩

theorem ended (nested : Nested m (loop :: rest)) (quiet : loop.isFiring = false)
    (rested : loop.rests = []) : Nested m rest := by
  have still := visited_of_quiet nested.quiet
  refine nested.transfer rfl rfl rfl rfl ?_ nested.sorted nested.tail nested.under ?_ ?_
  · cases loop with
    | firing older now iter => cases quiet
    | _ => simp_all [pending, visited]
  · exact fun a b member => nested.moving a b (List.mem_cons_of_mem _ member)
  · exact fun a b c member => absurd member (not_firing_of_quiet nested.quiet)

theorem fired {older iter x : Nat} {now tp : Int}
    (nested : Nested m (.firing older now iter :: rest)) (entry : m.runingTimers[iter]? = some (tp, x))
    (due : ¬ tp > now) (canceled : Bool) :
    Nested (m.callTarget x canceled (.fired m.updates now)) (.firing older now (iter + 1) :: rest) := by
  obtain rfl := nested.alone rfl
  obtain ⟨bound, located⟩ := List.getElem?_eq_some_iff.1 entry
  obtain ⟨-, visits, passed⟩ := nested.firing _ _ _ List.mem_cons_self
  have split : m.runingTimers.drop iter = (tp, x) :: m.runingTimers.drop (iter + 1) := by
    rw [List.drop_eq_getElem_cons bound, located]
  have taken : m.runingTimers.take (iter + 1) = m.runingTimers.take iter ++ [(tp, x)] := by
    rw [List.take_add_one, entry]
    rfl
  have waits : x ∈ m.pending [.firing older now iter] := by simp [pending, visited, split]
  apply nested.call
  · rw [List.perm_iff_count]
    intro y
    simp only [pending, visited, split, List.flatMap_cons, TimerSection.rests, List.count_append,
      List.map_cons, List.count_cons]
    omega
  · rintro n clock ⟨⟩
    exact Nat.le_refl _
  · exact nested.quiet
  · simp
  · intro a b member
    simp at member
  · intro a b c member
    cases List.mem_singleton.1 member
    refine ⟨bound, ?_, ?_⟩
    · rw [visitedTimers_call (nested.has x waits), visits, taken, List.map_append]
      simp [TimerCause.firedBy]
    · rw [taken]
      intro e listed
      rcases List.mem_append.1 listed with before | last
      · exact passed e before
      · rw [List.mem_singleton] at last
        subst last
        exact Int.not_lt.1 due

theorem endUpdate {older iter : Nat} {now : Int}
    (nested : Nested m (.firing older now iter :: rest)) : Nested (m.endUpdate iter) rest := by
  obtain rfl := nested.alone rfl
  refine nested.transfer rfl rfl rfl rfl ?_ nested.sorted.drop (by simp) (by simp) (by simp) (by simp)
  simp [pending, visited, TimerManager.endUpdate, TimerSection.rests]

theorem clear (nested : Nested m loops) (quiet : ∀ l ∈ loops, l.isFiring = false) :
    Nested { m with addedTimers := [] } (.clearingAdded m.created m.addedTimers :: loops) := by
  refine nested.transfer rfl rfl rfl rfl ?_ nested.sorted quiet (bottom_cons nested.bottom rfl) ?_ ?_
  · simp [pending, visited, TimerSection.rests]
  · exact fun a b member => nested.moving a b (mem_of_clearing member rfl rfl)
  · exact fun a b c member =>
      absurd (mem_of_clearing member rfl rfl) (not_firing_of_quiet quiet)

theorem clearNext {older : Nat} (nested : Nested m (.clearingAdded older [] :: rest)) :
    Nested { m with runingTimers := [] } (.clearingRuning older m.runingTimers :: rest) := by
  have still := visited_of_quiet nested.quiet
  refine nested.transfer rfl rfl rfl rfl ?_ .nil nested.quiet (bottom_cons nested.under rfl) ?_ ?_
  · rw [List.perm_iff_count]
    intro y
    simp only [pending, visited, still, List.flatMap_cons, TimerSection.rests, List.drop_nil,
      List.drop_zero, List.map_nil, List.append_nil, List.nil_append, List.count_append]
    omega
  · exact fun a b member =>
      nested.moving a b (List.mem_cons_of_mem _ (mem_of_clearing member rfl rfl))
  · exact fun a b c member =>
      absurd (mem_of_clearing member rfl rfl) (not_firing_of_quiet nested.quiet)

theorem cleared {later : TimerSection} {x : Nat} (nested : Nested m (loop :: rest))
    (clears : loop.isUpdate = false) (clears' : later.isUpdate = false)
    (waiting : loop.rests = x :: later.rests) :
    Nested (m.callTarget x true .cleared) (later :: rest) := by
  have waits : x ∈ m.pending (loop :: rest) := by simp [pending, waiting]
  apply nested.call
  · rw [List.perm_iff_count]
    intro y
    simp only [pending, visited_of_clearing clears, visited_of_clearing clears', List.flatMap_cons,
      waiting, List.count_append, List.count_cons]
    omega
  · rintro n now ⟨⟩
  · exact nested.quiet
  · exact bottom_cons nested.under clears'
  · intro a b member
    have before := nested.moving a b (List.mem_cons_of_mem _ (mem_of_clearing member clears' rfl))
    rw [visitedTimers_call (nested.has x waits), before]
    rfl
  · exact fun a b c member =>
      absurd (mem_of_clearing member clears' rfl) (not_firing_of_quiet nested.quiet)

end Nested

end TimerManager

namespace TimerCallbacks

/-- A callback of the second loop of `update` does not call `clear`. -/
def Spares (s : TimerCallbacks) : TimerEvent → Prop
  | .action .clear => ∀ l ∈ s.callers, l.isFiring = false
  | _ => True

structure Kept (s : TimerCallbacks) : Prop where
  nested : s.manager.Nested s.loops
  valid : s.dangling = false
  busy : .idle ∉ s.callers
  map : ∀ c ∈ s.callbacks, c.caller.isFiring = true → s.manager.runingTimers = c.map
  iterator : ∀ c ∈ s.callbacks, ∀ older now iter, c.caller = .firing older now iter →
    ∃ i tp, iter = i + 1 ∧ c.map[i]? = some (tp, c.timer)

variable {s t : TimerCallbacks} {after : TimerManager}

theorem Kept.initial : Kept {} :=
  ⟨.initial, rfl, List.not_mem_nil, by simp, by simp⟩

theorem turn_silent {action : TimerAction} (h : s.manager.step action = some after)
    (silent : after.calls = s.manager.calls) : s.turn action = some { s with manager := after } := by
  simp [turn, h, silent]

theorem turn_calls {action : TimerAction} {call : TimerCall}
    (h : s.manager.step action = some after) (calls : after.calls = s.manager.calls ++ [call]) :
    s.turn action = some { s with
      manager := { after with timerSection := .idle }
      callbacks := ⟨call.timer, after.timerSection, after.runingTimers⟩ :: s.callbacks } := by
  simp [turn, h, calls]

def MapKept (s : TimerCallbacks) (after : TimerManager) : Prop :=
  after.runingTimers = s.manager.runingTimers ∨ ∀ l ∈ s.callers, l.isFiring = false

theorem MapKept.of_quiet {loop : TimerSection} {rest : List TimerSection}
    (nested : s.manager.Nested (loop :: rest)) (same : rest = s.callers) : MapKept s after :=
  .inr (same ▸ nested.quiet)

theorem Kept.map_of_kept (kept : Kept s) (same : MapKept s after) :
    ∀ c ∈ s.callbacks, c.caller.isFiring = true → after.runingTimers = c.map := by
  intro c member fires
  rcases same with same | quiet
  · exact same.trans (kept.map c member fires)
  · rw [quiet _ (List.mem_map_of_mem member)] at fires
    cases fires

theorem Kept.silent (kept : Kept s)
    (nested : after.Nested ({ s with manager := after } : TimerCallbacks).loops)
    (same : MapKept s after) : Kept { s with manager := after } :=
  ⟨nested, kept.valid, kept.busy, kept.map_of_kept same, kept.iterator⟩

theorem Kept.called (kept : Kept s) {x : Nat} (nested : after.Nested (after.timerSection :: s.callers))
    (busy : after.timerSection ≠ .idle) (same : MapKept s after)
    (at_ : ∀ older now iter, after.timerSection = .firing older now iter →
      ∃ i tp, iter = i + 1 ∧ after.runingTimers[i]? = some (tp, x)) :
    Kept { s with
      manager := { after with timerSection := .idle }
      callbacks := ⟨x, after.timerSection, after.runingTimers⟩ :: s.callbacks } := by
  constructor
  · exact nested.withSection _
  · exact kept.valid
  · exact List.not_mem_cons_of_ne_of_not_mem busy.symm kept.busy
  · intro c member fires
    rcases List.mem_cons.1 member with rfl | before
    · rfl
    · exact kept.map_of_kept same c before fires
  · intro c member older now iter here
    rcases List.mem_cons.1 member with rfl | before
    · exact at_ older now iter here
    · exact kept.iterator c before older now iter here

theorem loops_idle (here : s.manager.timerSection = .idle) : s.loops = s.callers := if_pos here

theorem loops_busy {loop : TimerSection} (here : s.manager.timerSection = loop)
    (busy : loop ≠ .idle) : s.loops = loop :: s.callers := by
  subst here
  exact if_neg busy

theorem Kept.turn_silent {action : TimerAction} (kept : Kept s) (h : s.turn action = some t)
    (step : s.manager.step action = some after) (silent : after.calls = s.manager.calls)
    (nested : after.Nested ({ s with manager := after } : TimerCallbacks).loops)
    (same : MapKept s after) : Kept t := by
  rw [TimerCallbacks.turn_silent step silent] at h
  cases h
  exact kept.silent nested same

theorem Kept.turn_busy {action : TimerAction} {loop : TimerSection} (kept : Kept s)
    (h : s.turn action = some t) (step : s.manager.step action = some after)
    (here : after.timerSection = loop) (busy : loop ≠ .idle)
    (silent : after.calls = s.manager.calls) (nested : after.Nested (loop :: s.callers))
    (same : MapKept s after) : Kept t := by
  refine kept.turn_silent h step silent ?_ same
  rw [loops_busy here busy]
  exact nested

theorem Kept.turn_idle {action : TimerAction} (kept : Kept s) (h : s.turn action = some t)
    (step : s.manager.step action = some after) (here : after.timerSection = .idle)
    (silent : after.calls = s.manager.calls) (nested : after.Nested s.callers)
    (same : MapKept s after) : Kept t := by
  refine kept.turn_silent h step silent ?_ same
  rw [loops_idle here]
  exact nested

theorem Kept.turn_calls {action : TimerAction} {x : Nat} {canceled : Bool} {cause : TimerCause}
    {loop : TimerSection} (kept : Kept s) (h : s.turn action = some t)
    (step : s.manager.step action =
      some { s.manager.callTarget x canceled cause with timerSection := loop })
    (has : (s.manager.targets x).cb = true) (busy : loop ≠ .idle)
    (nested : (s.manager.callTarget x canceled cause).Nested (loop :: s.callers))
    (at_ : ∀ older now iter, loop = .firing older now iter →
      ∃ i tp, iter = i + 1 ∧ s.manager.runingTimers[i]? = some (tp, x)) : Kept t := by
  have calls := congrArg TimerManager.calls (TimerManager.callTarget_eq has canceled cause)
  have map := TimerManager.callTarget_runingTimers s.manager x canceled cause
  rw [TimerCallbacks.turn_calls step calls] at h
  cases h
  apply kept.called
  · exact nested.withSection _
  · exact busy
  · exact .inl map
  · simpa only [map] using at_

theorem stop_timerSection (m : TimerManager) (x : Nat) :
    (m.stop x).2.timerSection = m.timerSection := by
  unfold TimerManager.stop
  split <;> rfl

theorem stop_calls (m : TimerManager) (x : Nat) : (m.stop x).2.calls = m.calls := by
  unfold TimerManager.stop
  split <;> rfl

theorem stop_runingTimers (m : TimerManager) (x : Nat) :
    (m.stop x).2.runingTimers = m.runingTimers := by
  unfold TimerManager.stop
  split <;> rfl

theorem Kept.turn {action : TimerAction} (kept : Kept s) (spares : Spares s (.action action))
    (first : action = .update → s.callbacks = []) (h : s.turn action = some t) : Kept t := by
  have nested := kept.nested
  obtain ⟨after, step, -⟩ := Option.map_eq_some_iff.1 h
  rcases TimerManager.step_cases step with ⟨tp, rfl, rfl⟩ | ⟨x, rfl, -, rfl⟩ | ⟨rfl, here, rfl⟩ |
    ⟨now, n, -, here, ⟨empty, rfl⟩ | ⟨-, rfl⟩⟩ | ⟨rfl, here, rfl⟩ | ⟨n, x, rest, here, rfl⟩ |
    ⟨n, now, iter, here, rfl⟩ | ⟨n, x, rest, here, rfl⟩ | ⟨n, here, rfl⟩ |
    ⟨n, tp, x, rest, here, rfl⟩ | ⟨n, here, rfl⟩
  · exact kept.turn_silent h step rfl (nested.add tp) (.inl rfl)
  · refine kept.turn_silent h step (stop_calls _ x) ?_ (.inl (stop_runingTimers _ x))
    rw [loops, stop_timerSection]
    exact nested.stop x
  · rw [loops_idle here, callers, first rfl] at nested
    refine kept.turn_busy h step rfl TimerSection.noConfusion rfl ?_ (.inl rfl)
    rw [callers, first rfl]
    exact nested.beginUpdate
  · rw [loops_busy here (by simp)] at nested
    exact kept.turn_idle h step rfl rfl ((nested.ended rfl rfl).withSection _) (.inl rfl)
  · rw [loops_busy here (by simp)] at nested
    exact kept.turn_busy h step rfl (by simp) rfl ((nested.clock now).withSection _) (.inl rfl)
  · rw [loops_idle here] at nested
    exact kept.turn_busy h step rfl (by simp) rfl ((nested.clear spares).withSection _) (.inl rfl)
  · rw [loops_busy here (by simp)] at nested
    have moved := nested.move
    by_cases fresh : (s.manager.targets x).st = .added
    · refine kept.turn_busy h step rfl (by simp) ?_ (moved.withSection _) (.of_quiet nested rfl)
      rw [TimerManager.move, if_pos fresh]
      rfl
    · have called : s.manager.move x = s.manager.callTarget x true .dropped := if_neg fresh
      have has := nested.has x (by simp [TimerManager.pending, TimerSection.rests])
      rw [called] at step moved
      exact kept.turn_calls h step has (by simp) moved (by simp)
  · rw [loops_busy here (by simp)] at nested
    have ended : s.manager.step action = some (s.manager.endUpdate iter) → Kept t := fun step =>
      kept.turn_idle h step rfl rfl nested.endUpdate (.of_quiet nested rfl)
    cases entry : s.manager.runingTimers[iter]? with
    | none =>
        rw [TimerManager.fire, entry] at step
        exact ended step
    | some e =>
        obtain ⟨tp, x⟩ := e
        rw [TimerManager.fire, entry] at step
        dsimp only at step
        split at step
        · exact ended step
        · rename_i due
          have bound := (List.getElem?_eq_some_iff.1 entry).1
          have has := nested.has x (by
            simp only [TimerManager.pending, TimerManager.visited, List.mem_append, List.mem_map]
            exact .inr ⟨(tp, x), List.mem_of_getElem? (i := 0) (by simpa using entry), rfl⟩)
          refine kept.turn_calls h step has (by simp) (nested.fired entry due _) ?_
          rintro _ _ _ ⟨⟩
          exact ⟨iter, tp, rfl, entry⟩
  · rw [loops_busy here (by simp)] at nested
    have has := nested.has x (by simp [TimerManager.pending, TimerSection.rests])
    exact kept.turn_calls h step has (by simp) (nested.cleared rfl rfl rfl) (by simp)
  · rw [loops_busy here (by simp)] at nested
    exact kept.turn_busy h step rfl (by simp) rfl (nested.clearNext.withSection _)
      (.of_quiet nested rfl)
  · rw [loops_busy here (by simp)] at nested
    have has := nested.has x (by simp [TimerManager.pending, TimerSection.rests])
    exact kept.turn_calls h step has (by simp) (nested.cleared rfl rfl rfl) (by simp)
  · rw [loops_busy here (by simp)] at nested
    exact kept.turn_idle h step rfl rfl ((nested.ended rfl rfl).withSection _) (.inl rfl)

theorem Kept.pointed (kept : Kept s) {callback : TimerCallback} (member : callback ∈ s.callbacks)
    (fires : callback.caller.isFiring = true) :
    callback.timer ∈ s.manager.runingTimers.map Prod.snd := by
  have map := kept.map callback member fires
  cases here : callback.caller with
  | firing older now iter =>
      obtain ⟨i, tp, -, entry⟩ := kept.iterator callback member older now iter here
      rw [map]
      exact List.mem_map.2 ⟨_, List.mem_of_getElem? entry, rfl⟩
  | _ => simp [here, TimerSection.isFiring] at fires

theorem Kept.returns {callback : TimerCallback} {rest : List TimerCallback} (kept : Kept s)
    (here : s.callbacks = callback :: rest) (user : s.manager.timerSection = .idle) :
    Kept {
      manager := { s.manager with timerSection := callback.caller }
      callbacks := rest
      dangling := callback.caller.isFiring &&
        !(s.manager.runingTimers.map Prod.snd).contains callback.timer } := by
  have callers_eq : s.callers = callback.caller :: rest.map (·.caller) := by
    rw [callers, here, List.map_cons]
  have busy := kept.busy
  rw [callers_eq, List.mem_cons, not_or] at busy
  have inner : callback ∈ s.callbacks := here ▸ List.mem_cons_self
  have outer : ∀ c ∈ rest, c ∈ s.callbacks := fun c member => here ▸ List.mem_cons_of_mem _ member
  constructor
  · have nested := kept.nested
    rw [loops_idle user, callers_eq] at nested
    rw [loops_busy rfl (Ne.symm busy.1)]
    exact nested.withSection _
  · cases fires : callback.caller.isFiring with
    | false => rfl
    | true => simpa [fires] using kept.pointed inner fires
  · exact busy.2
  · exact fun c member => kept.map c (outer c member)
  · exact fun c member => kept.iterator c (outer c member)

theorem step_cases {event : TimerEvent} (h : s.step event = some t) :
    (∃ action, event = .action action ∧ (action = .update → s.callbacks = []) ∧
      s.turn action = some t) ∨
    (event = .empty ∧ t = s) ∨
    (∃ callback rest, event = .returns ∧ s.callbacks = callback :: rest ∧
      s.manager.timerSection = .idle ∧ t = {
        manager := { s.manager with timerSection := callback.caller }
        callbacks := rest
        dangling := callback.caller.isFiring &&
          !(s.manager.runingTimers.map Prod.snd).contains callback.timer }) := by
  unfold step at h
  split at h
  · cases h
  cases event with
  | action action =>
      refine .inl ⟨action, rfl, ?_⟩
      cases action with
      | update =>
          dsimp only at h
          split at h
          · exact ⟨fun _ => ‹_›, h⟩
          · cases h
      | add tp =>
          dsimp only at h
          split at h
          · exact ⟨TimerAction.noConfusion, h⟩
          · cases h
      | stop x =>
          dsimp only at h
          split at h
          · exact ⟨TimerAction.noConfusion, h⟩
          · cases h
      | clock now => exact ⟨TimerAction.noConfusion, h⟩
      | clear => exact ⟨TimerAction.noConfusion, h⟩
      | next => exact ⟨TimerAction.noConfusion, h⟩
  | empty =>
      dsimp only at h
      split at h
      · exact .inr (.inl ⟨rfl, (Option.some.inj h).symm⟩)
      · cases h
  | returns =>
      dsimp only at h
      split at h
      · cases h
      · rename_i callback rest here
        split at h
        · exact .inr (.inr ⟨callback, rest, rfl, here, ‹_›, (Option.some.inj h).symm⟩)
        · cases h

theorem Kept.step {event : TimerEvent} (kept : Kept s) (spares : Spares s event)
    (h : s.step event = some t) : Kept t := by
  rcases step_cases h with ⟨action, rfl, first, turned⟩ | ⟨rfl, rfl⟩ |
    ⟨callback, rest, rfl, here, user, rfl⟩
  · exact kept.turn spares first turned
  · exact kept
  · exact kept.returns here user

theorem kept_of_reachable (reachable : system.ReachableBy Spares s) : Kept s :=
  Transition.System.Inductive.holds
    ⟨.initial, fun _ _ _ _ kept spares h => kept.step spares h⟩ reachable

/-- What the second loop of `update` relies on. -/
structure Undisturbed (s : TimerCallbacks) : Prop where
  -- until they return, the callbacks that it has called leave the map alone
  map : ∀ c ∈ s.callbacks, c.caller.isFiring = true → s.manager.runingTimers = c.map
  -- and then its iterator is at the entry that it has called
  iterator : ∀ c ∈ s.callbacks, ∀ older now iter, c.caller = .firing older now iter →
    ∃ i tp, iter = i + 1 ∧ s.manager.runingTimers[i]? = some (tp, c.timer)
  valid : s.dangling = false
  erases : ∀ older now iter, s.manager.timerSection = .firing older now iter →
    iter ≤ s.manager.runingTimers.length
  -- where it ends, it has called the timers that are due and erases them
  visits : ∀ older now iter t, s.manager.timerSection = .firing older now iter →
    s.step (.action .next) = some t → t.callbacks = s.callbacks →
    s.manager.visitedTimers = (s.manager.runingTimers.filter (·.1 ≤ now)).map Prod.snd ∧
      t.manager.runingTimers = s.manager.runingTimers.filter (now < ·.1)
  -- each timer has been called once, or waits for that in one place
  once : ∀ x < s.manager.created,
    (s.manager.calls.map (·.timer)).count x + (s.manager.pending s.loops).count x = 1

theorem filter_due {entries : List (Int × Nat)} {iter : Nat} {now : Int}
    (passed : ∀ e ∈ entries.take iter, e.1 ≤ now) (ahead : ∀ e ∈ entries.drop iter, now < e.1) :
    entries.filter (·.1 ≤ now) = entries.take iter ∧
      entries.filter (now < ·.1) = entries.drop iter := by
  have first : (entries.take iter).filter (·.1 ≤ now) = entries.take iter := by
    simpa [List.filter_eq_self] using passed
  have last : (entries.drop iter).filter (now < ·.1) = entries.drop iter := by
    simpa [List.filter_eq_self] using ahead
  have none_first : (entries.take iter).filter (now < ·.1) = [] := by
    simpa [List.filter_eq_nil_iff] using passed
  have none_last : (entries.drop iter).filter (·.1 ≤ now) = [] := by
    simpa [List.filter_eq_nil_iff] using ahead
  constructor
  · conv_lhs => rw [← List.take_append_drop iter entries]
    rw [List.filter_append, first, none_last, List.append_nil]
  · conv_lhs => rw [← List.take_append_drop iter entries]
    rw [List.filter_append, none_first, last, List.nil_append]

theorem Kept.visits (kept : Kept s) {older iter : Nat} {now : Int}
    (here : s.manager.timerSection = .firing older now iter) (h : s.step (.action .next) = some t)
    (same : t.callbacks = s.callbacks) :
    s.manager.visitedTimers = (s.manager.runingTimers.filter (·.1 ≤ now)).map Prod.snd ∧
      t.manager.runingTimers = s.manager.runingTimers.filter (now < ·.1) := by
  have nested := kept.nested
  rw [loops_busy here (by simp)] at nested
  obtain ⟨-, visited, passed⟩ := nested.firing _ _ _ List.mem_cons_self
  have turned : s.turn .next = some t := by
    rcases step_cases h with ⟨action, ⟨⟩, -, turned⟩ | ⟨⟨⟩, -⟩ | ⟨_, _, ⟨⟩, -⟩
    exact turned
  have step : s.manager.step .next = some (s.manager.fire older now iter) := by
    simp [TimerManager.step, here]
  have ended (ahead : ∀ e ∈ s.manager.runingTimers.drop iter, now < e.1)
      (step : s.manager.step .next = some (s.manager.endUpdate iter)) :
      s.manager.visitedTimers = (s.manager.runingTimers.filter (·.1 ≤ now)).map Prod.snd ∧
        t.manager.runingTimers = s.manager.runingTimers.filter (now < ·.1) := by
    obtain ⟨due, later⟩ := filter_due passed ahead
    rw [TimerCallbacks.turn_silent step rfl] at turned
    cases turned
    rw [due, later]
    exact ⟨visited, rfl⟩
  cases entry : s.manager.runingTimers[iter]? with
  | none =>
      rw [TimerManager.fire, entry] at step
      refine ended ?_ step
      rw [List.drop_eq_nil_of_le (List.getElem?_eq_none_iff.1 entry)]
      simp
  | some e =>
      obtain ⟨tp, x⟩ := e
      obtain ⟨bound, located⟩ := List.getElem?_eq_some_iff.1 entry
      have split_ : s.manager.runingTimers.drop iter =
          (tp, x) :: s.manager.runingTimers.drop (iter + 1) := by
        rw [List.drop_eq_getElem_cons bound, located]
      rw [TimerManager.fire, entry] at step
      dsimp only at step
      split at step
      · rename_i future
        refine ended (fun e member => ?_) step
        have sorted := nested.sorted.drop (i := iter)
        rw [split_] at sorted member
        rcases List.mem_cons.1 member with rfl | behind
        · exact future
        · exact Int.lt_of_lt_of_le future ((List.pairwise_cons.1 sorted).1 e behind)
      · have has := nested.has x (by
          simp [TimerManager.pending, TimerManager.visited, split_])
        rw [TimerCallbacks.turn_calls step (congrArg TimerManager.calls (TimerManager.callTarget_eq has _ _))]
          at turned
        cases turned
        exact absurd same (List.cons_ne_self _ _)

/-- As long as no callback of the second loop of `update` calls `clear`, the map stays as the loop
expects it. -/
theorem undisturbed (reachable : system.ReachableBy Spares s) : s.Undisturbed := by
  have kept := kept_of_reachable reachable
  constructor
  · exact kept.map
  · intro c member older now iter here
    rw [kept.map c member (by rw [here]; rfl)]
    exact kept.iterator c member older now iter here
  · exact kept.valid
  · intro older now iter here
    have nested := kept.nested
    rw [loops_busy here (by simp)] at nested
    exact (nested.firing _ _ _ List.mem_cons_self).1
  · exact fun _ _ _ _ here h same => kept.visits here h same
  · intro x old
    have once := kept.nested.once x
    rwa [List.count_append, if_pos old] at once

instance (s : TimerCallbacks) (event : TimerEvent) : Decidable (Spares s event) := by
  unfold Spares
  split <;> infer_instance

/-- The callback of the first timer stops the second one and adds a third. -/
theorem undisturbed_stopped : ∃ s, system.ReachableBy Spares s ∧
    s.manager.calls = [⟨0, false, .fired 1 5⟩, ⟨1, true, .fired 1 5⟩] ∧ s.Undisturbed := by
  obtain ⟨s, reachable, calls⟩ := system.reachableBy_of_replay Spares
    [.action (.add 1), .action (.add 3), .action .update, .action .next, .action .next,
      .action (.clock 5), .action .next, .action (.stop 1), .action (.add 9), .empty, .returns,
      .action .next, .returns, .action .next]
    (fun s => s.manager.calls == [⟨0, false, .fired 1 5⟩, ⟨1, true, .fired 1 5⟩]) (by decide)
  exact ⟨s, reachable, by simpa using calls, undisturbed reachable⟩

/-- The callback of the first of two timers clears the manager. -/
theorem disturbed_by_clear : ¬ ∀ s, system.Reachable s → s.Undisturbed := by
  intro holds
  obtain ⟨s, reachable, gone⟩ := system.reachable_of_replay
    [.action (.add 1), .action (.add 3), .action .update, .action .next, .action .next,
      .action (.clock 5), .action .next, .action .clear, .action .next, .action .next,
      .action .next, .returns, .action .next, .returns]
    (fun s => s.dangling) (by decide)
  rw [(holds s reachable).valid] at gone
  cases gone

end TimerCallbacks

end Librf
