import Mathlib.Data.Int.Order.Basic
import Mathlib.Data.List.Nodup
import Librf.Timer.Model

/-!
# Timers that wait for their call

`Waiting s added runing` holds of a manager whose timers without a call are those of `added` and of
`runing`, whichever containers of the source these are.
-/

namespace Librf

namespace TimerManager

def deadline (s : TimerManager) (t : Nat) : Int := (s.targets t).tp

def Called (s : TimerManager) (t : Nat) : Prop := t ∈ s.calls.map (·.timer)

/-- The order of the deadlines; that of the additions among equal ones. -/
def Before (a b : Int × Nat) : Prop := a.1 < b.1 ∨ a.1 = b.1 ∧ a.2 < b.2

def InOrder (deadline : Nat → Int) (c d : TimerCall) : Prop :=
  ∀ number now later, c.cause = .fired number now → d.cause = .fired number later →
    Before (deadline c.timer, c.timer) (deadline d.timer, d.timer)

def Unstopped (s : TimerManager) (t : Nat) (st : TimerState) : Prop :=
  (s.targets t).st = st ∧ t ∉ s.stopped ∨ (s.targets t).st = .invalid ∧ t ∈ s.stopped

def RightFlag (s : TimerManager) (c : TimerCall) : Prop :=
  c.canceled = false ↔
    (∃ number now, c.cause = .fired number now ∧ s.deadline c.timer ≤ now) ∧ c.timer ∉ s.stopped

structure Waiting (s : TimerManager) (added : List Nat) (runing : List (Int × Nat)) : Prop where
  ascending : added.Pairwise (· < ·)
  sorted : runing.Pairwise Before
  behind : ∀ e ∈ runing, ∀ t ∈ added, e.2 < t
  place : ∀ t, t < s.created ↔ t ∈ added ∨ t ∈ runing.map Prod.snd ∨ s.Called t
  added_state : ∀ t ∈ added, (s.targets t).cb = true ∧ s.Unstopped t .added
  runing_state : ∀ e ∈ runing,
    (s.targets e.2).cb = true ∧ s.Unstopped e.2 .runing ∧ s.deadline e.2 = e.1
  called_state : ∀ t, s.Called t → (s.targets t).cb = false ∧ (s.targets t).st = .invalid
  once : (s.calls.map (·.timer)).Nodup
  stopped_once : s.stopped.Nodup
  stopped_created : ∀ t ∈ s.stopped, t < s.created
  flag : ∀ c ∈ s.calls, s.RightFlag c
  in_order : s.calls.Pairwise (InOrder s.deadline)
  numbered : ∀ c ∈ s.calls, ∀ number now, c.cause = .fired number now → number ≤ s.updates

variable {s : TimerManager} {added : List Nat} {runing : List (Int × Nat)}

@[simp] theorem setTarget_created (t : Nat) (target : TimerTarget) :
    (s.setTarget t target).created = s.created := rfl

@[simp] theorem setTarget_calls (t : Nat) (target : TimerTarget) :
    (s.setTarget t target).calls = s.calls := rfl

@[simp] theorem setTarget_stopped (t : Nat) (target : TimerTarget) :
    (s.setTarget t target).stopped = s.stopped := rfl

theorem setTarget_self (t : Nat) (target : TimerTarget) :
    (s.setTarget t target).targets t = target := Function.update_self ..

theorem setTarget_other {t x : Nat} (other : x ≠ t) (target : TimerTarget) :
    (s.setTarget t target).targets x = s.targets x := Function.update_of_ne other ..

theorem setTarget_deadline (t : Nat) (target : TimerTarget) (same : target.tp = s.deadline t) :
    (s.setTarget t target).deadline = s.deadline := by
  funext x
  by_cases self : x = t
  · subst self
    simp [deadline, setTarget_self, same]
  · simp [deadline, setTarget_other self]

theorem Unstopped.transfer {t : TimerManager} {x : Nat} {st : TimerState}
    (unstopped : s.Unstopped x st) (same : (t.targets x).st = (s.targets x).st)
    (stopped : t.stopped = s.stopped) : t.Unstopped x st := by
  unfold Unstopped at *
  rwa [same, stopped]

theorem RightFlag.transfer {t : TimerManager} {c : TimerCall} (right : s.RightFlag c)
    (same : t.deadline c.timer = s.deadline c.timer)
    (stopped : c.timer ∈ t.stopped ↔ c.timer ∈ s.stopped) : t.RightFlag c := by
  unfold RightFlag at *
  rw [same, stopped]
  exact right

theorem Waiting.transfer {t : TimerManager} (waiting : Waiting s added runing)
    (targets : t.targets = s.targets) (created : t.created = s.created)
    (updates : s.updates ≤ t.updates) (calls : t.calls = s.calls)
    (stopped : t.stopped = s.stopped) : Waiting t added runing := by
  have deadline : t.deadline = s.deadline := by
    funext x
    rw [TimerManager.deadline, targets, TimerManager.deadline]
  have called : ∀ x, t.Called x ↔ s.Called x := by simp [Called, calls]
  refine ⟨waiting.ascending, waiting.sorted, waiting.behind, ?_, ?_, ?_, ?_, ?_, ?_, ?_, ?_, ?_, ?_⟩
  · simpa only [created, called] using waiting.place
  · simpa only [targets, Unstopped, stopped] using waiting.added_state
  · simpa only [targets, Unstopped, stopped, deadline] using waiting.runing_state
  · simpa only [targets, called] using waiting.called_state
  · simpa only [calls] using waiting.once
  · simpa only [stopped] using waiting.stopped_once
  · simpa only [stopped, created] using waiting.stopped_created
  · simpa only [calls, RightFlag, stopped, deadline] using waiting.flag
  · simpa only [calls, deadline] using waiting.in_order
  · intro c member number now cause
    rw [calls] at member
    exact Nat.le_trans (waiting.numbered c member number now cause) updates

theorem Waiting.not_runing (waiting : Waiting s added runing) {t : Nat} (member : t ∈ added) :
    t ∉ runing.map Prod.snd := by
  intro runs
  obtain ⟨e, listed, rfl⟩ := List.mem_map.1 runs
  exact Nat.lt_irrefl _ (waiting.behind e listed e.2 member)

theorem Waiting.not_called (waiting : Waiting s added runing) {t : Nat}
    (has : (s.targets t).cb = true) : ¬ s.Called t := by
  intro called
  rw [(waiting.called_state t called).1] at has
  cases has

theorem Waiting.st_of_created (waiting : Waiting s added runing) {t : Nat} (old : t < s.created)
    (valid : (s.targets t).st ≠ .invalid) : t ∉ s.stopped ∧ ¬ s.Called t := by
  rcases (waiting.place t).1 old with listed | listed | called
  · obtain ⟨has, ⟨-, never⟩ | ⟨finished, -⟩⟩ := waiting.added_state t listed
    · exact ⟨never, waiting.not_called has⟩
    · exact absurd finished valid
  · obtain ⟨e, runs, rfl⟩ := List.mem_map.1 listed
    obtain ⟨has, ⟨-, never⟩ | ⟨finished, -⟩, -⟩ := waiting.runing_state e runs
    · exact ⟨never, waiting.not_called has⟩
    · exact absurd finished valid
  · exact absurd (waiting.called_state t called).2 valid

/-! ## `add` and `stop` -/

theorem Waiting.add (waiting : Waiting s added runing) (tp : Int) :
    Waiting (s.add tp) (added ++ [s.created]) runing := by
  have older : ∀ t, t < s.created → (s.add tp).targets t = s.targets t :=
    fun t old => setTarget_other (Nat.ne_of_lt old) _
  have deadline : ∀ t, t < s.created → (s.add tp).deadline t = s.deadline t := by
    intro t old
    simp only [TimerManager.deadline, older t old]
  have old_added : ∀ t ∈ added, t < s.created := fun t listed => (waiting.place t).2 (.inl listed)
  have old_runing : ∀ e ∈ runing, e.2 < s.created :=
    fun e listed => (waiting.place e.2).2 (.inr (.inl (List.mem_map_of_mem listed)))
  have old_called : ∀ t, s.Called t → t < s.created :=
    fun t called => (waiting.place t).2 (.inr (.inr called))
  have old_call : ∀ c ∈ s.calls, c.timer < s.created :=
    fun c member => old_called _ (List.mem_map_of_mem member)
  constructor
  · rw [List.pairwise_append]
    refine ⟨waiting.ascending, List.pairwise_singleton .., ?_⟩
    intro t listed x last
    rw [List.mem_singleton] at last
    exact last ▸ old_added t listed
  · exact waiting.sorted
  · intro e listed t member
    rcases List.mem_append.1 member with before | last
    · exact waiting.behind e listed t before
    · rw [List.mem_singleton] at last
      exact last ▸ old_runing e listed
  · intro t
    change t < s.created + 1 ↔ t ∈ added ++ [s.created] ∨ t ∈ runing.map Prod.snd ∨ s.Called t
    rw [Nat.lt_succ_iff_lt_or_eq, waiting.place t, List.mem_append, List.mem_singleton]
    grind
  · intro t member
    rcases List.mem_append.1 member with before | last
    · have same := older t (old_added t before)
      obtain ⟨has, unstopped⟩ := waiting.added_state t before
      exact ⟨same ▸ has, unstopped.transfer (by rw [same]) rfl⟩
    · rw [List.mem_singleton] at last
      subst last
      refine ⟨congrArg TimerTarget.cb (setTarget_self ..), .inl ⟨?_, ?_⟩⟩
      · exact congrArg TimerTarget.st (setTarget_self ..)
      · exact fun stopped => Nat.lt_irrefl _ (waiting.stopped_created _ stopped)
  · intro e listed
    have same := older e.2 (old_runing e listed)
    obtain ⟨has, unstopped, tp_eq⟩ := waiting.runing_state e listed
    exact ⟨same ▸ has, unstopped.transfer (by rw [same]) rfl,
      (deadline _ (old_runing e listed)).trans tp_eq⟩
  · intro t called
    rw [older t (old_called t called)]
    exact waiting.called_state t called
  · exact waiting.once
  · exact waiting.stopped_once
  · exact fun t stopped => Nat.lt_succ_of_lt (waiting.stopped_created t stopped)
  · exact fun c member =>
      (waiting.flag c member).transfer (deadline _ (old_call c member)) Iff.rfl
  · apply waiting.in_order.imp_of_mem
    intro c d first second ordered number now later
    rw [deadline _ (old_call c first), deadline _ (old_call d second)]
    exact ordered number now later
  · exact waiting.numbered

theorem stop_true {t : Nat} (valid : (s.targets t).st ≠ .invalid) :
    s.stop t = (true, { s.setTarget t { s.targets t with st := .invalid } with
      stopped := s.stopped ++ [t] }) := if_neg valid

theorem stop_false {t : Nat} (finished : (s.targets t).st = .invalid) : s.stop t = (false, s) :=
  if_pos finished

theorem stop_deadline (s : TimerManager) (t : Nat) : (s.stop t).2.deadline = s.deadline := by
  by_cases finished : (s.targets t).st = .invalid
  · rw [stop_false finished]
  · rw [stop_true finished]
    exact setTarget_deadline t _ rfl

theorem Waiting.stop (waiting : Waiting s added runing) {t : Nat} (old : t < s.created) :
    Waiting (s.stop t).2 added runing := by
  by_cases finished : (s.targets t).st = .invalid
  · rw [stop_false finished]
    exact waiting
  rw [stop_true finished]
  obtain ⟨never, uncalled⟩ := waiting.st_of_created old finished
  set u : TimerManager := { s.setTarget t { s.targets t with st := .invalid } with
    stopped := s.stopped ++ [t] }
  have deadline : u.deadline = s.deadline := setTarget_deadline t _ rfl
  have cb : ∀ x, (u.targets x).cb = (s.targets x).cb := by
    intro x
    by_cases self : x = t
    · subst self
      rw [show u.targets x = { s.targets x with st := .invalid } from setTarget_self ..]
    · exact congrArg TimerTarget.cb (setTarget_other self _)
  have over_st : (u.targets t).st = .invalid := congrArg TimerTarget.st (setTarget_self ..)
  have unstopped : ∀ x st, s.Unstopped x st → u.Unstopped x st := by
    intro x st before
    by_cases self : x = t
    · subst self
      exact .inr ⟨over_st, by simp [u]⟩
    · rcases before with ⟨same, out⟩ | ⟨same, listed⟩
      · exact .inl ⟨(congrArg _ (setTarget_other self _)).trans same, by simp [u, out, self]⟩
      · exact .inr ⟨(congrArg _ (setTarget_other self _)).trans same, by simp [u, listed]⟩
  have other : ∀ x, s.Called x → x ≠ t := fun x called self => uncalled (self ▸ called)
  refine ⟨waiting.ascending, waiting.sorted, waiting.behind, waiting.place, ?_, ?_, ?_,
    waiting.once, ?_, ?_, ?_, ?_, waiting.numbered⟩
  · intro x listed
    obtain ⟨has, before⟩ := waiting.added_state x listed
    exact ⟨(cb x).trans has, unstopped x _ before⟩
  · intro e listed
    obtain ⟨has, before, tp⟩ := waiting.runing_state e listed
    exact ⟨(cb e.2).trans has, unstopped e.2 _ before, deadline ▸ tp⟩
  · intro x called
    have same : u.targets x = s.targets x := setTarget_other (other x called) _
    rw [same]
    exact waiting.called_state x called
  · exact waiting.stopped_once.append (List.nodup_singleton t) (by simpa using never)
  · intro x listed
    rcases List.mem_append.1 listed with before | last
    · exact waiting.stopped_created x before
    · rw [List.mem_singleton] at last
      exact last ▸ old
  · intro c member
    have differs := other c.timer (List.mem_map_of_mem member)
    exact (waiting.flag c member).transfer (by rw [deadline]) (by simp [u, differs])
  · rw [deadline]
    exact waiting.in_order

/-! ## What the loops do -/

theorem insert_perm (tp : Int) (t : Nat) (entries : List (Int × Nat)) :
    (insert tp t entries).Perm ((tp, t) :: entries) := by
  induction entries with
  | nil => exact .refl _
  | cons e rest ih =>
      rw [insert]
      split
      · exact (ih.cons e).trans (.swap ..)
      · exact .refl _

theorem insert_sorted (tp : Int) (t : Nat) (entries : List (Int × Nat))
    (sorted : entries.Pairwise Before) (older : ∀ e ∈ entries, e.2 < t) :
    (insert tp t entries).Pairwise Before := by
  induction entries with
  | nil => exact List.pairwise_singleton ..
  | cons e rest ih =>
      obtain ⟨head, tail⟩ := List.pairwise_cons.1 sorted
      rw [insert]
      split
      · rename_i le
        rw [List.pairwise_cons]
        refine ⟨?_, ih tail fun x listed => older x (List.mem_cons_of_mem _ listed)⟩
        intro x member
        rcases List.mem_cons.1 ((insert_perm tp t rest).mem_iff.1 member) with rfl | behind
        · exact (lt_or_eq_of_le le).imp id fun same => ⟨same, older e List.mem_cons_self⟩
        · exact head x behind
      · rename_i gt
        rw [not_le] at gt
        rw [List.pairwise_cons]
        refine ⟨?_, sorted⟩
        intro x member
        rcases List.mem_cons.1 member with rfl | behind
        · exact .inl gt
        · rcases head x behind with less | ⟨same, -⟩
          · exact .inl (Int.lt_trans gt less)
          · exact .inl (same ▸ gt)

theorem Waiting.insert {t : Nat} (waiting : Waiting s (t :: added) runing)
    (fresh : (s.targets t).st = .added) :
    Waiting (s.move t) added (TimerManager.insert (s.deadline t) t runing) := by
  obtain ⟨older, ascending⟩ := List.pairwise_cons.1 waiting.ascending
  have listed : ∀ e, e ∈ TimerManager.insert (s.deadline t) t runing ↔
      e = (s.deadline t, t) ∨ e ∈ runing := by
    intro e
    rw [(insert_perm ..).mem_iff, List.mem_cons]
  have moved : s.move t = { s.setTarget t { s.targets t with st := .runing } with
      runingTimers := TimerManager.insert (s.targets t).tp t s.runingTimers } := if_pos fresh
  have deadline : (s.move t).deadline = s.deadline := by
    rw [moved]
    exact setTarget_deadline t _ rfl
  have same : ∀ x, x ≠ t → (s.move t).targets x = s.targets x := by
    rw [moved]
    exact fun x other => setTarget_other other _
  have self : (s.move t).targets t = { s.targets t with st := .runing } := by
    rw [moved]
    exact setTarget_self ..
  have calls : (s.move t).calls = s.calls := by rw [moved]; rfl
  have stopped : (s.move t).stopped = s.stopped := by rw [moved]; rfl
  have called : ∀ x, (s.move t).Called x ↔ s.Called x := by simp [Called, calls]
  obtain ⟨has, unstopped⟩ := waiting.added_state t List.mem_cons_self
  have never : t ∉ s.stopped := by
    rcases unstopped with ⟨-, never⟩ | ⟨finished, -⟩
    · exact never
    · rw [fresh] at finished
      cases finished
  constructor
  · exact ascending
  · exact insert_sorted _ _ _ waiting.sorted
      fun e member => waiting.behind e member t List.mem_cons_self
  · intro e member x behind
    rcases (listed e).1 member with rfl | runs
    · exact older x behind
    · exact waiting.behind e runs x (List.mem_cons_of_mem _ behind)
  · intro x
    have perm := ((insert_perm (s.deadline t) t runing).map Prod.snd).mem_iff (a := x)
    have created : (s.move t).created = s.created := by rw [moved]; rfl
    rw [created, waiting.place x, called, perm]
    simp only [List.mem_cons, List.map_cons]
    grind
  · intro x member
    have other : x ≠ t := Nat.ne_of_gt (older x member)
    obtain ⟨has, before⟩ := waiting.added_state x (List.mem_cons_of_mem _ member)
    exact ⟨(same x other).symm ▸ has, before.transfer (by rw [same x other]) stopped⟩
  · intro e member
    rcases (listed e).1 member with rfl | runs
    · refine ⟨?_, .inl ⟨?_, stopped ▸ never⟩, by rw [deadline]⟩
      · rw [self]
        exact has
      · rw [self]
    · have other : e.2 ≠ t := Nat.ne_of_lt (waiting.behind e runs t List.mem_cons_self)
      obtain ⟨has, before, tp⟩ := waiting.runing_state e runs
      exact ⟨(same _ other).symm ▸ has, before.transfer (by rw [same _ other]) stopped,
        by rw [deadline, tp]⟩
  · intro x gone
    rw [called] at gone
    have other : x ≠ t := fun equal => waiting.not_called has (equal ▸ gone)
    rw [same x other]
    exact waiting.called_state x gone
  · rw [calls]
    exact waiting.once
  · rw [stopped]
    exact waiting.stopped_once
  · rw [stopped, moved]
    exact waiting.stopped_created
  · rw [calls]
    exact fun c member => (waiting.flag c member).transfer (by rw [deadline]) (by rw [stopped])
  · rw [calls, deadline]
    exact waiting.in_order
  · rw [calls, moved]
    exact waiting.numbered

theorem callTarget_eq {t : Nat} (has : (s.targets t).cb = true) (canceled : Bool)
    (cause : TimerCause) :
    s.callTarget t canceled cause =
      { s.setTarget t { s.targets t with cb := false, st := .invalid } with
        calls := s.calls ++ [⟨t, canceled, cause⟩] } := if_pos has

theorem Waiting.call {t : Nat} {rest : List Nat} {left : List (Int × Nat)} {canceled : Bool}
    {cause : TimerCause} (waiting : Waiting s added runing) (has : (s.targets t).cb = true)
    (adds : rest.Sublist added) (runs : left.Sublist runing)
    (out : t ∉ rest ∧ t ∉ left.map Prod.snd)
    (leaves : ∀ x, x ∈ added ∨ x ∈ runing.map Prod.snd ↔
      x = t ∨ x ∈ rest ∨ x ∈ left.map Prod.snd)
    (right : s.RightFlag ⟨t, canceled, cause⟩)
    (order : ∀ c ∈ s.calls, InOrder s.deadline c ⟨t, canceled, cause⟩)
    (number : ∀ n now, cause = .fired n now → n ≤ s.updates) :
    Waiting (s.callTarget t canceled cause) rest left := by
  rw [callTarget_eq has]
  set u : TimerManager := { s.setTarget t { s.targets t with cb := false, st := .invalid } with
    calls := s.calls ++ [⟨t, canceled, cause⟩] }
  have deadline : u.deadline = s.deadline := setTarget_deadline t _ rfl
  have same : ∀ x, x ≠ t → u.targets x = s.targets x := fun x other => setTarget_other other _
  have self : u.targets t = { s.targets t with cb := false, st := .invalid } := setTarget_self ..
  have called : ∀ x, u.Called x ↔ s.Called x ∨ x = t := by simp [Called, u]
  have uncalled := waiting.not_called has
  constructor
  · exact waiting.ascending.sublist adds
  · exact waiting.sorted.sublist runs
  · exact fun e member x listed => waiting.behind e (runs.subset member) x (adds.subset listed)
  · intro x
    have before := waiting.place x
    have split := leaves x
    rw [called]
    change x < s.created ↔ _
    grind
  · intro x member
    have other : x ≠ t := fun equal => out.1 (equal ▸ member)
    obtain ⟨has, before⟩ := waiting.added_state x (adds.subset member)
    exact ⟨(same x other).symm ▸ has, before.transfer (by rw [same x other]) rfl⟩
  · intro e member
    have other : e.2 ≠ t := fun equal => out.2 (equal ▸ List.mem_map_of_mem member)
    obtain ⟨has, before, tp⟩ := waiting.runing_state e (runs.subset member)
    exact ⟨(same _ other).symm ▸ has, before.transfer (by rw [same _ other]) rfl,
      by rw [deadline, tp]⟩
  · intro x gone
    by_cases equal : x = t
    · subst equal
      rw [self]
      exact ⟨rfl, rfl⟩
    · rw [same x equal]
      exact waiting.called_state x (((called x).1 gone).resolve_right equal)
  · rw [show u.calls = s.calls ++ [⟨t, canceled, cause⟩] from rfl, List.map_append]
    apply waiting.once.append (List.nodup_singleton _)
    simpa [Called] using uncalled
  · exact waiting.stopped_once
  · exact waiting.stopped_created
  · intro c member
    rcases List.mem_append.1 member with before | last
    · exact (waiting.flag c before).transfer (t := u) (by rw [deadline]) Iff.rfl
    · rw [List.mem_singleton] at last
      subst last
      exact right.transfer (t := u) (by rw [deadline]) Iff.rfl
  · rw [deadline]
    rw [show u.calls = s.calls ++ [⟨t, canceled, cause⟩] from rfl, List.pairwise_append]
    refine ⟨waiting.in_order, List.pairwise_singleton .., ?_⟩
    intro c before d last
    rw [List.mem_singleton] at last
    exact last ▸ order c before
  · intro c member
    rcases List.mem_append.1 member with before | last
    · exact waiting.numbered c before
    · rw [List.mem_singleton] at last
      subst last
      exact number

theorem Waiting.call_added {t : Nat} {cause : TimerCause} (waiting : Waiting s (t :: added) runing)
    (unfired : ∀ number now, cause ≠ .fired number now) :
    Waiting (s.callTarget t true cause) added runing := by
  have out : t ∉ added := fun listed =>
    Nat.lt_irrefl t ((List.pairwise_cons.1 waiting.ascending).1 t listed)
  apply waiting.call (waiting.added_state t List.mem_cons_self).1 (List.sublist_cons_self ..)
    (List.Sublist.refl _) ⟨out, waiting.not_runing List.mem_cons_self⟩
  · intro x
    rw [List.mem_cons, or_assoc]
  · simp [RightFlag, unfired]
  · exact fun c _ number now later _ fired => absurd fired (unfired number later)
  · exact fun number now fired => absurd fired (unfired number now)

theorem Waiting.call_runing {e : Int × Nat} {canceled : Bool} {cause : TimerCause}
    (waiting : Waiting s added (e :: runing)) (right : s.RightFlag ⟨e.2, canceled, cause⟩)
    (order : ∀ c ∈ s.calls, InOrder s.deadline c ⟨e.2, canceled, cause⟩)
    (number : ∀ n now, cause = .fired n now → n ≤ s.updates) :
    Waiting (s.callTarget e.2 canceled cause) added runing := by
  have first : (s.targets e.2).cb = true := (waiting.runing_state e List.mem_cons_self).1
  have out : e.2 ∉ runing.map Prod.snd := by
    intro listed
    obtain ⟨d, member, same⟩ := List.mem_map.1 listed
    have after := (List.pairwise_cons.1 waiting.sorted).1 d member
    have deadlines : e.1 = d.1 := by
      rw [← (waiting.runing_state e List.mem_cons_self).2.2,
        ← (waiting.runing_state d (List.mem_cons_of_mem _ member)).2.2, same]
    rcases after with less | ⟨-, less⟩
    · exact absurd deadlines (Int.ne_of_lt less)
    · exact absurd same (Nat.ne_of_gt less)
  apply waiting.call first (List.Sublist.refl _) (List.sublist_cons_self ..)
    ⟨fun listed => Nat.lt_irrefl _ (waiting.behind e List.mem_cons_self _ listed), out⟩ ?_ right
    order number
  intro x
  rw [List.map_cons, List.mem_cons]
  grind

end TimerManager

end Librf
