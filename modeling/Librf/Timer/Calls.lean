import Librf.Timer.Waiting

/-!
# Each timer is called once, with the right flag
-/

namespace Librf

def TimerSection.older : TimerSection → Nat
  | .idle => 0
  | .moving older _ | .firing older _ _ | .clearingAdded older _ | .clearingRuning older _ => older

namespace TimerManager

def waitingAdded (s : TimerManager) : List Nat :=
  match s.timerSection with
  | .moving _ rest | .clearingAdded _ rest => rest ++ s.addedTimers
  | _ => s.addedTimers

def waitingRuning (s : TimerManager) : List (Int × Nat) :=
  match s.timerSection with
  | .firing _ _ iter => s.runingTimers.drop iter
  | .clearingRuning _ rest => rest
  | _ => s.runingTimers

structure Good (s : TimerManager) : Prop where
  waiting : Waiting s s.waitingAdded s.waitingRuning
  newer : ∀ t ∈ s.addedTimers, s.timerSection.older ≤ t
  bounded : s.timerSection.older ≤ s.created
  unfired : ∀ older rest, s.timerSection = .moving older rest →
    ∀ c ∈ s.calls, ∀ number now, c.cause = .fired number now → number < s.updates
  ahead : ∀ older now iter, s.timerSection = .firing older now iter →
    ∀ c ∈ s.calls, ∀ clock, c.cause = .fired s.updates clock →
      ∀ e ∈ s.runingTimers.drop iter, Before (s.deadline c.timer, c.timer) e
  emptied : ∀ older rest, s.timerSection = .clearingRuning older rest → s.runingTimers = []

variable {s : TimerManager}

theorem Good.initial : Good {} := by
  refine ⟨⟨.nil, .nil, ?_, ?_, ?_, ?_, ?_, .nil, .nil, ?_, ?_, .nil, ?_⟩, ?_, ?_, ?_, ?_, ?_⟩ <;>
    simp [waitingAdded, waitingRuning, Called, TimerSection.older]

theorem Good.add (good : Good s) (tp : Int) : Good (s.add tp) := by
  have added : (s.add tp).waitingAdded = s.waitingAdded ++ [s.created] := by
    simp only [waitingAdded, TimerManager.add, setTarget]
    split <;> simp
  have deadline : ∀ c ∈ s.calls, (s.add tp).deadline c.timer = s.deadline c.timer := by
    intro c member
    have old := (good.waiting.place c.timer).2 (.inr (.inr (List.mem_map_of_mem member)))
    exact congrArg _ (setTarget_other (Nat.ne_of_lt old) _)
  constructor
  · rw [added]
    exact good.waiting.add tp
  · intro t listed
    rcases List.mem_append.1 listed with before | last
    · exact good.newer t before
    · rw [List.mem_singleton] at last
      exact last ▸ good.bounded
  · exact Nat.le_succ_of_le good.bounded
  · exact good.unfired
  · intro older now iter here c member clock cause e listed
    rw [deadline c member]
    exact good.ahead older now iter here c member clock cause e listed
  · exact good.emptied

theorem Good.stop {t : Nat} (good : Good s) (old : t < s.created) : Good (s.stop t).2 := by
  have waiting := good.waiting.stop old
  by_cases finished : (s.targets t).st = .invalid
  · rw [stop_false finished]
    exact good
  have deadline := stop_deadline s t
  rw [stop_true finished] at waiting deadline ⊢
  refine ⟨waiting, good.newer, good.bounded, good.unfired, ?_, good.emptied⟩
  intro older now iter here c member clock cause e listed
  rw [deadline]
  exact good.ahead older now iter here c member clock cause e listed

theorem Good.beginUpdate (good : Good s) (here : s.timerSection = .idle) :
    Good s.beginUpdate := by
  have waiting : Waiting s s.addedTimers s.runingTimers := by
    simpa only [waitingAdded, waitingRuning, here] using good.waiting
  constructor
  · simp only [waitingAdded, waitingRuning, TimerManager.beginUpdate, List.append_nil]
    exact waiting.transfer rfl rfl (Nat.le_succ _) rfl rfl
  · simp [TimerManager.beginUpdate]
  · exact Nat.le_refl _
  · intro older rest _ c member number now cause
    exact Nat.lt_succ_of_le (waiting.numbered c member number now cause)
  · rintro older now iter ⟨⟩
  · rintro older rest ⟨⟩

theorem Good.move {older t : Nat} {rest : List Nat} (good : Good s)
    (here : s.timerSection = .moving older (t :: rest)) :
    Good { s.move t with timerSection := .moving older rest } := by
  have waiting : Waiting s (t :: (rest ++ s.addedTimers)) s.runingTimers := by
    simpa only [waitingAdded, waitingRuning, here, List.cons_append] using good.waiting
  have newer : ∀ x ∈ s.addedTimers, older ≤ x := by simpa [here, TimerSection.older] using good.newer
  have bounded : older ≤ s.created := by simpa [here, TimerSection.older] using good.bounded
  by_cases fresh : (s.targets t).st = .added
  · have moved := waiting.insert fresh
    rw [TimerManager.move, if_pos fresh] at moved ⊢
    exact ⟨moved.transfer rfl rfl (Nat.le_refl _) rfl rfl, newer, bounded,
      fun _ _ _ => good.unfired _ _ here, by rintro _ _ _ ⟨⟩, by rintro _ _ ⟨⟩⟩
  · have called : Waiting (s.callTarget t true .dropped) _ _ := waiting.call_added (by simp)
    have has := (waiting.added_state t List.mem_cons_self).1
    rw [TimerManager.move, if_neg fresh, callTarget_eq has]
    rw [callTarget_eq has] at called
    refine ⟨called.transfer rfl rfl (Nat.le_refl _) rfl rfl, newer, bounded, ?_,
      by rintro _ _ _ ⟨⟩, by rintro _ _ ⟨⟩⟩
    intro _ _ _ c member number now cause
    rcases List.mem_append.1 member with before | last
    · exact good.unfired _ _ here c before number now cause
    · rw [List.mem_singleton] at last
      subst last
      cases cause

theorem callTarget_deadline (s : TimerManager) (t : Nat) (canceled : Bool) (cause : TimerCause) :
    (s.callTarget t canceled cause).deadline = s.deadline := by
  unfold callTarget
  dsimp only
  split <;> exact setTarget_deadline t _ rfl

theorem Good.fire {older iter : Nat} {now : Int} (good : Good s)
    (here : s.timerSection = .firing older now iter) : Good (s.fire older now iter) := by
  have waiting : Waiting s s.addedTimers (s.runingTimers.drop iter) := by
    simpa only [waitingAdded, waitingRuning, here] using good.waiting
  have newer : ∀ x ∈ s.addedTimers, older ≤ x := by simpa [here, TimerSection.older] using good.newer
  have bounded : older ≤ s.created := by simpa [here, TimerSection.older] using good.bounded
  have ended : Good (s.endUpdate iter) :=
    ⟨waiting.transfer rfl rfl (Nat.le_refl _) rfl rfl, fun _ _ => Nat.zero_le _, Nat.zero_le _,
      by rintro _ _ ⟨⟩, by rintro _ _ _ ⟨⟩, by rintro _ _ ⟨⟩⟩
  unfold TimerManager.fire
  cases entry : s.runingTimers[iter]? with
  | none => exact ended
  | some e =>
      obtain ⟨tp, t⟩ := e
      dsimp only
      split
      · exact ended
      rename_i due
      have split : s.runingTimers.drop iter = (tp, t) :: s.runingTimers.drop (iter + 1) := by
        obtain ⟨bound, located⟩ := List.getElem?_eq_some_iff.1 entry
        rw [List.drop_eq_getElem_cons bound, located]
      have ahead := good.ahead older now iter here
      rw [split] at waiting ahead
      obtain ⟨has, unstopped, tp_eq⟩ := waiting.runing_state (tp, t) List.mem_cons_self
      have called : Waiting
          (s.callTarget t ((s.targets t).st == .invalid) (.fired s.updates now))
          s.addedTimers (s.runingTimers.drop (iter + 1)) := by
        apply waiting.call_runing
        · have reached : s.deadline t ≤ now := tp_eq ▸ Int.not_lt.1 due
          rcases unstopped with ⟨valid, never⟩ | ⟨finished, listed⟩
          · simp [RightFlag, valid, never, reached]
          · simp [RightFlag, finished, listed]
        · rintro c member number clock later cause ⟨⟩
          rw [tp_eq]
          exact ahead c member clock cause (tp, t) List.mem_cons_self
        · rintro n clock ⟨⟩
          exact Nat.le_refl _
      have deadline := callTarget_deadline s t ((s.targets t).st == .invalid)
        (.fired s.updates now)
      rw [callTarget_eq has] at called deadline ⊢
      refine ⟨called.transfer rfl rfl (Nat.le_refl _) rfl rfl, newer, bounded,
        by rintro _ _ ⟨⟩, ?_, by rintro _ _ ⟨⟩⟩
      rintro _ _ _ ⟨⟩ c member clock cause x listed
      have earlier : Before (s.deadline c.timer, c.timer) x := by
        rcases List.mem_append.1 member with before | last
        · exact ahead c before clock cause x (List.mem_cons_of_mem _ listed)
        · rw [List.mem_singleton] at last
          subst last
          dsimp only
          rw [tp_eq]
          exact (List.pairwise_cons.1 waiting.sorted).1 x listed
      rw [← deadline] at earlier
      exact earlier

theorem Good.clock {older : Nat} (good : Good s) (here : s.timerSection = .moving older [])
    (now : Int) : Good { s with timerSection := .firing older now 0 } := by
  have waiting : Waiting s s.addedTimers s.runingTimers := by
    simpa only [waitingAdded, waitingRuning, here, List.nil_append] using good.waiting
  refine ⟨waiting.transfer rfl rfl (Nat.le_refl _) rfl rfl, ?_, ?_, by rintro _ _ ⟨⟩, ?_,
    by rintro _ _ ⟨⟩⟩
  · simpa [here, TimerSection.older] using good.newer
  · simpa [here, TimerSection.older] using good.bounded
  · rintro _ _ _ ⟨⟩ c member clock cause
    exact absurd (good.unfired _ _ here c member _ _ cause) (Nat.lt_irrefl _)

theorem Good.idle (good : Good s) (added : s.waitingAdded = s.addedTimers)
    (runing : s.waitingRuning = s.runingTimers) : Good { s with timerSection := .idle } := by
  have waiting := good.waiting
  rw [added, runing] at waiting
  exact ⟨waiting.transfer rfl rfl (Nat.le_refl _) rfl rfl, fun _ _ => Nat.zero_le _, Nat.zero_le _,
    by rintro _ _ ⟨⟩, by rintro _ _ _ ⟨⟩, by rintro _ _ ⟨⟩⟩

theorem Good.clear (good : Good s) (here : s.timerSection = .idle) :
    Good { s with
      timerSection := .clearingAdded s.created s.addedTimers
      addedTimers := [] } := by
  have waiting : Waiting s s.addedTimers s.runingTimers := by
    simpa only [waitingAdded, waitingRuning, here] using good.waiting
  refine ⟨?_, by simp, Nat.le_refl _, by rintro _ _ ⟨⟩, by rintro _ _ _ ⟨⟩, by rintro _ _ ⟨⟩⟩
  simp only [waitingAdded, waitingRuning, List.append_nil]
  exact waiting.transfer rfl rfl (Nat.le_refl _) rfl rfl

theorem Good.clearAdded {older t : Nat} {rest : List Nat} (good : Good s)
    (here : s.timerSection = .clearingAdded older (t :: rest)) :
    Good { s.callTarget t true .cleared with timerSection := .clearingAdded older rest } := by
  have waiting : Waiting s (t :: (rest ++ s.addedTimers)) s.runingTimers := by
    simpa only [waitingAdded, waitingRuning, here, List.cons_append] using good.waiting
  have newer : ∀ x ∈ s.addedTimers, older ≤ x := by simpa [here, TimerSection.older] using good.newer
  have bounded : older ≤ s.created := by simpa [here, TimerSection.older] using good.bounded
  have called : Waiting (s.callTarget t true .cleared) _ _ := waiting.call_added (by simp)
  rw [callTarget_eq (waiting.added_state t List.mem_cons_self).1] at called ⊢
  exact ⟨called.transfer rfl rfl (Nat.le_refl _) rfl rfl, newer, bounded, by rintro _ _ ⟨⟩,
    by rintro _ _ _ ⟨⟩, by rintro _ _ ⟨⟩⟩

theorem Good.clearRuning {older t : Nat} {tp : Int} {rest : List (Int × Nat)} (good : Good s)
    (here : s.timerSection = .clearingRuning older ((tp, t) :: rest)) :
    Good { s.callTarget t true .cleared with timerSection := .clearingRuning older rest } := by
  have waiting : Waiting s s.addedTimers ((tp, t) :: rest) := by
    simpa only [waitingAdded, waitingRuning, here] using good.waiting
  have newer : ∀ x ∈ s.addedTimers, older ≤ x := by simpa [here, TimerSection.older] using good.newer
  have bounded : older ≤ s.created := by simpa [here, TimerSection.older] using good.bounded
  have called : Waiting (s.callTarget t true .cleared) _ _ := waiting.call_runing
    (by simp [RightFlag]) (by rintro c _ _ _ _ _ ⟨⟩) (by rintro _ _ ⟨⟩)
  rw [callTarget_eq (waiting.runing_state _ List.mem_cons_self).1] at called ⊢
  exact ⟨called.transfer rfl rfl (Nat.le_refl _) rfl rfl, newer, bounded, by rintro _ _ ⟨⟩,
    by rintro _ _ _ ⟨⟩, fun _ _ _ => good.emptied _ _ here⟩

theorem Good.clearNext {older : Nat} (good : Good s)
    (here : s.timerSection = .clearingAdded older []) :
    Good { s with
      timerSection := .clearingRuning older s.runingTimers
      runingTimers := [] } := by
  have waiting : Waiting s s.addedTimers s.runingTimers := by
    simpa only [waitingAdded, waitingRuning, here, List.nil_append] using good.waiting
  refine ⟨waiting.transfer rfl rfl (Nat.le_refl _) rfl rfl, ?_, ?_, by rintro _ _ ⟨⟩,
    by rintro _ _ _ ⟨⟩, fun _ _ _ => rfl⟩
  · simpa [here, TimerSection.older] using good.newer
  · simpa [here, TimerSection.older] using good.bounded

theorem step_cases {t : TimerManager} {action : TimerAction} (h : s.step action = some t) :
    (∃ tp, action = .add tp ∧ t = s.add tp) ∨
    (∃ x, action = .stop x ∧ x < s.created ∧ t = (s.stop x).2) ∨
    (action = .update ∧ s.timerSection = .idle ∧ t = s.beginUpdate) ∨
    (∃ now older, action = .clock now ∧ s.timerSection = .moving older [] ∧
      (s.runingTimers = [] ∧ t = { s with timerSection := .idle } ∨
        s.runingTimers ≠ [] ∧ t = { s with timerSection := .firing older now 0 })) ∨
    (action = .clear ∧ s.timerSection = .idle ∧
      t = { s with timerSection := .clearingAdded s.created s.addedTimers, addedTimers := [] }) ∨
    (∃ older x rest, s.timerSection = .moving older (x :: rest) ∧
      t = { s.move x with timerSection := .moving older rest }) ∨
    (∃ older now iter, s.timerSection = .firing older now iter ∧ t = s.fire older now iter) ∨
    (∃ older x rest, s.timerSection = .clearingAdded older (x :: rest) ∧
      t = { s.callTarget x true .cleared with timerSection := .clearingAdded older rest }) ∨
    (∃ older, s.timerSection = .clearingAdded older [] ∧
      t = { s with timerSection := .clearingRuning older s.runingTimers, runingTimers := [] }) ∨
    (∃ older tp x rest, s.timerSection = .clearingRuning older ((tp, x) :: rest) ∧
      t = { s.callTarget x true .cleared with timerSection := .clearingRuning older rest }) ∨
    (∃ older, s.timerSection = .clearingRuning older [] ∧ t = { s with timerSection := .idle }) := by
  cases action with
  | add tp => exact .inl ⟨tp, rfl, (Option.some.inj h).symm⟩
  | stop x =>
      simp only [step] at h
      split at h
      · exact .inr (.inl ⟨x, rfl, ‹_›, (Option.some.inj h).symm⟩)
      · cases h
  | update =>
      simp only [step] at h
      split at h
      · exact .inr (.inr (.inl ⟨rfl, ‹_›, (Option.some.inj h).symm⟩))
      · cases h
  | clock now =>
      simp only [step] at h
      split at h
      · rename_i older here
        refine .inr (.inr (.inr (.inl ⟨now, older, rfl, here, ?_⟩)))
        split at h
        · exact .inl ⟨‹_›, (Option.some.inj h).symm⟩
        · exact .inr ⟨‹_›, (Option.some.inj h).symm⟩
      · cases h
  | clear =>
      simp only [step] at h
      split at h
      · exact .inr (.inr (.inr (.inr (.inl ⟨rfl, ‹_›, (Option.some.inj h).symm⟩))))
      · cases h
  | next =>
      simp only [step] at h
      iterate 5 apply Or.inr
      split at h
      · exact .inl ⟨_, _, _, ‹_›, (Option.some.inj h).symm⟩
      · exact .inr (.inl ⟨_, _, _, ‹_›, (Option.some.inj h).symm⟩)
      · exact .inr (.inr (.inl ⟨_, _, _, ‹_›, (Option.some.inj h).symm⟩))
      · exact .inr (.inr (.inr (.inl ⟨_, ‹_›, (Option.some.inj h).symm⟩)))
      · exact .inr (.inr (.inr (.inr (.inl ⟨_, _, _, _, ‹_›, (Option.some.inj h).symm⟩))))
      · exact .inr (.inr (.inr (.inr (.inr ⟨_, ‹_›, (Option.some.inj h).symm⟩))))
      · cases h

theorem Good.step {t : TimerManager} {action : TimerAction} (good : Good s)
    (h : s.step action = some t) : Good t := by
  rcases step_cases h with ⟨tp, -, rfl⟩ | ⟨x, -, old, rfl⟩ | ⟨-, here, rfl⟩ |
    ⟨now, older, -, here, ⟨empty, rfl⟩ | ⟨-, rfl⟩⟩ | ⟨-, here, rfl⟩ | ⟨older, x, rest, here, rfl⟩ |
    ⟨older, now, iter, here, rfl⟩ | ⟨older, x, rest, here, rfl⟩ | ⟨older, here, rfl⟩ |
    ⟨older, tp, x, rest, here, rfl⟩ | ⟨older, here, rfl⟩
  · exact good.add tp
  · exact good.stop old
  · exact good.beginUpdate here
  · exact good.idle (by simp [waitingAdded, here]) (by simp [waitingRuning, here])
  · exact good.clock here now
  · exact good.clear here
  · exact good.move here
  · exact good.fire here
  · exact good.clearAdded here
  · exact good.clearNext here
  · exact good.clearRuning here
  · apply good.idle (by simp [waitingAdded, here])
    simp [waitingRuning, here, good.emptied older [] here]

theorem good_of_reachable (reachable : system.Reachable s) : Good s := by
  have inductive_ : system.Inductive (fun _ _ => True) Good :=
    ⟨Good.initial, fun _ _ _ _ good _ h => good.step h⟩
  exact inductive_.holds reachable

/-! ## What later states keep -/

structure Later (s t : TimerManager) : Prop where
  created : s.created ≤ t.created
  deadline : ∀ x < s.created, t.deadline x = s.deadline x
  called : ∀ x, s.Called x → t.Called x
  updates : s.updates ≤ t.updates

theorem Later.refl (s : TimerManager) : Later s s :=
  ⟨Nat.le_refl _, fun _ _ => rfl, fun _ => id, Nat.le_refl _⟩

theorem Later.trans {t u : TimerManager} (first : Later s t) (second : Later t u) : Later s u := by
  refine ⟨Nat.le_trans first.created second.created, ?_,
    fun x => second.called x ∘ first.called x, Nat.le_trans first.updates second.updates⟩
  intro x old
  rw [second.deadline x (Nat.lt_of_lt_of_le old first.created), first.deadline x old]

theorem later_callTarget (s : TimerManager) (t : Nat) (canceled : Bool) (cause : TimerCause) :
    Later s (s.callTarget t canceled cause) := by
  have deadline := callTarget_deadline s t canceled cause
  cases has : (s.targets t).cb with
  | true =>
      rw [callTarget_eq has] at deadline ⊢
      exact ⟨Nat.le_refl _, fun x _ => congrFun deadline x, by simp +contextual [Called],
        Nat.le_refl _⟩
  | false =>
      have same := setTarget_deadline (s := s) t { s.targets t with cb := false, st := .invalid } rfl
      rw [callTarget, if_neg (by simp [has])]
      exact ⟨Nat.le_refl _, fun x _ => congrFun same x, fun _ => id, Nat.le_refl _⟩

theorem later_move (s : TimerManager) (t : Nat) : Later s (s.move t) := by
  have deadline := setTarget_deadline (s := s) t { s.targets t with st := .runing } rfl
  unfold move
  split
  · exact ⟨Nat.le_refl _, fun x _ => congrFun deadline x, fun _ => id, Nat.le_refl _⟩
  · exact later_callTarget ..

theorem later_stop (s : TimerManager) (t : Nat) : Later s (s.stop t).2 := by
  have deadline := stop_deadline s t
  by_cases finished : (s.targets t).st = .invalid
  · rw [stop_false finished]
    exact Later.refl s
  · rw [stop_true finished] at deadline ⊢
    exact ⟨Nat.le_refl _, fun x _ => congrFun deadline x, fun _ => id, Nat.le_refl _⟩

theorem later_fire (s : TimerManager) (older : Nat) (now : Int) (iter : Nat) :
    Later s (s.fire older now iter) := by
  unfold fire
  split
  · exact ⟨Nat.le_refl _, fun _ _ => rfl, fun _ => id, Nat.le_refl _⟩
  · split
    · exact ⟨Nat.le_refl _, fun _ _ => rfl, fun _ => id, Nat.le_refl _⟩
    · obtain ⟨created, deadline, called, updates⟩ := later_callTarget s _ _ _
      exact ⟨created, deadline, called, updates⟩

theorem later_step {t : TimerManager} {action : TimerAction} (h : s.step action = some t) :
    Later s t := by
  rcases step_cases h with ⟨tp, -, rfl⟩ | ⟨x, -, old, rfl⟩ | ⟨-, here, rfl⟩ |
    ⟨now, older, -, here, ⟨empty, rfl⟩ | ⟨-, rfl⟩⟩ | ⟨-, here, rfl⟩ | ⟨older, x, rest, here, rfl⟩ |
    ⟨older, now, iter, here, rfl⟩ | ⟨older, x, rest, here, rfl⟩ | ⟨older, here, rfl⟩ |
    ⟨older, tp, x, rest, here, rfl⟩ | ⟨older, here, rfl⟩
  · refine ⟨Nat.le_succ _, fun x old => ?_, fun _ => id, Nat.le_refl _⟩
    exact congrArg _ (setTarget_other (Nat.ne_of_lt old) _)
  · exact later_stop s x
  · exact ⟨Nat.le_refl _, fun _ _ => rfl, fun _ => id, Nat.le_succ _⟩
  · exact ⟨Nat.le_refl _, fun _ _ => rfl, fun _ => id, Nat.le_refl _⟩
  · exact ⟨Nat.le_refl _, fun _ _ => rfl, fun _ => id, Nat.le_refl _⟩
  · exact ⟨Nat.le_refl _, fun _ _ => rfl, fun _ => id, Nat.le_refl _⟩
  · obtain ⟨created, deadline, called, updates⟩ := later_move s x
    exact ⟨created, deadline, called, updates⟩
  · exact later_fire ..
  · obtain ⟨created, deadline, called, updates⟩ := later_callTarget s x true .cleared
    exact ⟨created, deadline, called, updates⟩
  · exact ⟨Nat.le_refl _, fun _ _ => rfl, fun _ => id, Nat.le_refl _⟩
  · obtain ⟨created, deadline, called, updates⟩ := later_callTarget s x true .cleared
    exact ⟨created, deadline, called, updates⟩
  · exact ⟨Nat.le_refl _, fun _ _ => rfl, fun _ => id, Nat.le_refl _⟩

theorem later_replay {t : TimerManager} {actions : List TimerAction}
    (reachable : system.Reachable s) (run : system.replay s actions = some t) : Later s t :=
  reachable.keeps run (Later.refl s) fun _ _ _ _ later h => later.trans (later_step h)

end TimerManager

end Librf
