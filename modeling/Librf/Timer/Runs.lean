import Librf.Timer.Calls

/-!
# What a whole `update` and a whole `clear` call
-/

namespace Librf

namespace TimerManager

variable {s : TimerManager} {x : Nat}

/-- A `clear` that began after the addition of `x` is at work, or `x` has been called. -/
def Clearing (x : Nat) (s : TimerManager) : Prop :=
  s.Called x ∨ x < s.timerSection.older ∧
    ((∃ older rest, s.timerSection = .clearingAdded older rest) ∨
      ∃ older rest, s.timerSection = .clearingRuning older rest)

/-- An `update` that began after the addition of `x` is in its second loop, with a clock that has
reached `deadline`, or `x` has been called. -/
def Firing (x : Nat) (deadline : Int) (s : TimerManager) : Prop :=
  s.Called x ∨ s.deadline x = deadline ∧
    ∃ older now iter, s.timerSection = .firing older now iter ∧ x < older ∧ deadline ≤ now

/-- No `update` but this one has begun, and this one began after the addition of `x`. -/
def Updating (number x : Nat) (s : TimerManager) : Prop :=
  number ≤ s.updates ∧ (s.updates = number →
    ∀ older rest, s.timerSection = .moving older rest → x < older)

theorem Good.called_of_gone (good : Good s) (old : x < s.created)
    (added : x ∉ s.waitingAdded) (runing : x ∉ s.waitingRuning.map Prod.snd) : s.Called x :=
  (((good.waiting.place x).1 old).resolve_left added).resolve_left runing

theorem Good.not_newer (good : Good s) (older : x < s.timerSection.older) :
    x ∉ s.addedTimers ∧ x < s.created :=
  ⟨fun listed => absurd (good.newer x listed) (Nat.not_le_of_lt older),
    Nat.lt_of_lt_of_le older good.bounded⟩

theorem Clearing.step {t : TimerManager} {action : TimerAction} (clearing : s.Clearing x)
    (good : Good s) (h : s.step action = some t) : t.Clearing x := by
  have later := later_step h
  rcases clearing with called | ⟨older, work⟩
  · exact .inl (later.called x called)
  rcases step_cases h with ⟨tp, -, rfl⟩ | ⟨y, -, -, rfl⟩ | ⟨-, here, rfl⟩ |
    ⟨now, n, -, here, ⟨empty, rfl⟩ | ⟨-, rfl⟩⟩ | ⟨-, here, rfl⟩ | ⟨n, y, rest, here, rfl⟩ |
    ⟨n, now, iter, here, rfl⟩ | ⟨n, y, rest, here, rfl⟩ | ⟨n, here, rfl⟩ |
    ⟨n, tp, y, rest, here, rfl⟩ | ⟨n, here, rfl⟩
  · exact .inr ⟨older, work⟩
  · have same : (s.stop y).2.timerSection = s.timerSection := by
      unfold TimerManager.stop
      split <;> rfl
    rw [Clearing, same]
    exact .inr ⟨older, work⟩
  all_goals simp only [here, reduceCtorEq, exists_false, or_self] at work
  all_goals rw [here] at older
  · exact .inr ⟨older, .inl ⟨_, _, rfl⟩⟩
  · exact .inr ⟨older, .inr ⟨_, _, rfl⟩⟩
  · exact .inr ⟨older, .inr ⟨_, _, rfl⟩⟩
  · left
    have gone := good.not_newer (x := x) (by rwa [here])
    apply good.called_of_gone gone.2
    · simpa [waitingAdded, here] using gone.1
    · simp [waitingRuning, here]

theorem Firing.step {t : TimerManager} {action : TimerAction} {deadline : Int}
    (firing : s.Firing x deadline) (good : Good s) (h : s.step action = some t) :
    t.Firing x deadline := by
  have later := later_step h
  rcases firing with called | ⟨deadline_eq, n, now, iter, here, older, reached⟩
  · exact .inl (later.called x called)
  have gone := good.not_newer (x := x) (by rwa [here])
  have same : t.deadline x = deadline := (later.deadline x gone.2).trans deadline_eq
  rcases step_cases h with ⟨tp, -, rfl⟩ | ⟨y, -, -, rfl⟩ | ⟨-, here', rfl⟩ |
    ⟨now', n', -, here', -⟩ | ⟨-, here', rfl⟩ | ⟨n', y, rest, here', rfl⟩ |
    ⟨n', now', iter', here', rfl⟩ | ⟨n', y, rest, here', rfl⟩ | ⟨n', here', rfl⟩ |
    ⟨n', tp, y, rest, here', rfl⟩ | ⟨n', here', rfl⟩
  · exact .inr ⟨same, n, now, iter, here, older, reached⟩
  · refine .inr ⟨same, n, now, iter, ?_, older, reached⟩
    unfold TimerManager.stop
    split <;> exact here
  all_goals
    rw [here] at here'
    try cases here'
  have ended (late : ∀ e ∈ s.runingTimers.drop iter, now < e.1) : s.Called x := by
    apply good.called_of_gone gone.2
    · simpa [waitingAdded, here] using gone.1
    · intro listed
      obtain ⟨e, member, rfl⟩ := List.mem_map.1 listed
      have entry : e ∈ s.runingTimers.drop iter := by simpa [waitingRuning, here] using member
      have tp := (good.waiting.runing_state e member).2.2
      have := late e entry
      omega
  cases entry : s.runingTimers[iter]? with
  | none =>
      left
      apply later.called x
      apply ended
      rw [List.drop_eq_nil_of_le (List.getElem?_eq_none_iff.1 entry)]
      simp
  | some e =>
      obtain ⟨tp, y⟩ := e
      by_cases late : tp > now
      · left
        apply later.called x
        apply ended
        obtain ⟨bound, located⟩ := List.getElem?_eq_some_iff.1 entry
        have sorted := good.waiting.sorted
        simp only [waitingRuning, here] at sorted
        rw [List.drop_eq_getElem_cons bound, located] at sorted ⊢
        intro e member
        rcases List.mem_cons.1 member with rfl | behind
        · exact late
        · rcases (List.pairwise_cons.1 sorted).1 e behind with less | ⟨equal, -⟩
          · exact Int.lt_trans late less
          · exact equal ▸ late
      · refine .inr ⟨same, n, now, iter + 1, ?_, older, reached⟩
        simp [TimerManager.fire, entry, late]

theorem Updating.step {t : TimerManager} {action : TimerAction} {number : Nat}
    (updating : s.Updating number x) (h : s.step action = some t) : t.Updating number x := by
  obtain ⟨least, moving⟩ := updating
  refine ⟨Nat.le_trans least (later_step h).updates, ?_⟩
  rcases step_cases h with ⟨tp, -, rfl⟩ | ⟨y, -, -, rfl⟩ | ⟨-, here, rfl⟩ |
    ⟨now, n, -, here, ⟨empty, rfl⟩ | ⟨-, rfl⟩⟩ | ⟨-, here, rfl⟩ | ⟨n, y, rest, here, rfl⟩ |
    ⟨n, now, iter, here, rfl⟩ | ⟨n, y, rest, here, rfl⟩ | ⟨n, here, rfl⟩ |
    ⟨n, tp, y, rest, here, rfl⟩ | ⟨n, here, rfl⟩
  · exact moving
  · have same : (s.stop y).2.timerSection = s.timerSection ∧ (s.stop y).2.updates = s.updates := by
      unfold TimerManager.stop
      split <;> exact ⟨rfl, rfl⟩
    rwa [same.1, same.2]
  · intro same
    exact absurd same (Nat.ne_of_gt (Nat.lt_succ_of_le least))
  · rintro - _ _ ⟨⟩
  · rintro - _ _ ⟨⟩
  · rintro - _ _ ⟨⟩
  · rintro same _ _ ⟨⟩
    refine moving (same ▸ ?_) n _ here
    unfold TimerManager.move callTarget
    dsimp only
    split
    · rfl
    · split <;> rfl
  · intro same older rest section_
    unfold TimerManager.fire at section_
    split at section_
    · cases section_
    · split at section_ <;> cases section_
  · rintro - _ _ ⟨⟩
  · rintro - _ _ ⟨⟩
  · rintro - _ _ ⟨⟩
  · rintro - _ _ ⟨⟩

theorem called_by_clear {t u : TimerManager} {actions : List TimerAction}
    (reachable : system.Reachable s) (old : x < s.created) (clear : s.step .clear = some t)
    (run : system.replay t actions = some u) (finished : u.timerSection = .idle) : u.Called x := by
  have begins : t.Clearing x := by
    simp only [step] at clear
    split at clear
    · cases clear
      exact .inr ⟨old, .inl ⟨_, _, rfl⟩⟩
    · cases clear
  have reached : system.Reachable t := reachable.next .clear clear trivial
  have clearing : u.Clearing x := reached.keeps run begins
    fun _ _ _ later clearing h => clearing.step (good_of_reachable later) h
  simpa [Clearing, finished, TimerSection.older] using clearing

theorem called_by_update {t u v w : TimerManager} {before after : List TimerAction} {now : Int}
    (reachable : system.Reachable s) (old : x < s.created) (reached : s.deadline x ≤ now)
    (update : s.step .update = some t) (turns : system.replay t before = some u)
    (same : u.updates = t.updates) (clock : u.step (.clock now) = some v)
    (run : system.replay v after = some w) (finished : w.timerSection = .idle) : w.Called x := by
  have begins : t.Updating t.updates x := by
    simp only [step] at update
    split at update
    · cases update
      refine ⟨Nat.le_refl _, ?_⟩
      rintro - _ _ ⟨⟩
      exact old
    · cases update
  have at_t : system.Reachable t := reachable.next .update update trivial
  have at_u : system.Reachable u := Transition.System.Reachable.replay at_t turns
  have at_v : system.Reachable v := at_u.next (.clock now) clock trivial
  have updating : u.Updating t.updates x := at_t.keeps turns begins
    fun _ _ _ _ updating h => updating.step h
  have later : Later s u := (later_step update).trans (later_replay at_t turns)
  have deadline := later.deadline x old
  have firing : v.Firing x (s.deadline x) := by
    simp only [step] at clock
    split at clock
    · rename_i n here
      split at clock
      · rename_i empty
        cases clock
        left
        have good := good_of_reachable at_u
        have gone := good.not_newer (x := x) (here ▸ updating.2 same n [] here)
        apply good.called_of_gone gone.2
        · simpa [waitingAdded, here] using gone.1
        · simp [waitingRuning, here, empty]
      · cases clock
        exact .inr ⟨deadline, n, now, 0, rfl, updating.2 same n [] here, reached⟩
    · cases clock
  have fired : w.Firing x (s.deadline x) := at_v.keeps run firing
    fun _ _ _ later firing h => firing.step (good_of_reachable later) h
  simpa [Firing, finished] using fired

/-- The turns that `update` or `clear` still has to take. -/
def turns (s : TimerManager) : Nat :=
  match s.timerSection with
  | .idle => 0
  | .moving _ rest => 2 * rest.length + s.runingTimers.length + 2
  | .firing _ _ iter => s.runingTimers.length - iter + 1
  | .clearingAdded _ rest => rest.length + s.runingTimers.length + 2
  | .clearingRuning _ rest => rest.length + 1

theorem callTarget_runingTimers (s : TimerManager) (t : Nat) (canceled : Bool)
    (cause : TimerCause) : (s.callTarget t canceled cause).runingTimers = s.runingTimers := by
  unfold callTarget
  dsimp only
  split <;> rfl

theorem move_runingTimers (s : TimerManager) (t : Nat) :
    (s.move t).runingTimers.length ≤ s.runingTimers.length + 1 := by
  unfold move
  split
  · exact Nat.le_of_eq (insert_perm (s.targets t).tp t s.runingTimers).length_eq
  · rw [callTarget_runingTimers]
    exact Nat.le_succ _

theorem turns_step {t : TimerManager} {action : TimerAction} (h : s.step action = some t)
    (busy : s.timerSection ≠ .idle) :
    t.turns < s.turns ∨ t.turns = s.turns ∧
      ((∃ tp, action = .add tp) ∨ ∃ y, action = .stop y) := by
  rcases step_cases h with ⟨tp, rfl, rfl⟩ | ⟨y, rfl, -, rfl⟩ | ⟨-, here, rfl⟩ |
    ⟨now, n, -, here, ⟨empty, rfl⟩ | ⟨-, rfl⟩⟩ | ⟨-, here, rfl⟩ | ⟨n, y, rest, here, rfl⟩ |
    ⟨n, now, iter, here, rfl⟩ | ⟨n, y, rest, here, rfl⟩ | ⟨n, here, rfl⟩ |
    ⟨n, tp, y, rest, here, rfl⟩ | ⟨n, here, rfl⟩
  · exact .inr ⟨rfl, .inl ⟨tp, rfl⟩⟩
  · refine .inr ⟨?_, .inr ⟨y, rfl⟩⟩
    unfold TimerManager.stop
    split <;> rfl
  · exact absurd here busy
  · simp [turns, here]
  · simp [turns, here]
  · exact absurd here busy
  · left
    have longer := move_runingTimers s y
    simp only [turns, here, List.length_cons]
    omega
  · left
    unfold TimerManager.fire
    split
    · simp [turns, here, endUpdate]
    · rename_i tp y entry
      split
      · simp [turns, here, endUpdate]
      · obtain ⟨bound, -⟩ := List.getElem?_eq_some_iff.1 entry
        simp only [turns, here, callTarget_runingTimers]
        omega
  · left
    simp [turns, here, callTarget_runingTimers]
  · left
    simp [turns, here]
  · left
    simp [turns, here]
  · left
    simp [turns, here]

theorem turn_enabled (busy : s.timerSection ≠ .idle) :
    (s.step .next).isSome ∨ ∀ now, (s.step (.clock now)).isSome := by
  cases here : s.timerSection with
  | idle => exact absurd here busy
  | moving older rest =>
      cases rest with
      | nil =>
          right
          intro now
          simp only [step, here]
          split <;> rfl
      | cons t rest => simp [step, here]
  | firing older now iter => simp [step, here]
  | clearingAdded older rest => cases rest <;> simp [step, here]
  | clearingRuning older rest => cases rest <;> simp [step, here]

structure CalledBack (s : TimerManager) : Prop where
  once : (s.calls.map (·.timer)).Nodup
  by_clear : ∀ x < s.created, ∀ t actions u, s.step .clear = some t →
    system.replay t actions = some u → u.timerSection = .idle → u.Called x
  by_update : ∀ x < s.created, ∀ t before u now v after w, s.step .update = some t →
    system.replay t before = some u → u.updates = t.updates → u.step (.clock now) = some v →
    system.replay v after = some w → w.timerSection = .idle → s.deadline x ≤ now → w.Called x
  flag : ∀ c ∈ s.calls, s.RightFlag c
  stopped_once : s.stopped.Nodup
  stopped_uncalled : ∀ x < s.created, (s.stop x).1 = true → x ∉ s.stopped ∧ ¬ s.Called x
  in_order : s.calls.Pairwise (InOrder s.deadline)

theorem called_back (reachable : system.Reachable s) : s.CalledBack := by
  have waiting := (good_of_reachable reachable).waiting
  constructor
  · exact waiting.once
  · exact fun x old t actions u clear run finished => called_by_clear reachable old clear run finished
  · exact fun x old t before u now v after w update turns same clock run finished reached =>
      called_by_update reachable old reached update turns same clock run finished
  · exact waiting.flag
  · exact waiting.stopped_once
  · intro x old stops
    apply waiting.st_of_created old
    intro finished
    rw [stop_false finished] at stops
    cases stops
  · exact waiting.in_order

/-- The second of three timers stops the third, which the same `update` then calls as canceled; the
first has the later deadline and waits for `clear`. -/
theorem called_back_canceled : ∃ s, system.Reachable s ∧
    s.calls = [⟨1, false, .fired 1 5⟩, ⟨2, true, .fired 1 5⟩, ⟨0, true, .cleared⟩] ∧
    s.CalledBack := by
  obtain ⟨s, reachable, calls⟩ := system.reachable_of_replay
    [.add 9, .add 3, .add 4, .update, .next, .next, .next, .clock 5, .next, .stop 2, .next, .next,
      .clear, .next, .next, .next]
    (fun s => s.calls == [⟨1, false, .fired 1 5⟩, ⟨2, true, .fired 1 5⟩, ⟨0, true, .cleared⟩])
    (by decide)
  exact ⟨s, reachable, by simpa using calls, called_back reachable⟩

end TimerManager

end Librf
