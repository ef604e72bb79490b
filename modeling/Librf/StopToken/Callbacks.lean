import Librf.StopToken.Packed

/-!
# What a stop request does to the callbacks

All of this holds in every run of the code on the packed word, whatever the threads do.
-/

namespace Librf.StopToken

open Transition

theorem Frame.plays_map {V W : Type} (enc : V → W) (f : Frame V) (r : Role) :
    (f.map enc).plays r = f.plays r := by
  cases f with
  | locked call => cases r <;> cases call <;> rfl
  | _ => cases r <;> rfl

/-! ## The lock and the flag -/

variable {s s' : State Fields}

theorem locked_iff (reachable : (system Fields.ops).Reachable s) :
    s.word.locked = true ↔ ∃ t call, .locked call ∈ s.threads t := by
  obtain ⟨holder, signaller, c⟩ := control reachable
  rw [c.locked]
  constructor
  · intro some_
    obtain ⟨t, rfl⟩ := Option.isSome_iff_exists.1 some_
    obtain ⟨f, member, plays⟩ := (c.cast .holder).exists_mem
    cases f with
    | locked call => exact ⟨t, call, member⟩
    | loading call | swapping call old => cases call <;> cases plays
    | _ => cases plays
  · rintro ⟨t, call, member⟩
    have holds : holder = some t := (c.cast .holder).owner_of_mem member (Control.plays_holder call)
    rw [holds]
    rfl

theorem requested_of_answers (reachable : (system Fields.ops).Reachable s)
    (answered : s.answers ≠ []) : s.word.requested = true := by
  induction reachable with
  | init => exact absurd rfl answered
  | step previous _ action ih =>
      have effects := effects previous action
      rcases effects.answers with same | requested
      · rcases effects.requested with kept | ⟨requested, -⟩
        · rw [kept]
          exact ih (same ▸ answered)
        · exact requested
      · rcases effects.requested with kept | ⟨requested, -⟩
        · rwa [kept]
        · exact requested

theorem signaller_none_of_quiet {holder signaller : Option Nat} (c : Control s holder signaller)
    (quiet : ∀ t, ∀ f ∈ s.threads t, f.plays .signaller = false) : signaller = none := by
  by_contra some_
  obtain ⟨t, rfl⟩ := Option.ne_none_iff_exists'.1 some_
  obtain ⟨f, member, plays⟩ := (c.cast .signaller).exists_mem
  rw [quiet t f member] at plays
  cases plays

theorem signaller_none_of_true {holder signaller : Option Nat} (c : Control s holder signaller)
    (won : true ∈ s.answers) : signaller = none := by
  have positive := List.count_pos_iff.2 won
  have answers := c.answers
  cases signaller with
  | none => rfl
  | some t =>
      rw [Option.isSome_some, if_pos rfl] at answers
      split at answers <;> omega

variable {p : State UInt64}

/-- Between an exchange that sets the lock bit and the subtraction that clears it there is one
thread, and the bit is set as long as it is there. -/
theorem lock_exclusive (reachable : (system packedOps).ReachableBy Fitting p) :
    (packedOps.isLocked p.word = true ↔ ∃ t call, .locked call ∈ p.threads t) ∧
      ∀ t u call call', .locked call ∈ p.threads t → .locked call' ∈ p.threads u →
        t = u ∧ call = call' := by
  obtain ⟨s, reached, fit, rfl⟩ := exists_fields reachable
  have inside (t : Nat) (call : Call) :
      .locked call ∈ (s.map Fields.pack).threads t ↔ .locked call ∈ s.threads t := by
    refine List.mem_map.trans ⟨?_, fun member => ⟨_, member, rfl⟩⟩
    rintro ⟨f, member, same⟩
    cases f <;> cases same
    exact member
  constructor
  · rw [show packedOps.isLocked (s.map Fields.pack).word = s.word.locked from
      Fields.isLocked_pack fit.word, locked_iff reached]
    simp only [inside]
  · intro t u call call' here there
    rw [inside] at here there
    obtain ⟨_, _, c⟩ := control reached
    obtain ⟨same, same'⟩ := (c.cast .holder).unique here there (Control.plays_holder call)
      (Control.plays_holder call')
    cases same'
    exact ⟨same, rfl⟩

/-- Thread 1 registers a callback while thread 2 wants to unlink another one. -/
theorem lock_exclusive_register : ∃ p : State UInt64,
    .locked (.tryAddCallback 0 6 true) ∈ p.threads 1 ∧ packedOps.isLocked p.word = true ∧
      ∀ u call, .locked call ∈ p.threads u → 1 = u ∧ .tryAddCallback 0 6 true = call := by
  obtain ⟨p, reachable, inside⟩ := (system packedOps).reachableBy_of_replay Fitting
    [.getToken 0 0, .construct 2 0 5 true, .step 2 false, .step 2 false, .step 2 false,
      .construct 1 0 6 true, .destroy 2 5, .step 2 false, .step 1 false, .step 1 false,
      .step 2 false]
    (fun p => decide (.locked (.tryAddCallback 0 6 true) ∈ p.threads 1)) (by decide)
  have inside := of_decide_eq_true inside
  obtain ⟨locked, only⟩ := lock_exclusive reachable
  exact ⟨p, inside, locked.2 ⟨1, _, inside⟩, fun u call there => only 1 u _ call inside there⟩

/-- One call of `request_stop` returns true. None returns before the flag is set, and when nobody
is in the loop after that, one has returned true. -/
theorem one_winner (reachable : (system packedOps).ReachableBy Fitting p) :
    p.answers.count true ≤ 1 ∧
      (p.answers ≠ [] → packedOps.isStopRequested p.word = true) ∧
      (packedOps.isStopRequested p.word = true →
        (∀ t, ∀ f ∈ p.threads t, f.plays .signaller = false) → p.answers.count true = 1) := by
  obtain ⟨s, reached, fit, rfl⟩ := exists_fields reachable
  obtain ⟨holder, signaller, c⟩ := control reached
  have answers := c.answers
  rw [show packedOps.isStopRequested (s.map Fields.pack).word = s.word.requested from
    Fields.isStopRequested_pack fit.word]
  refine ⟨?_, requested_of_answers reached, fun requested quiet => ?_⟩
  · have bound : (if s.word.requested = true then 1 else 0) ≤ 1 := by split <;> decide
    change s.answers.count true ≤ 1
    omega
  · change s.answers.count true = 1
    have nobody := signaller_none_of_quiet c fun t f member => by
      have plays := quiet t (f.map Fields.pack) (List.mem_map_of_mem member)
      rwa [Frame.plays_map] at plays
    rw [nobody, requested] at answers
    exact answers

theorem one_winner_race : ∃ p : State UInt64, p.answers = [false, true] ∧
    p.answers.count true ≤ 1 ∧ packedOps.isStopRequested p.word = true := by
  obtain ⟨p, reachable, answers⟩ := (system packedOps).reachableBy_of_replay Fitting
    [.requestStop 1 0, .requestStop 2 0, .step 1 false, .step 2 false, .step 2 false, .step 1 false,
      .step 2 false]
    (fun p => p.answers == [false, true]) (by decide)
  have answers : p.answers = [false, true] := by simpa using answers
  obtain ⟨one, flagged, -⟩ := one_winner reachable
  exact ⟨p, answers, one, flagged (by rw [answers]; nofun)⟩

/-! ## Which callbacks are called -/

theorem filter_of_sublist {α : Type*} {l all : List α} {q : α → Bool} (sub : l.Sublist all)
    (nodup : all.Nodup) (same : ∀ a ∈ all, a ∈ l ↔ q a = true) : l = all.filter q := by
  induction sub with
  | slnil => rfl
  | @cons l all a sub ih =>
      obtain ⟨fresh, nodup⟩ := List.nodup_cons.1 nodup
      have skipped : ¬ q a = true := fun is =>
        fresh (sub.subset ((same a List.mem_cons_self).2 is))
      rw [List.filter_cons_of_neg skipped]
      exact ih nodup fun b member => same b (List.mem_cons_of_mem a member)
  | @cons_cons l all a sub ih =>
      obtain ⟨fresh, nodup⟩ := List.nodup_cons.1 nodup
      rw [List.filter_cons_of_pos ((same a List.mem_cons_self).1 List.mem_cons_self)]
      congr 1
      apply ih nodup
      intro b member
      have other : b ≠ a := fun here => fresh (here ▸ member)
      rw [← same b (List.mem_cons_of_mem a member), List.mem_cons, or_iff_right other]

/-- The code of a callback is entered once at most, whether `request_stop` calls it or the
constructor that comes too late. -/
theorem called_once (reachable : (system packedOps).ReachableBy Fitting p) :
    (p.called ++ p.refused).Nodup := by
  obtain ⟨s, reached, -, rfl⟩ := exists_fields reachable
  obtain ⟨items, m⟩ := memory reached
  have sub : s.called.Sublist s.registered.reverse :=
    (List.sublist_append_left s.called items).trans m.order
  apply List.Nodup.append (sub.nodup (List.nodup_reverse.2 m.nodup)) m.refusals.1
  intro cb called refused
  exact m.refusals.2 cb refused (List.mem_reverse.1 (sub.subset called))

/-- A callback that `request_stop` calls and one that its constructor calls. -/
theorem called_once_late : ∃ p : State UInt64, p.called = [5] ∧ p.refused = [6] ∧
    (p.called ++ p.refused).Nodup := by
  obtain ⟨p, reachable, calls⟩ := (system packedOps).reachableBy_of_replay Fitting
    [.getToken 0 0, .construct 1 0 5 true, .step 1 false, .step 1 false, .step 1 false,
      .requestStop 2 0, .step 2 false, .step 2 false, .step 2 false, .step 2 false,
      .construct 1 0 6 false, .step 1 false]
    (fun p => p.called == [5] && p.refused == [6]) (by decide)
  obtain ⟨called, refused⟩ : p.called = [5] ∧ p.refused = [6] := by simpa using calls
  exact ⟨p, called, refused, called_once reachable⟩

/-- Callbacks are called in the order opposite to that of their registration. When `request_stop`
has returned true, the callbacks that it has called are those that no destructor had unlinked, and
none is left. -/
theorem called_all (reachable : (system packedOps).ReachableBy Fitting p) :
    p.called.Sublist p.registered.reverse ∧ (true ∈ p.answers → p.list.head = none ∧
      p.called = p.registered.reverse.filter fun cb => cb ∉ p.withdrawn) := by
  obtain ⟨s, reached, -, rfl⟩ := exists_fields reachable
  obtain ⟨items, m⟩ := memory reached
  obtain ⟨holder, signaller, c⟩ := control reached
  have sub : s.called.Sublist s.registered.reverse :=
    (List.sublist_append_left s.called items).trans m.order
  refine ⟨sub, fun won => ?_⟩
  change true ∈ s.answers at won
  have requested := requested_of_answers reached (List.ne_nil_of_mem won)
  have nobody := signaller_none_of_true c won
  subst nobody
  have quiet (t : Nat) : ∀ f ∈ s.threads t, f.plays .signaller = false :=
    (c.cast .signaller).not_mem t
  have empty := m.ended requested quiet
  subst empty
  refine ⟨m.lists.head, filter_of_sublist sub (List.nodup_reverse.2 m.nodup) ?_⟩
  intro cb member
  simp only [decide_eq_true_eq]
  constructor
  · exact fun called withdrawn => (m.withdrawn cb withdrawn).2 called
  · intro kept
    rcases m.complete cb (List.mem_reverse.1 member) with called | inside | withdrawn | calling
    · exact called
    · cases inside
    · exact absurd withdrawn kept
    · obtain ⟨t, h, anyMore, calling⟩ := calling
      cases quiet t _ calling

/-- Of three callbacks the second one is destroyed in the callback of the third. With fewer sources
the code would delete the state there. -/
theorem called_all_nested : ∃ p : State UInt64, p.called = [7, 5] ∧
    p.called = p.registered.reverse.filter fun cb => cb ∉ p.withdrawn := by
  obtain ⟨p, reachable, answers⟩ := (system packedOps).reachableBy_of_replay Fitting
    [.copySource 0 1, .copySource 0 2, .getToken 0 0,
      .construct 1 0 5 true, .step 1 false, .step 1 false, .step 1 false,
      .construct 1 0 6 true, .step 1 false, .step 1 false, .step 1 false,
      .construct 1 0 7 true, .step 1 false, .step 1 false, .step 1 false,
      .requestStop 1 0, .step 1 false, .step 1 false, .step 1 false, .step 1 false,
      .destroy 1 6, .step 1 false, .step 1 false, .step 1 false, .finish 1,
      .step 1 false, .step 1 false, .step 1 false, .step 1 false, .finish 1]
    (fun p => p.called == [7, 5] && p.answers == [true]) (by decide)
  obtain ⟨called, answers⟩ : p.called = [7, 5] ∧ p.answers = [true] := by simpa using answers
  exact ⟨p, called, ((called_all reachable).2 (by rw [answers]; exact List.mem_singleton_self _)).2⟩

/-! ## What a destructor guarantees -/

/-- The callback whose code a thread is in, or will enter next. -/
def Frame.callee {W : Type} : Frame W → Option Nat
  | .calling _ cb _ | .executing _ cb _ _ | .refusing _ cb _ => some cb
  | _ => none

structure Gone (s s' : State Fields) (cb u : Nat) : Prop where
  stage : s'.stages cb = .destroyed u
  called : s'.called.count cb = s.called.count cb
  refused : s'.refused.count cb = s.refused.count cb

theorem Gone.step {s₀ : State Fields} {cb u : Nat} {e : Action}
    (reachable : (system Fields.ops).Reachable s) (gone : Gone s₀ s cb u)
    (action : (system Fields.ops).step s e = some s') : Gone s₀ s' cb u := by
  have effects := effects reachable action
  obtain ⟨items, m⟩ := memory reachable
  constructor
  · rcases effects.stages cb with same | next
    · rw [same]
      exact gone.stage
    · rw [gone.stage] at next
      cases next
  · rw [← gone.called]
    rcases effects.called with same | ⟨t, h, a, anyMore, calling, same⟩
    · rw [same]
    · have live := (m.frames t _ calling).1.live
      have other : a ≠ cb := by
        rintro rfl
        rw [gone.stage] at live
        cases live
      rw [same, List.count_append, List.count_singleton, beq_false_of_ne other]
      rfl
  · rw [← gone.refused]
    rcases effects.refused with same | ⟨t, a, -, constructing, same⟩
    · rw [same]
    · have other : a ≠ cb := by
        rintro rfl
        rw [gone.stage] at constructing
        cases constructing
      rw [same, List.count_append, List.count_singleton, beq_false_of_ne other]
      rfl

theorem Gone.run {cb u : Nat} (reachable : (system Fields.ops).Reachable s)
    (stage : s.stages cb = .destroyed u) (later : ((system Fields.ops).after s).Reachable s') :
    Gone s s' cb u := by
  induction later with
  | init => exact ⟨stage, rfl, rfl⟩
  | step previous _ action ih => exact ih.step (reachable.after previous) action

theorem callee_of_destroyed (reachable : (system Fields.ops).Reachable s) {cb u t : Nat}
    {f : Frame Fields} (stage : s.stages cb = .destroyed u) (member : f ∈ s.threads t)
    (callee : f.callee = some cb) :
    t = u ∧ ∃ h anyMore flag, f = .executing h cb anyMore flag ∧ s.removed flag = true := by
  obtain ⟨items, m⟩ := memory reachable
  obtain ⟨_, _, c⟩ := control reachable
  have holds := m.frames t f member
  cases f with
  | calling h a anyMore =>
      cases callee
      have live := holds.1.live
      rw [stage] at live
      cases live
  | executing h a anyMore flag =>
      cases callee
      obtain ⟨-, -, -, unflagged, flagged⟩ := holds
      cases removed : s.removed flag with
      | false =>
          have live := (unflagged removed).1.live
          rw [stage] at live
          cases live
      | true =>
          rcases flagged removed with here | here
          · cases stage.symm.trans here
          · cases stage.symm.trans here
            exact ⟨rfl, h, anyMore, flag, rfl, removed⟩
  | refusing h a increment =>
      cases callee
      have maker : (s.stages cb).maker = some t :=
        (c.cast (.maker cb)).owner_of_mem member (beq_self_eq_true cb)
      rw [stage] at maker
      cases maker
  | _ => cases callee

/-- Once the destructor of a callback has returned, its code is not entered any more, and it runs
nowhere but in the thread that has destroyed it from there. -/
theorem destroyed_for_good {p' : State UInt64} {cb u : Nat}
    (reachable : (system packedOps).ReachableBy Fitting p) (stage : p.stages cb = .destroyed u)
    (later : ((system packedOps).after p).ReachableBy Fitting p') :
    p'.stages cb = .destroyed u ∧ p'.called.count cb = p.called.count cb ∧
      p'.refused.count cb = p.refused.count cb ∧
      ∀ t, ∀ f ∈ p'.threads t, f.callee = some cb →
        t = u ∧ ∃ h anyMore flag, f = .executing h cb anyMore flag ∧ p'.removed flag = true := by
  obtain ⟨s, reached, fit, rfl⟩ := exists_fields reachable
  obtain ⟨s', after, -, rfl⟩ := exists_fields_after reached fit later
  have gone := Gone.run reached stage after
  refine ⟨gone.stage, gone.called, gone.refused, fun t f member callee => ?_⟩
  obtain ⟨f, inside, rfl⟩ := List.mem_map.1 member
  have callee' : f.callee = some cb := by
    rw [← callee]
    cases f <;> rfl
  obtain ⟨same, h, anyMore, flag, rfl, removed⟩ :=
    callee_of_destroyed (reached.after after) gone.stage inside callee'
  exact ⟨same, h, anyMore, flag, rfl, removed⟩

/-- A callback destroys itself while it is called. -/
theorem destroyed_for_good_itself : ∃ p : State UInt64, p.stages 5 = .destroyed 2 ∧
    .executing 0 5 false 0 ∈ p.threads 2 ∧ p.removed 0 = true ∧ p.called.count 5 = 1 := by
  obtain ⟨p, reachable, test⟩ := (system packedOps).reachableBy_of_replay Fitting
    [.getToken 0 0, .construct 1 0 5 true, .step 1 false, .step 1 false, .step 1 false,
      .requestStop 2 0, .step 2 false, .step 2 false, .step 2 false, .step 2 false,
      .destroy 2 5, .step 2 false, .step 2 false, .step 2 false, .step 2 false, .step 2 false]
    (fun p => decide (p.stages 5 = .destroyed 2 ∧ .executing 0 5 false 0 ∈ p.threads 2 ∧
      p.called = [5])) (by decide)
  obtain ⟨stage, inside, called⟩ := of_decide_eq_true test
  obtain ⟨-, -, -, here⟩ := destroyed_for_good reachable stage .init
  obtain ⟨-, h, anyMore, flag, same, removed⟩ := here 2 _ inside rfl
  cases same
  exact ⟨p, stage, inside, removed, by rw [called]; rfl⟩

/-! ## What stays for ever -/

theorem requested_stays (reachable : (system Fields.ops).Reachable s)
    (requested : s.word.requested = true) (later : ((system Fields.ops).after s).Reachable s') :
    s'.word.requested = true := by
  induction later with
  | init => exact requested
  | step previous _ action ih =>
      rcases (effects (reachable.after previous) action).requested with same | ⟨now, -⟩
      · rwa [same]
      · exact now

theorem registered_stays (reachable : (system Fields.ops).Reachable s)
    (requested : s.word.requested = true) (later : ((system Fields.ops).after s).Reachable s') :
    s'.registered = s.registered := by
  induction later with
  | init => rfl
  | step previous _ action ih =>
      have here := requested_stays reachable requested previous
      rcases (effects (reachable.after previous) action).registered with same | unrequested
      · exact same.trans ih
      · cases here.symm.trans unrequested

/-- From the stop request on no callback is registered, and `request_stop` calls no more callbacks
than there were, whatever the callbacks and the other threads construct. -/
theorem registration_closes {p' : State UInt64} (reachable : (system packedOps).ReachableBy Fitting p)
    (requested : packedOps.isStopRequested p.word = true)
    (later : ((system packedOps).after p).ReachableBy Fitting p') :
    p'.registered = p.registered ∧ p'.called.length ≤ p.registered.length := by
  obtain ⟨s, reached, fit, rfl⟩ := exists_fields reachable
  obtain ⟨s', after, -, rfl⟩ := exists_fields_after reached fit later
  have closed : s'.registered = s.registered := registered_stays reached
    ((Fields.isStopRequested_pack fit.word).symm.trans requested) after
  obtain ⟨items, m⟩ := memory (reached.after after)
  have most := ((List.sublist_append_left s'.called items).trans m.order).length_le
  rw [List.length_reverse, closed] at most
  exact ⟨closed, most⟩

/-- A callback constructs another one, which is called in its constructor. -/
theorem registration_closes_nested : ∃ p : State UInt64, p.refused = [6] ∧ p.registered = [5] ∧
    p.called.length ≤ 1 := by
  obtain ⟨p, reachable, test⟩ := (system packedOps).reachableBy_of_replay Fitting
    [.getToken 0 0, .construct 1 0 5 true, .step 1 false, .step 1 false, .step 1 false,
      .requestStop 2 0, .step 2 false, .step 2 false, .step 2 false, .step 2 false,
      .construct 2 0 6 true, .step 2 false]
    (fun p => decide (p.refused = [6] ∧ p.registered = [5] ∧
      packedOps.isStopRequested p.word = true)) (by decide)
  obtain ⟨refused, registered, requested⟩ := of_decide_eq_true test
  obtain ⟨-, most⟩ := registration_closes reachable requested .init
  rw [registered] at most
  exact ⟨p, refused, registered, most⟩

theorem hopeless_stays (reachable : (system Fields.ops).Reachable s) (sources : s.sources = [])
    (unrequested : s.word.requested = false)
    (later : ((system Fields.ops).after s).Reachable s') :
    s'.sources = [] ∧ s'.word.requested = false := by
  induction later with
  | init => exact ⟨sources, unrequested⟩
  | step previous _ action ih =>
      have effects := effects (reachable.after previous) action
      refine ⟨effects.sources ih.1, ?_⟩
      rcases effects.requested with same | ⟨-, some_⟩
      · rw [same]
        exact ih.2
      · exact absurd ih.1 some_

theorem requestable_iff (reachable : (system Fields.ops).Reachable s) (fit : s.Fit) :
    packedOps.isStopRequestable s.word.pack = true ↔
      s.word.requested = true ∨ s.sources ≠ [] := by
  rw [Fields.isStopRequestable_pack fit.word]
  simp only [Fields.ops, Bool.or_eq_true, decide_eq_true_eq, (counted reachable).sources]
  rw [ne_eq, List.length_eq_zero_iff]

/-- A stop request stays. When `stop_possible` is false it stays false, no call of `request_stop`
has returned or will, and no callback has been called or will be. -/
theorem queries_settle {p' : State UInt64} (reachable : (system packedOps).ReachableBy Fitting p)
    (later : ((system packedOps).after p).ReachableBy Fitting p') :
    (packedOps.isStopRequested p.word = true → packedOps.isStopRequested p'.word = true) ∧
      (packedOps.isStopRequestable p.word = false → packedOps.isStopRequestable p'.word = false ∧
        p'.answers = [] ∧ p'.called = [] ∧ p'.refused = []) := by
  obtain ⟨s, reached, fit, rfl⟩ := exists_fields reachable
  obtain ⟨s', after, fit', rfl⟩ := exists_fields_after reached fit later
  have reached' := reached.after after
  constructor
  · intro requested
    exact (Fields.isStopRequested_pack fit'.word).trans
      (requested_stays reached ((Fields.isStopRequested_pack fit.word).symm.trans requested) after)
  · intro hopeless
    have none_ := (requestable_iff reached fit).not.1 (ne_true_of_eq_false hopeless)
    obtain ⟨unrequested, sources⟩ := not_or.1 none_
    obtain ⟨sources', unrequested'⟩ := hopeless_stays reached (not_not.1 sources)
      (Bool.eq_false_iff.2 unrequested) after
    obtain ⟨items, m⟩ := memory reached'
    obtain ⟨called, refused⟩ := m.early unrequested'
    refine ⟨Bool.eq_false_iff.2 fun possible => ?_, ?_, called, refused⟩
    · rcases (requestable_iff reached' fit').1 possible with requested | some_
      · cases unrequested'.symm.trans requested
      · exact some_ sources'
    · by_contra answered
      cases unrequested'.symm.trans (requested_of_answers reached' answered)

/-- The last source is destroyed while a callback is being registered. -/
theorem queries_settle_abandoned : ∃ p : State UInt64, p.registered = [5] ∧
    packedOps.isStopRequestable p.word = false ∧ p.called = [] := by
  obtain ⟨p, reachable, test⟩ := (system packedOps).reachableBy_of_replay Fitting
    [.getToken 0 0, .construct 1 0 5 true, .step 1 false, .step 1 false, .dropSource 0,
      .step 1 false]
    (fun p => decide (p.registered = [5] ∧ packedOps.isStopRequestable p.word = false)) (by decide)
  obtain ⟨registered, hopeless⟩ := of_decide_eq_true test
  obtain ⟨-, -, called, -⟩ := (queries_settle reachable .init).2 hopeless
  exact ⟨p, registered, hopeless, called⟩

end Librf.StopToken
