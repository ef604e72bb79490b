import Librf.StopToken.Effects

/-!
# The packed word does what the fields say

As long as both counters fit into 31 bits, the code takes the same steps on the packed word as on
the four fields.
-/

namespace Librf.StopToken

variable {V W : Type}

def Frame.map (enc : V → W) : Frame V → Frame W
  | .loading c => .loading c
  | .swapping c old => .swapping c (enc old)
  | .locked c => .locked c
  | .calling h cb anyMore => .calling h cb anyMore
  | .executing h cb anyMore removed => .executing h cb anyMore removed
  | .refusing h cb increment => .refusing h cb increment
  | .unlinked cb => .unlinked cb
  | .waiting cb => .waiting cb
  | .releasing cb => .releasing cb

theorem Frame.isBody_map (enc : V → W) (f : Frame V) : (f.map enc).isBody = f.isBody := by
  cases f <;> rfl

namespace State

def map (enc : V → W) (s : State V) : State W where
  word := enc s.word
  list := s.list
  signalling := s.signalling
  removed := s.removed
  made := s.made
  deleted := s.deleted
  sources := s.sources
  tokens := s.tokens
  lent := s.lent
  uses := s.uses
  stages := s.stages
  attached := s.attached
  threads := fun t => (s.threads t).map (Frame.map enc)
  registered := s.registered
  called := s.called
  refused := s.refused
  withdrawn := s.withdrawn
  answers := s.answers

variable (enc : V → W) (s : State V) (t h cb : Nat) (rest : List (Frame V))

theorem map_update (l : List (Frame V)) :
    (fun u => (Function.update s.threads t l u).map (Frame.map enc)) =
      Function.update (fun u => (s.threads u).map (Frame.map enc)) t (l.map (Frame.map enc)) := by
  funext u
  by_cases here : u = t
  · subst here
    rw [Function.update_self, Function.update_self]
  · rw [Function.update_of_ne here, Function.update_of_ne here]

theorem map_setThread (l : List (Frame V)) :
    (s.setThread t l).map enc = (s.map enc).setThread t (l.map (Frame.map enc)) := by
  simp only [map, setThread, map_update]

theorem map_answer (result : Bool) :
    (s.answer t h rest result).map enc =
      (s.map enc).answer t h (rest.map (Frame.map enc)) result := by
  simp only [map, answer, setThread, map_update]

theorem map_giveBack (increment keeps : Bool) :
    (s.giveBack t h increment keeps).map enc = (s.map enc).giveBack t h increment keeps := by
  cases increment <;> rfl

theorem map_decline (increment : Bool) :
    (s.decline t h cb increment rest).map enc =
      (s.map enc).decline t h cb increment (rest.map (Frame.map enc)) := by
  simp only [decline, map_giveBack]
  simp only [map, setThread, setStage, map_update]

/-! ## One step -/

section Step

variable {s : State Fields} {t h cb : Nat} {rest : List (Frame Fields)}

open Fields (pack)

theorem look_map (fits : s.word.Fits) (c : Call) :
    (s.look Fields.ops t rest c s.word).map pack =
      (s.map pack).look packedOps t (rest.map (Frame.map pack)) c s.word.pack := by
  have requested : packedOps.isStopRequested s.word.pack = Fields.ops.isStopRequested s.word :=
    Fields.isStopRequested_pack fits
  have locked : packedOps.isLocked s.word.pack = Fields.ops.isLocked s.word :=
    Fields.isLocked_pack fits
  have requestable := Fields.isStopRequestable_pack fits
  cases c with
  | requestStop h =>
      simp only [look, requested, locked]
      split
      · exact map_answer ..
      · split <;> exact map_setThread ..
  | tryAddCallback h cb increment =>
      simp only [look, requested, locked, requestable]
      split
      · simp only [map, setThread, map_update]
        rfl
      · split
        · exact map_decline ..
        · split <;> exact map_setThread ..
  | nextCallback h | removeCallback cb =>
      simp only [look, locked]
      split <;> exact map_setThread ..

theorem swap_map (fits : s.word.Fits) (c : Call) {old : Fields} (oldFits : old.Fits)
    (spurious : Bool) :
    (s.swap Fields.ops t rest c old spurious).map pack =
      (s.map pack).swap packedOps t (rest.map (Frame.map pack)) c old.pack spurious := by
  have same : (s.map pack).word = old.pack ↔ s.word = old :=
    ⟨fits.pack_inj oldFits, fun same => congrArg pack same⟩
  by_cases exchanged : s.word = old ∧ spurious = false
  · simp only [swap, if_pos exchanged, if_pos (And.intro (same.2 exchanged.1) exchanged.2)]
    cases c <;> simp only [map, setThread, map_update, Fields.locking_pack oldFits,
      Fields.stopping_pack oldFits] <;> rfl
  · have failed : ¬ ((s.map pack).word = old.pack ∧ spurious = false) :=
      fun both => exchanged ⟨same.1 both.1, both.2⟩
    simp only [swap, if_neg exchanged, if_neg failed]
    exact look_map fits c

theorem loop_map (fits : s.word.Fits) (locked : s.word.locked = true) :
    (s.loop Fields.ops t h rest).map pack =
      (s.map pack).loop packedOps t h (rest.map (Frame.map pack)) := by
  have unlocked := Fields.unlock_pack fits locked
  cases head : s.list.head with
  | none => simp only [loop, map, answer, setThread, head, map_update, unlocked]
  | some cb =>
      simp only [loop, map, setThread, head, map_update, unlocked]
      rfl

theorem link_map (fits : s.word.Fits) (locked : s.word.locked = true) (increment : Bool) :
    (s.link Fields.ops t h cb increment rest).map pack =
      (s.map pack).link packedOps t h cb increment (rest.map (Frame.map pack)) := by
  have unlocked := Fields.unlock_pack fits locked
  have incremented := Fields.unlockAndIncrement_pack locked
  cases increment with
  | true => simp only [link, giveBack, map, setThread, setStage, if_true, map_update, incremented]
  | false =>
      simp only [link, giveBack, map, setThread, setStage, Bool.false_eq_true, if_false, map_update,
        unlocked]

theorem unlink_map (fits : s.word.Fits) (locked : s.word.locked = true)
    (counted : s.word.tokens ≠ 0) :
    (s.unlink Fields.ops t cb rest).map pack =
      (s.map pack).unlink packedOps t cb (rest.map (Frame.map pack)) := by
  have unlocked := Fields.unlock_pack fits locked
  have decremented := Fields.unlockAndDecrement_pack fits locked counted
  cases prev : (s.list.callbacks cb).prev with
  | some slot =>
      simp only [unlink, map, destroyed, setThread, setStage, prev, map_update, decremented]
  | none =>
      simp only [unlink, map, setThread, prev, map_update, unlocked]
      rfl

theorem release_map (fits : s.word.Fits) (counted : s.word.tokens ≠ 0) :
    (s.release Fields.ops t cb rest).map pack =
      (s.map pack).release packedOps t cb (rest.map (Frame.map pack)) := by
  have removed := Fields.removeToken_pack fits counted
  simp only [release, map, destroyed, setThread, setStage, map_update, removed]

theorem notice_map : (s.notice t cb rest).map pack =
    (s.map pack).notice t cb (rest.map (Frame.map pack)) := by
  have marked : (s.markRemoved cb).map pack = (s.map pack).markRemoved cb := by
    cases mark : (s.list.callbacks cb).isRemoved <;> simp only [markRemoved, map, mark]
  by_cases mine : s.signalling = some t
  · have mine' : (s.map pack).signalling = some t := mine
    simp only [notice, if_pos mine, if_pos mine', ← marked]
    exact map_setThread ..
  · have other : ¬ (s.map pack).signalling = some t := mine
    simp only [notice, if_neg mine, if_neg other]
    exact map_setThread ..

theorem executed_map (anyMore : Bool) (flag : Nat) :
    (s.executed t h cb anyMore flag rest).map pack =
      (s.map pack).executed t h cb anyMore flag (rest.map (Frame.map pack)) := by
  have finished : (s.markFinished cb flag).map pack = (s.map pack).markFinished cb flag := by
    unfold markFinished
    change _ = if s.removed flag = true then _ else _
    split <;> rfl
  unfold executed
  rw [← finished]
  cases anyMore with
  | true => exact map_setThread ..
  | false => exact map_answer ..

theorem ready_map : (s.map pack).ready t = s.ready t := by
  cases frames : s.threads t with
  | nil => simp only [ready, map, frames, List.map_nil]
  | cons f rest => simp only [ready, map, frames, List.map_cons, Frame.isBody_map]

theorem requestStop_map : (s.map pack).requestStop t h = (s.requestStop t h).map (map pack) := by
  unfold requestStop
  rw [ready_map]
  change (if s.ready t = true ∧ h ∈ s.sources then _ else _) = _
  split
  · exact congrArg some (by simp only [map, push, setThread, map_update]; rfl)
  · rfl

theorem construct_map (increment : Bool) :
    (s.map pack).construct t h cb increment = (s.construct t h cb increment).map (map pack) := by
  unfold construct
  rw [ready_map]
  change (if s.ready t = true ∧ s.stages cb = .unmade ∧ h ∈ s.tokens then _ else _) = _
  split
  · cases increment with
    | true => exact congrArg some (by simp only [map, push, setThread, setStage, map_update]; rfl)
    | false =>
        change (if s.inUse (.token h) = true then none else _) = _
        simp only [Bool.false_eq_true, if_false]
        change _ = Option.map _ (if s.inUse (.token h) = true then none else _)
        split
        · rfl
        · exact congrArg some (by simp only [map, push, setThread, setStage, map_update]; rfl)
  · rfl

theorem destroy_map : (s.map pack).destroy t cb = (s.destroy t cb).map (map pack) := by
  have stages : (s.map pack).stages = s.stages := rfl
  unfold destroy
  rw [ready_map, stages]
  split
  · cases s.stages cb with
    | attached => exact congrArg some (by simp only [map, push, setThread, setStage, map_update]; rfl)
    | _ => rfl
  · rfl

theorem finish_map : (s.map pack).finish t = (s.finish t).map (map pack) := by
  cases frames : s.threads t with
  | nil =>
      have frames' : (s.map pack).threads t = [] := congrArg (List.map _) frames
      simp only [finish, frames, frames', Option.map_none]
  | cons f rest =>
      have frames' : (s.map pack).threads t = f.map pack :: rest.map (Frame.map pack) :=
        congrArg (List.map _) frames
      simp only [finish, frames, frames']
      cases f with
      | executing h cb anyMore flag => exact congrArg some (executed_map anyMore flag).symm
      | refusing h cb increment => exact congrArg some (map_decline ..).symm
      | _ => rfl

def Prepared (s : State Fields) : Frame Fields → Prop
  | .swapping _ old => old.Fits
  | .locked c => s.word.locked = true ∧ ((∃ cb, c = .removeCallback cb) → s.word.tokens ≠ 0)
  | .releasing _ => s.word.tokens ≠ 0
  | _ => True

theorem runFrame_map (fits : s.word.Fits) (spurious : Bool) {f : Frame Fields}
    (prepared : s.Prepared f) :
    (s.map pack).runFrame packedOps t spurious (rest.map (Frame.map pack)) (f.map pack) =
      (s.runFrame Fields.ops t spurious rest f).map (map pack) := by
  cases f with
  | loading c => exact congrArg some (look_map fits c).symm
  | swapping c old => exact congrArg some (swap_map fits c prepared spurious).symm
  | locked c =>
      obtain ⟨locked, counted⟩ := prepared
      apply congrArg some
      cases c with
      | requestStop h =>
          exact (loop_map (s := { s with signalling := some t }) fits locked).symm
      | nextCallback h => exact (loop_map fits locked).symm
      | tryAddCallback h cb increment => exact (link_map fits locked increment).symm
      | removeCallback cb => exact (unlink_map fits locked (counted ⟨cb, rfl⟩)).symm
  | calling h cb anyMore =>
      apply congrArg some
      simp only [execute, modify, map, setThread, map_update]
      rfl
  | executing h cb anyMore flag => rfl
  | refusing h cb increment => rfl
  | unlinked cb => exact congrArg some notice_map.symm
  | waiting cb =>
      apply congrArg some
      unfold wait
      change (if (s.list.callbacks cb).finishedExecuting = true then _ else _) = _
      split
      · exact (map_setThread pack s t (.releasing cb :: rest)).symm
      · rfl
  | releasing cb => exact congrArg some (release_map fits prepared).symm

theorem act_map (fits : s.word.Fits) (prepared : ∀ t, ∀ f ∈ (s.threads t).head?, s.Prepared f)
    (tokens : s.tokens ≠ [] → s.word.tokens ≠ 0) (sources : s.sources ≠ [] → s.word.sources ≠ 0)
    (e : Action) : (s.map pack).act packedOps e = (s.act Fields.ops e).map (map pack) := by
  cases e with
  | requestStop t h => exact requestStop_map
  | construct t h cb increment => exact construct_map increment
  | destroy t cb => exact destroy_map
  | step t spurious =>
      have prepared := prepared t
      cases frames : s.threads t with
      | nil =>
          have frames' : (s.map pack).threads t = [] := congrArg (List.map _) frames
          simp only [act, frames, frames', Option.map_none]
      | cons f rest =>
          have frames' : (s.map pack).threads t = f.map pack :: rest.map (Frame.map pack) :=
            congrArg (List.map _) frames
          simp only [act, frames, frames']
          exact runFrame_map fits spurious (prepared f (by rw [frames]; rfl))
  | finish t => exact finish_map
  | getToken h h' =>
      change (if h ∈ s.sources ∧ s.fresh h' then _ else none) = _
      simp only [act]
      split
      · exact congrArg some (by simp only [addToken, map, Fields.addToken_pack])
      · rfl
  | copyToken h h' =>
      change (if h ∈ s.tokens ∧ s.fresh h' then _ else none) = _
      simp only [act]
      split
      · exact congrArg some (by simp only [addToken, map, Fields.addToken_pack])
      · rfl
  | dropToken h =>
      change (if h ∈ s.tokens ∧ ¬ s.inUse (.token h) then _ else none) = _
      simp only [act]
      split
      · next free =>
          have counted := tokens (List.ne_nil_of_mem free.1)
          exact congrArg some (by simp only [dropToken, map, Fields.removeToken_pack fits counted])
      · rfl
  | copySource h h' =>
      change (if h ∈ s.sources ∧ h' ∉ s.sources then _ else none) = _
      simp only [act]
      split
      · exact congrArg some (by simp only [addSource, map, Fields.addSource_pack])
      · rfl
  | dropSource h =>
      change (if h ∈ s.sources ∧ ¬ s.inUse (.source h) then _ else none) = _
      simp only [act]
      split
      · next free =>
          have counted := sources (List.ne_nil_of_mem free.1)
          exact congrArg some (by simp only [dropSource, map, Fields.removeSource_pack fits counted])
      · rfl

end Step

/-! ## Runs -/

/-- Both numbers of references fit into 31 bits. -/
def Few {W : Type} (s : State W) : Prop :=
  s.sources.length < 2147483648 ∧ s.tokenReferences < 2147483648

instance {W : Type} (s : State W) : Decidable s.Few := inferInstanceAs (Decidable (_ ∧ _))

structure Fit (s : State Fields) : Prop where
  word : s.word.Fits
  olds : ∀ t c old, .swapping c old ∈ s.threads t → old.Fits

variable {s s' : State Fields} {e : Action}

theorem fits_of_few (counted : Counted s) (few : s.Few) : s.word.Fits := by
  rw [Fields.Fits, counted.sources, counted.tokens]
  exact ⟨few.2, few.1⟩

theorem prepared (reachable : (system Fields.ops).Reachable s) (fit : s.Fit) (t : Nat) :
    ∀ f ∈ (s.threads t).head?, s.Prepared f := by
  intro f first
  obtain ⟨holder, signaller, c⟩ := control reachable
  have counted := counted reachable
  obtain ⟨rest, top⟩ := List.head?_eq_some_iff.1 (Option.mem_def.1 first)
  have references {cb : Nat} (remover : f.plays (.remover cb) = true) : s.word.tokens ≠ 0 := by
    have stage := Memory.stage_of_remover c top remover
    have member := counted.attached_mem cb (by rw [stage]; rfl)
    rw [counted.tokens, State.tokenReferences]
    have positive := List.length_pos_of_mem member
    omega
  cases f with
  | swapping call old => exact fit.olds t call old (top ▸ List.mem_cons_self)
  | locked call =>
      constructor
      · rw [c.locked, c.holder_of_top top]
        rfl
      · rintro ⟨cb, rfl⟩
        exact references (beq_self_eq_true cb)
  | releasing cb => exact references (beq_self_eq_true cb)
  | _ => trivial

theorem step_map (reachable : (system Fields.ops).Reachable s) (fit : s.Fit) (e : Action) :
    (s.map Fields.pack).step packedOps e = (s.step Fields.ops e).map (map Fields.pack) := by
  have counted := counted reachable
  have tokens : s.tokens ≠ [] → s.word.tokens ≠ 0 := by
    intro some_
    have positive := List.length_pos_iff.2 some_
    rw [counted.tokens, State.tokenReferences]
    omega
  have sources : s.sources ≠ [] → s.word.sources ≠ 0 := by
    intro some_
    rw [counted.sources]
    exact Nat.ne_of_gt (List.length_pos_iff.2 some_)
  unfold step
  change (if s.deleted = true then none else _) = _
  split
  · rfl
  · exact act_map fit.word (prepared reachable fit) tokens sources e

theorem Fit.step (fit : s.Fit) (reachable : (system Fields.ops).Reachable s)
    (action : s.step Fields.ops e = some s') (few : s'.Few) : s'.Fit where
  word := fits_of_few (counted (reachable.step trivial action)) few
  olds u c old member := by
    rcases moves reachable action u _ member with before | now
    · exact fit.olds u c old before
    · rw [show old = s.word from now]
      exact fit.word

end State

/-- The steps of the code after which both numbers of references fit into 31 bits. -/
def Fitting (s : State UInt64) (e : Action) : Prop := ∀ s' ∈ s.step packedOps e, s'.Few

instance (s : State UInt64) (e : Action) : Decidable (Fitting s e) :=
  inferInstanceAs (Decidable (∀ s' ∈ s.step packedOps e, s'.Few))

theorem fit_init : (system Fields.ops).init.Fit :=
  ⟨by decide, fun _ _ _ member => by cases member⟩

theorem exists_fields_after {f : State Fields} (reached : (system Fields.ops).Reachable f)
    (fit : f.Fit) {s : State UInt64}
    (later : ((system packedOps).after (f.map Fields.pack)).ReachableBy Fitting s) :
    ∃ f', ((system Fields.ops).after f).Reachable f' ∧ f'.Fit ∧ f'.map Fields.pack = s := by
  induction later with
  | init => exact ⟨f, .init, fit, rfl⟩
  | @step s s' e _ fitting action ih =>
      obtain ⟨f', reached', fit', rfl⟩ := ih
      have here := reached.after reached'
      have mapped := State.step_map here fit' e
      change (f'.map Fields.pack).step packedOps e = some s' at action
      have few := fitting s' action
      rw [action] at mapped
      obtain ⟨next, moved, rfl⟩ := Option.map_eq_some_iff.1 mapped.symm
      exact ⟨next, reached'.step trivial moved, fit'.step here moved few, rfl⟩

theorem exists_fields {s : State UInt64} (reachable : (system packedOps).ReachableBy Fitting s) :
    ∃ f : State Fields, (system Fields.ops).Reachable f ∧ f.Fit ∧ f.map Fields.pack = s :=
  exists_fields_after .init fit_init reachable

/-- The packed word and the fields take the same runs. -/
theorem replay_map (events : List Action)
    (fitting : (system packedOps).Along Fitting (system packedOps).init events) :
    (system packedOps).replay (system packedOps).init events =
      ((system Fields.ops).replay (system Fields.ops).init events).map (State.map Fields.pack) := by
  suffices same : ∀ f : State Fields, (system Fields.ops).Reachable f → f.Fit →
      (system packedOps).Along Fitting (f.map Fields.pack) events →
      (system packedOps).replay (f.map Fields.pack) events =
        ((system Fields.ops).replay f events).map (State.map Fields.pack) from
    same _ .init fit_init fitting
  clear fitting
  induction events with
  | nil => exact fun _ _ _ _ => rfl
  | cons e events ih =>
      intro f reached fit along
      have mapped : (system packedOps).step (f.map Fields.pack) e =
        ((system Fields.ops).step f e).map (State.map Fields.pack) := State.step_map reached fit e
      cases moved : (system Fields.ops).step f e with
      | none => simp only [Transition.System.replay, mapped, moved, Option.map_none, Option.bind_none]
      | some f' =>
          rw [moved] at mapped
          have few : (f'.map Fields.pack).Few := along.1 _ mapped
          have next := ih f' (reached.step trivial moved) (fit.step reached moved few)
            (along.2 _ mapped)
          simpa only [Transition.System.replay, mapped, moved, Option.map_some, Option.bind_some]
            using next

/-- A callback is registered, and the last source is destroyed under the lock. -/
theorem replay_map_register :
    let events := [.getToken 0 0, .construct 1 0 5 true, .step 1 false, .step 1 false, .dropSource 0,
      .step 1 false, .dropToken 0]
    (system packedOps).replay (system packedOps).init events =
      ((system Fields.ops).replay (system Fields.ops).init events).map (State.map Fields.pack) :=
  replay_map _ (by decide)

end Librf.StopToken
