import Librf.StopToken.Packed

/-!
# When the state is deleted

The code deletes the state where it compares the word with a constant. Two of the comparisons are
wrong when few sources are left, and `Sound` says when they are right.
-/

namespace Librf.StopToken

open Transition

namespace State

variable {W : Type}

/-- `remove_token_reference` is right about the last reference. -/
def SoundRelease (s : State W) : Prop := s.sources ≠ [] ∨ s.tokenReferences = 1

/-- `unlock_and_decrement_token_ref_count` is right about it. -/
def SoundUnlink (s : State W) : Prop :=
  s.sources = [] ∧ s.tokenReferences = 1 ∨ 3 ≤ s.sources.length ∨
    s.sources.length = 2 ∧ 2 ≤ s.tokenReferences

def SoundFrame (s : State W) : Frame W → Prop
  | .releasing _ => s.SoundRelease
  | .locked (.removeCallback cb) => (s.list.callbacks cb).prev = none ∨ s.SoundUnlink
  | _ => True

/-- The step deletes the state if and only if it drops the last reference. -/
def Sound (s : State W) : Action → Prop
  | .dropToken _ => s.SoundRelease
  | .step t _ => ∀ f ∈ (s.threads t).head?, s.SoundFrame f
  | _ => True

instance (s : State W) : Decidable s.SoundRelease := inferInstanceAs (Decidable (_ ∨ _))

instance (s : State W) : Decidable s.SoundUnlink := inferInstanceAs (Decidable (_ ∨ _))

instance (s : State W) (f : Frame W) : Decidable (s.SoundFrame f) := by
  unfold SoundFrame
  split <;> infer_instance

instance (s : State W) : Decidable s.Unreferenced := inferInstanceAs (Decidable (_ ∧ _))

instance (s : State W) (e : Action) : Decidable (s.Sound e) := by
  unfold Sound
  split <;> infer_instance

end State

variable {s s' : State Fields} {t cb : Nat} {f : Frame Fields} {rest : List (Frame Fields)}

/-! ## The last reference -/

theorem idle_of_unreferenced (reachable : (system Fields.ops).Reachable s)
    (none_ : s.Unreferenced) (t : Nat) : s.threads t = [] := by
  obtain ⟨sources, references⟩ := none_
  obtain ⟨_, _, c⟩ := control reachable
  have counted := counted reachable
  unfold State.tokenReferences at references
  have noTokens : s.tokens = [] := List.length_eq_zero_iff.1 (by omega)
  have noLoans : s.lent = [] := List.length_eq_zero_iff.1 (by omega)
  have noAttached : s.attached = [] := List.length_eq_zero_iff.1 (by omega)
  cases stack : s.threads t with
  | nil => rfl
  | cons f rest =>
      have member : f ∈ s.threads t := stack ▸ List.mem_cons_self
      exfalso
      have unused : f.uses = none := by
        cases use : f.uses with
        | none => rfl
        | some x =>
            have inside := counted.uses.mem member use
            cases x with
            | source h =>
                have there := counted.sourceUsed t h inside
                rw [sources] at there
                cases there
            | token h =>
                have there := counted.tokenUsed t h inside
                rw [noTokens] at there
                cases there
      have unlent : f.borrows = none := by
        cases loan : f.borrows with
        | none => rfl
        | some h =>
            have inside := counted.lent.mem member loan
            rw [noLoans] at inside
            cases inside
      have alive {cb : Nat} (remover : f.plays (.remover cb) = true) : False := by
        have stage := Memory.stage_of_remover c stack remover
        have inside := counted.attached_mem cb (by rw [stage]; rfl)
        rw [noAttached] at inside
        cases inside
      cases f with
      | loading call | swapping call old | locked call =>
          cases call with
          | requestStop h | nextCallback h => cases unused
          | tryAddCallback h cb increment =>
              cases increment with
              | true => cases unused
              | false => cases unlent
          | removeCallback cb => exact alive (beq_self_eq_true cb)
      | calling h cb anyMore => cases unused
      | executing h cb anyMore flag => cases unused
      | refusing h cb increment =>
          cases increment with
          | true => cases unused
          | false => cases unlent
      | unlinked cb | waiting cb | releasing cb => exact alive (beq_self_eq_true cb)

/-! ## One step -/

structure Keeps (s s' : State Fields) : Prop where
  deleted : s'.deleted = s.deleted
  sources : s.sources.length ≤ s'.sources.length
  references : s.tokenReferences ≤ s'.tokenReferences

theorem Keeps.of_same (deleted : s'.deleted = s.deleted) (sources : s'.sources = s.sources)
    (tokens : s'.tokens = s.tokens) (lent : s'.lent = s.lent) (attached : s'.attached = s.attached) :
    Keeps s s' where
  deleted := deleted
  sources := Nat.le_of_eq (by rw [sources])
  references := Nat.le_of_eq (by
    rw [State.tokenReferences, State.tokenReferences, tokens, lent, attached])

inductive Drops (s s' : State Fields) (sound : Prop) : Prop
  | nothing (keeps : Keeps s s') (right : sound)
  | token (sources : s'.sources = s.sources)
      (references : s'.tokenReferences + 1 = s.tokenReferences)
      (deleted : s'.deleted = decide (s.sources.length = 0)) (right : sound ↔ s.SoundRelease)
  | callback (sources : s'.sources = s.sources)
      (references : s'.tokenReferences + 1 = s.tokenReferences)
      (deleted : s'.deleted =
        decide (s.sources.length ≤ 1 ∨ s.sources.length = 2 ∧ s.tokenReferences ≤ 1))
      (right : sound ↔ s.SoundUnlink)
  | source (sources : s'.sources.length + 1 = s.sources.length)
      (references : s'.tokenReferences = s.tokenReferences)
      (deleted : s'.deleted = decide (s.sources.length = 1 ∧ s.tokenReferences = 0)) (right : sound)

theorem unreferenced_iff : s.Unreferenced ↔ s.sources.length = 0 ∧ s.tokenReferences = 0 := by
  rw [State.Unreferenced, List.length_eq_zero_iff]

theorem soundRelease_iff : s.SoundRelease ↔ s.sources.length ≠ 0 ∨ s.tokenReferences = 1 := by
  rw [State.SoundRelease, ne_eq, ne_eq, List.length_eq_zero_iff]

theorem soundUnlink_iff : s.SoundUnlink ↔ s.sources.length = 0 ∧ s.tokenReferences = 1 ∨
    3 ≤ s.sources.length ∨ s.sources.length = 2 ∧ 2 ≤ s.tokenReferences := by
  rw [State.SoundUnlink, List.length_eq_zero_iff]

theorem Drops.right_iff {sound : Prop} (drops : Drops s s' sound) (alive : s.deleted = false)
    (some_ : ¬ s.Unreferenced) : (s'.deleted = true ↔ s'.Unreferenced) ↔ sound := by
  rw [unreferenced_iff] at some_ ⊢
  cases drops with
  | nothing keeps right =>
      obtain ⟨deleted, sources, references⟩ := keeps
      rw [deleted, alive]
      simp only [right, iff_true, Bool.false_eq_true, false_iff]
      omega
  | token sources references deleted right =>
      rw [right, soundRelease_iff, deleted, decide_eq_true_iff, sources]
      omega
  | callback sources references deleted right =>
      rw [right, soundUnlink_iff, deleted, decide_eq_true_iff, sources]
      omega
  | source sources references deleted right =>
      rw [deleted, decide_eq_true_iff]
      simp only [right, iff_true]
      omega

theorem Drops.deleted_of_unreferenced {sound : Prop} (drops : Drops s s' sound)
    (some_ : ¬ s.Unreferenced) (none_ : s'.Unreferenced) : s'.deleted = true := by
  rw [unreferenced_iff] at some_ none_
  cases drops with
  | nothing keeps right =>
      obtain ⟨-, sources, references⟩ := keeps
      omega
  | token sources references deleted right =>
      rw [deleted, decide_eq_true_iff, ← sources]
      exact none_.1
  | callback sources references deleted right =>
      rw [deleted, decide_eq_true_iff, ← sources]
      omega
  | source sources references deleted right =>
      rw [deleted, decide_eq_true_iff]
      omega

namespace Drops

variable {h : Nat} {increment : Bool} {call : Call}

theorem requestStop (action : s.requestStop t h = some s') : Drops s s' True := by
  obtain ⟨-, made⟩ := Option.ite_none_right_eq_some.1 action
  cases made
  exact .nothing (.of_same rfl rfl rfl rfl rfl) trivial

theorem construct (action : s.construct t h cb increment = some s') : Drops s s' True := by
  obtain ⟨⟨-, -, member⟩, made⟩ := Option.ite_none_right_eq_some.1 action
  cases increment with
  | true =>
      cases made
      exact .nothing (.of_same rfl rfl rfl rfl rfl) trivial
  | false =>
      obtain ⟨-, made⟩ := Option.ite_none_left_eq_some.1 made
      cases made
      refine .nothing ⟨rfl, Nat.le_refl _, ?_⟩ trivial
      have positive := List.length_pos_of_mem member
      change s.tokens.length + s.lent.length + s.attached.length ≤
        (s.tokens.erase h).length + (s.lent.length + 1) + s.attached.length
      rw [List.length_erase_of_mem member]
      omega

theorem destroy (action : s.destroy t cb = some s') : Drops s s' True := by
  obtain ⟨-, made⟩ := Option.ite_none_right_eq_some.1 action
  split at made
  · cases made
    exact .nothing (.of_same rfl rfl rfl rfl rfl) trivial
  · cases made
    exact .nothing (.of_same rfl rfl rfl rfl rfl) trivial
  · cases made

theorem decline : Keeps s (s.decline t h cb increment rest) := by
  cases increment with
  | true => exact .of_same rfl rfl rfl rfl rfl
  | false =>
      refine ⟨rfl, Nat.le_refl _, ?_⟩
      have most := List.le_length_erase (a := (t, h)) (l := s.lent)
      change s.tokens.length + s.lent.length + s.attached.length ≤
        (s.tokens ++ [h]).length + (s.lent.erase (t, h)).length + s.attached.length
      rw [List.length_append, List.length_singleton]
      omega

theorem link : Keeps s (s.link Fields.ops t h cb increment rest) := by
  cases increment with
  | true =>
      refine ⟨rfl, Nat.le_refl _, ?_⟩
      change s.tokens.length + s.lent.length + s.attached.length ≤
        s.tokens.length + s.lent.length + (s.attached ++ [cb]).length
      rw [List.length_append]
      omega
  | false =>
      refine ⟨rfl, Nat.le_refl _, ?_⟩
      have most := List.le_length_erase (a := (t, h)) (l := s.lent)
      change s.tokens.length + s.lent.length + s.attached.length ≤
        s.tokens.length + (s.lent.erase (t, h)).length + (s.attached ++ [cb]).length
      rw [List.length_append, List.length_singleton]
      omega

theorem look (old : Fields) : Keeps s (s.look Fields.ops t rest call old) := by
  cases call with
  | requestStop h =>
      simp only [State.look]
      split
      · exact .of_same rfl rfl rfl rfl rfl
      · split <;> exact .of_same rfl rfl rfl rfl rfl
  | tryAddCallback h cb increment =>
      simp only [State.look]
      split
      · exact .of_same rfl rfl rfl rfl rfl
      · split
        · exact decline
        · split <;> exact .of_same rfl rfl rfl rfl rfl
  | nextCallback h | removeCallback cb =>
      simp only [State.look]
      split <;> exact .of_same rfl rfl rfl rfl rfl

theorem loop {signalling : Option Nat} :
    Keeps s ({ s with signalling }.loop Fields.ops t h rest) := by
  unfold State.loop
  split <;> exact .of_same rfl rfl rfl rfl rfl

theorem references_erase (member : cb ∈ s.attached) (tokens : s'.tokens = s.tokens)
    (lent : s'.lent = s.lent) (attached : s'.attached = s.attached.erase cb) :
    s'.tokenReferences + 1 = s.tokenReferences := by
  have positive := List.length_pos_of_mem member
  rw [State.tokenReferences, State.tokenReferences, tokens, lent, attached,
    List.length_erase_of_mem member]
  omega

theorem unlink (counted : Counted s) (live : (s.stages cb).live = true) :
    Drops s (s.unlink Fields.ops t cb rest)
      ((s.list.callbacks cb).prev = none ∨ s.SoundUnlink) := by
  have member := counted.attached_mem cb live
  unfold State.unlink
  dsimp only
  split
  · next slot stored =>
      refine .callback rfl (references_erase member rfl rfl rfl) ?_ ?_
      · rw [← counted.sources, ← counted.tokens]
        rfl
      · simp only [stored, reduceCtorEq, false_or]
  · next alone => exact .nothing (.of_same rfl rfl rfl rfl rfl) (Or.inl alone)

theorem removeToken_deletes (counted : Counted s) (some_ : s.tokenReferences ≠ 0) :
    (Fields.ops.removeTokenReference s.word).2 = decide (s.sources.length = 0) := by
  change decide (s.word.sources = 0 ∨ s.word.sources = 1 ∧ s.word.tokens = 0) = _
  rw [counted.sources, counted.tokens]
  apply decide_eq_decide.2
  omega

theorem release (counted : Counted s) (live : (s.stages cb).live = true) :
    Drops s (s.release Fields.ops t cb rest) s.SoundRelease := by
  have references : (s.release Fields.ops t cb rest).tokenReferences + 1 = s.tokenReferences :=
    references_erase (counted.attached_mem cb live) rfl rfl rfl
  exact .token rfl references (removeToken_deletes counted (by omega)) Iff.rfl

theorem dropToken {h : Nat} (counted : Counted s) (member : h ∈ s.tokens) :
    Drops s (s.dropToken Fields.ops h) s.SoundRelease := by
  have positive := List.length_pos_of_mem member
  have references : (s.dropToken Fields.ops h).tokenReferences + 1 = s.tokenReferences := by
    change (s.tokens.erase h).length + s.lent.length + s.attached.length + 1 =
      s.tokens.length + s.lent.length + s.attached.length
    rw [List.length_erase_of_mem member]
    omega
  exact .token rfl references (removeToken_deletes counted (by omega)) Iff.rfl

theorem dropSource {h : Nat} (counted : Counted s) (member : h ∈ s.sources) :
    Drops s (s.dropSource Fields.ops h) True := by
  have positive := List.length_pos_of_mem member
  refine .source ?_ rfl ?_ trivial
  · change (s.sources.erase h).length + 1 = s.sources.length
    rw [List.length_erase_of_mem member]
    omega
  · change decide (s.word.sources = 0 ∨ s.word.sources = 1 ∧ s.word.tokens = 0) = _
    rw [counted.sources, counted.tokens]
    apply decide_eq_decide.2
    omega

theorem runFrame {holder signaller : Option Nat} {spurious : Bool}
    (c : Control s holder signaller) (counted : Counted s) (top : s.threads t = f :: rest)
    (action : s.runFrame Fields.ops t spurious rest f = some s') : Drops s s' (s.SoundFrame f) := by
  cases f with
  | loading call =>
      cases action
      exact .nothing (look _) trivial
  | swapping call old =>
      cases action
      unfold State.swap
      split
      · cases call <;> exact .nothing (.of_same rfl rfl rfl rfl rfl) trivial
      · exact .nothing (look _) trivial
  | locked call =>
      cases action
      cases call with
      | requestStop h => exact .nothing loop trivial
      | nextCallback h => exact .nothing loop trivial
      | tryAddCallback h cb increment => exact .nothing link trivial
      | removeCallback cb =>
          have stage := Memory.stage_of_remover c top (beq_self_eq_true cb)
          exact unlink counted (by rw [stage]; rfl)
  | calling h cb anyMore =>
      cases action
      exact .nothing (.of_same rfl rfl rfl rfl rfl) trivial
  | executing h cb anyMore flag => cases action
  | refusing h cb increment => cases action
  | unlinked cb =>
      cases action
      unfold State.notice State.markRemoved
      split
      · split <;> exact .nothing (.of_same rfl rfl rfl rfl rfl) trivial
      · exact .nothing (.of_same rfl rfl rfl rfl rfl) trivial
  | waiting cb =>
      cases action
      unfold State.wait
      split <;> exact .nothing (.of_same rfl rfl rfl rfl rfl) trivial
  | releasing cb =>
      cases action
      have stage := Memory.stage_of_remover c top (beq_self_eq_true cb)
      exact release counted (by rw [stage]; rfl)

theorem finish (action : s.finish t = some s') : Drops s s' True := by
  unfold State.finish at action
  split at action
  · cases action
    unfold State.executed State.markFinished
    split <;> split <;> exact .nothing (.of_same rfl rfl rfl rfl rfl) trivial
  · cases action
    exact .nothing decline trivial
  · cases action

theorem act {holder signaller : Option Nat} {e : Action} (c : Control s holder signaller)
    (counted : Counted s) (action : s.act Fields.ops e = some s') : Drops s s' (s.Sound e) := by
  cases e with
  | requestStop t h => exact requestStop action
  | construct t h cb increment => exact construct action
  | destroy t cb => exact destroy action
  | step t spurious =>
      simp only [State.act] at action
      split at action
      · cases action
      · next f rest top =>
          have drops := runFrame c counted top action
          have same : s.Sound (.step t spurious) ↔ s.SoundFrame f := by
            simp only [State.Sound, top, List.head?_cons, Option.mem_some_iff, forall_eq']
          rwa [same]
  | finish t => exact finish action
  | getToken h h' | copyToken h h' =>
      obtain ⟨-, made⟩ := Option.ite_none_right_eq_some.1 action
      cases made
      refine .nothing ⟨rfl, Nat.le_refl _, ?_⟩ trivial
      change s.tokens.length + s.lent.length + s.attached.length ≤
        (s.tokens ++ [h']).length + s.lent.length + s.attached.length
      rw [List.length_append]
      omega
  | dropToken h =>
      obtain ⟨⟨member, -⟩, made⟩ := Option.ite_none_right_eq_some.1 action
      cases made
      exact dropToken counted member
  | copySource h h' =>
      obtain ⟨-, made⟩ := Option.ite_none_right_eq_some.1 action
      cases made
      refine .nothing ⟨rfl, ?_, Nat.le_refl _⟩ trivial
      change s.sources.length ≤ (s.sources ++ [h']).length
      rw [List.length_append]
      omega
  | dropSource h =>
      obtain ⟨⟨member, -⟩, made⟩ := Option.ite_none_right_eq_some.1 action
      cases made
      exact dropSource counted member

end Drops

theorem drops {e : Action} (reachable : (system Fields.ops).Reachable s)
    (action : (system Fields.ops).step s e = some s') : Drops s s' (s.Sound e) := by
  obtain ⟨_, _, c⟩ := control reachable
  exact Drops.act c (counted reachable) (act_of_step action).2

theorem deleted_of_unreferenced (reachable : (system Fields.ops).Reachable s)
    (none_ : s.Unreferenced) : s.deleted = true := by
  induction reachable with
  | init => cases none_.1
  | step previous _ action ih =>
      apply (drops previous action).deleted_of_unreferenced _ none_
      intro before
      have gone := ih before
      rw [(act_of_step action).1] at gone
      cases gone

/-! ## Runs of the code -/

theorem sound_map {V W : Type} (enc : V → W) (s : State V) (e : Action) :
    (s.map enc).Sound e ↔ s.Sound e := by
  cases e with
  | step t spurious =>
      change (∀ f ∈ ((s.threads t).map (Frame.map enc)).head?, (s.map enc).SoundFrame f) ↔
        ∀ f ∈ (s.threads t).head?, s.SoundFrame f
      cases s.threads t with
      | nil => simp
      | cons f rest =>
          simp only [List.map_cons, List.head?_cons, Option.mem_some_iff, forall_eq']
          cases f with
          | locked call => cases call <;> exact Iff.rfl
          | _ => exact Iff.rfl
  | _ => exact Iff.rfl

variable {p p' : State UInt64}

theorem exists_fields_step {e : Action} (reachable : (system packedOps).ReachableBy Fitting p)
    (action : (system packedOps).step p e = some p') :
    ∃ s s' : State Fields, (system Fields.ops).Reachable s ∧
      (system Fields.ops).step s e = some s' ∧ s.map Fields.pack = p ∧ s'.map Fields.pack = p' := by
  obtain ⟨s, reached, fit, rfl⟩ := exists_fields reachable
  have mapped := State.step_map reached fit e
  change (s.map Fields.pack).step packedOps e = some p' at action
  rw [action] at mapped
  obtain ⟨s', moved, rfl⟩ := Option.map_eq_some_iff.1 mapped.symm
  exact ⟨s, s', reached, moved, rfl, rfl⟩

theorem deleted_iff_of_step {e : Action} (reachable : (system packedOps).ReachableBy Fitting p)
    (action : (system packedOps).step p e = some p') :
    (p'.deleted = true ↔ p'.Unreferenced) ↔ p.Sound e := by
  obtain ⟨s, s', reached, moved, rfl, rfl⟩ := exists_fields_step reachable action
  have alive := (act_of_step moved).1
  rw [sound_map]
  apply (drops reached moved).right_iff alive
  intro none_
  cases alive.symm.trans (deleted_of_unreferenced reached none_)

theorem gone_of_unreferenced {e : Action} (reachable : (system packedOps).ReachableBy Fitting p)
    (action : (system packedOps).step p e = some p') (none_ : p'.Unreferenced) :
    p'.deleted = true ∧ ∀ t, p'.threads t = [] := by
  obtain ⟨s, s', reached, moved, rfl, rfl⟩ := exists_fields_step reachable action
  have reached' : (system Fields.ops).Reachable s' := reached.step trivial moved
  refine ⟨deleted_of_unreferenced reached' none_, fun t => ?_⟩
  exact congrArg (List.map (Frame.map Fields.pack)) (idle_of_unreferenced reached' none_ t)

/-- A step deletes the state exactly when it drops the last reference if and only if it is sound;
and it never leaves a state without references undeleted. -/
theorem deletion_exact {e : Action} (reachable : (system packedOps).ReachableBy Fitting p)
    (action : (system packedOps).step p e = some p') :
    ((p'.deleted = true ↔ p'.Unreferenced) ↔ p.Sound e) ∧
      (p'.Unreferenced → p'.deleted = true ∧ ∀ t, p'.threads t = []) :=
  ⟨deleted_iff_of_step reachable action, gone_of_unreferenced reachable action⟩

/-- With one source, one token and one callback, the destructor of the callback deletes the state. -/
theorem deletion_exact_early : ∃ p p' : State UInt64,
    (system packedOps).step p (.step 1 false) = some p' ∧ p'.deleted = true ∧ p'.sources = [0] ∧
      p'.tokens = [0] ∧ ¬ (p'.deleted = true ↔ p'.Unreferenced) := by
  obtain ⟨p, reachable, test⟩ := (system packedOps).reachableBy_of_replay Fitting
    [.getToken 0 0, .construct 1 0 5 true, .step 1 false, .step 1 false, .step 1 false,
      .destroy 1 5, .step 1 false, .step 1 false]
    (fun p => decide (¬ p.Sound (.step 1 false) ∧ ∃ p' ∈ (system packedOps).step p (.step 1 false),
      p'.deleted = true ∧ p'.sources = [0] ∧ p'.tokens = [0])) (by decide)
  obtain ⟨unsound, p', action, deleted, sources, tokens⟩ := of_decide_eq_true test
  exact ⟨p, p', action, deleted, sources, tokens,
    (not_congr (deletion_exact reachable action).1).2 unsound⟩

def SoundFitting (p : State UInt64) (e : Action) : Prop := Fitting p e ∧ p.Sound e

instance (p : State UInt64) (e : Action) : Decidable (SoundFitting p e) :=
  inferInstanceAs (Decidable (_ ∧ _))

/-- In a run of sound steps the state is deleted as soon as nothing refers to it, and no earlier. -/
theorem deleted_iff_unreferenced (reachable : (system packedOps).ReachableBy SoundFitting p) :
    (p.deleted = true ↔ p.Unreferenced) ∧ (p.deleted = true → ∀ t, p.threads t = []) := by
  cases reachable with
  | init => exact ⟨iff_of_false nofun nofun, nofun⟩
  | step previous sound action =>
      have fitting : (system packedOps).ReachableBy Fitting _ := previous.mono fun _ _ both => both.1
      have right := (deleted_iff_of_step fitting action).2 sound.2
      exact ⟨right, fun deleted => (gone_of_unreferenced fitting action (right.1 deleted)).2⟩

/-- The source goes first, then the last token. -/
theorem deleted_iff_unreferenced_token : ∃ p : State UInt64, p.deleted = true ∧ p.Unreferenced := by
  obtain ⟨p, reachable, deleted⟩ := (system packedOps).reachableBy_of_replay SoundFitting
    [.getToken 0 0, .dropSource 0, .dropToken 0] (fun p => p.deleted) (by decide)
  exact ⟨p, deleted, (deleted_iff_unreferenced reachable).1.1 deleted⟩

end Librf.StopToken
