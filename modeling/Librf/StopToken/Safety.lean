import Librf.StopToken.Callbacks

/-!
# What the threads touch and what they wait for

No step reads or writes a callback that is not there, and no thread waits in vain.
-/

namespace Librf.StopToken

open Transition

/-! ## Memory -/

/-- The constructor has begun and the destructor has not returned. -/
def Stage.inMemory : Stage → Bool
  | .unmade | .destroyed _ => false
  | _ => true

def Slot.callback : Slot → Option Nat
  | .head => none
  | .next cb => some cb

namespace State

variable {W : Type}

/-- The callbacks that the next step of a frame reads or writes. -/
def touchedBy (s : State W) (t : Nat) : Frame W → List Nat
  | .loading (.tryAddCallback _ cb _) | .swapping (.tryAddCallback _ cb _) _ => [cb]
  | .locked (.requestStop _) | .locked (.nextCallback _) =>
      match s.list.head with
      | none => []
      | some cb => cb :: (s.list.callbacks cb).next.toList
  | .locked (.tryAddCallback _ cb _) => cb :: s.list.head.toList
  | .locked (.removeCallback cb) =>
      match (s.list.callbacks cb).prev with
      | some slot => cb :: slot.callback.toList ++ (s.list.callbacks cb).next.toList
      | none => [cb]
  | .calling _ cb _ | .waiting cb | .refusing _ cb _ => [cb]
  | .executing _ cb _ removed => if s.removed removed then [] else [cb]
  | .unlinked cb => if s.signalling = some t then [cb] else []
  | _ => []

def touches (s : State W) : Action → List Nat
  | .destroy _ cb => [cb]
  | .step t _ | .finish t => (s.threads t).head?.toList.flatMap (s.touchedBy t)
  | _ => []

/-- The variable `removed` of another call that the next step of a frame writes. -/
def markedBy (s : State W) (t : Nat) : Frame W → Option Nat
  | .unlinked cb => if s.signalling = some t then (s.list.callbacks cb).isRemoved else none
  | _ => none

def marks (s : State W) : Action → Option Nat
  | .step t _ => (s.threads t).head?.bind (s.markedBy t)
  | _ => none

end State

variable {s s' : State Fields} {t cb : Nat} {f : Frame Fields} {rest : List (Frame Fields)}

theorem Stage.inMemory_of_live {stage : Stage} (live : stage.live = true) :
    stage.inMemory = true := by
  cases stage <;> first | rfl | cases live

theorem touched_in_memory (reachable : (system Fields.ops).Reachable s)
    (top : s.threads t = f :: rest) (touched : cb ∈ s.touchedBy t f) :
    (s.stages cb).inMemory = true := by
  obtain ⟨items, m⟩ := memory reachable
  obtain ⟨_, _, c⟩ := control reachable
  have listed {a : Nat} (member : a ∈ items) : (s.stages a).inMemory = true :=
    Stage.inMemory_of_live ((m.linked a).1 member).1
  have made {a : Nat} (maker : f.plays (.maker a) = true) : (s.stages a).inMemory = true := by
    rw [Memory.stage_of_maker c top maker]
    rfl
  have dying {a : Nat} (remover : f.plays (.remover a) = true) : (s.stages a).inMemory = true := by
    rw [Memory.stage_of_remover c top remover]
    rfl
  have first {a : Nat} (head : s.list.head = some a) : a ∈ items :=
    List.mem_of_head? (m.lists.head.symm.trans head)
  have holds := m.top_holds top
  cases f with
  | loading call | swapping call old =>
      cases call with
      | tryAddCallback h a increment =>
          cases List.mem_singleton.1 touched
          exact made (beq_self_eq_true _)
      | _ => cases touched
  | locked call =>
      cases call with
      | requestStop h | nextCallback h =>
          simp only [State.touchedBy] at touched
          split at touched
          · cases touched
          · next a head =>
              rcases List.mem_cons.1 touched with rfl | after
              · exact listed (first head)
              · exact listed (m.lists.next_mem (first head) (Option.mem_toList.1 after))
      | tryAddCallback h a increment =>
          rcases List.mem_cons.1 touched with rfl | after
          · exact made (beq_self_eq_true _)
          · exact listed (first (Option.mem_toList.1 after))
      | removeCallback a =>
          simp only [State.touchedBy] at touched
          split at touched
          · next slot stored =>
              have stage := Memory.stage_of_remover c top (beq_self_eq_true a)
              have member : a ∈ items := by
                apply (m.linked a).2
                rw [stage, stored]
                exact ⟨rfl, Option.some_ne_none slot⟩
              rcases List.mem_append.1 touched with before | after
              · rcases List.mem_cons.1 before with rfl | before
                · exact dying (beq_self_eq_true _)
                · cases slot with
                  | head => cases before
                  | next b =>
                      cases List.mem_singleton.1 before
                      exact listed (m.lists.slot_mem member stored)
              · exact listed (m.lists.next_mem member (Option.mem_toList.1 after))
          · cases List.mem_singleton.1 touched
            exact dying (beq_self_eq_true _)
  | calling h a anyMore =>
      cases List.mem_singleton.1 touched
      exact Stage.inMemory_of_live holds.1.live
  | executing h a anyMore flag =>
      obtain ⟨-, -, -, unflagged, -⟩ := holds
      simp only [State.touchedBy] at touched
      split at touched
      · cases touched
      · next removed =>
          cases List.mem_singleton.1 touched
          exact Stage.inMemory_of_live (unflagged (Bool.eq_false_iff.2 removed)).1.live
  | refusing h a increment =>
      cases List.mem_singleton.1 touched
      exact made (beq_self_eq_true _)
  | unlinked a =>
      simp only [State.touchedBy] at touched
      split at touched
      · cases List.mem_singleton.1 touched
        exact dying (beq_self_eq_true _)
      · cases touched
  | waiting a =>
      cases List.mem_singleton.1 touched
      exact dying (beq_self_eq_true _)
  | releasing a => cases touched

theorem touched_in_memory_by_action {e : Action} (reachable : (system Fields.ops).Reachable s)
    (action : (system Fields.ops).step s e = some s') :
    ∀ cb ∈ s.touches e, (s.stages cb).inMemory = true := by
  intro cb touched
  have here (t : Nat) (inside : cb ∈ (s.threads t).head?.toList.flatMap (s.touchedBy t)) :
      (s.stages cb).inMemory = true := by
    obtain ⟨f, first, touched⟩ := List.mem_flatMap.1 inside
    obtain ⟨rest, top⟩ := List.head?_eq_some_iff.1 (Option.mem_toList.1 first)
    exact touched_in_memory reachable top touched
  cases e with
  | destroy t a =>
      cases List.mem_singleton.1 touched
      obtain ⟨-, made⟩ := Option.ite_none_right_eq_some.1 (act_of_step action).2
      split at made
      · next stage => rw [stage]; rfl
      · next stage => rw [stage]; rfl
      · cases made
  | step t spurious => exact here t touched
  | finish t => exact here t touched
  | _ => cases touched

theorem marked_by_action {e : Action} {flag : Nat} (reachable : (system Fields.ops).Reachable s)
    (marked : s.marks e = some flag) :
    ∃ t spurious h cb anyMore, e = .step t spurious ∧
      .executing h cb anyMore flag ∈ s.threads t := by
  obtain ⟨items, m⟩ := memory reachable
  obtain ⟨_, _, c⟩ := control reachable
  cases e with
  | step t spurious =>
      obtain ⟨f, first, marked⟩ := Option.bind_eq_some_iff.1 marked
      obtain ⟨rest, top⟩ := List.head?_eq_some_iff.1 first
      cases f with
      | unlinked cb =>
          obtain ⟨mine, marked⟩ := Option.ite_none_right_eq_some.1 marked
          have stage := Memory.stage_of_remover c top (beq_self_eq_true cb)
          obtain ⟨u, h, anyMore, executing⟩ := m.marks cb flag (by rw [stage]; rfl) marked
          obtain ⟨rfl, -⟩ := Memory.frame_of_mark c m top mine marked executing rfl
          exact ⟨u, spurious, h, cb, anyMore, rfl, executing⟩
      | _ => cases marked
  | _ => cases marked

theorem touchedBy_map {V W : Type} (enc : V → W) (s : State V) (t : Nat) (f : Frame V) :
    (s.map enc).touchedBy t (f.map enc) = s.touchedBy t f := by
  cases f with
  | loading call | swapping call old | locked call => cases call <;> rfl
  | _ => rfl

theorem touches_map {V W : Type} (enc : V → W) (s : State V) (e : Action) :
    (s.map enc).touches e = s.touches e := by
  have here (t : Nat) : ((s.map enc).threads t).head?.toList.flatMap ((s.map enc).touchedBy t) =
      (s.threads t).head?.toList.flatMap (s.touchedBy t) := by
    change ((s.threads t).map (Frame.map enc)).head?.toList.flatMap _ = _
    cases s.threads t with
    | nil => rfl
    | cons f rest =>
        change (s.map enc).touchedBy t (f.map enc) ++ [] = s.touchedBy t f ++ []
        rw [touchedBy_map]
  cases e with
  | step t spurious => exact here t
  | finish t => exact here t
  | _ => rfl

theorem marks_map {V W : Type} (enc : V → W) (s : State V) (e : Action) :
    (s.map enc).marks e = s.marks e := by
  cases e with
  | step t spurious =>
      change ((s.threads t).map (Frame.map enc)).head?.bind _ = (s.threads t).head?.bind _
      cases s.threads t with
      | nil => rfl
      | cons f rest => cases f <;> rfl
  | _ => rfl

/-- A step touches no callback before its constructor or after its destructor, and the variable
`removed` that `remove_callback` sets belongs to a call of `request_stop` on the same stack. -/
theorem no_use_after_free {p p' : State UInt64} {e : Action}
    (reachable : (system packedOps).ReachableBy Fitting p)
    (action : (system packedOps).step p e = some p') :
    (∀ cb ∈ p.touches e, (p.stages cb).inMemory = true) ∧
      ∀ flag ∈ p.marks e, ∃ t spurious h cb anyMore, e = .step t spurious ∧
        .executing h cb anyMore flag ∈ p.threads t := by
  obtain ⟨s, reached, fit, rfl⟩ := exists_fields reachable
  have mapped := State.step_map reached fit e
  change (s.map Fields.pack).step packedOps e = some p' at action
  rw [action] at mapped
  obtain ⟨s', moved, -⟩ := Option.map_eq_some_iff.1 mapped.symm
  constructor
  · rw [touches_map]
    exact touched_in_memory_by_action reached moved
  · intro flag marked
    rw [marks_map] at marked
    obtain ⟨t, spurious, h, cb, anyMore, same, member⟩ := marked_by_action reached marked
    exact ⟨t, spurious, h, cb, anyMore, same, List.mem_map_of_mem member⟩

/-- A callback destroys itself; its destructor tells `request_stop`. -/
theorem no_use_after_free_itself : ∃ p p' : State UInt64,
    (system packedOps).step p (.step 2 false) = some p' ∧ p.marks (.step 2 false) = some 0 ∧
      (p.stages 5).inMemory = true ∧ ∃ h cb anyMore, .executing h cb anyMore 0 ∈ p.threads 2 := by
  obtain ⟨p, reachable, test⟩ := (system packedOps).reachableBy_of_replay Fitting
    [.getToken 0 0, .construct 1 0 5 true, .step 1 false, .step 1 false, .step 1 false,
      .requestStop 2 0, .step 2 false, .step 2 false, .step 2 false, .step 2 false,
      .destroy 2 5, .step 2 false, .step 2 false, .step 2 false]
    (fun p => decide (p.marks (.step 2 false) = some 0 ∧ 5 ∈ p.touches (.step 2 false) ∧
      ((system packedOps).step p (.step 2 false)).isSome)) (by decide)
  obtain ⟨marked, touched, enabled⟩ := of_decide_eq_true test
  obtain ⟨p', action⟩ := Option.isSome_iff_exists.1 enabled
  obtain ⟨there, mine⟩ := no_use_after_free reachable action
  obtain ⟨t, spurious, h, cb, anyMore, same, inside⟩ := mine 0 marked
  cases same
  exact ⟨p, p', action, marked, there 5 touched, h, cb, anyMore, inside⟩

/-! ## Waiting -/

structure Signals (s : State Fields) : Prop where
  fresh : s.word.requested = false → s.signalling = none
  entering : ∀ t h, .locked (.requestStop h) ∈ s.threads t → s.signalling = none
  waiting : ∀ t cb, .waiting cb ∈ s.threads t → s.signalling ≠ some t

theorem Signals.step {e : Action} (reachable : (system Fields.ops).Reachable s) (i : Signals s)
    (action : (system Fields.ops).step s e = some s') : Signals s' := by
  have effects := effects reachable action
  have moves := moves reachable action
  obtain ⟨holder, signaller, c⟩ := control reachable
  obtain ⟨_, _, c'⟩ := control (reachable.step trivial action)
  rcases effects.signalling with same | ⟨t, h, rest, top, same, unlocked⟩
  · constructor
    · intro unrequested
      rw [same]
      rcases effects.requested with kept | ⟨requested, -⟩
      · exact i.fresh (kept ▸ unrequested)
      · cases unrequested.symm.trans requested
    · intro t h member
      rw [same]
      rcases moves t _ member with before | unrequested
      · exact i.entering t h before
      · exact i.fresh unrequested
    · intro t cb member
      rw [same]
      rcases moves t _ member with before | ⟨other, -⟩
      · exact i.waiting t cb before
      · exact other
  · have requested := Effects.requested_of_signaller c top rfl
    constructor
    · intro unrequested
      rcases effects.requested with kept | ⟨requested', -⟩
      · cases unrequested.symm.trans (kept.trans requested)
      · cases unrequested.symm.trans requested'
    · intro u h' member
      exact absurd rfl (c'.not_locked unlocked member _)
    · intro u cb member here
      cases same.symm.trans here
      rcases moves t _ member with before | ⟨-, cb', rest', top'⟩
      · rw [top] at before
        rcases List.mem_cons.1 before with impossible | below
        · cases impossible
        · cases c.tail_of_top top _ below
      · cases top.symm.trans top'

theorem signals (reachable : (system Fields.ops).Reachable s) : Signals s := by
  induction reachable with
  | init => exact ⟨fun _ => rfl, fun _ _ member => (by cases member), fun _ _ member => (by cases member)⟩
  | step previous _ action ih => exact ih.step previous action

theorem awaited (reachable : (system Fields.ops).Reachable s)
    (top : s.threads t = .waiting cb :: rest)
    (unfinished : (s.list.callbacks cb).finishedExecuting = false) :
    ∃ u, u ≠ t ∧ s.signalling = some u ∧
      ∃ f ∈ s.threads u, f.isCall = true ∧ f.callee = some cb := by
  obtain ⟨items, m⟩ := memory reachable
  obtain ⟨_, _, c⟩ := control reachable
  have stage := Memory.stage_of_remover c top (beq_self_eq_true cb)
  have prev : (s.list.callbacks cb).prev = none := m.top_holds top
  have calls : ∃ u, ∃ f ∈ s.threads u, f.isCall = true ∧ f.callee = some cb := by
    cases marked : (s.list.callbacks cb).isRemoved with
    | none =>
        rcases m.popped cb (by rw [stage]; rfl) prev marked with finished | ⟨u, h, anyMore, calling⟩
        · cases unfinished.symm.trans finished
        · exact ⟨u, _, calling, rfl, rfl⟩
    | some flag =>
        obtain ⟨u, h, anyMore, executing⟩ := m.marks cb flag (by rw [stage]; rfl) marked
        exact ⟨u, _, executing, rfl, rfl⟩
  obtain ⟨u, f, member, isCall, callee⟩ := calls
  have plays : f.plays .signaller = true := by
    cases f <;> first | rfl | cases isCall
  have signalling : s.signalling = some u := by
    rcases c.signalling u ((c.cast .signaller).owner_of_mem member plays) with here | ⟨h, rest', top'⟩
    · exact here
    · have same := ((c.cast .signaller).unique member (top' ▸ List.mem_cons_self) plays rfl).2
      cases same
      cases isCall
  refine ⟨u, ?_, signalling, f, member, isCall, callee⟩
  rintro rfl
  exact (signals reachable).waiting u cb (top ▸ List.mem_cons_self) signalling

/-- A thread may have to read the same again: the word, or `finished_executing`. -/
def State.spins {W : Type} (ops : WordOps W) (s : State W) : Frame W → Bool
  | .loading _ | .swapping .. => ops.isLocked s.word
  | .waiting cb => !(s.list.callbacks cb).finishedExecuting
  | _ => false

theorem spins_map {f : Frame Fields} (fits : s.word.Fits) :
    (s.map Fields.pack).spins packedOps (f.map Fields.pack) = s.spins Fields.ops f := by
  cases f with
  | loading call => exact Fields.isLocked_pack fits
  | swapping call old => exact Fields.isLocked_pack fits
  | _ => rfl

theorem top_of_locked {holder signaller : Option Nat} (c : Control s holder signaller)
    {call : Call} (member : .locked call ∈ s.threads t) :
    ∃ rest, s.threads t = .locked call :: rest := by
  cases stack : s.threads t with
  | nil =>
      rw [stack] at member
      cases member
  | cons f rest =>
      rw [stack] at member
      rcases List.mem_cons.1 member with rfl | below
      · exact ⟨rest, rfl⟩
      · cases c.tail_of_top stack _ below

theorem exists_mover (reachable : (system Fields.ops).Reachable s)
    (top : s.threads t = f :: rest) :
    ∃ u g rest', s.threads u = g :: rest' ∧ s.spins Fields.ops g = false := by
  obtain ⟨_, _, c⟩ := control reachable
  cases locked : s.word.locked with
  | true =>
      obtain ⟨u, call, inside⟩ := (locked_iff reachable).1 locked
      obtain ⟨rest', top'⟩ := top_of_locked c inside
      exact ⟨u, _, rest', top', rfl⟩
  | false =>
      have free {g : Frame Fields} (other : ∀ cb, g ≠ .waiting cb) :
          s.spins Fields.ops g = false := by
        cases g with
        | loading call => exact locked
        | swapping call old => exact locked
        | waiting cb => exact absurd rfl (other cb)
        | _ => rfl
      cases spins : s.spins Fields.ops f with
      | false => exact ⟨t, f, rest, top, spins⟩
      | true =>
          cases f with
          | waiting cb =>
              obtain ⟨u, -, signalling, g, member, -, -⟩ :=
                awaited reachable top (Bool.not_inj spins)
              obtain ⟨g', rest', top'⟩ := List.exists_cons_of_ne_nil (List.ne_nil_of_mem member)
              refine ⟨u, g', rest', top', free ?_⟩
              rintro cb' rfl
              exact (signals reachable).waiting u cb' (top' ▸ List.mem_cons_self) signalling
          | _ => cases spins.symm.trans (free nofun)

section Moves

variable {W : Type} {ops : WordOps W} {s : State W} {t : Nat} {rest : List (Frame W)}

variable (rest) in
theorem threads_look {c : Call} {old : W} (unlocked : ops.isLocked old = false) :
    (s.look ops t rest c old).threads t = rest ∨
      (s.look ops t rest c old).threads t = .swapping c old :: rest ∨
        ∃ h cb increment, (s.look ops t rest c old).threads t = .refusing h cb increment :: rest := by
  unfold State.look
  cases c with
  | requestStop h =>
      dsimp only
      split
      · exact .inl (Function.update_self ..)
      · rw [unlocked, if_neg Bool.false_ne_true]
        exact .inr (.inl (Function.update_self ..))
  | tryAddCallback h cb increment =>
      dsimp only
      split
      · exact .inr (.inr ⟨h, cb, increment, Function.update_self ..⟩)
      · split
        · left
          unfold State.decline State.giveBack
          split <;> exact Function.update_self ..
        · rw [unlocked, if_neg Bool.false_ne_true]
          exact .inr (.inl (Function.update_self ..))
  | nextCallback h | removeCallback cb =>
      dsimp only
      rw [unlocked, if_neg Bool.false_ne_true]
      exact .inr (.inl (Function.update_self ..))

theorem threads_look_ne {c : Call} {old : W} {f : Frame W} (unlocked : ops.isLocked old = false)
    (swapping : f ≠ .swapping c old) (refusing : ∀ h cb increment, f ≠ .refusing h cb increment) :
    (s.look ops t rest c old).threads t ≠ f :: rest := by
  rcases threads_look rest (s := s) (t := t) (c := c) unlocked with
    done_ | again | ⟨h, cb, increment, refused⟩
  · rw [done_]
    exact List.ne_cons_self
  · rw [again]
    exact fun same => swapping (List.cons.inj same).1.symm
  · rw [refused]
    exact fun same => refusing h cb increment (List.cons.inj same).1.symm

variable (ops) in
theorem threads_loop (h : Nat) : (s.loop ops t h rest).threads t = rest ∨
    ∃ cb anyMore, (s.loop ops t h rest).threads t = .calling h cb anyMore :: rest := by
  unfold State.loop
  split
  · exact .inl (Function.update_self ..)
  · exact .inr ⟨_, _, Function.update_self ..⟩

theorem threads_runSection (c : Call) :
    (s.runSection ops t rest c).threads t ≠ .locked c :: rest := by
  have differs : ∀ {threads : List (Frame W)}, threads = rest → threads ≠ .locked c :: rest := by
    rintro threads rfl
    exact List.ne_cons_self
  cases c with
  | requestStop h | nextCallback h =>
      rcases threads_loop ops h with done_ | ⟨cb, anyMore, calls⟩
      · exact differs done_
      · intro same
        cases calls.symm.trans same
  | tryAddCallback h cb increment =>
      apply differs
      simp only [State.runSection, State.link, State.giveBack]
      split <;> exact Function.update_self ..
  | removeCallback cb =>
      simp only [State.runSection, State.unlink]
      split
      · exact differs (Function.update_self ..)
      · intro same
        cases (Function.update_self ..).symm.trans same

theorem moves_of_free [DecidableEq W] {f : Frame W} (alive : s.deleted = false)
    (top : s.threads t = f :: rest) (free : s.spins ops f = false) : f.isBody = true ∨
      ∃ q, s.step ops (.step t false) = some q ∧ q.threads t ≠ s.threads t := by
  have enabled : s.step ops (.step t false) = s.runFrame ops t false rest f := by
    simp [State.step, alive, State.act, top]
  rw [enabled, top]
  cases f with
  | executing h cb anyMore flag | refusing h cb increment => exact .inl rfl
  | loading c =>
      refine .inr ⟨_, rfl, threads_look_ne free ?_ ?_⟩
      · rintro ⟨⟩
      · rintro h cb increment ⟨⟩
  | swapping c old =>
      refine .inr ⟨_, rfl, ?_⟩
      unfold State.swap
      split
      · show Function.update _ _ _ _ ≠ _
        rw [Function.update_self]
        exact fun same => by cases same
      · rename_i changed
        have different : s.word ≠ old := fun same => changed ⟨same, rfl⟩
        apply threads_look_ne free
        · rintro ⟨⟩
          exact different rfl
        · rintro h cb increment ⟨⟩
  | locked c => exact .inr ⟨_, rfl, threads_runSection c⟩
  | calling h cb anyMore =>
      refine .inr ⟨_, rfl, fun same => ?_⟩
      cases (Function.update_self ..).symm.trans same
  | unlinked cb =>
      refine .inr ⟨_, rfl, fun same => ?_⟩
      unfold State.notice at same
      split at same <;> cases (Function.update_self ..).symm.trans same
  | waiting cb =>
      refine .inr ⟨_, rfl, fun same => ?_⟩
      have finished : (s.list.callbacks cb).finishedExecuting = true := by
        simpa [State.spins] using free
      rw [State.wait, if_pos finished] at same
      cases (Function.update_self ..).symm.trans same
  | releasing cb =>
      have done_ : (s.release ops t cb rest).threads t = rest := Function.update_self ..
      refine .inr ⟨_, rfl, ?_⟩
      rw [done_]
      exact List.ne_cons_self

end Moves

/-- Until the state is deleted the threads cannot all spin: when one is in a call, some thread is in
the code of a callback or has a step that takes it on. A destructor that waits for a callback waits
for another thread, the one that runs it in `request_stop`, and that thread is in no such destructor
itself. -/
theorem no_deadlock {p : State UInt64} {t : Nat} {f : Frame UInt64} {rest : List (Frame UInt64)}
    (reachable : (system packedOps).ReachableBy Fitting p) (alive : p.deleted = false)
    (top : p.threads t = f :: rest) :
    (∃ u g rest', p.threads u = g :: rest' ∧ (g.isBody = true ∨
      ∃ q, (system packedOps).step p (.step u false) = some q ∧ q.threads u ≠ p.threads u)) ∧
      ∀ cb, f = .waiting cb → (p.list.callbacks cb).finishedExecuting = false → ∃ u, u ≠ t ∧
        p.signalling = some u ∧ (∃ g ∈ p.threads u, g.isCall = true ∧ g.callee = some cb) ∧
          ∀ cb', .waiting cb' ∉ p.threads u := by
  obtain ⟨s, reached, fit, rfl⟩ := exists_fields reachable
  obtain ⟨f, rest, here, rfl, rfl⟩ := List.map_eq_cons_iff.1 top
  constructor
  · obtain ⟨u, g, rest', top', free⟩ := exists_mover reached here
    have top_ : (s.map Fields.pack).threads u = g.map Fields.pack :: rest'.map (Frame.map Fields.pack) :=
      congrArg (List.map (Frame.map Fields.pack)) top'
    exact ⟨u, _, _, top_, moves_of_free alive top_ ((spins_map fit.word).trans free)⟩
  · intro cb waits unfinished
    have waits : f = .waiting cb := by
      cases f <;> cases waits
      rfl
    subst waits
    obtain ⟨u, other, signalling, g, member, isCall, callee⟩ := awaited reached here unfinished
    refine ⟨u, other, signalling, ⟨g.map Fields.pack, List.mem_map_of_mem member, ?_, ?_⟩, ?_⟩
    · cases g <;> first | rfl | cases isCall
    · cases g <;> exact callee
    · intro cb' inside
      obtain ⟨g', inside, same⟩ := List.mem_map.1 inside
      cases g' <;> cases same
      exact (signals reached).waiting u cb' inside signalling

/-- A destructor waits while another thread is in the callback. -/
theorem no_deadlock_waiting : ∃ p : State UInt64, p.threads 3 = [.waiting 5] ∧
    (∃ u g rest', p.threads u = g :: rest' ∧ (g.isBody = true ∨
      ∃ q, (system packedOps).step p (.step u false) = some q ∧ q.threads u ≠ p.threads u)) ∧
      ∃ u, u ≠ 3 ∧ p.signalling = some u := by
  obtain ⟨p, reachable, test⟩ := (system packedOps).reachableBy_of_replay Fitting
    [.getToken 0 0, .construct 1 0 5 true, .step 1 false, .step 1 false, .step 1 false,
      .requestStop 2 0, .step 2 false, .step 2 false, .step 2 false, .step 2 false,
      .destroy 3 5, .step 3 false, .step 3 false, .step 3 false, .step 3 false]
    (fun p => decide (p.deleted = false ∧ p.threads 3 = [.waiting 5] ∧
      (p.list.callbacks 5).finishedExecuting = false))
    (by decide)
  obtain ⟨alive, top, unfinished⟩ := of_decide_eq_true test
  obtain ⟨mover, waits⟩ := no_deadlock reachable alive top
  obtain ⟨u, other, signalling, -⟩ := waits 5 rfl unfinished
  exact ⟨p, top, mover, u, other, signalling⟩

end Librf.StopToken
