import Librf.StopToken.References

/-!
# What a step adds to the history

Every step of the code leaves the history of the state as it is, or it does one of a few things.
What holds of whole runs follows from this list.
-/

namespace Librf.StopToken

inductive Stage.Next : Stage → Stage → Prop
  | construct (t : Nat) : Next .unmade (.constructing t)
  | decline (t : Nat) : Next (.constructing t) .detached
  | link (t : Nat) : Next (.constructing t) .attached
  | destroy (t : Nat) : Next .attached (.destroying t)
  | destroyed (t : Nat) : Next (.destroying t) (.destroyed t)
  | destroyDetached (t : Nat) : Next .detached (.destroyed t)

structure Effects (s s' : State Fields) : Prop where
  requested : s'.word.requested = s.word.requested ∨ s'.word.requested = true ∧ s.sources ≠ []
  sources : s.sources = [] → s'.sources = []
  stages : ∀ cb, s'.stages cb = s.stages cb ∨ (s.stages cb).Next (s'.stages cb)
  called : s'.called = s.called ∨ ∃ t h cb anyMore, .calling h cb anyMore ∈ s.threads t ∧
    s'.called = s.called ++ [cb]
  refused : s'.refused = s.refused ∨ ∃ t cb, s.word.requested = true ∧
    s.stages cb = .constructing t ∧ s'.refused = s.refused ++ [cb]
  registered : s'.registered = s.registered ∨ s.word.requested = false
  answers : s'.answers = s.answers ∨ s.word.requested = true
  signalling : s'.signalling = s.signalling ∨ ∃ t h rest,
    s.threads t = .locked (.requestStop h) :: rest ∧ s'.signalling = some t ∧
      s'.word.locked = false

namespace Effects

variable {s s' : State Fields} {holder signaller : Option Nat} {t h cb : Nat}
  {rest : List (Frame Fields)}

theorem of_same (requested : s'.word.requested = s.word.requested)
    (sources : s'.sources = s.sources) (stages : s'.stages = s.stages)
    (called : s'.called = s.called) (refused : s'.refused = s.refused)
    (registered : s'.registered = s.registered)
    (answers : s'.answers = s.answers ∨ s.word.requested = true)
    (signalling : s'.signalling = s.signalling) : Effects s s' where
  requested := Or.inl requested
  sources none_ := sources.trans none_
  stages cb := Or.inl (by rw [stages])
  called := Or.inl called
  refused := Or.inl refused
  registered := Or.inl registered
  answers := answers
  signalling := Or.inl signalling

theorem of_stage {stage : Stage} (next : (s.stages cb).Next stage)
    (stages : s'.stages = Function.update s.stages cb stage)
    (requested : s'.word.requested = s.word.requested) (sources : s'.sources = s.sources)
    (called : s'.called = s.called) (refused : s'.refused = s.refused)
    (registered : s'.registered = s.registered ∨ s.word.requested = false)
    (answers : s'.answers = s.answers) (signalling : s'.signalling = s.signalling) :
    Effects s s' where
  requested := Or.inl requested
  sources none_ := sources.trans none_
  stages a := by
    rw [stages]
    by_cases here : a = cb
    · subst here
      rw [Function.update_self]
      exact Or.inr next
    · exact Or.inl (Function.update_of_ne here ..)
  called := Or.inl called
  refused := Or.inl refused
  registered := registered
  answers := Or.inl answers
  signalling := Or.inl signalling

theorem requestStop (action : s.requestStop t h = some s') : Effects s s' := by
  obtain ⟨-, made⟩ := Option.ite_none_right_eq_some.1 action
  cases made
  exact of_same rfl rfl rfl rfl rfl rfl (Or.inl rfl) rfl

theorem construct {increment : Bool} (action : s.construct t h cb increment = some s') :
    Effects s s' := by
  obtain ⟨⟨-, unmade, -⟩, made⟩ := Option.ite_none_right_eq_some.1 action
  have next : (s.stages cb).Next (.constructing t) := by
    rw [unmade]
    exact .construct t
  cases increment with
  | true =>
      cases made
      exact of_stage next rfl rfl rfl rfl rfl (Or.inl rfl) rfl rfl
  | false =>
      obtain ⟨-, made⟩ := Option.ite_none_left_eq_some.1 made
      cases made
      exact of_stage next rfl rfl rfl rfl rfl (Or.inl rfl) rfl rfl

theorem destroy (action : s.destroy t cb = some s') : Effects s s' := by
  obtain ⟨-, made⟩ := Option.ite_none_right_eq_some.1 action
  split at made
  · next stage =>
      cases made
      exact of_stage (by rw [stage]; exact .destroy t) rfl rfl rfl rfl rfl (Or.inl rfl) rfl rfl
  · next stage =>
      cases made
      exact of_stage (by rw [stage]; exact .destroyDetached t) rfl rfl rfl rfl rfl (Or.inl rfl)
        rfl rfl
  · cases made

theorem decline {increment : Bool} (constructing : s.stages cb = .constructing t) :
    Effects s (s.decline t h cb increment rest) := by
  have next : (s.stages cb).Next .detached := by
    rw [constructing]
    exact .decline t
  cases increment <;> exact of_stage next rfl rfl rfl rfl rfl (Or.inl rfl) rfl rfl

theorem look {f : Frame Fields} {call : Call} (c : Control s holder signaller)
    (top : s.threads t = f :: rest) (same : ∀ r, f.plays r = call.plays r) :
    Effects s (s.look Fields.ops t rest call s.word) := by
  cases call with
  | requestStop h =>
      unfold State.look
      dsimp only
      split
      · next requested => exact of_same rfl rfl rfl rfl rfl rfl (Or.inr requested) rfl
      · split <;> exact of_same rfl rfl rfl rfl rfl rfl (Or.inl rfl) rfl
  | nextCallback h | removeCallback cb =>
      unfold State.look
      dsimp only
      split <;> exact of_same rfl rfl rfl rfl rfl rfl (Or.inl rfl) rfl
  | tryAddCallback h cb increment =>
      have constructing := Memory.stage_of_maker c top ((same (.maker cb)).trans (beq_self_eq_true cb))
      unfold State.look
      dsimp only
      split
      · next requested => exact ⟨Or.inl rfl, id, fun _ => Or.inl rfl, Or.inl rfl,
          Or.inr ⟨t, cb, requested, constructing, rfl⟩, Or.inl rfl, Or.inl rfl, Or.inl rfl⟩
      · split
        · exact decline constructing
        · split <;> exact of_same rfl rfl rfl rfl rfl rfl (Or.inl rfl) rfl

theorem swap {call : Call} {old : Fields} {spurious : Bool} (c : Control s holder signaller)
    (counted : Counted s) (top : s.threads t = .swapping call old :: rest) :
    Effects s (s.swap Fields.ops t rest call old spurious) := by
  unfold State.swap
  split
  · next exchanged =>
      obtain ⟨rfl, -⟩ := exchanged
      cases call with
      | requestStop h =>
          have used := counted.uses.mem (x := .source h) (top ▸ List.mem_cons_self) rfl
          have some_ := List.ne_nil_of_mem (counted.sourceUsed t h used)
          exact ⟨Or.inr ⟨rfl, some_⟩, id, fun _ => Or.inl rfl, Or.inl rfl, Or.inl rfl, Or.inl rfl,
            Or.inl rfl, Or.inl rfl⟩
      | nextCallback h | tryAddCallback h cb increment | removeCallback cb => exact of_same rfl rfl rfl rfl rfl rfl (Or.inl rfl) rfl
  · exact look c top fun _ => rfl

theorem requested_of_signaller {f : Frame Fields} (c : Control s holder signaller)
    (top : s.threads t = f :: rest) (signals : f.plays .signaller = true) :
    s.word.requested = true := by
  have mine : signaller = some t := (c.cast .signaller).owner_of_mem (top ▸ List.mem_cons_self) signals
  apply c.active
  rw [mine]
  rfl

theorem loop {signalling : Option Nat} (requested : s.word.requested = true)
    (signals : signalling = s.signalling ∨ ∃ u h rest,
      s.threads u = .locked (.requestStop h) :: rest ∧ signalling = some u ∧
        (Fields.ops.unlock s.word).locked = false) :
    Effects s ({ s with signalling }.loop Fields.ops t h rest) := by
  unfold State.loop
  split
  · exact ⟨Or.inl rfl, id, fun _ => Or.inl rfl, Or.inl rfl, Or.inl rfl, Or.inl rfl,
      Or.inr requested, signals⟩
  · exact ⟨Or.inl rfl, id, fun _ => Or.inl rfl, Or.inl rfl, Or.inl rfl, Or.inl rfl, Or.inl rfl,
      signals⟩

theorem runSection {call : Call} (c : Control s holder signaller)
    (top : s.threads t = .locked call :: rest) : Effects s (s.runSection Fields.ops t rest call) := by
  cases call with
  | requestStop h =>
      exact loop (requested_of_signaller c top rfl) (Or.inr ⟨t, h, rest, top, rfl, rfl⟩)
  | nextCallback h =>
      exact loop (requested_of_signaller c top rfl) (Or.inl rfl)
  | tryAddCallback h cb increment =>
      have next : (s.stages cb).Next .attached := by
        rw [Memory.stage_of_maker c top (beq_self_eq_true cb)]
        exact .link t
      have unrequested : s.word.requested = false :=
        c.knows t (.locked (.tryAddCallback h cb increment)) (top ▸ List.mem_cons_self)
      cases increment <;> exact of_stage next rfl rfl rfl rfl rfl (Or.inr unrequested) rfl rfl
  | removeCallback cb =>
      have next : (s.stages cb).Next (.destroyed t) := by
        rw [Memory.stage_of_remover c top (beq_self_eq_true cb)]
        exact .destroyed t
      unfold State.runSection State.unlink
      dsimp only
      split
      · exact of_stage next rfl rfl rfl rfl rfl (Or.inl rfl) rfl rfl
      · exact of_same rfl rfl rfl rfl rfl rfl (Or.inl rfl) rfl

theorem runFrame {f : Frame Fields} {spurious : Bool} (c : Control s holder signaller)
    (counted : Counted s) (top : s.threads t = f :: rest)
    (action : s.runFrame Fields.ops t spurious rest f = some s') : Effects s s' := by
  cases f with
  | loading call =>
      cases action
      exact look c top fun _ => rfl
  | swapping call old =>
      cases action
      exact swap c counted top
  | locked call =>
      cases action
      exact runSection c top
  | calling h cb anyMore =>
      cases action
      have member : .calling h cb anyMore ∈ s.threads t := top ▸ List.mem_cons_self
      exact ⟨Or.inl rfl, id, fun _ => Or.inl rfl, Or.inr ⟨t, h, cb, anyMore, member, rfl⟩,
        Or.inl rfl, Or.inl rfl, Or.inl rfl, Or.inl rfl⟩
  | executing h cb anyMore flag => cases action
  | refusing h cb increment => cases action
  | unlinked cb =>
      cases action
      unfold State.notice State.markRemoved
      split
      · split <;> exact of_same rfl rfl rfl rfl rfl rfl (Or.inl rfl) rfl
      · exact of_same rfl rfl rfl rfl rfl rfl (Or.inl rfl) rfl
  | waiting cb =>
      cases action
      unfold State.wait
      split <;> exact of_same rfl rfl rfl rfl rfl rfl (Or.inl rfl) rfl
  | releasing cb =>
      cases action
      have next : (s.stages cb).Next (.destroyed t) := by
        rw [Memory.stage_of_remover c top (beq_self_eq_true cb)]
        exact .destroyed t
      exact of_stage next rfl rfl rfl rfl rfl (Or.inl rfl) rfl rfl

theorem finish (c : Control s holder signaller) (action : s.finish t = some s') :
    Effects s s' := by
  unfold State.finish at action
  split at action
  · next h cb anyMore flag rest top =>
      cases action
      have requested := requested_of_signaller c top rfl
      unfold State.executed State.markFinished
      split <;> split <;> exact of_same rfl rfl rfl rfl rfl rfl (Or.inr requested) rfl
  · next h cb increment rest top =>
      cases action
      exact decline (Memory.stage_of_maker c top (beq_self_eq_true cb))
  · cases action

theorem act {e : Action} (c : Control s holder signaller) (counted : Counted s)
    (action : s.act Fields.ops e = some s') : Effects s s' := by
  cases e with
  | requestStop t h => exact requestStop action
  | construct t h cb increment => exact construct action
  | destroy t cb => exact destroy action
  | step t spurious =>
      simp only [State.act] at action
      split at action
      · cases action
      · next top => exact runFrame c counted top action
  | finish t => exact finish c action
  | getToken h h' | copyToken h h' | dropToken h =>
      obtain ⟨-, made⟩ := Option.ite_none_right_eq_some.1 action
      cases made
      exact of_same rfl rfl rfl rfl rfl rfl (Or.inl rfl) rfl
  | copySource h h' =>
      obtain ⟨⟨member, -⟩, made⟩ := Option.ite_none_right_eq_some.1 action
      cases made
      have some_ := List.ne_nil_of_mem member
      exact ⟨Or.inl rfl, fun none_ => absurd none_ some_, fun _ => Or.inl rfl, Or.inl rfl,
        Or.inl rfl, Or.inl rfl, Or.inl rfl, Or.inl rfl⟩
  | dropSource h =>
      obtain ⟨⟨member, -⟩, made⟩ := Option.ite_none_right_eq_some.1 action
      cases made
      have some_ := List.ne_nil_of_mem member
      exact ⟨Or.inl rfl, fun none_ => absurd none_ some_, fun _ => Or.inl rfl, Or.inl rfl,
        Or.inl rfl, Or.inl rfl, Or.inl rfl, Or.inl rfl⟩

end Effects

theorem effects {s s' : State Fields} {e : Action} (reachable : (system Fields.ops).Reachable s)
    (action : (system Fields.ops).step s e = some s') : Effects s s' := by
  obtain ⟨_, _, c⟩ := control reachable
  exact Effects.act c (counted reachable) (act_of_step action).2

/-! ## The frames of a thread -/

/-- What is known where a thread gets a frame. -/
def Frame.Arrives (s : State Fields) (t : Nat) : Frame Fields → Prop
  | .swapping _ old => old = s.word
  | .locked (.requestStop _) => s.word.requested = false
  | .waiting _ => s.signalling ≠ some t ∧ ∃ cb rest, s.threads t = .unlinked cb :: rest
  | _ => True

def Moves (s s' : State Fields) : Prop :=
  ∀ u, ∀ f ∈ s'.threads u, f ∈ s.threads u ∨ f.Arrives s u

namespace Moves

variable {s s' : State Fields} {holder signaller : Option Nat} {t h cb : Nat} {f g : Frame Fields}
  {rest l : List (Frame Fields)} {call : Call}

theorem of_update (threads : s'.threads = Function.update s.threads t l)
    (new : ∀ f ∈ l, f ∈ s.threads t ∨ f.Arrives s t) : Moves s s' := by
  unfold Moves
  rw [threads]
  exact Sole.forall_mem_update (fun _ _ member => Or.inl member) new

theorem refl (threads : s'.threads = s.threads) : Moves s s' := by
  intro u f member
  rw [threads] at member
  exact Or.inl member

theorem push (threads : s'.threads = Function.update s.threads t (.loading call :: s.threads t)) :
    Moves s s' := by
  apply of_update threads
  intro f member
  rcases List.mem_cons.1 member with rfl | member
  · exact Or.inr trivial
  · exact Or.inl member

theorem drop (top : s.threads t = f :: rest)
    (threads : s'.threads = Function.update s.threads t rest) : Moves s s' := by
  apply of_update threads
  intro g member
  rw [top]
  exact Or.inl (List.mem_cons_of_mem f member)

theorem replace (top : s.threads t = f :: rest)
    (threads : s'.threads = Function.update s.threads t (g :: rest)) (new : g.Arrives s t) :
    Moves s s' := by
  apply of_update threads
  intro f' member
  rcases List.mem_cons.1 member with rfl | member
  · exact Or.inr new
  · rw [top]
    exact Or.inl (List.mem_cons_of_mem f member)

theorem giveBack {increment keeps : Bool} (moves : Moves s s') :
    Moves s (s'.giveBack t h increment keeps) := by
  cases increment <;> exact moves

theorem look (top : s.threads t = f :: rest) :
    Moves s (s.look Fields.ops t rest call s.word) := by
  have exchange : Moves s (s.setThread t (.swapping call s.word :: rest)) := replace top rfl rfl
  have again : Moves s (s.setThread t (.loading call :: rest)) := replace top rfl trivial
  cases call with
  | requestStop h =>
      simp only [State.look]
      split
      · exact drop top rfl
      · split
        · exact again
        · exact exchange
  | tryAddCallback h cb increment =>
      simp only [State.look]
      split
      · exact replace top rfl trivial
      · split
        · exact giveBack (drop top rfl)
        · split
          · exact again
          · exact exchange
  | nextCallback h | removeCallback cb =>
      simp only [State.look]
      split
      · exact again
      · exact exchange

theorem swap {old : Fields} {spurious : Bool} (c : Control s holder signaller)
    (top : s.threads t = .swapping call old :: rest) :
    Moves s (s.swap Fields.ops t rest call old spurious) := by
  unfold State.swap
  split
  · next exchanged =>
      obtain ⟨rfl, -⟩ := exchanged
      have knows : (Frame.swapping call s.word).Knows s.word :=
        c.knows t _ (top ▸ List.mem_cons_self)
      cases call with
      | requestStop h => exact replace top rfl (knows.2 rfl)
      | nextCallback h | tryAddCallback h cb increment | removeCallback cb =>
          exact replace top rfl trivial
  · exact look top

theorem loop {signalling : Option Nat} (top : s.threads t = f :: rest) :
    Moves s ({ s with signalling }.loop Fields.ops t h rest) := by
  unfold State.loop
  split
  · exact drop top rfl
  · exact replace top rfl trivial

theorem runFrame {spurious : Bool} (c : Control s holder signaller) (top : s.threads t = f :: rest)
    (action : s.runFrame Fields.ops t spurious rest f = some s') : Moves s s' := by
  cases f with
  | loading call =>
      cases action
      exact look top
  | swapping call old =>
      cases action
      exact swap c top
  | locked call =>
      cases action
      cases call with
      | requestStop h => exact loop top
      | nextCallback h => exact loop top
      | tryAddCallback h cb increment =>
          have moves : Moves s (((s.setThread t rest).setStage cb .attached).giveBack t h increment
            false) := giveBack (drop top rfl)
          exact moves
      | removeCallback cb =>
          unfold State.runSection State.unlink
          dsimp only
          split
          · exact drop top rfl
          · exact replace top rfl trivial
  | calling h cb anyMore =>
      cases action
      exact replace top rfl trivial
  | executing h cb anyMore flag => cases action
  | refusing h cb increment => cases action
  | unlinked cb =>
      cases action
      unfold State.notice State.markRemoved
      split
      · split <;> exact replace top rfl trivial
      · next other => exact replace top rfl ⟨other, cb, rest, top⟩
  | waiting cb =>
      cases action
      unfold State.wait
      split
      · exact replace top rfl trivial
      · exact refl rfl
  | releasing cb =>
      cases action
      exact drop top rfl

theorem finish (action : s.finish t = some s') : Moves s s' := by
  unfold State.finish at action
  split at action
  · next h cb anyMore flag rest top =>
      cases action
      unfold State.executed State.markFinished
      split <;> split
      · exact replace top rfl trivial
      · exact drop top rfl
      · exact replace top rfl trivial
      · exact drop top rfl
  · next top =>
      cases action
      exact giveBack (drop top rfl)
  · cases action

theorem act {e : Action} (c : Control s holder signaller) (action : s.act Fields.ops e = some s') :
    Moves s s' := by
  cases e with
  | requestStop t h =>
      obtain ⟨-, made⟩ := Option.ite_none_right_eq_some.1 action
      cases made
      exact push rfl
  | construct t h cb increment =>
      obtain ⟨-, made⟩ := Option.ite_none_right_eq_some.1 action
      cases increment with
      | true =>
          cases made
          exact push rfl
      | false =>
          obtain ⟨-, made⟩ := Option.ite_none_left_eq_some.1 made
          cases made
          exact push rfl
  | destroy t cb =>
      obtain ⟨-, made⟩ := Option.ite_none_right_eq_some.1 action
      split at made
      · cases made
        exact push rfl
      · cases made
        exact refl rfl
      · cases made
  | step t spurious =>
      simp only [State.act] at action
      split at action
      · cases action
      · next top => exact runFrame c top action
  | finish t => exact finish action
  | getToken h h' | copyToken h h' | dropToken h | copySource h h' | dropSource h =>
      obtain ⟨-, made⟩ := Option.ite_none_right_eq_some.1 action
      cases made
      exact refl rfl

end Moves

theorem moves {s s' : State Fields} {e : Action} (reachable : (system Fields.ops).Reachable s)
    (action : (system Fields.ops).step s e = some s') : Moves s s' := by
  obtain ⟨_, _, c⟩ := control reachable
  exact Moves.act c (act_of_step action).2

end Librf.StopToken
