import Librf.Base.Sole
import Librf.StopToken.Model

/-!
# Who is where

At most one thread is between an exchange and its unlock, at most one is in the loop of
`request_stop`, and every callback has at most one constructor and one destructor.
-/

namespace Librf.StopToken

inductive Role
  | holder
  | signaller
  | maker (cb : Nat)
  | remover (cb : Nat)
  deriving DecidableEq, Repr

/-- The role of a thread during the whole call. -/
def Call.plays : Role → Call → Bool
  | .signaller, .nextCallback _ => true
  | .maker cb, .tryAddCallback _ cb' _ => cb' == cb
  | .remover cb, .removeCallback cb' => cb' == cb
  | _, _ => false

def Frame.plays {W : Type} : Role → Frame W → Bool
  | r, .loading c | r, .swapping c _ => c.plays r
  | .holder, .locked _ => true
  | .signaller, .locked (.requestStop _) => true
  | r, .locked c => c.plays r
  | .signaller, .calling .. | .signaller, .executing .. => true
  | .maker cb, .refusing _ cb' _ => cb' == cb
  | .remover cb, .unlinked cb' | .remover cb, .waiting cb' | .remover cb, .releasing cb' => cb' == cb
  | _, _ => false

def Stage.maker : Stage → Option Nat
  | .constructing t => some t
  | _ => none

def Stage.remover : Stage → Option Nat
  | .destroying t => some t
  | _ => none

/-- Who plays a role, given who holds the lock and who is in the loop. -/
def owner {W : Type} (s : State W) (holder signaller : Option Nat) : Role → Option Nat
  | .holder => holder
  | .signaller => signaller
  | .maker cb => (s.stages cb).maker
  | .remover cb => (s.stages cb).remover

/-- A call that does not change a state for which a stop has been requested. -/
def Call.asks : Call → Bool
  | .requestStop _ | .tryAddCallback .. => true
  | .nextCallback _ | .removeCallback _ => false

/-- What a thread knows about the word: a stop request is never taken back. -/
def Frame.Knows (word : Fields) : Frame Fields → Prop
  | .swapping c old => old.locked = false ∧ (c.asks = true → old.requested = false)
  | .locked (.tryAddCallback ..) => word.requested = false
  | _ => True

structure Control (s : State Fields) (holder signaller : Option Nat) : Prop where
  bodies : ∀ t, ∀ f ∈ (s.threads t).tail, f.isBody = true
  locked : s.word.locked = holder.isSome
  cast : ∀ r, Sole (Frame.plays r) s.threads (owner s holder signaller r)
  active : signaller.isSome = true → s.word.requested = true
  signalling : ∀ t, signaller = some t →
    s.signalling = some t ∨ ∃ h rest, s.threads t = .locked (.requestStop h) :: rest
  knows : ∀ t, ∀ f ∈ s.threads t, f.Knows s.word
  answers : s.answers.count true + (if signaller.isSome then 1 else 0) =
    if s.word.requested then 1 else 0

namespace Control

variable {s s' : State Fields} {holder signaller : Option Nat} {t : Nat} {f g : Frame Fields}
  {rest l : List (Frame Fields)} {call : Call}

theorem init : Control (system Fields.ops).init none none where
  bodies _ _ member := by cases member
  locked := rfl
  cast r := by cases r <;> exact Sole.nil
  active h := by cases h
  signalling _ h := by cases h
  knows _ _ member := by cases member
  answers := rfl

theorem knows_of_requested {word word' : Fields} (same : word'.requested = word.requested)
    (knows : f.Knows word) : f.Knows word' := by
  unfold Frame.Knows at knows ⊢
  split <;> simp_all

theorem holder_of_top (c : Control s holder signaller) (top : s.threads t = .locked call :: rest) :
    holder = some t := by
  apply (c.cast .holder).owner_of_mem (top ▸ List.mem_cons_self)
  cases call <;> rfl

theorem not_locked (c : Control s holder signaller) (unlocked : s.word.locked = false)
    (member : f ∈ s.threads t) : ∀ call, f ≠ .locked call := by
  intro call here
  have none_ : holder = none := by
    rw [c.locked] at unlocked
    exact Option.not_isSome_iff_eq_none.1 (by simp [unlocked])
  subst none_
  have plays := (c.cast .holder).not_mem t f member
  rw [here] at plays
  cases call <;> cases plays

theorem step (c : Control s holder signaller) (threads : s'.threads = Function.update s.threads t l)
    (locked : s'.word.locked = s.word.locked) (requested : s'.word.requested = s.word.requested)
    (signalling : s'.signalling = s.signalling)
    (answers : s'.answers.count true = s.answers.count true)
    (other : ∀ h rest, s.threads t ≠ .locked (.requestStop h) :: rest)
    (tail : ∀ f ∈ l.tail, f.isBody = true) (knows : ∀ f ∈ l, f.Knows s.word)
    (cast : ∀ r, Sole (Frame.plays r) (Function.update s.threads t l) (owner s' holder signaller r)) :
    Control s' holder signaller where
  bodies := by
    rw [threads]
    exact Sole.forall_update (P := fun _ (l : List (Frame Fields)) => ∀ f ∈ l.tail, f.isBody = true)
      c.bodies tail
  locked := locked.trans c.locked
  cast := threads ▸ cast
  active is := requested.trans (c.active is)
  signalling u is := by
    rw [signalling, threads]
    by_cases here : u = t
    · subst here
      apply Or.inl
      apply (c.signalling u is).resolve_right
      rintro ⟨h, rest, top⟩
      exact other h rest top
    · rw [Function.update_of_ne here]
      exact c.signalling u is
  knows := by
    rw [threads]
    apply Sole.forall_mem_update
    · exact fun u f member => knows_of_requested requested (c.knows u f member)
    · exact fun f member => knows_of_requested requested (knows f member)
  answers := by
    rw [answers, requested]
    exact c.answers

/-! ## Roles of a callback -/

theorem owner_congr (stages : s'.stages = s.stages) (r : Role) :
    owner s' holder signaller r = owner s holder signaller r := by
  cases r <;> simp only [owner, stages]

theorem cast_stage {stack : Nat → List (Frame Fields)} (cb : Nat) {stage : Stage}
    (stages : s'.stages = Function.update s.stages cb stage)
    (maker : Sole (Frame.plays (.maker cb)) stack stage.maker)
    (remover : Sole (Frame.plays (.remover cb)) stack stage.remover)
    (cast : ∀ r, r ≠ .maker cb → r ≠ .remover cb →
      Sole (Frame.plays r) stack (owner s holder signaller r)) (r : Role) :
    Sole (Frame.plays r) stack (owner s' holder signaller r) := by
  cases r with
  | holder => exact cast .holder nofun nofun
  | signaller => exact cast .signaller nofun nofun
  | maker cb' =>
      by_cases here : cb' = cb
      · subst here
        simpa only [owner, stages, Function.update_self] using maker
      · have same := cast (.maker cb') (fun h => here (Role.maker.inj h)) nofun
        simpa only [owner, stages, Function.update_of_ne here] using same
  | remover cb' =>
      by_cases here : cb' = cb
      · subst here
        simpa only [owner, stages, Function.update_self] using remover
      · have same := cast (.remover cb') nofun fun h => here (Role.remover.inj h)
        simpa only [owner, stages, Function.update_of_ne here] using same

theorem plays_tryAdd {h cb : Nat} {increment : Bool} {r : Role} (other : r ≠ .maker cb) :
    (Call.tryAddCallback h cb increment).plays r = false := by
  cases r with
  | maker cb' => exact beq_false_of_ne fun same => other (same ▸ rfl)
  | _ => rfl

theorem plays_remove {cb : Nat} {r : Role} (other : r ≠ .remover cb) :
    (Call.removeCallback cb).plays r = false := by
  cases r with
  | remover cb' => exact beq_false_of_ne fun same => other (same ▸ rfl)
  | _ => rfl

theorem stage_of_maker {cb : Nat} (maker : (s.stages cb).maker = some t) :
    s.stages cb = .constructing t := by
  unfold Stage.maker at maker
  split at maker
  · next stage => rw [stage, Option.some.inj maker]
  · cases maker

theorem stage_of_remover {cb : Nat} (remover : (s.stages cb).remover = some t) :
    s.stages cb = .destroying t := by
  unfold Stage.remover at remover
  split at remover
  · next stage => rw [stage, Option.some.inj remover]
  · cases remover

/-! ## The beginning of a call -/

theorem bodies_of_ready (c : Control s holder signaller) (ready : s.ready t = true) :
    ∀ f ∈ s.threads t, f.isBody = true := by
  have tail := c.bodies t
  unfold State.ready at ready
  split at ready
  · next idle => simp [idle]
  · next f rest top =>
      rw [top] at tail ⊢
      exact List.forall_mem_cons.2 ⟨ready, tail⟩

theorem push (c : Control s holder signaller) (ready : s.ready t = true)
    (threads : s'.threads = Function.update s.threads t (.loading call :: s.threads t))
    (word : s'.word = s.word) (signalling : s'.signalling = s.signalling)
    (answers : s'.answers = s.answers)
    (cast : ∀ r, Sole (Frame.plays r) (Function.update s.threads t (.loading call :: s.threads t))
      (owner s' holder signaller r)) : Control s' holder signaller := by
  have bodies := c.bodies_of_ready ready
  apply c.step threads (by rw [word]) (by rw [word]) signalling (by rw [answers])
  · intro h rest top
    have body := bodies (.locked (.requestStop h)) (top ▸ List.mem_cons_self)
    cases body
  · exact bodies
  · exact List.forall_mem_cons.2 ⟨trivial, c.knows t⟩
  · exact cast

theorem requestStop (c : Control s holder signaller) {h : Nat}
    (action : s.requestStop t h = some s') : Control s' holder signaller := by
  obtain ⟨⟨ready, -⟩, made⟩ := Option.ite_none_right_eq_some.1 action
  cases made
  exact c.push ready rfl rfl rfl rfl fun r => (c.cast r).push (by cases r <;> rfl)

theorem construct (c : Control s holder signaller) {h cb : Nat} {increment : Bool}
    (action : s.construct t h cb increment = some s') : Control s' holder signaller := by
  obtain ⟨⟨ready, unmade, -⟩, made⟩ := Option.ite_none_right_eq_some.1 action
  have cast : ∀ r, Sole (Frame.plays r)
      (Function.update s.threads t (.loading (.tryAddCallback h cb increment) :: s.threads t))
      (owner (s.setStage cb (.constructing t)) holder signaller r) := by
    have maker := c.cast (.maker cb)
    have remover := c.cast (.remover cb)
    simp only [owner, unmade] at maker remover
    apply cast_stage (s := s) cb rfl
    · exact maker.enter_push (beq_self_eq_true cb)
    · exact remover.push rfl
    · exact fun r other _ => (c.cast r).push (plays_tryAdd other)
  split at made
  · cases made
    exact c.push ready rfl rfl rfl rfl cast
  · obtain ⟨-, made⟩ := Option.ite_none_left_eq_some.1 made
    cases made
    exact c.push ready rfl rfl rfl rfl cast

theorem destroy (c : Control s holder signaller) {cb : Nat} (action : s.destroy t cb = some s') :
    Control s' holder signaller := by
  obtain ⟨ready, made⟩ := Option.ite_none_right_eq_some.1 action
  have maker := c.cast (.maker cb)
  have remover := c.cast (.remover cb)
  split at made
  · next attached =>
      cases made
      simp only [owner, attached] at maker remover
      exact c.push ready rfl rfl rfl rfl
        (cast_stage cb rfl (maker.push rfl) (remover.enter_push (beq_self_eq_true cb))
          fun r _ other => (c.cast r).push (plays_remove other))
  · next detached =>
      cases made
      simp only [owner, detached] at maker remover
      exact { c with cast := cast_stage cb rfl maker remover fun r _ _ => c.cast r }
  · cases made

/-! ## Outside the lock -/

theorem tail_of_top (c : Control s holder signaller) (top : s.threads t = f :: rest) :
    ∀ g ∈ rest, g.isBody = true := by
  have tail := c.bodies t
  rwa [top] at tail

theorem knows_of_top (c : Control s holder signaller) (top : s.threads t = f :: rest) :
    ∀ g ∈ rest, g.Knows s.word := by
  intro g member
  apply c.knows t
  rw [top]
  exact List.mem_cons_of_mem f member

theorem tail_of_tail (bodies : ∀ f ∈ rest, f.isBody = true) : ∀ f ∈ rest.tail, f.isBody = true :=
  fun f member => bodies f (List.mem_of_mem_tail member)

theorem replace (c : Control s holder signaller) (top : s.threads t = f :: rest)
    (threads : s'.threads = Function.update s.threads t (g :: rest))
    (locked : s'.word.locked = s.word.locked) (requested : s'.word.requested = s.word.requested)
    (signalling : s'.signalling = s.signalling) (answers : s'.answers = s.answers)
    (stages : s'.stages = s.stages) (other : ∀ h, f ≠ .locked (.requestStop h))
    (knows : g.Knows s.word) (same : ∀ r, g.plays r = f.plays r) : Control s' holder signaller := by
  apply c.step threads locked requested signalling (by rw [answers])
  · intro h rest' top'
    rw [top] at top'
    exact other h (List.cons.inj top').1
  · exact c.tail_of_top top
  · exact List.forall_mem_cons.2 ⟨knows, c.knows_of_top top⟩
  · intro r
    rw [owner_congr stages]
    exact (c.cast r).replace top (same r)

theorem drop (c : Control s holder signaller) (top : s.threads t = f :: rest)
    (threads : s'.threads = Function.update s.threads t rest)
    (locked : s'.word.locked = s.word.locked) (requested : s'.word.requested = s.word.requested)
    (signalling : s'.signalling = s.signalling)
    (answers : s'.answers.count true = s.answers.count true)
    (other : ∀ h, f ≠ .locked (.requestStop h))
    (cast : ∀ r, Sole (Frame.plays r) (Function.update s.threads t rest)
      (owner s' holder signaller r)) : Control s' holder signaller := by
  apply c.step threads locked requested signalling answers
  · intro h rest' top'
    rw [top] at top'
    exact other h (List.cons.inj top').1
  · exact tail_of_tail (c.tail_of_top top)
  · exact c.knows_of_top top
  · exact cast

theorem cast_detached (c : Control s holder signaller) {h cb : Nat} {increment : Bool}
    (top : s.threads t = f :: rest)
    (same : ∀ r, f.plays r = (Call.tryAddCallback h cb increment).plays r)
    (stages : s'.stages = Function.update s.stages cb .detached) (r : Role) :
    Sole (Frame.plays r) (Function.update s.threads t rest) (owner s' holder signaller r) := by
  have maker := (c.cast (.maker cb)).owner_of_mem (f := f) (top ▸ List.mem_cons_self)
    ((same _).trans (beq_self_eq_true cb))
  have remover := c.cast (.remover cb)
  rw [owner, stage_of_maker maker] at remover
  apply cast_stage cb stages
  · exact (c.cast (.maker cb)).leave_pop top ((same _).trans (beq_self_eq_true cb))
  · exact remover.pop top (same _)
  · exact fun r other _ => (c.cast r).pop top ((same r).trans (plays_tryAdd other))

theorem decline (c : Control s holder signaller) {h cb : Nat} {increment : Bool}
    (top : s.threads t = f :: rest)
    (same : ∀ r, f.plays r = (Call.tryAddCallback h cb increment).plays r)
    (other : ∀ h, f ≠ .locked (.requestStop h)) :
    Control (s.decline t h cb increment rest) holder signaller := by
  unfold State.decline State.giveBack
  split
  · exact c.drop top rfl rfl rfl rfl rfl other (c.cast_detached top same rfl)
  · exact c.drop top rfl rfl rfl rfl rfl other (c.cast_detached top same rfl)

theorem look (c : Control s holder signaller) (top : s.threads t = f :: rest)
    (same : ∀ r, f.plays r = call.plays r) (other : ∀ h, f ≠ .locked (.requestStop h)) :
    Control (s.look Fields.ops t rest call s.word) holder signaller := by
  have again : Control (s.setThread t (.loading call :: rest)) holder signaller :=
    c.replace top rfl rfl rfl rfl rfl rfl other trivial fun r => (same r).symm
  have exchange (unlocked : ¬ s.word.locked = true)
      (asks : call.asks = true → s.word.requested = false) :
      Control (s.setThread t (.swapping call s.word :: rest)) holder signaller :=
    c.replace top rfl rfl rfl rfl rfl rfl other ⟨Bool.eq_false_iff.2 unlocked, asks⟩
      fun r => (same r).symm
  unfold State.look
  cases call with
  | requestStop h =>
      dsimp only
      split
      · have counted : (s.answers ++ [false]).count true = s.answers.count true := by simp
        exact c.drop top rfl rfl rfl rfl counted other fun r =>
          (c.cast r).pop top ((same r).trans (by cases r <;> rfl))
      · next unrequested =>
          split
          · exact again
          · next unlocked => exact exchange unlocked fun _ => Bool.eq_false_iff.2 unrequested
  | tryAddCallback h cb increment =>
      dsimp only
      split
      · exact c.replace top rfl rfl rfl rfl rfl rfl other trivial fun r =>
          (show _ = (Call.tryAddCallback h cb increment).plays r by cases r <;> rfl).trans (same r).symm
      · next unrequested =>
          split
          · exact c.decline top same other
          · split
            · exact again
            · next unlocked => exact exchange unlocked fun _ => Bool.eq_false_iff.2 unrequested
  | nextCallback h =>
      dsimp only
      split
      · exact again
      · next unlocked => exact exchange unlocked nofun
  | removeCallback cb =>
      dsimp only
      split
      · exact again
      · next unlocked => exact exchange unlocked nofun

/-! ## The lock -/

theorem plays_locked_requestStop {h : Nat} {r : Role} (other : r ≠ .holder) (other' : r ≠ .signaller) :
    (Frame.locked (W := Fields) (.requestStop h)).plays r = false := by
  cases r with
  | holder => exact absurd rfl other
  | signaller => exact absurd rfl other'
  | _ => rfl

theorem plays_locked {r : Role} (kind : ∀ h, call ≠ .requestStop h) (other : r ≠ .holder) :
    (Frame.locked (W := Fields) call).plays r = call.plays r := by
  cases r with
  | holder => exact absurd rfl other
  | signaller =>
      cases call with
      | requestStop h => exact absurd rfl (kind h)
      | _ => rfl
  | _ => cases call <;> rfl

theorem holder_none (c : Control s holder signaller) (unlocked : s.word.locked = false) :
    holder = none := by
  rw [c.locked] at unlocked
  exact Option.not_isSome_iff_eq_none.1 (by rw [unlocked]; exact Bool.false_ne_true)

theorem signaller_none (c : Control s holder signaller) (unrequested : s.word.requested = false) :
    signaller = none := by
  apply Option.not_isSome_iff_eq_none.1
  intro is
  rw [c.active is] at unrequested
  cases unrequested

theorem signalling_elsewhere (c : Control s holder signaller) (top : s.threads t = f :: rest)
    (other : ∀ h, f ≠ .locked (.requestStop h)) {u : Nat} (is : signaller = some u) :
    s.signalling = some u ∨
      ∃ h rest, Function.update s.threads t l u = .locked (.requestStop h) :: rest := by
  by_cases here : u = t
  · subst here
    apply Or.inl
    apply (c.signalling u is).resolve_right
    rintro ⟨h, rest', top'⟩
    rw [top] at top'
    exact other h (List.cons.inj top').1
  · rw [Function.update_of_ne here]
    exact c.signalling u is

theorem acquire (c : Control s holder signaller) (top : s.threads t = .swapping call s.word :: rest)
    (kind : ∀ h, call ≠ .requestStop h)
    (threads : s'.threads = Function.update s.threads t (.locked call :: rest))
    (word : s'.word = Fields.ops.locking s.word) (signalling : s'.signalling = s.signalling)
    (answers : s'.answers = s.answers) (stages : s'.stages = s.stages) :
    Control s' (some t) signaller := by
  have knows := c.knows t (.swapping call s.word) (top ▸ List.mem_cons_self)
  constructor
  · rw [threads]
    exact Sole.forall_update (P := fun _ (l : List (Frame Fields)) => ∀ f ∈ l.tail, f.isBody = true)
      c.bodies (c.tail_of_top top)
  · rw [word]
    rfl
  · intro r
    rw [threads]
    by_cases here : r = .holder
    · subst here
      have none_ := c.cast .holder
      rw [owner, c.holder_none knows.1] at none_
      exact none_.enter_replace top (by cases call <;> rfl)
    · have same : owner s' (some t) signaller r = owner s holder signaller r := by
        cases r with
        | holder => exact absurd rfl here
        | _ => simp only [owner, stages]
      rw [same]
      exact (c.cast r).replace top (plays_locked kind here)
  · rw [word]
    exact c.active
  · intro u is
    rw [signalling, threads]
    exact c.signalling_elsewhere top nofun is
  · rw [threads]
    apply Sole.forall_mem_update
    · exact fun u f member => knows_of_requested (by rw [word]; rfl) (c.knows u f member)
    · rw [List.forall_mem_cons]
      constructor
      · cases call with
        | tryAddCallback h cb increment => exact word ▸ knows.2 rfl
        | _ => trivial
      · exact fun f member =>
          knows_of_requested (by rw [word]; rfl) (c.knows_of_top top f member)
  · rw [answers, word]
    exact c.answers

theorem knows_of_not_locked {word word' : Fields} (other : ∀ call, f ≠ .locked call)
    (knows : f.Knows word) : f.Knows word' := by
  cases f with
  | locked call => exact absurd rfl (other call)
  | swapping call old => exact knows
  | _ => trivial

theorem acquireStop (c : Control s holder signaller) {h : Nat}
    (top : s.threads t = .swapping (.requestStop h) s.word :: rest)
    (threads : s'.threads = Function.update s.threads t (.locked (.requestStop h) :: rest))
    (word : s'.word = Fields.ops.stopping s.word)
    (answers : s'.answers = s.answers) (stages : s'.stages = s.stages) :
    Control s' (some t) (some t) := by
  have knows := c.knows t (.swapping (.requestStop h) s.word) (top ▸ List.mem_cons_self)
  have unrequested : s.word.requested = false := knows.2 rfl
  constructor
  · rw [threads]
    exact Sole.forall_update (P := fun _ (l : List (Frame Fields)) => ∀ f ∈ l.tail, f.isBody = true)
      c.bodies (c.tail_of_top top)
  · rw [word]
    rfl
  · intro r
    rw [threads]
    have cast := c.cast r
    cases r with
    | holder =>
        rw [owner, c.holder_none knows.1] at cast
        exact cast.enter_replace top rfl
    | signaller =>
        rw [owner, c.signaller_none unrequested] at cast
        exact cast.enter_replace top rfl
    | maker cb =>
        rw [owner, stages]
        exact cast.replace top rfl
    | remover cb =>
        rw [owner, stages]
        exact cast.replace top rfl
  · intro _
    rw [word]
    rfl
  · intro u is
    cases is
    rw [threads, Function.update_self]
    exact Or.inr ⟨h, rest, rfl⟩
  · rw [threads]
    apply Sole.forall_mem_update
    · exact fun u f member =>
        knows_of_not_locked (c.not_locked knows.1 member) (c.knows u f member)
    · rw [List.forall_mem_cons]
      constructor
      · trivial
      · intro f member
        have below : f ∈ s.threads t := top ▸ List.mem_cons_of_mem _ member
        exact knows_of_not_locked (c.not_locked knows.1 below) (c.knows t f below)
  · have counted := c.answers
    rw [c.signaller_none unrequested, unrequested] at counted
    rw [answers, word]
    simpa [Fields.ops] using counted

theorem swap (c : Control s holder signaller) {old : Fields} {spurious : Bool}
    (top : s.threads t = .swapping call old :: rest) :
    ∃ holder' signaller',
      Control (s.swap Fields.ops t rest call old spurious) holder' signaller' := by
  unfold State.swap
  split
  · next exchanged =>
      obtain ⟨same, -⟩ := exchanged
      subst same
      cases call with
      | requestStop h => exact ⟨_, _, c.acquireStop top rfl rfl rfl rfl⟩
      | nextCallback h => exact ⟨_, _, c.acquire top nofun rfl rfl rfl rfl rfl⟩
      | tryAddCallback h cb increment => exact ⟨_, _, c.acquire top nofun rfl rfl rfl rfl rfl⟩
      | removeCallback cb => exact ⟨_, _, c.acquire top nofun rfl rfl rfl rfl rfl⟩
  · exact ⟨_, _, c.look top (fun _ => rfl) nofun⟩

/-! ## Between an exchange and its unlock -/

theorem signalling_of_holder (c : Control s holder signaller)
    (top : s.threads t = .locked call :: rest) (kind : ∀ h, call ≠ .requestStop h) {u : Nat}
    (is : signaller = some u) : s.signalling = some u := by
  apply (c.signalling u is).resolve_right
  rintro ⟨h, rest', top'⟩
  have same : t = u :=
    Option.some.inj ((c.holder_of_top top).symm.trans (c.holder_of_top top'))
  subst same
  rw [top] at top'
  exact kind h (Frame.locked.inj (List.cons.inj top').1)

theorem leave (c : Control s holder signaller) {signaller' : Option Nat}
    (threads : s'.threads = Function.update s.threads t l)
    (unlocked : s'.word.locked = false) (requested : s'.word.requested = s.word.requested)
    (tail : ∀ f ∈ l.tail, f.isBody = true) (knows : ∀ f ∈ l, f.Knows s.word)
    (cast : ∀ r, Sole (Frame.plays r) (Function.update s.threads t l) (owner s' none signaller' r))
    (signalling : ∀ u, signaller' = some u → s'.signalling = some u)
    (active : signaller'.isSome = true → signaller.isSome = true)
    (answers : s'.answers.count true + (if signaller'.isSome then 1 else 0) =
      s.answers.count true + if signaller.isSome then 1 else 0) :
    Control s' none signaller' where
  bodies := by
    rw [threads]
    exact Sole.forall_update (P := fun _ (l : List (Frame Fields)) => ∀ f ∈ l.tail, f.isBody = true)
      c.bodies tail
  locked := unlocked
  cast := threads ▸ cast
  active is := requested.trans (c.active (active is))
  signalling u is := Or.inl (signalling u is)
  knows := by
    rw [threads]
    apply Sole.forall_mem_update
    · exact fun u f member => knows_of_requested requested (c.knows u f member)
    · exact fun f member => knows_of_requested requested (knows f member)
  answers := by
    rw [answers, requested]
    exact c.answers

structure Loops (call : Call) : Prop where
  signaller : (Frame.locked (W := Fields) call).plays .signaller = true
  rest : ∀ r, r ≠ .holder → r ≠ .signaller → (Frame.locked (W := Fields) call).plays r = false

theorem loops_requestStop (h : Nat) : Loops (.requestStop h) :=
  ⟨rfl, fun _ => plays_locked_requestStop⟩

theorem loops_nextCallback (h : Nat) : Loops (.nextCallback h) := by
  constructor
  · rfl
  · intro r other other'
    cases r with
    | holder => exact absurd rfl other
    | signaller => exact absurd rfl other'
    | _ => rfl

theorem plays_holder (call : Call) : (Frame.locked (W := Fields) call).plays .holder = true := by
  cases call <;> rfl

theorem cast_loop (c : Control s holder signaller) (top : s.threads t = .locked call :: rest)
    {signaller' : Option Nat} (stages : s'.stages = s.stages)
    (below : l.countP (Frame.plays .holder) = rest.countP (Frame.plays .holder))
    (signals : Sole (Frame.plays .signaller) (Function.update s.threads t l) signaller')
    (others : ∀ r, r ≠ .holder → r ≠ .signaller →
      l.countP (Frame.plays r) = (s.threads t).countP (Frame.plays r)) (r : Role) :
    Sole (Frame.plays r) (Function.update s.threads t l) (owner s' none signaller' r) := by
  cases r with
  | holder => exact (c.cast .holder).leave top (plays_holder call) below
  | signaller => exact signals
  | maker cb =>
      rw [owner, stages]
      exact (c.cast (.maker cb)).keep (others _ nofun nofun)
  | remover cb =>
      rw [owner, stages]
      exact (c.cast (.remover cb)).keep (others _ nofun nofun)

theorem countP_loop (loops : Loops call) (top : s.threads t = .locked call :: rest) (r : Role)
    (other : r ≠ .holder) (other' : r ≠ .signaller) :
    rest.countP (Frame.plays r) = (s.threads t).countP (Frame.plays r) := by
  rw [top, List.countP_cons, loops.rest r other other']
  rfl

theorem loop (c : Control s holder signaller) {h : Nat} (top : s.threads t = .locked call :: rest)
    (loops : Loops call) :
    ∃ signaller', Control ({ s with signalling := some t }.loop Fields.ops t h rest) none
      signaller' := by
  have mine : signaller = some t :=
    (c.cast .signaller).owner_of_mem (top ▸ List.mem_cons_self) loops.signaller
  subst mine
  unfold State.loop
  split
  · apply Exists.intro none
    have counted : (s.answers ++ [true]).count true + 0 = s.answers.count true + 1 := by simp
    exact c.leave rfl rfl rfl (tail_of_tail (c.tail_of_top top)) (c.knows_of_top top)
      (c.cast_loop top rfl rfl ((c.cast .signaller).leave_pop top loops.signaller)
        (countP_loop loops top))
      (fun _ is => by cases is) (fun is => by cases is) counted
  · next cb _ =>
      apply Exists.intro (some t)
      have calls := (c.cast .signaller).replace (g := Frame.calling h cb (s.list.pop cb).head.isSome)
        top loops.signaller.symm
      exact c.leave rfl rfl rfl (c.tail_of_top top)
        (List.forall_mem_cons.2 ⟨trivial, c.knows_of_top top⟩)
        (c.cast_loop top rfl (List.countP_cons_of_neg (by simp [Frame.plays])) calls
          fun r other other' => by
            rw [← countP_loop loops top r other other', List.countP_cons_of_neg]
            cases r <;> first | exact absurd rfl other | exact absurd rfl other' | simp [Frame.plays])
        (fun _ is => is) id rfl

theorem leave_other (c : Control s holder signaller) (top : s.threads t = .locked call :: rest)
    (kind : ∀ h, call ≠ .requestStop h) (threads : s'.threads = Function.update s.threads t l)
    (unlocked : s'.word.locked = false) (requested : s'.word.requested = s.word.requested)
    (signalling : s'.signalling = s.signalling) (answers : s'.answers = s.answers)
    (tail : ∀ f ∈ l.tail, f.isBody = true) (knows : ∀ f ∈ l, f.Knows s.word)
    (cast : ∀ r, Sole (Frame.plays r) (Function.update s.threads t l) (owner s' none signaller r)) :
    Control s' none signaller := by
  apply c.leave threads unlocked requested tail knows cast
  · exact fun u is => signalling.trans (c.signalling_of_holder top kind is)
  · exact id
  · rw [answers]

theorem link (c : Control s holder signaller) {h cb : Nat} {increment : Bool}
    (top : s.threads t = .locked (.tryAddCallback h cb increment) :: rest) :
    Control (s.link Fields.ops t h cb increment rest) none signaller := by
  have maker := (c.cast (.maker cb)).owner_of_mem
    (f := Frame.locked (.tryAddCallback h cb increment)) (top ▸ List.mem_cons_self)
    (beq_self_eq_true cb)
  have remover := c.cast (.remover cb)
  rw [owner, stage_of_maker maker] at remover
  have cast : ∀ r, Sole (Frame.plays r) (Function.update s.threads t rest)
      (owner (s.setStage cb .attached) none signaller r) := by
    apply cast_stage (s := s) cb rfl
    · exact (c.cast (.maker cb)).leave_pop top (beq_self_eq_true cb)
    · exact remover.pop top rfl
    · intro r other _
      by_cases here : r = .holder
      · subst here
        exact (c.cast .holder).leave_pop top rfl
      · have same : owner s none signaller r = owner s holder signaller r := by
          cases r with
          | holder => exact absurd rfl here
          | _ => rfl
        rw [same]
        exact (c.cast r).pop top (Eq.trans (plays_locked nofun here) (plays_tryAdd other))
  unfold State.link State.giveBack
  cases increment with
  | true =>
      exact c.leave_other top nofun rfl rfl rfl rfl rfl (tail_of_tail (c.tail_of_top top))
        (c.knows_of_top top) cast
  | false =>
      exact c.leave_other top nofun rfl rfl rfl rfl rfl (tail_of_tail (c.tail_of_top top))
        (c.knows_of_top top) cast

/-! The destructor returns under the lock or later. -/

theorem cast_destroyed (c : Control s holder signaller) {cb : Nat} {holder' : Option Nat}
    (top : s.threads t = f :: rest) (is : f.plays (.remover cb) = true)
    (others : ∀ r, r ≠ .holder → r ≠ .remover cb → f.plays r = false)
    (lock : Sole (Frame.plays .holder) (Function.update s.threads t rest) holder')
    (stages : s'.stages = Function.update s.stages cb (.destroyed t)) (r : Role) :
    Sole (Frame.plays r) (Function.update s.threads t rest) (owner s' holder' signaller r) := by
  have remover := (c.cast (.remover cb)).owner_of_mem (f := f) (top ▸ List.mem_cons_self) is
  have maker := c.cast (.maker cb)
  rw [owner, stage_of_remover remover] at maker
  apply cast_stage (s := s) cb stages
  · exact maker.pop top (others _ nofun nofun)
  · exact (c.cast (.remover cb)).leave_pop top is
  · intro r _ other
    cases r with
    | holder => exact lock
    | signaller => exact (c.cast .signaller).pop top (others _ nofun other)
    | maker cb' => exact (c.cast (.maker cb')).pop top (others _ nofun other)
    | remover cb' => exact (c.cast (.remover cb')).pop top (others _ nofun other)

theorem unlink (c : Control s holder signaller) {cb : Nat}
    (top : s.threads t = .locked (.removeCallback cb) :: rest) :
    Control (s.unlink Fields.ops t cb rest) none signaller := by
  unfold State.unlink
  split
  · exact c.leave_other top nofun rfl rfl rfl rfl rfl (tail_of_tail (c.tail_of_top top))
      (c.knows_of_top top) (c.cast_destroyed top (beq_self_eq_true cb)
        (fun r other other' => Eq.trans (plays_locked nofun other) (plays_remove other'))
        ((c.cast .holder).leave_pop top rfl) rfl)
  · have cast : ∀ r, Sole (Frame.plays r) (Function.update s.threads t (.unlinked cb :: rest))
        (owner s none signaller r) := by
      intro r
      cases r with
      | holder => exact (c.cast .holder).leave_replace top rfl rfl
      | signaller => exact (c.cast .signaller).replace top rfl
      | maker cb' => exact (c.cast (.maker cb')).replace top rfl
      | remover cb' => exact (c.cast (.remover cb')).replace top rfl
    exact c.leave_other top nofun rfl rfl rfl rfl rfl (c.tail_of_top top)
      (List.forall_mem_cons.2 ⟨trivial, c.knows_of_top top⟩) cast

theorem runSection (c : Control s holder signaller) (top : s.threads t = .locked call :: rest) :
    ∃ holder' signaller', Control (s.runSection Fields.ops t rest call) holder' signaller' := by
  cases call with
  | requestStop h => exact ⟨_, c.loop top (loops_requestStop h)⟩
  | nextCallback h =>
      have mine : signaller = some t :=
        (c.cast .signaller).owner_of_mem (f := Frame.locked (.nextCallback h))
          (top ▸ List.mem_cons_self) rfl
      have same : { s with signalling := some t } = s := by
        rw [← c.signalling_of_holder top nofun mine]
      have next := c.loop (h := h) top (loops_nextCallback h)
      rw [same] at next
      exact ⟨_, next⟩
  | tryAddCallback h cb increment => exact ⟨_, _, c.link top⟩
  | removeCallback cb => exact ⟨_, _, c.unlink top⟩

/-! ## After the unlock -/

theorem execute (c : Control s holder signaller) {h cb : Nat} {anyMore : Bool}
    (top : s.threads t = .calling h cb anyMore :: rest) :
    Control (s.execute t h cb anyMore rest) holder signaller :=
  c.replace top rfl rfl rfl rfl rfl rfl nofun trivial fun r => by cases r <;> rfl

theorem notice (c : Control s holder signaller) {cb : Nat}
    (top : s.threads t = .unlinked cb :: rest) :
    Control (s.notice t cb rest) holder signaller := by
  unfold State.notice State.markRemoved
  split
  · split
    · exact c.replace top rfl rfl rfl rfl rfl rfl nofun trivial fun r => by cases r <;> rfl
    · exact c.replace top rfl rfl rfl rfl rfl rfl nofun trivial fun r => by cases r <;> rfl
  · exact c.replace top rfl rfl rfl rfl rfl rfl nofun trivial fun r => by cases r <;> rfl

theorem wait (c : Control s holder signaller) {cb : Nat} (top : s.threads t = .waiting cb :: rest) :
    Control (s.wait t cb rest) holder signaller := by
  unfold State.wait
  split
  · exact c.replace top rfl rfl rfl rfl rfl rfl nofun trivial fun r => by cases r <;> rfl
  · exact c

theorem plays_releasing {cb : Nat} (r : Role) (other : r ≠ .remover cb) :
    (Frame.releasing (W := Fields) cb).plays r = false := by
  cases r with
  | remover cb' => exact plays_remove other
  | _ => rfl

theorem release (c : Control s holder signaller) {cb : Nat}
    (top : s.threads t = .releasing cb :: rest) :
    Control (s.release Fields.ops t cb rest) holder signaller :=
  c.drop top rfl rfl rfl rfl rfl nofun (c.cast_destroyed top (beq_self_eq_true cb)
    (fun r _ other => plays_releasing r other) ((c.cast .holder).pop top rfl) rfl)

theorem returned (c : Control s holder signaller) {h cb flag : Nat} {anyMore : Bool}
    (top : s.threads t = .executing h cb anyMore flag :: rest)
    (threads : s'.threads = Function.update s.threads t rest) (word : s'.word = s.word)
    (answers : s'.answers = s.answers ++ [true]) (stages : s'.stages = s.stages) :
    Control s' holder none := by
  have mine : signaller = some t :=
    (c.cast .signaller).owner_of_mem (f := Frame.executing h cb anyMore flag)
      (top ▸ List.mem_cons_self) rfl
  subst mine
  constructor
  · rw [threads]
    exact Sole.forall_update (P := fun _ (l : List (Frame Fields)) => ∀ f ∈ l.tail, f.isBody = true)
      c.bodies (tail_of_tail (c.tail_of_top top))
  · rw [word]
    exact c.locked
  · intro r
    rw [threads]
    cases r with
    | holder => exact (c.cast .holder).pop top rfl
    | signaller => exact (c.cast .signaller).leave_pop top rfl
    | maker cb' =>
        rw [owner, stages]
        exact (c.cast (.maker cb')).pop top rfl
    | remover cb' =>
        rw [owner, stages]
        exact (c.cast (.remover cb')).pop top rfl
  · exact nofun
  · exact nofun
  · rw [threads, word]
    exact Sole.forall_mem_update c.knows (c.knows_of_top top)
  · have counted := c.answers
    rw [answers, word, ← counted]
    simp

theorem executed (c : Control s holder signaller) {h cb flag : Nat} {anyMore : Bool}
    (top : s.threads t = .executing h cb anyMore flag :: rest) :
    ∃ signaller', Control (s.executed t h cb anyMore flag rest) holder signaller' := by
  have next (list : CallbackList) : Control { s with list } holder signaller := { c with }
  unfold State.executed State.markFinished
  split <;> split
  · exact ⟨_, c.replace top rfl rfl rfl rfl rfl rfl nofun trivial fun r => by cases r <;> rfl⟩
  · exact ⟨_, c.returned top rfl rfl rfl rfl⟩
  · exact ⟨_, c.replace top rfl rfl rfl rfl rfl rfl nofun trivial fun r => by cases r <;> rfl⟩
  · exact ⟨_, c.returned top rfl rfl rfl rfl⟩

theorem finish (c : Control s holder signaller) (action : s.finish t = some s') :
    ∃ signaller', Control s' holder signaller' := by
  unfold State.finish at action
  split at action
  · next top =>
      cases action
      exact c.executed top
  · next h cb increment rest top =>
      cases action
      exact ⟨_, c.decline top (fun r => by cases r <;> rfl) nofun⟩
  · cases action

theorem count (c : Control s holder signaller) (threads : s'.threads = s.threads)
    (locked : s'.word.locked = s.word.locked) (requested : s'.word.requested = s.word.requested)
    (signalling : s'.signalling = s.signalling) (answers : s'.answers = s.answers)
    (stages : s'.stages = s.stages) : Control s' holder signaller where
  bodies := threads ▸ c.bodies
  locked := locked.trans c.locked
  cast r := by
    rw [threads, owner_congr stages]
    exact c.cast r
  active is := requested.trans (c.active is)
  signalling u is := by
    rw [signalling, threads]
    exact c.signalling u is
  knows u f member := by
    rw [threads] at member
    exact knows_of_requested requested (c.knows u f member)
  answers := by
    rw [answers, requested]
    exact c.answers

theorem runFrame (c : Control s holder signaller) {spurious : Bool} (top : s.threads t = f :: rest)
    (action : s.runFrame Fields.ops t spurious rest f = some s') :
    ∃ holder' signaller', Control s' holder' signaller' := by
  cases f with
  | loading call =>
      cases action
      exact ⟨_, _, c.look top (fun _ => rfl) nofun⟩
  | swapping call old =>
      cases action
      exact c.swap top
  | locked call =>
      cases action
      exact c.runSection top
  | calling h cb anyMore =>
      cases action
      exact ⟨_, _, c.execute top⟩
  | executing h cb anyMore flag => cases action
  | refusing h cb increment => cases action
  | unlinked cb =>
      cases action
      exact ⟨_, _, c.notice top⟩
  | waiting cb =>
      cases action
      exact ⟨_, _, c.wait top⟩
  | releasing cb =>
      cases action
      exact ⟨_, _, c.release top⟩

end Control

theorem act_of_step {W : Type} [DecidableEq W] {ops : WordOps W} {s s' : State W} {e : Action}
    (action : s.step ops e = some s') : s.deleted = false ∧ s.act ops e = some s' := by
  obtain ⟨alive, action⟩ := Option.ite_none_left_eq_some.1 action
  exact ⟨Bool.eq_false_iff.2 alive, action⟩

theorem Control.act {s s' : State Fields} {e : Action} {holder signaller : Option Nat}
    (c : Control s holder signaller) (action : s.act Fields.ops e = some s') :
    ∃ holder' signaller', Control s' holder' signaller' := by
  cases e with
  | requestStop t h => exact ⟨_, _, c.requestStop action⟩
  | construct t h cb increment => exact ⟨_, _, c.construct action⟩
  | destroy t cb => exact ⟨_, _, c.destroy action⟩
  | step t spurious =>
      simp only [State.act] at action
      split at action
      · cases action
      · next top => exact c.runFrame top action
  | finish t => exact ⟨_, c.finish action⟩
  | getToken h h' | copyToken h h' | dropToken h | copySource h h' | dropSource h =>
      obtain ⟨-, made⟩ := Option.ite_none_right_eq_some.1 action
      cases made
      exact ⟨_, _, c.count rfl rfl rfl rfl rfl rfl⟩

theorem control {s : State Fields} (reachable : (system Fields.ops).Reachable s) :
    ∃ holder signaller, Control s holder signaller := by
  induction reachable with
  | init => exact ⟨_, _, Control.init⟩
  | step _ _ action ih =>
      obtain ⟨_, _, c⟩ := ih
      exact c.act (act_of_step action).2

end Librf.StopToken
