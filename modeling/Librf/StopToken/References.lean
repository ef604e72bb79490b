import Librf.Base.Tally
import Librf.StopToken.Sections

/-!
# The references to a `stop_state`

The counters of the word are the numbers of the objects that refer to the state. The code that
deletes the state compares them with constants.
-/

namespace Librf.StopToken

def Call.uses : Call → Option Handle
  | .requestStop h | .nextCallback h => some (.source h)
  | .tryAddCallback h _ true => some (.token h)
  | _ => none

/-- The token that the call is taking over. -/
def Call.borrows : Call → Option Nat
  | .tryAddCallback h _ false => some h
  | _ => none

/-- The handle through which a call goes. -/
def Frame.uses {W : Type} : Frame W → Option Handle
  | .loading c | .swapping c _ | .locked c => c.uses
  | .calling h _ _ | .executing h _ _ _ => some (.source h)
  | .refusing h cb increment => (Call.tryAddCallback h cb increment).uses
  | _ => none

def Frame.borrows {W : Type} : Frame W → Option Nat
  | .loading c | .swapping c _ | .locked c => c.borrows
  | .refusing h cb increment => (Call.tryAddCallback h cb increment).borrows
  | _ => none

namespace State

variable {W : Type} (s : State W)

/-- Tokens, tokens that are being taken over, and callbacks. -/
def tokenReferences : Nat := s.tokens.length + s.lent.length + s.attached.length

def Unreferenced : Prop := s.sources = [] ∧ s.tokenReferences = 0

end State

structure Counted (s : State Fields) : Prop where
  uses : Tally Frame.uses s.threads s.uses
  lent : Tally Frame.borrows s.threads s.lent
  sourceUsed : ∀ t h, (t, .source h) ∈ s.uses → h ∈ s.sources
  tokenUsed : ∀ t h, (t, .token h) ∈ s.uses → h ∈ s.tokens
  attached : ∀ cb, s.attached.count cb = if (s.stages cb).live then 1 else 0
  sources : s.word.sources = s.sources.length
  tokens : s.word.tokens = s.tokenReferences

namespace Counted

variable {s s' : State Fields} {holder signaller : Option Nat} {t h cb : Nat} {f g : Frame Fields}
  {rest : List (Frame Fields)} {call : Call} {increment : Bool}

theorem init : Counted (system Fields.ops).init where
  uses := Tally.nil
  lent := Tally.nil
  sourceUsed _ _ member := by cases member
  tokenUsed _ _ member := by cases member
  attached _ := rfl
  sources := rfl
  tokens := rfl

/-! ## Steps without a reference -/

structure Kept (s s' : State Fields) : Prop where
  sources : s'.sources = s.sources
  tokens : s'.tokens = s.tokens
  attached : s'.attached = s.attached
  live : ∀ cb, (s'.stages cb).live = (s.stages cb).live
  word : s'.word.sources = s.word.sources ∧ s'.word.tokens = s.word.tokens

theorem replace (c : Counted s) (top : s.threads t = f :: rest)
    (threads : s'.threads = Function.update s.threads t (g :: rest)) (kept : Kept s s')
    (uses : s'.uses = s.uses) (lent : s'.lent = s.lent) (sameUse : g.uses = f.uses)
    (sameLoan : g.borrows = f.borrows) : Counted s' where
  uses := by
    rw [threads, uses]
    exact c.uses.replace top sameUse
  lent := by
    rw [threads, lent]
    exact c.lent.replace top sameLoan
  sourceUsed := by
    rw [uses, kept.sources]
    exact c.sourceUsed
  tokenUsed := by
    rw [uses, kept.tokens]
    exact c.tokenUsed
  attached cb := by
    rw [kept.attached, kept.live]
    exact c.attached cb
  sources := by
    rw [kept.word.1, kept.sources]
    exact c.sources
  tokens := by
    rw [kept.word.2, State.tokenReferences, kept.tokens, lent, kept.attached]
    exact c.tokens

theorem answer (c : Counted s) (top : s.threads t = f :: rest)
    (threads : s'.threads = Function.update s.threads t rest) (kept : Kept s s')
    (uses : s'.uses = s.uses.erase (t, .source h)) (lent : s'.lent = s.lent)
    (use : f.uses = some (.source h)) (loan : f.borrows = none) : Counted s' where
  uses := by
    rw [threads, uses]
    exact c.uses.pop top use
  lent := by
    rw [threads, lent]
    exact c.lent.pop_none top loan
  sourceUsed u h' member := by
    rw [uses] at member
    rw [kept.sources]
    exact c.sourceUsed u h' (List.mem_of_mem_erase member)
  tokenUsed u h' member := by
    rw [uses] at member
    rw [kept.tokens]
    exact c.tokenUsed u h' (List.mem_of_mem_erase member)
  attached cb := by
    rw [kept.attached, kept.live]
    exact c.attached cb
  sources := by
    rw [kept.word.1, kept.sources]
    exact c.sources
  tokens := by
    rw [kept.word.2, State.tokenReferences, kept.tokens, lent, kept.attached]
    exact c.tokens

theorem requestStop (c : Counted s) (action : s.requestStop t h = some s') : Counted s' := by
  obtain ⟨⟨-, member⟩, made⟩ := Option.ite_none_right_eq_some.1 action
  cases made
  exact { c with
    uses := c.uses.push rfl
    lent := c.lent.push_none rfl
    sourceUsed := by
      intro u h' inside
      rcases List.mem_cons.1 inside with same | inside
      · cases same
        exact member
      · exact c.sourceUsed u h' inside
    tokenUsed := by
      intro u h' inside
      rcases List.mem_cons.1 inside with same | inside
      · cases same
      · exact c.tokenUsed u h' inside }

theorem not_used {x : Handle} (free : s.inUse x = false) (u : Nat) : (u, x) ∉ s.uses := by
  intro member
  have used : s.inUse x = true := List.any_eq_true.2 ⟨(u, x), member, decide_eq_true rfl⟩
  rw [free] at used
  cases used

theorem attached_update (c : Counted s) (cb : Nat) (stage : Stage)
    (same : stage.live = (s.stages cb).live) (cb' : Nat) :
    s.attached.count cb' = if (Function.update s.stages cb stage cb').live then 1 else 0 := by
  rw [c.attached cb']
  by_cases here : cb' = cb
  · rw [here, Function.update_self, same]
  · rw [Function.update_of_ne here]

theorem construct (c : Counted s) (action : s.construct t h cb increment = some s') :
    Counted s' := by
  obtain ⟨⟨-, unmade, member⟩, made⟩ := Option.ite_none_right_eq_some.1 action
  have attached := c.attached_update cb (.constructing t) (by rw [unmade]; rfl)
  cases increment with
  | true =>
      cases made
      exact { c with
        uses := c.uses.push rfl
        lent := c.lent.push_none rfl
        sourceUsed := by
          intro u h' inside
          rcases List.mem_cons.1 inside with same | inside
          · cases same
          · exact c.sourceUsed u h' inside
        tokenUsed := by
          intro u h' inside
          rcases List.mem_cons.1 inside with same | inside
          · cases same
            exact member
          · exact c.tokenUsed u h' inside
        attached := attached }
  | false =>
      obtain ⟨free, made⟩ := Option.ite_none_left_eq_some.1 made
      cases made
      exact { c with
        uses := c.uses.push_none rfl
        lent := c.lent.push rfl
        tokenUsed := by
          intro u h' inside
          have other : h' ≠ h := by
            intro same
            subst same
            exact not_used (Bool.eq_false_iff.2 free) u inside
          exact (List.mem_erase_of_ne other).2 (c.tokenUsed u h' inside)
        attached := attached
        tokens := by
          have positive := List.length_pos_of_mem member
          have counted := c.tokens
          unfold State.tokenReferences at counted
          change s.word.tokens = (s.tokens.erase h).length + (s.lent.length + 1) + s.attached.length
          rw [List.length_erase_of_mem member]
          omega }

theorem destroy (c : Counted s) (action : s.destroy t cb = some s') : Counted s' := by
  obtain ⟨-, made⟩ := Option.ite_none_right_eq_some.1 action
  split at made
  · next attached =>
      cases made
      exact { c with
        uses := c.uses.push_none rfl
        lent := c.lent.push_none rfl
        attached := c.attached_update cb _ (by rw [attached]; rfl) }
  · next detached =>
      cases made
      exact { c with attached := c.attached_update cb _ (by rw [detached]; rfl) }
  · cases made

/-! ## The end of a constructor -/

theorem uses_tryAdd (h cb : Nat) : (Call.tryAddCallback h cb increment).uses =
    if increment then some (.token h) else none := by
  cases increment <;> rfl

theorem borrows_tryAdd (h cb : Nat) : (Call.tryAddCallback h cb increment).borrows =
    if increment then none else some h := by
  cases increment <;> rfl

theorem giveBack (c : Counted s) (keeps : Bool) {stage : Stage}
    (top : s.threads t = f :: rest)
    (uses : f.uses = (Call.tryAddCallback h cb increment).uses)
    (borrows : f.borrows = (Call.tryAddCallback h cb increment).borrows)
    (threads : s'.threads = Function.update s.threads t rest)
    (handles : s'.sources = s.sources ∧
      s'.uses = (if increment then s.uses.erase (t, .token h) else s.uses) ∧
      s'.lent = (if increment then s.lent else s.lent.erase (t, h)) ∧
      s'.tokens = (if increment then s.tokens else if keeps then s.tokens ++ [h] else s.tokens))
    (stages : s'.stages = Function.update s.stages cb stage)
    (attached : ∀ cb', s'.attached.count cb' =
      if (Function.update s.stages cb stage cb').live then 1 else 0)
    (word : s'.word.sources = s.word.sources ∧ s'.word.tokens = s'.tokenReferences) :
    Counted s' := by
  obtain ⟨sources, uses', lent', tokens'⟩ := handles
  have more : ∀ x ∈ s.tokens, x ∈ s'.tokens := by
    rw [tokens']
    intro x member
    split
    · exact member
    · split
      · exact List.mem_append_left _ member
      · exact member
  constructor
  · rw [threads, uses']
    rw [uses_tryAdd] at uses
    cases increment with
    | true => exact c.uses.pop top uses
    | false => exact c.uses.pop_none top uses
  · rw [threads, lent']
    rw [borrows_tryAdd] at borrows
    cases increment with
    | true => exact c.lent.pop_none top borrows
    | false => exact c.lent.pop top borrows
  · intro u x member
    rw [uses'] at member
    rw [sources]
    split at member
    · exact c.sourceUsed u x (List.mem_of_mem_erase member)
    · exact c.sourceUsed u x member
  · intro u x member
    rw [uses'] at member
    apply more
    split at member
    · exact c.tokenUsed u x (List.mem_of_mem_erase member)
    · exact c.tokenUsed u x member
  · rw [stages]
    exact attached
  · rw [word.1, sources]
    exact c.sources
  · exact word.2

theorem lent_mem (c : Counted s) (top : s.threads t = f :: rest)
    (borrows : f.borrows = (Call.tryAddCallback h cb false).borrows) : (t, h) ∈ s.lent :=
  c.lent.mem (top ▸ List.mem_cons_self) borrows

theorem decline (c : Counted s) (top : s.threads t = f :: rest)
    (stage : s.stages cb = .constructing t)
    (uses : f.uses = (Call.tryAddCallback h cb increment).uses)
    (borrows : f.borrows = (Call.tryAddCallback h cb increment).borrows) :
    Counted (s.decline t h cb increment rest) := by
  have attached := c.attached_update cb .detached (by rw [stage]; rfl)
  cases increment with
  | true =>
      exact c.giveBack true top uses borrows rfl ⟨rfl, rfl, rfl, rfl⟩ rfl attached
        ⟨rfl, c.tokens⟩
  | false =>
      refine c.giveBack true top uses borrows rfl ⟨rfl, rfl, rfl, rfl⟩ rfl attached
        ⟨rfl, ?_⟩
      have member := c.lent_mem top borrows
      have positive := List.length_pos_of_mem member
      have counted := c.tokens
      unfold State.tokenReferences at counted
      change s.word.tokens =
        (s.tokens ++ [h]).length + (s.lent.erase (t, h)).length + s.attached.length
      rw [List.length_append, List.length_singleton, List.length_erase_of_mem member]
      omega

theorem link (c : Counted s) (top : s.threads t = f :: rest) (stage : s.stages cb = .constructing t)
    (uses : f.uses = (Call.tryAddCallback h cb increment).uses)
    (borrows : f.borrows = (Call.tryAddCallback h cb increment).borrows) :
    Counted (s.link Fields.ops t h cb increment rest) := by
  have attached (cb' : Nat) : (s.attached ++ [cb]).count cb' =
      if (Function.update s.stages cb .attached cb').live then 1 else 0 := by
    have before := c.attached cb'
    rw [List.count_append, before]
    by_cases here : cb' = cb
    · subst here
      rw [Function.update_self, stage]
      simp [Stage.live]
    · have other : ¬ cb = cb' := Ne.symm here
      rw [Function.update_of_ne here]
      simp [other]
  have counted := c.tokens
  unfold State.tokenReferences at counted
  cases increment with
  | true =>
      refine c.giveBack false top uses borrows rfl ⟨rfl, rfl, rfl, rfl⟩ rfl attached
        ⟨rfl, ?_⟩
      change s.word.tokens + 1 = s.tokens.length + s.lent.length + (s.attached ++ [cb]).length
      rw [List.length_append, List.length_singleton]
      omega
  | false =>
      refine c.giveBack false top uses borrows rfl ⟨rfl, rfl, rfl, rfl⟩ rfl attached
        ⟨rfl, ?_⟩
      have member := c.lent_mem top borrows
      have positive := List.length_pos_of_mem member
      change s.word.tokens =
        s.tokens.length + (s.lent.erase (t, h)).length + (s.attached ++ [cb]).length
      rw [List.length_append, List.length_singleton, List.length_erase_of_mem member]
      omega

/-! ## Steps that release a reference -/

theorem attached_mem (c : Counted s) (cb : Nat) (live : (s.stages cb).live = true) :
    cb ∈ s.attached := by
  apply List.count_pos_iff.1
  rw [c.attached cb, if_pos live]
  exact Nat.one_pos

theorem destroyed (c : Counted s) (top : s.threads t = f :: rest)
    (stage : s.stages cb = .destroying t) (use : f.uses = none) (loan : f.borrows = none)
    (threads : s'.threads = Function.update s.threads t rest)
    (handles : s'.sources = s.sources ∧ s'.tokens = s.tokens ∧ s'.lent = s.lent ∧ s'.uses = s.uses)
    (attached : s'.attached = s.attached.erase cb)
    (stages : s'.stages = Function.update s.stages cb (.destroyed t))
    (word : s'.word.sources = s.word.sources ∧ s'.word.tokens = s.word.tokens - 1) :
    Counted s' := by
  obtain ⟨sources, tokens, lent, uses⟩ := handles
  have member := c.attached_mem cb (by rw [stage]; rfl)
  constructor
  · rw [threads, uses]
    exact c.uses.pop_none top use
  · rw [threads, lent]
    exact c.lent.pop_none top loan
  · rw [uses, sources]
    exact c.sourceUsed
  · rw [uses, tokens]
    exact c.tokenUsed
  · intro cb'
    rw [attached, stages, List.count_erase, c.attached cb']
    by_cases here : cb' = cb
    · subst here
      rw [Function.update_self, stage]
      simp [Stage.live]
    · have other : ¬ cb = cb' := Ne.symm here
      rw [Function.update_of_ne here]
      simp [other]
  · rw [word.1, sources]
    exact c.sources
  · have counted := c.tokens
    have positive := List.length_pos_of_mem member
    unfold State.tokenReferences at counted ⊢
    rw [word.2, tokens, lent, attached, List.length_erase_of_mem member]
    omega

theorem addToken (c : Counted s) : Counted (s.addToken Fields.ops h) :=
  { c with
    tokenUsed := fun u x member => List.mem_append_left _ (c.tokenUsed u x member)
    tokens := by
      have counted := c.tokens
      unfold State.tokenReferences at counted
      change s.word.tokens + 1 = (s.tokens ++ [h]).length + s.lent.length + s.attached.length
      rw [List.length_append, List.length_singleton]
      omega }

theorem addSource (c : Counted s) : Counted (s.addSource Fields.ops h) :=
  { c with
    sourceUsed := fun u x member => List.mem_append_left _ (c.sourceUsed u x member)
    sources := by
      change s.word.sources + 1 = (s.sources ++ [h]).length
      rw [List.length_append, List.length_singleton, c.sources] }

theorem dropToken (c : Counted s) (member : h ∈ s.tokens) (free : s.inUse (.token h) = false) :
    Counted (s.dropToken Fields.ops h) :=
  { c with
    tokenUsed := by
      intro u x inside
      have other : x ≠ h := by
        intro same
        subst same
        exact not_used free u inside
      exact (List.mem_erase_of_ne other).2 (c.tokenUsed u x inside)
    tokens := by
      have counted := c.tokens
      have positive := List.length_pos_of_mem member
      unfold State.tokenReferences at counted
      change s.word.tokens - 1 = (s.tokens.erase h).length + s.lent.length + s.attached.length
      rw [List.length_erase_of_mem member]
      omega }

theorem dropSource (c : Counted s) (member : h ∈ s.sources) (free : s.inUse (.source h) = false) :
    Counted (s.dropSource Fields.ops h) :=
  { c with
    sourceUsed := by
      intro u x inside
      have other : x ≠ h := by
        intro same
        subst same
        exact not_used free u inside
      exact (List.mem_erase_of_ne other).2 (c.sourceUsed u x inside)
    sources := by
      change s.word.sources - 1 = (s.sources.erase h).length
      rw [List.length_erase_of_mem member, c.sources] }

/-! ## All steps -/

theorem look (c : Counted s) (control : Control s holder signaller)
    (top : s.threads t = f :: rest) (uses : f.uses = call.uses) (borrows : f.borrows = call.borrows)
    (plays : ∀ r, f.plays r = call.plays r) :
    Counted (s.look Fields.ops t rest call s.word) := by
  have kept {s' : State Fields} (sources : s'.sources = s.sources) (tokens : s'.tokens = s.tokens)
      (attached : s'.attached = s.attached) (stages : s'.stages = s.stages)
      (word : s'.word = s.word) : Kept s s' :=
    ⟨sources, tokens, attached, fun _ => by rw [stages], by rw [word]; exact ⟨rfl, rfl⟩⟩
  have again : Counted (s.setThread t (.loading call :: rest)) :=
    c.replace top rfl (kept rfl rfl rfl rfl rfl) rfl rfl uses.symm borrows.symm
  have exchange : Counted (s.setThread t (.swapping call s.word :: rest)) :=
    c.replace top rfl (kept rfl rfl rfl rfl rfl) rfl rfl uses.symm borrows.symm
  unfold State.look
  cases call with
  | requestStop h =>
      dsimp only
      split
      · exact c.answer top rfl (kept rfl rfl rfl rfl rfl) rfl rfl uses borrows
      · split
        · exact again
        · exact exchange
  | tryAddCallback h cb increment =>
      have stage := Memory.stage_of_maker control top ((plays _).trans (beq_self_eq_true cb))
      dsimp only
      split
      · exact c.replace top rfl (kept rfl rfl rfl rfl rfl) rfl rfl uses.symm borrows.symm
      · split
        · exact c.decline top stage uses borrows
        · split
          · exact again
          · exact exchange
  | nextCallback h | removeCallback cb =>
      dsimp only
      split
      · exact again
      · exact exchange

theorem loop (c : Counted s) {signalling : Option Nat} (top : s.threads t = f :: rest)
    (use : f.uses = some (.source h)) (loan : f.borrows = none) :
    Counted ({ s with signalling }.loop Fields.ops t h rest) := by
  unfold State.loop
  split
  · exact c.answer top rfl ⟨rfl, rfl, rfl, fun _ => rfl, rfl, rfl⟩ rfl rfl use loan
  · exact c.replace top rfl ⟨rfl, rfl, rfl, fun _ => rfl, rfl, rfl⟩ rfl rfl use.symm loan.symm

theorem runSection (c : Counted s) (control : Control s holder signaller)
    (top : s.threads t = .locked call :: rest) :
    Counted (s.runSection Fields.ops t rest call) := by
  cases call with
  | requestStop h => exact c.loop top rfl rfl
  | nextCallback h => exact c.loop top rfl rfl
  | tryAddCallback h cb increment =>
      exact c.link top (Memory.stage_of_maker control top (beq_self_eq_true cb)) rfl rfl
  | removeCallback cb =>
      have stage := Memory.stage_of_remover control top (beq_self_eq_true cb)
      unfold State.runSection State.unlink
      dsimp only
      split
      · exact c.destroyed top stage rfl rfl rfl ⟨rfl, rfl, rfl, rfl⟩ rfl rfl ⟨rfl, rfl⟩
      · exact c.replace top rfl ⟨rfl, rfl, rfl, fun _ => rfl, rfl, rfl⟩ rfl rfl rfl rfl

theorem runFrame (c : Counted s) (control : Control s holder signaller) {spurious : Bool}
    (top : s.threads t = f :: rest) (action : s.runFrame Fields.ops t spurious rest f = some s') :
    Counted s' := by
  have kept : Kept s s := ⟨rfl, rfl, rfl, fun _ => rfl, rfl, rfl⟩
  cases f with
  | loading call =>
      cases action
      exact c.look control top rfl rfl fun _ => rfl
  | swapping call old =>
      cases action
      unfold State.swap
      split
      · next exchanged =>
          cases call <;>
            exact c.replace top rfl ⟨rfl, rfl, rfl, fun _ => rfl, by
              rw [exchanged.1]; exact ⟨rfl, rfl⟩⟩ rfl rfl rfl rfl
      · exact c.look control top rfl rfl fun _ => rfl
  | locked call =>
      cases action
      exact c.runSection control top
  | calling h cb anyMore =>
      cases action
      exact c.replace top rfl ⟨rfl, rfl, rfl, fun _ => rfl, rfl, rfl⟩ rfl rfl rfl rfl
  | executing h cb anyMore flag => cases action
  | refusing h cb increment => cases action
  | unlinked cb =>
      cases action
      unfold State.notice State.markRemoved
      split
      · split
        · exact c.replace top rfl ⟨rfl, rfl, rfl, fun _ => rfl, rfl, rfl⟩ rfl rfl rfl rfl
        · exact c.replace top rfl ⟨rfl, rfl, rfl, fun _ => rfl, rfl, rfl⟩ rfl rfl rfl rfl
      · exact c.replace top rfl ⟨rfl, rfl, rfl, fun _ => rfl, rfl, rfl⟩ rfl rfl rfl rfl
  | waiting cb =>
      cases action
      unfold State.wait
      split
      · exact c.replace top rfl ⟨rfl, rfl, rfl, fun _ => rfl, rfl, rfl⟩ rfl rfl rfl rfl
      · exact c
  | releasing cb =>
      cases action
      exact c.destroyed top (Memory.stage_of_remover control top (beq_self_eq_true cb)) rfl rfl rfl
        ⟨rfl, rfl, rfl, rfl⟩ rfl rfl ⟨rfl, rfl⟩

theorem finish (c : Counted s) (control : Control s holder signaller)
    (action : s.finish t = some s') : Counted s' := by
  unfold State.finish at action
  split at action
  · next h cb anyMore flag rest top =>
      cases action
      unfold State.executed State.markFinished
      split <;> split
      · exact c.replace top rfl ⟨rfl, rfl, rfl, fun _ => rfl, rfl, rfl⟩ rfl rfl rfl rfl
      · exact c.answer top rfl ⟨rfl, rfl, rfl, fun _ => rfl, rfl, rfl⟩ rfl rfl rfl rfl
      · exact c.replace top rfl ⟨rfl, rfl, rfl, fun _ => rfl, rfl, rfl⟩ rfl rfl rfl rfl
      · exact c.answer top rfl ⟨rfl, rfl, rfl, fun _ => rfl, rfl, rfl⟩ rfl rfl rfl rfl
  · next h cb increment rest top =>
      cases action
      exact c.decline top (Memory.stage_of_maker control top (beq_self_eq_true cb)) rfl rfl
  · cases action

theorem act (c : Counted s) (control : Control s holder signaller) {e : Action}
    (action : s.act Fields.ops e = some s') : Counted s' := by
  cases e with
  | requestStop t h => exact c.requestStop action
  | construct t h cb increment => exact c.construct action
  | destroy t cb => exact c.destroy action
  | step t spurious =>
      simp only [State.act] at action
      split at action
      · cases action
      · next top => exact c.runFrame control top action
  | finish t => exact c.finish control action
  | getToken h h' | copyToken h h' =>
      obtain ⟨-, made⟩ := Option.ite_none_right_eq_some.1 action
      cases made
      exact c.addToken
  | copySource h h' =>
      obtain ⟨-, made⟩ := Option.ite_none_right_eq_some.1 action
      cases made
      exact c.addSource
  | dropToken h =>
      obtain ⟨⟨member, free⟩, made⟩ := Option.ite_none_right_eq_some.1 action
      cases made
      exact c.dropToken member (Bool.eq_false_iff.2 free)
  | dropSource h =>
      obtain ⟨⟨member, free⟩, made⟩ := Option.ite_none_right_eq_some.1 action
      cases made
      exact c.dropSource member (Bool.eq_false_iff.2 free)

end Counted

theorem counted {s : State Fields} (reachable : (system Fields.ops).Reachable s) : Counted s := by
  induction reachable with
  | init => exact Counted.init
  | step previous _ action ih =>
      obtain ⟨_, _, c⟩ := control previous
      exact ih.act c (act_of_step action).2

end Librf.StopToken
