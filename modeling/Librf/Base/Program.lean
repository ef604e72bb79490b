/-!
# Programs over an environment

A program is the finite tree of the calls it makes: what it does next depends on how each call
ends. The environment is a relation that says how a call may end in a state, and `Meets` is the
weakest precondition over every environment's choice.
-/

namespace Librf

inductive Ending (α : Type)
  | returned (value : α)
  | raised
  deriving DecidableEq, Repr

inductive Program {op : Type} (answer : op → Type) (α : Type)
  | halt (result : Ending α)
  | call (o : op) (next : Ending (answer o) → Program answer α)

namespace Program

variable {op : Type} {answer : op → Type} {α β σ τ label : Type}

def perform (o : op) : Program answer (answer o) := .call o .halt

def throw : Program answer α := .halt .raised

def bind (p : Program answer α) (f : α → Program answer β) : Program answer β :=
  match p with
  | halt (.returned value) => f value
  | halt .raised => throw
  | call o next => .call o fun result => (next result).bind f

def tryCatch (p handler : Program answer α) : Program answer α :=
  match p with
  | halt (.returned value) => .halt (.returned value)
  | halt .raised => handler
  | call o next => .call o fun result => (next result).tryCatch handler

instance : Monad (Program answer) where
  pure value := .halt (.returned value)
  bind := bind

/-! ## Environments -/

structure Environment (answer : op → Type) (σ : Type) where
  -- what the environment asks of a caller
  requires : σ → op → Prop
  effect : σ → (o : op) → Ending (answer o) → σ → Prop

variable {env : Environment answer σ} {post : Ending α → σ → Prop} {s t : σ}

inductive Run (env : Environment answer σ) : σ → Program answer α → Ending α → σ → Prop
  | halt (s : σ) (result : Ending α) : Run env s (.halt result) result s
  | call {s t u : σ} {o : op} {next : Ending (answer o) → Program answer α}
      {result : Ending (answer o)} {final : Ending α} (effect : env.effect s o result t)
      (rest : Run env t (next result) final u) : Run env s (.call o next) final u

def Meets (env : Environment answer σ) (post : Ending α → σ → Prop) :
    Program answer α → σ → Prop
  | halt result, s => post result s
  | call o next, s =>
      env.requires s o ∧ ∀ result t, env.effect s o result t → (next result).Meets env post t

theorem Run.ends {p : Program answer α} {result : Ending α} (run : Run env s p result t)
    (meets : p.Meets env post s) : post result t := by
  induction run with
  | halt s result => exact meets
  | call effect rest ih => exact ih (meets.2 _ _ effect)

theorem Run.bind {p : Program answer α} {f : α → Program answer β} {ends : Ending α} {value : α}
    {result : Ending β} {u : σ} (first : Run env s p ends t) (returned : ends = .returned value)
    (rest : Run env t (f value) result u) : Run env s (p >>= f) result u := by
  induction first with
  | halt s ends =>
      subst returned
      exact rest
  | call effect _ ih => exact .call effect (ih returned rest)

theorem Meets.mono {post' : Ending α → σ → Prop} {p : Program answer α}
    (weaker : ∀ result t, post result t → post' result t) (meets : p.Meets env post s) :
    p.Meets env post' s := by
  induction p generalizing s with
  | halt result => exact weaker result s meets
  | call o next ih =>
      exact ⟨meets.1, fun result t effect => ih result (meets.2 result t effect)⟩

/-- What the rest of a sequence needs of its first part. -/
def Continues (env : Environment answer σ) (post : Ending β → σ → Prop)
    (f : α → Program answer β) : Ending α → σ → Prop
  | .returned value, s => (f value).Meets env post s
  | .raised, s => post .raised s

theorem meets_bind {f : α → Program answer β} {post : Ending β → σ → Prop}
    {p : Program answer α} (meets : p.Meets env (Continues env post f) s) :
    (p >>= f).Meets env post s := by
  induction p generalizing s with
  | halt result =>
      cases result with
      | returned value => exact meets
      | raised => exact meets
  | call o next ih => exact ⟨meets.1, fun result t effect => ih result (meets.2 result t effect)⟩

def Catches (env : Environment answer σ) (post : Ending α → σ → Prop)
    (handler : Program answer α) : Ending α → σ → Prop
  | .returned value, s => post (.returned value) s
  | .raised, s => handler.Meets env post s

theorem meets_tryCatch {p handler : Program answer α}
    (meets : p.Meets env (Catches env post handler) s) : (p.tryCatch handler).Meets env post s := by
  induction p generalizing s with
  | halt result =>
      cases result with
      | returned value => exact meets
      | raised => exact meets
  | call o next ih => exact ⟨meets.1, fun result t effect => ih result (meets.2 result t effect)⟩

theorem meets_perform {o : op} {post : Ending (answer o) → σ → Prop} (ready : env.requires s o)
    (ends : ∀ result t, env.effect s o result t → post result t) :
    (perform o : Program answer (answer o)).Meets env post s := ⟨ready, ends⟩

/-- An environment that does no more than another one, seen through `view`. -/
structure Refines (env : Environment answer σ) (abstract : Environment answer τ) (view : σ → τ)
    (inv : σ → Prop) : Prop where
  requires : ∀ s o, inv s → abstract.requires (view s) o → env.requires s o
  effect : ∀ s o result t, inv s → abstract.requires (view s) o → env.effect s o result t →
    abstract.effect (view s) o result (view t) ∧ inv t

theorem Meets.refine {abstract : Environment answer τ} {view : σ → τ} {inv : σ → Prop}
    {post : Ending α → τ → Prop} {p : Program answer α} (refines : Refines env abstract view inv)
    (kept : inv s) (meets : p.Meets abstract post (view s)) :
    p.Meets env (fun result t => inv t ∧ post result (view t)) s := by
  induction p generalizing s with
  | halt result => exact ⟨kept, meets⟩
  | call o next ih =>
      refine ⟨refines.requires s o kept meets.1, fun result t effect => ?_⟩
      obtain ⟨same, kept'⟩ := refines.effect s o result t kept meets.1 effect
      exact ih result kept' (meets.2 result (view t) same)

/-! ## Programs on their own

An environment that ends each call in one way makes a program a function of the state. -/

structure Execution (α σ : Type) where
  result : Ending α
  state : σ
  calls : Nat

def exec (run : σ → (o : op) → Ending (answer o) × σ) : Program answer α → σ → Execution α σ
  | halt result, s => ⟨result, s, 0⟩
  | call o next, s =>
      let rest := (next (run s o).1).exec run (run s o).2
      { rest with calls := rest.calls + 1 }

section Exec

variable {run : σ → (o : op) → Ending (answer o) × σ} {u : σ} {value : α} {p : Program answer α}

def Returns (run : σ → (o : op) → Ending (answer o) × σ) (p : Program answer α) (s : σ) (value : α)
    (t : σ) : Prop :=
  (p.exec run s).result = .returned value ∧ (p.exec run s).state = t

theorem returns_pure : Returns run (pure value : Program answer α) s value s := ⟨rfl, rfl⟩

theorem returns_perform {o : op} {value : answer o} (answers : run s o = (.returned value, t)) :
    Returns run (perform o : Program answer (answer o)) s value t := by
  constructor <;> simp [perform, exec, answers]

theorem returns_bind {f : α → Program answer β} {final : β} (first : Returns run p s value t)
    (rest : Returns run (f value) t final u) : Returns run (p >>= f) s final u := by
  induction p generalizing s with
  | halt result =>
      obtain ⟨returned, same⟩ := first
      obtain rfl : result = .returned value := returned
      obtain rfl : s = t := same
      exact rest
  | call o next ih => exact ih _ first

theorem returns_tryCatch {handler : Program answer α} (returns : Returns run p s value t) :
    Returns run (p.tryCatch handler) s value t := by
  induction p generalizing s with
  | halt result =>
      obtain ⟨returned, same⟩ := returns
      obtain rfl : result = .returned value := returned
      exact ⟨rfl, same⟩
  | call o next ih => exact ih _ returns

end Exec

/-- It throws only what a call throws. -/
def Quiet : Program answer α → Prop
  | halt (.returned _) => True
  | halt .raised => False
  | call _ next => ∀ value, (next (.returned value)).Quiet

theorem quiet_pure {value : α} : (pure value : Program answer α).Quiet := trivial

theorem quiet_perform {o : op} : (perform o : Program answer (answer o)).Quiet := fun _ => trivial

theorem quiet_bind {p : Program answer α} {f : α → Program answer β} (quiet : p.Quiet)
    (rest : ∀ value, (f value).Quiet) : (p >>= f).Quiet := by
  induction p with
  | halt result =>
      cases result with
      | returned value => exact rest value
      | raised => exact quiet.elim
  | call o next ih => exact fun value => ih _ (quiet value)

theorem quiet_tryCatch {p handler : Program answer α} (quiet : p.Quiet) :
    (p.tryCatch handler).Quiet := by
  induction p with
  | halt result =>
      cases result with
      | returned value => trivial
      | raised => exact quiet.elim
  | call o next ih => exact fun value => ih _ (quiet value)

/-! ## Loops

A body that ends with `inl l` is run again at the label `l`. -/

/-- What a turn of a loop has to establish: the invariant of the label it goes on with. -/
def Turns (inv : label → σ → Prop) (post : Ending α → σ → Prop) :
    Ending (label ⊕ α) → σ → Prop
  | .returned (.inl l), s => inv l s
  | .returned (.inr value), s => post (.returned value) s
  | .raised, s => post .raised s

inductive LoopRun (env : Environment answer σ) (body : label → Program answer (label ⊕ α)) :
    σ → Program answer (label ⊕ α) → Ending α → σ → Prop
  | returned {s t : σ} {p : Program answer (label ⊕ α)} {value : α}
      (turn : Run env s p (.returned (.inr value)) t) : LoopRun env body s p (.returned value) t
  | raised {s t : σ} {p : Program answer (label ⊕ α)} (turn : Run env s p .raised t) :
      LoopRun env body s p .raised t
  | again {s t u : σ} {p : Program answer (label ⊕ α)} {l : label} {result : Ending α}
      (turn : Run env s p (.returned (.inl l)) t) (rest : LoopRun env body t (body l) result u) :
      LoopRun env body s p result u

theorem LoopRun.ends {body : label → Program answer (label ⊕ α)} {inv : label → σ → Prop}
    {p : Program answer (label ⊕ α)} {result : Ending α} (run : LoopRun env body s p result t)
    (turns : ∀ l s, inv l s → (body l).Meets env (Turns inv post) s)
    (meets : p.Meets env (Turns inv post) s) : post result t := by
  induction run with
  | returned turn => exact turn.ends meets
  | raised turn => exact turn.ends meets
  | again turn rest ih => exact ih (turns _ _ (turn.ends meets))

theorem LoopRun.refine {abstract : Environment answer τ} {view : σ → τ} {kept : σ → Prop}
    {post : Ending α → τ → Prop} {body : label → Program answer (label ⊕ α)}
    {inv : label → τ → Prop} {p : Program answer (label ⊕ α)} {result : Ending α}
    (run : LoopRun env body s p result t) (refines : Refines env abstract view kept)
    (turns : ∀ l s, inv l s → (body l).Meets abstract (Turns inv post) s) (start : kept s)
    (meets : p.Meets abstract (Turns inv post) (view s)) : kept t ∧ post result (view t) := by
  induction run with
  | returned turn => exact turn.ends (meets.refine refines start)
  | raised turn => exact turn.ends (meets.refine refines start)
  | again turn rest ih =>
      obtain ⟨still, goesOn⟩ := turn.ends (meets.refine refines start)
      exact ih still (turns _ _ goesOn)

end Program

end Librf
