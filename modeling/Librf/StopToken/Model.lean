import Librf.Base.Transition
import Librf.StopToken.Word
import Mathlib.Logic.Function.Basic

/-!
# One `stop_state` and the objects that refer to it

Threads take turns at the atomic operations; what a thread does between its exchange of the word
and its unlock is one step. Every thread has the stack of its calls, since a callback is code of the
user and calls again. A deleted state takes no more steps.
-/

namespace Librf.StopToken

/-- Where a `stop_callback_base *` is stored; `prev` points there. -/
inductive Slot
  | head
  | next (cb : Nat)
  deriving DecidableEq, Repr

/-- `stop_callback_base`; `isRemoved` points to a numbered variable `removed`. -/
structure Callback where
  next : Option Nat := none
  prev : Option Slot := none
  isRemoved : Option Nat := none
  finishedExecuting : Bool := false
  deriving DecidableEq, Repr

structure CallbackList where
  head : Option Nat := none
  callbacks : Nat → Callback := fun _ => {}

namespace CallbackList

def modify (l : CallbackList) (cb : Nat) (f : Callback → Callback) : CallbackList :=
  { l with callbacks := Function.update l.callbacks cb (f (l.callbacks cb)) }

/-- `if (p) p->prev = prev`. -/
def setPrev (l : CallbackList) (p : Option Nat) (prev : Option Slot) : CallbackList :=
  match p with
  | some cb => l.modify cb fun c => { c with prev }
  | none => l

/-- `*slot = p`. -/
def store (l : CallbackList) (slot : Slot) (p : Option Nat) : CallbackList :=
  match slot with
  | .head => { l with head := p }
  | .next cb => l.modify cb fun c => { c with next := p }

/-- In `try_add_callback`. -/
def push (l : CallbackList) (cb : Nat) : CallbackList :=
  let l := l.modify cb fun c => { c with next := l.head }
  let l := l.setPrev (l.callbacks cb).next (some (.next cb))
  { l.setPrev (some cb) (some .head) with head := some cb }

/-- In `request_stop`, where `cb` is the head. -/
def pop (l : CallbackList) (cb : Nat) : CallbackList :=
  let l := { l with head := (l.callbacks cb).next }
  let l := l.setPrev l.head (some .head)
  l.setPrev (some cb) none

/-- In `remove_callback`, where `slot` is the `prev` of `cb`. -/
def remove (l : CallbackList) (cb : Nat) (slot : Slot) : CallbackList :=
  let l := l.store slot (l.callbacks cb).next
  l.setPrev (l.callbacks cb).next (l.callbacks cb).prev

end CallbackList

inductive Call
  -- `try_lock_and_signal_until_signalled`
  | requestStop (h : Nat)
  -- `lock` in the loop of `request_stop`
  | nextCallback (h : Nat)
  | tryAddCallback (h cb : Nat) (increment : Bool)
  | removeCallback (cb : Nat)
  deriving DecidableEq, Repr

inductive Frame (W : Type)
  | loading (c : Call)
  | swapping (c : Call) (old : W)
  | locked (c : Call)
  -- in `request_stop`, before and during `cb->execute()`
  | calling (h cb : Nat) (anyMore : Bool)
  | executing (h cb : Nat) (anyMore : Bool) (removed : Nat)
  -- in `try_add_callback`, during `cb->execute()`
  | refusing (h cb : Nat) (increment : Bool)
  -- in `remove_callback`, after the unlock
  | unlinked (cb : Nat)
  | waiting (cb : Nat)
  | releasing (cb : Nat)
  deriving DecidableEq, Repr

/-- The life of a `stop_callback`. It is attached while it has a `state_`. -/
inductive Stage
  | unmade
  | constructing (t : Nat)
  | detached
  | attached
  | destroying (t : Nat)
  | destroyed (t : Nat)
  deriving DecidableEq, Repr

inductive Handle
  | source (h : Nat)
  | token (h : Nat)
  deriving DecidableEq, Repr

structure State (W : Type) where
  word : W
  list : CallbackList := {}
  signalling : Option Nat := none
  removed : Nat → Bool := fun _ => false
  -- the number of variables `removed` so far
  made : Nat := 0
  deleted : Bool := false
  -- the handles with this `state_`; a token is lent to a constructor that takes it over, and the
  -- calls of a thread use a handle
  sources : List Nat := [0]
  tokens : List Nat := []
  lent : List (Nat × Nat) := []
  uses : List (Nat × Handle) := []
  stages : Nat → Stage := fun _ => .unmade
  -- the callbacks with this `state_`
  attached : List Nat := []
  threads : Nat → List (Frame W) := fun _ => []
  -- history: the callbacks as they were added, called by `request_stop`, called by
  -- `try_add_callback` and unlinked by `remove_callback`, and what `request_stop` returned
  registered : List Nat := []
  called : List Nat := []
  refused : List Nat := []
  withdrawn : List Nat := []
  answers : List Bool := []

inductive Action
  | requestStop (t h : Nat)
  -- `stop_callback(const stop_token &)`, or `stop_callback(stop_token &&)` without an increment
  | construct (t h cb : Nat) (increment : Bool)
  | destroy (t cb : Nat)
  -- the next step of the thread, where `compare_exchange_weak` can fail
  | step (t : Nat) (spurious : Bool)
  -- the callback that the thread is in returns
  | finish (t : Nat)
  | getToken (h h' : Nat)
  | copyToken (h h' : Nat)
  | dropToken (h : Nat)
  | copySource (h h' : Nat)
  | dropSource (h : Nat)
  deriving DecidableEq, Repr

/-- A frame in which the code of the user runs. -/
def Frame.isBody {W : Type} : Frame W → Bool
  | .executing .. | .refusing .. => true
  | _ => false

namespace State

variable {W : Type}

def setThread (s : State W) (t : Nat) (frames : List (Frame W)) : State W :=
  { s with threads := Function.update s.threads t frames }

def setStage (s : State W) (cb : Nat) (stage : Stage) : State W :=
  { s with stages := Function.update s.stages cb stage }

def modify (s : State W) (cb : Nat) (f : Callback → Callback) : State W :=
  { s with list := s.list.modify cb f }

/-- A thread can start a call where no call or a callback runs. -/
def ready (s : State W) (t : Nat) : Bool :=
  match s.threads t with
  | [] => true
  | f :: _ => f.isBody

def inUse (s : State W) (h : Handle) : Bool := s.uses.any fun use => use.2 = h

def answer (s : State W) (t h : Nat) (rest : List (Frame W)) (result : Bool) : State W :=
  { s.setThread t rest with uses := s.uses.erase (t, .source h), answers := s.answers ++ [result] }

/-- The constructor is done with its token; it leaves it as it was, or it has taken it over. -/
def giveBack (s : State W) (t h : Nat) (increment keeps : Bool) : State W :=
  if increment then { s with uses := s.uses.erase (t, .token h) }
  else { s with lent := s.lent.erase (t, h), tokens := if keeps then s.tokens ++ [h] else s.tokens }

/-- `try_add_callback` returns false. -/
def decline (s : State W) (t h cb : Nat) (increment : Bool) (rest : List (Frame W)) : State W :=
  ((s.setThread t rest).setStage cb .detached).giveBack t h increment true

def destroyed (s : State W) (t cb : Nat) (rest : List (Frame W)) : State W :=
  { (s.setThread t rest).setStage cb (.destroyed t) with attached := s.attached.erase cb }

section Operations

variable (ops : WordOps W)

/-- What a call does with the word that it has read. -/
def look (s : State W) (t : Nat) (rest : List (Frame W)) (c : Call) (old : W) : State W :=
  let again := s.setThread t (.loading c :: rest)
  let exchange := s.setThread t (.swapping c old :: rest)
  match c with
  | .requestStop h =>
      if ops.isStopRequested old then s.answer t h rest false
      else if ops.isLocked old then again else exchange
  | .tryAddCallback h cb increment =>
      if ops.isStopRequested old then
        { s.setThread t (.refusing h cb increment :: rest) with refused := s.refused ++ [cb] }
      else if !ops.isStopRequestable old then s.decline t h cb increment rest
      else if ops.isLocked old then again else exchange
  | .nextCallback _ | .removeCallback _ => if ops.isLocked old then again else exchange

/-- `compare_exchange_weak`. -/
def swap (s : State W) [DecidableEq W] (t : Nat) (rest : List (Frame W)) (c : Call) (old : W)
    (spurious : Bool) : State W :=
  if s.word = old ∧ spurious = false then
    let word := match c with
      | .requestStop _ => ops.stopping old
      | _ => ops.locking old
    { s.setThread t (.locked c :: rest) with word }
  else s.look ops t rest c s.word

/-- The loop of `request_stop` from its condition to the unlock. -/
def loop (s : State W) (t h : Nat) (rest : List (Frame W)) : State W :=
  match s.list.head with
  | none => { s.answer t h rest true with word := ops.unlock s.word }
  | some cb =>
      let list := s.list.pop cb
      { s.setThread t (.calling h cb list.head.isSome :: rest) with
        list, word := ops.unlock s.word }

/-- `try_add_callback` from the exchange to its return. -/
def link (s : State W) (t h cb : Nat) (increment : Bool) (rest : List (Frame W)) : State W :=
  let word :=
    if increment then ops.unlockAndIncrementTokenRefCount s.word else ops.unlock s.word
  { (((s.setThread t rest).setStage cb .attached).giveBack t h increment false) with
    word, list := s.list.push cb, attached := s.attached ++ [cb],
    registered := s.registered ++ [cb] }

/-- `remove_callback` from the exchange to its return or its unlock. -/
def unlink (s : State W) (t cb : Nat) (rest : List (Frame W)) : State W :=
  match (s.list.callbacks cb).prev with
  | some slot =>
      let (word, deleted) := ops.unlockAndDecrementTokenRefCount s.word
      { s.destroyed t cb rest with
        word, deleted, list := s.list.remove cb slot, withdrawn := s.withdrawn ++ [cb] }
  | none => { s.setThread t (.unlinked cb :: rest) with word := ops.unlock s.word }

def runSection (s : State W) (t : Nat) (rest : List (Frame W)) : Call → State W
  | .requestStop h => { s with signalling := some t }.loop ops t h rest
  | .nextCallback h => s.loop ops t h rest
  | .tryAddCallback h cb increment => s.link ops t h cb increment rest
  | .removeCallback cb => s.unlink ops t cb rest

/-- The `removed` of this turn, and `cb->execute()` begins. -/
def execute (s : State W) (t h cb : Nat) (anyMore : Bool) (rest : List (Frame W)) : State W :=
  { (s.setThread t (.executing h cb anyMore s.made :: rest)).modify cb
      fun c => { c with isRemoved := some s.made } with
    removed := Function.update s.removed s.made false, made := s.made + 1,
    called := s.called ++ [cb] }

/-- `if (cb->is_removed) *cb->is_removed = true`. -/
def markRemoved (s : State W) (cb : Nat) : State W :=
  match (s.list.callbacks cb).isRemoved with
  | some flag => { s with removed := Function.update s.removed flag true }
  | none => s

/-- After the unlock of `remove_callback`. -/
def notice (s : State W) (t cb : Nat) (rest : List (Frame W)) : State W :=
  if s.signalling = some t then (s.markRemoved cb).setThread t (.releasing cb :: rest)
  else s.setThread t (.waiting cb :: rest)

def wait (s : State W) (t cb : Nat) (rest : List (Frame W)) : State W :=
  if (s.list.callbacks cb).finishedExecuting then s.setThread t (.releasing cb :: rest) else s

/-- `remove_token_reference` at the end of `remove_callback`. -/
def release (s : State W) (t cb : Nat) (rest : List (Frame W)) : State W :=
  let (word, deleted) := ops.removeTokenReference s.word
  { s.destroyed t cb rest with word, deleted }

def runFrame [DecidableEq W] (s : State W) (t : Nat) (spurious : Bool) (rest : List (Frame W)) :
    Frame W → Option (State W)
  | .loading c => some (s.look ops t rest c s.word)
  | .swapping c old => some (s.swap ops t rest c old spurious)
  | .locked c => some (s.runSection ops t rest c)
  | .calling h cb anyMore => some (s.execute t h cb anyMore rest)
  | .executing .. | .refusing .. => none
  | .unlinked cb => some (s.notice t cb rest)
  | .waiting cb => some (s.wait t cb rest)
  | .releasing cb => some (s.release ops t cb rest)

/-- What `request_stop` leaves in a callback that is still there. -/
def markFinished (s : State W) (cb flag : Nat) : State W :=
  if s.removed flag then s
  else s.modify cb fun c => { c with isRemoved := none, finishedExecuting := true }

/-- `cb->execute()` returns in `request_stop`. -/
def executed (s : State W) (t h cb : Nat) (anyMore : Bool) (flag : Nat) (rest : List (Frame W)) :
    State W :=
  let s := s.markFinished cb flag
  if anyMore then s.setThread t (.loading (.nextCallback h) :: rest) else s.answer t h rest true

def finish (s : State W) (t : Nat) : Option (State W) :=
  match s.threads t with
  | .executing h cb anyMore flag :: rest => some (s.executed t h cb anyMore flag rest)
  | .refusing h cb increment :: rest => some (s.decline t h cb increment rest)
  | _ => none

def push (s : State W) (t : Nat) (c : Call) : State W := s.setThread t (.loading c :: s.threads t)

def requestStop (s : State W) (t h : Nat) : Option (State W) :=
  if s.ready t ∧ h ∈ s.sources then
    some { s.push t (.requestStop h) with uses := (t, .source h) :: s.uses }
  else none

def construct (s : State W) (t h cb : Nat) (increment : Bool) : Option (State W) :=
  if s.ready t ∧ s.stages cb = .unmade ∧ h ∈ s.tokens then
    let s := (s.push t (.tryAddCallback h cb increment)).setStage cb (.constructing t)
    if increment then some { s with uses := (t, .token h) :: s.uses }
    else if s.inUse (.token h) then none
    else some { s with tokens := s.tokens.erase h, lent := (t, h) :: s.lent }
  else none

/-- A destructor that does not find a `state_` does nothing. -/
def destroy (s : State W) (t cb : Nat) : Option (State W) :=
  if s.ready t then
    match s.stages cb with
    | .attached => some ((s.push t (.removeCallback cb)).setStage cb (.destroying t))
    | .detached => some (s.setStage cb (.destroyed t))
    | _ => none
  else none

def fresh (s : State W) (h : Nat) : Bool := h ∉ s.tokens ∧ ¬ s.lent.any fun loan => loan.2 = h

def addToken (s : State W) (h : Nat) : State W :=
  { s with word := ops.addTokenReference s.word, tokens := s.tokens ++ [h] }

def dropToken (s : State W) (h : Nat) : State W :=
  let (word, deleted) := ops.removeTokenReference s.word
  { s with word, deleted, tokens := s.tokens.erase h }

def addSource (s : State W) (h : Nat) : State W :=
  { s with word := ops.addSourceReference s.word, sources := s.sources ++ [h] }

def dropSource (s : State W) (h : Nat) : State W :=
  let (word, deleted) := ops.removeSourceReference s.word
  { s with word, deleted, sources := s.sources.erase h }

def act [DecidableEq W] (s : State W) : Action → Option (State W)
  | .requestStop t h => s.requestStop t h
  | .construct t h cb increment => s.construct t h cb increment
  | .destroy t cb => s.destroy t cb
  | .step t spurious =>
      match s.threads t with
      | [] => none
      | f :: rest => s.runFrame ops t spurious rest f
  | .finish t => s.finish t
  | .getToken h h' => if h ∈ s.sources ∧ s.fresh h' then some (s.addToken ops h') else none
  | .copyToken h h' => if h ∈ s.tokens ∧ s.fresh h' then some (s.addToken ops h') else none
  | .dropToken h =>
      if h ∈ s.tokens ∧ ¬ s.inUse (.token h) then some (s.dropToken ops h) else none
  | .copySource h h' => if h ∈ s.sources ∧ h' ∉ s.sources then some (s.addSource ops h') else none
  | .dropSource h =>
      if h ∈ s.sources ∧ ¬ s.inUse (.source h) then some (s.dropSource ops h) else none

def step [DecidableEq W] (s : State W) (e : Action) : Option (State W) :=
  if s.deleted then none else s.act ops e

end Operations

end State

def system {W : Type} [DecidableEq W] (ops : WordOps W) : Transition.System (State W) Action where
  init := { word := ops.initial }
  step := State.step ops

end Librf.StopToken
