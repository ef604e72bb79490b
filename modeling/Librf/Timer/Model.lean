import Mathlib.Logic.Function.Basic
import Librf.Base.Transition

/-!
# `timer_manager`

Used from one thread. The loops of `update` and `clear` are cut after each call of a callback: what
the callback does with the manager comes before the loop goes on. A timer is named by its number in
the order of addition.
-/

namespace Librf

inductive TimerState
  | invalid
  | added
  | runing
  deriving DecidableEq, Repr

structure TimerTarget where
  tp : Int
  -- the callback has not been moved out
  cb : Bool := true
  st : TimerState
  deriving DecidableEq, Repr

inductive TimerCause
  -- the first loop of `update`, which found it stopped
  | dropped
  -- the second loop of the `update` with this number, which read this clock
  | fired (update : Nat) (now : Int)
  | cleared
  deriving DecidableEq, Repr

structure TimerCall where
  timer : Nat
  canceled : Bool
  cause : TimerCause
  deriving DecidableEq, Repr

/-- `older` timers had been added when the call began. -/
inductive TimerSection
  | idle
  -- `update`, over what it has moved out of `_added_timers`
  | moving (older : Nat) (rest : List Nat)
  -- `update`, with its iterator at the position `iter` of `_runing_timers`
  | firing (older : Nat) (now : Int) (iter : Nat)
  -- `clear`
  | clearingAdded (older : Nat) (rest : List Nat)
  | clearingRuning (older : Nat) (rest : List (Int × Nat))
  deriving DecidableEq, Repr

inductive TimerAction
  | add (tp : Int)
  | stop (t : Nat)
  | update
  -- `update` reads the clock
  | clock (now : Int)
  | clear
  | next
  deriving DecidableEq, Repr

structure TimerManager where
  targets : Nat → TimerTarget := fun _ => { tp := 0, st := .invalid }
  created : Nat := 0
  addedTimers : List Nat := []
  runingTimers : List (Int × Nat) := []
  timerSection : TimerSection := .idle
  -- history
  updates : Nat := 0
  calls : List TimerCall := []
  -- the timers for which `stop` has returned true
  stopped : List Nat := []

namespace TimerManager

def setTarget (s : TimerManager) (t : Nat) (target : TimerTarget) : TimerManager :=
  { s with targets := Function.update s.targets t target }

def callTarget (s : TimerManager) (t : Nat) (canceled : Bool) (cause : TimerCause) :
    TimerManager :=
  let target := s.targets t
  let s := s.setTarget t { target with cb := false, st := .invalid }
  if target.cb then { s with calls := s.calls ++ [⟨t, canceled, cause⟩] } else s

def add (s : TimerManager) (tp : Int) : TimerManager :=
  { s.setTarget s.created { tp, st := .added } with
      addedTimers := s.addedTimers ++ [s.created]
      created := s.created + 1 }

def stop (s : TimerManager) (t : Nat) : Bool × TimerManager :=
  if (s.targets t).st = .invalid then (false, s)
  else (true, { s.setTarget t { s.targets t with st := .invalid } with
    stopped := s.stopped ++ [t] })

/-- `std::multimap::insert`, which puts a value behind those of the same key. -/
def insert (tp : Int) (t : Nat) : List (Int × Nat) → List (Int × Nat)
  | [] => [(tp, t)]
  | entry :: rest =>
      if entry.1 ≤ tp then entry :: insert tp t rest else (tp, t) :: entry :: rest

/-- A turn of the first loop of `update`. -/
def move (s : TimerManager) (t : Nat) : TimerManager :=
  if (s.targets t).st = .added then
    { s.setTarget t { s.targets t with st := .runing } with
        runingTimers := insert (s.targets t).tp t s.runingTimers }
  else s.callTarget t true .dropped

def beginUpdate (s : TimerManager) : TimerManager :=
  { s with
      timerSection := .moving s.created s.addedTimers
      addedTimers := []
      updates := s.updates + 1 }

/-- `update` erases what its iterator has passed. -/
def endUpdate (s : TimerManager) (iter : Nat) : TimerManager :=
  { s with timerSection := .idle, runingTimers := s.runingTimers.drop iter }

/-- A turn of the second loop of `update`. -/
def fire (s : TimerManager) (older : Nat) (now : Int) (iter : Nat) : TimerManager :=
  match s.runingTimers[iter]? with
  | none => s.endUpdate iter
  | some (tp, t) =>
      if tp > now then s.endUpdate iter
      else { s.callTarget t ((s.targets t).st == .invalid) (.fired s.updates now) with
        timerSection := .firing older now (iter + 1) }

def step (s : TimerManager) : TimerAction → Option TimerManager
  | .add tp => some (s.add tp)
  | .stop t => if t < s.created then some (s.stop t).2 else none
  | .update => if s.timerSection = .idle then some s.beginUpdate else none
  | .clock now => match s.timerSection with
      | .moving older [] =>
          if s.runingTimers = [] then some { s with timerSection := .idle }
          else some { s with timerSection := .firing older now 0 }
      | _ => none
  | .clear =>
      if s.timerSection = .idle then some
        { s with timerSection := .clearingAdded s.created s.addedTimers, addedTimers := [] }
      else none
  | .next => match s.timerSection with
      | .moving older (t :: rest) => some { s.move t with timerSection := .moving older rest }
      | .firing older now iter => some (s.fire older now iter)
      | .clearingAdded older (t :: rest) => some
          { s.callTarget t true .cleared with timerSection := .clearingAdded older rest }
      | .clearingAdded older [] => some
          { s with timerSection := .clearingRuning older s.runingTimers, runingTimers := [] }
      | .clearingRuning older ((_, t) :: rest) => some
          { s.callTarget t true .cleared with timerSection := .clearingRuning older rest }
      | .clearingRuning _ [] => some { s with timerSection := .idle }
      | _ => none

def system : Transition.System TimerManager TimerAction where
  init := {}
  step := step

end TimerManager

end Librf
