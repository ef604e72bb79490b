import Librf.Base.Ascent
import Librf.Runtime.Tasks

/-!
# Chains of awaits

What a runtime says about one state is taken as given here, for every state. `Forest` says which
views there are when each coroutine is started by `go` once or awaited once before it was started,
and that every body runs at the end of a chain of awaits that `go` has started.
-/

namespace Librf

/-- The body has started, and the frame is not in it. -/
def Progress.left (x : Progress) : Bool := x.ended || x == .yielded

namespace TaskView

def IsCoroutine (r : TaskView) : Prop := (∃ kind, r.cls = .future kind) ∧ r.progress ≠ .absent

/-- Awaited by `p`, which has not suspended. -/
structure Called (p : Nat) (r : TaskView) : Prop where
  progress : r.progress = .initial
  coro : r.coro = none
  awaits : r.awaits = [p]

structure Blank (r : TaskView) : Prop where
  scheduler : r.scheduler = none
  goes : r.goes = []
  awaits : r.awaits = []
  entries : ∀ sch, r.entries sch = 0
  ready : ∀ sch, r.ready sch = false

end TaskView

inductive Role (n : Nat) : TaskView → Prop
  | fresh (cls moves switched) : Role n
      ⟨cls, .initial, none, none, none, true, [], [], moves, switched, fun _ => 0, fun _ => false⟩
  -- awaited by `p`
  | called (cls moves switched) (p home : Nat) : p ≠ n → Role n
      ⟨cls, .initial, some home, none, none, true, [], [p], moves, switched, fun _ => 0,
        fun _ => false⟩
  | queued (cls moves switched) (p home : Nat) : p ≠ n → Role n
      ⟨cls, .initial, some home, some p, some p, true, [], [p], moves, switched,
        fun y => if y = home then 1 else 0, fun _ => false⟩
  | body (cls moves switched) (p home : Nat) (x : Progress) : p ≠ n → x.inBody = true → Role n
      ⟨cls, x, some home, some p, some p, true, [], [p], moves, switched, fun _ => 0,
        fun _ => false⟩
  -- ended, or suspended by a `co_yield` that nobody resumes it from
  | left (cls moves switched) (p home : Nat) (x : Progress) (coro entries ready) : p ≠ n →
      x.left = true → coro = none ∨ coro = some p → Role n
      ⟨cls, x, some home, coro, some p, true, [], [p], moves, switched, entries, ready⟩
  -- started by `go`
  | task (cls moves) (sch home : Nat) (x : Progress) (coro entries) :
      x.ended = false → coro = none ∨ coro = some n → Role n
      ⟨cls, x, some home, coro, none, true, [sch], [], moves, some home, entries,
        fun y => decide (y = home)⟩
  | taskEnded (cls moves switched) (sch home : Nat) (x : Progress) (coro entries ready) :
      x.ended = true → Role n
      ⟨cls, x, some home, coro, none, true, [sch], [], moves, switched, entries, ready⟩

/-- A coroutine, the one that awaits it and so on up to the one that `go` has started. -/
inductive Chain (v : Nat → TaskView) : Nat → List Nat → Prop
  | root {r sch} : (v r).IsCoroutine → (v r).goes = [sch] → Chain v r [r]
  | child {n p l} : (v n).IsCoroutine → (v n).awaits = [p] → (v p).progress = .awaiting n →
      Chain v p l → Chain v n (n :: l)

structure Forest (v : Nat → TaskView) : Prop where
  role : ∀ n, (v n).IsCoroutine → Role n (v n)
  called : ∀ p m, (v m).IsCoroutine →
    (v p).progress = .transformed m ∨ (v p).progress = .unready m → (v m).Called p
  link : ∀ n p, (v n).IsCoroutine → (v n).coro = some p → p ≠ n → (v n).scheduler = (v p).scheduler
  parent : ∀ n p, (v n).IsCoroutine → (v n).parent = some p →
    (v p).IsCoroutine ∧ (v p).progress ≠ .initial
  rooted : ∀ n, (v n).IsCoroutine → ∃ l, Ascent (fun m => (v m).parent) n l

structure Forest.Next (v v' : Nat → TaskView) : Prop where
  forest : Forest v'
  keeps : ∀ n, (v n).IsCoroutine → (v n).progress ≠ .initial →
    (v' n).IsCoroutine ∧ (v' n).progress ≠ .initial ∧ (v' n).parent = (v n).parent

variable {v v' : Nat → TaskView} {n p : Nat} {l : List Nat} {r : TaskView}

theorem Forest.Next.refl (forest : Forest v) : Forest.Next v v :=
  ⟨forest, fun _ coroutine begun => ⟨coroutine, begun, rfl⟩⟩

theorem Forest.Next.trans {w : Nat → TaskView} (first : Forest.Next v w)
    (second : Forest.Next w v') : Forest.Next v v' := by
  refine ⟨second.forest, fun n coroutine begun => ?_⟩
  obtain ⟨coroutine', begun', parent⟩ := first.keeps n coroutine begun
  obtain ⟨coroutine'', begun'', parent'⟩ := second.keeps n coroutine' begun'
  exact ⟨coroutine'', begun'', parent'.trans parent⟩

/-! ## Chains -/

theorem Chain.coroutine (chain : Chain v n l) : (v n).IsCoroutine := by
  cases chain <;> assumption

theorem Chain.mem_start (chain : Chain v n l) : n ∈ l := by
  cases chain <;> exact List.mem_cons_self

theorem Chain.forall_mem {K : Nat → Prop} (chain : Chain v n l) (start : K n)
    (up : ∀ c q, K c → (v c).IsCoroutine → (v c).awaits = [q] → (v q).progress = .awaiting c → K q) :
    ∀ q ∈ l, K q := by
  induction chain with
  | root _ _ => exact fun q passed => List.mem_singleton.1 passed ▸ start
  | child coroutine awaits waits _ ih =>
      intro q passed
      rcases List.mem_cons.1 passed with rfl | later
      · exact start
      · exact ih (up _ _ start coroutine awaits waits) q later

theorem Chain.mem_coroutine (chain : Chain v n l) : ∀ q ∈ l, (v q).IsCoroutine := by
  induction chain with
  | root coroutine _ => exact fun q passed => List.mem_singleton.1 passed ▸ coroutine
  | child coroutine _ _ _ ih =>
      intro q passed
      rcases List.mem_cons.1 passed with rfl | later
      · exact coroutine
      · exact ih q later

theorem Progress.inBody_of_awaiting {x : Progress} {c : Nat} (waits : x = .awaiting c) :
    x.inBody = true := by
  rw [waits]
  rfl

/-! ## One view -/

theorem Forest.mem_coroutine (forest : Forest v) (coroutine : (v n).IsCoroutine)
    (ascent : Ascent (fun m => (v m).parent) n l) : ∀ q ∈ l, (v q).IsCoroutine :=
  ascent.forall_mem coroutine fun c q here link => (forest.parent c q here link).1

theorem Forest.update (forest : Forest v) (role : r.IsCoroutine → Role n r)
    (called : r.IsCoroutine → ∀ p, p ≠ n →
      (v p).progress = .transformed n ∨ (v p).progress = .unready n → r.Called p)
    (calls : ∀ m, r.progress = .transformed m ∨ r.progress = .unready m →
      m ≠ n ∧ ((v m).IsCoroutine → (v m).Called n))
    (link : r.IsCoroutine → ∀ p, r.coro = some p → p ≠ n → r.scheduler = (v p).scheduler)
    (held : ∀ m, m ≠ n → (v m).IsCoroutine → (v m).coro = some n → r.scheduler = (v n).scheduler)
    (parent : r.IsCoroutine → ∀ p, r.parent = some p →
      p ≠ n ∧ (v p).IsCoroutine ∧ (v p).progress ≠ .initial)
    (keeps : (v n).IsCoroutine → (v n).progress ≠ .initial →
      r.IsCoroutine ∧ r.progress ≠ .initial ∧ r.parent = (v n).parent) :
    Forest.Next v (Function.update v n r) := by
  have of_ne : ∀ {q}, q ≠ n → Function.update v n r q = v q := fun out => Function.update_of_ne out ..
  have self : Function.update v n r n = r := Function.update_self ..
  have above : ∀ m, (v m).IsCoroutine → (v m).parent = some n →
      r.IsCoroutine ∧ r.progress ≠ .initial ∧ r.parent = (v n).parent := by
    intro m coroutine up
    obtain ⟨here, begun⟩ := forest.parent m n coroutine up
    exact keeps here begun
  have keep : ∀ {q l}, q ≠ n → (v q).IsCoroutine → Ascent (fun m => (v m).parent) q l →
      Ascent (fun m => (Function.update v n r m).parent) q l := by
    intro q l other coroutine ascent
    refine ascent.congr fun c passed => ?_
    by_cases on : c = n
    · subst on
      rcases ascent.exists_below passed with same | ⟨d, below, -, link⟩
      · exact absurd same.symm other
      · have coroutine' := forest.mem_coroutine coroutine ascent d below
        rw [self]
        exact (above d coroutine' link).2.2
    · rw [of_ne on]
  refine ⟨?_, ?_⟩
  · constructor
    · intro q coroutine
      by_cases on : q = n
      · subst on
        rw [self] at coroutine ⊢
        exact role coroutine
      · rw [of_ne on] at coroutine ⊢
        exact forest.role q coroutine
    · intro q m coroutine waits
      by_cases source : q = n
      · subst source
        rw [self] at waits
        obtain ⟨other, target⟩ := calls m waits
        rw [of_ne other] at coroutine ⊢
        exact target coroutine
      · rw [of_ne source] at waits
        by_cases on : m = n
        · subst on
          rw [self] at coroutine ⊢
          exact called coroutine q source waits
        · rw [of_ne on] at coroutine ⊢
          exact forest.called q m coroutine waits
    · intro m q coroutine coro other
      by_cases on : m = n
      · subst on
        rw [self] at coroutine coro ⊢
        rw [of_ne other]
        exact link coroutine q coro other
      · rw [of_ne on] at coroutine coro ⊢
        by_cases target : q = n
        · subst target
          rw [self, held m on coroutine coro]
          exact forest.link m q coroutine coro other
        · rw [of_ne target]
          exact forest.link m q coroutine coro other
    · intro q p coroutine up
      by_cases on : q = n
      · subst on
        rw [self] at coroutine up
        obtain ⟨other, above⟩ := parent coroutine p up
        rw [of_ne other]
        exact above
      · rw [of_ne on] at coroutine up
        by_cases target : p = n
        · subst target
          rw [self]
          obtain ⟨still, begun, -⟩ := above q coroutine up
          exact ⟨still, begun⟩
        · rw [of_ne target]
          exact forest.parent q p coroutine up
    · intro q coroutine
      by_cases on : q = n
      · subst on
        rw [self] at coroutine
        cases up : r.parent with
        | none => exact ⟨[q], .top ((congrArg TaskView.parent self).trans up)⟩
        | some p =>
            obtain ⟨other, coroutine', -⟩ := parent coroutine p up
            obtain ⟨l, ascent⟩ := forest.rooted p coroutine'
            exact ⟨q :: l, .next ((congrArg TaskView.parent self).trans up)
              (keep other coroutine' ascent)⟩
      · rw [of_ne on] at coroutine
        obtain ⟨l, ascent⟩ := forest.rooted q coroutine
        exact ⟨l, keep on coroutine ascent⟩
  · intro q coroutine begun
    by_cases on : q = n
    · subst on
      rw [self]
      exact keeps coroutine begun
    · rw [of_ne on]
      exact ⟨coroutine, begun, rfl⟩

theorem Forest.parent_ne (forest : Forest v) (coroutine : (v n).IsCoroutine)
    (up : (v n).parent = some p) : p ≠ n := by
  rintro rfl
  -- No way up that ends passes `p` twice.
  obtain ⟨l, ascent⟩ := forest.rooted p coroutine
  cases ascent with
  | top ends => cases ends.symm.trans up
  | next link rest =>
      have nodup := (Ascent.next link rest).nodup
      cases link.symm.trans up
      exact (List.nodup_cons.1 nodup).1 rest.mem_start

theorem Forest.other (forest : Forest v) (before : ¬ (v n).IsCoroutine) (after : ¬ r.IsCoroutine)
    (outside : r.progress.inAwait = false)
    (unheld : ∀ m, (v m).IsCoroutine → (v m).coro ≠ some n) :
    Forest.Next v (Function.update v n r) := by
  apply forest.update
  · exact fun coroutine => absurd coroutine after
  · exact fun coroutine => absurd coroutine after
  · rintro m (waits | waits) <;> rw [waits] at outside <;> cases outside
  · exact fun coroutine => absurd coroutine after
  · exact fun m _ coroutine coro => absurd coro (unheld m coroutine)
  · exact fun coroutine => absurd coroutine after
  · exact fun coroutine => absurd coroutine before

theorem Forest.stay (forest : Forest v) (coroutine : (v n).IsCoroutine)
    (begun : (v n).progress ≠ .initial) (role : Role n r) (still : r.IsCoroutine)
    (begun' : r.progress ≠ .initial) (scheduler : r.scheduler = (v n).scheduler)
    (coro : ∀ p, r.coro = some p → p ≠ n → (v n).coro = some p)
    (parent : r.parent = (v n).parent)
    (calls : ∀ m, r.progress = .transformed m ∨ r.progress = .unready m →
      m ≠ n ∧ ((v m).IsCoroutine → (v m).Called n)) : Forest.Next v (Function.update v n r) := by
  apply forest.update
  · exact fun _ => role
  · intro _ p _ waits
    exact absurd (forest.called p n coroutine waits).progress begun
  · exact calls
  · intro _ p held other
    rw [scheduler]
    exact forest.link n p coroutine (coro p held other) other
  · exact fun _ _ _ _ => scheduler
  · intro _ p up
    rw [parent] at up
    exact ⟨forest.parent_ne coroutine up, forest.parent n p coroutine up⟩
  · exact fun _ _ => ⟨still, begun', parent⟩

theorem Forest.initial (forest : Forest v) (role : Role n r)
    (before : (v n).IsCoroutine → (v n).progress = .initial) (initial : r.progress = .initial)
    (uncalled : ∀ p, ¬ ((v p).progress = .transformed n ∨ (v p).progress = .unready n))
    (link : ∀ p, r.coro = some p → p ≠ n → r.scheduler = (v p).scheduler)
    (unheld : ∀ m, (v m).IsCoroutine → (v m).coro ≠ some n)
    (parent : ∀ p, r.parent = some p → p ≠ n ∧ (v p).IsCoroutine ∧ (v p).progress ≠ .initial) :
    Forest.Next v (Function.update v n r) := by
  apply forest.update
  · exact fun _ => role
  · exact fun _ p _ waits => absurd waits (uncalled p)
  · rintro m (waits | waits) <;> rw [waits] at initial <;> cases initial
  · exact fun _ => link
  · exact fun m _ coroutine coro => absurd coro (unheld m coroutine)
  · exact fun _ => parent
  · exact fun here begun => absurd (before here) begun

/-! ## Roles -/

theorem Progress.ended_eq_false {x : Progress} (inBody : x.inBody = true) : x.ended = false := by
  cases x <;> first | rfl | cases inBody

theorem Progress.left_eq_false {x : Progress} (inBody : x.inBody = true) : x.left = false := by
  cases x <;> first | rfl | cases inBody

theorem Role.walk (role : Role n r) (before : r.progress.inBody = true) {x : Progress}
    (after : x.inBody = true) : Role n { r with progress := x } := by
  cases role with
  | body cls moves switched p home y other =>
      exact .body cls moves switched p home x other after
  | task cls moves sch home y coro entries _ own =>
      exact .task cls moves sch home x coro entries (Progress.ended_eq_false after) own
  | left cls moves switched p home y coro entries ready _ left =>
      rw [Progress.left_eq_false before] at left
      cases left
  | taskEnded cls moves switched sch home y coro entries ready ended =>
      rw [Progress.ended_eq_false before] at ended
      cases ended
  | _ => cases before

theorem Progress.not_initial {x : Progress} (inBody : x.inBody = true) : x ≠ .initial := by
  rintro rfl
  cases inBody

theorem Progress.not_absent {x : Progress} (inBody : x.inBody = true) : x ≠ .absent := by
  rintro rfl
  cases inBody

theorem Forest.walk (forest : Forest v) (coroutine : (v n).IsCoroutine)
    (before : (v n).progress.inBody = true) {x : Progress} (after : x.inBody = true)
    (calls : ∀ m, x = .transformed m ∨ x = .unready m →
      m ≠ n ∧ ((v m).IsCoroutine → (v m).Called n)) :
    Forest.Next v (Function.update v n { v n with progress := x }) :=
  forest.stay coroutine (Progress.not_initial before) ((forest.role n coroutine).walk before after)
    ⟨coroutine.1, Progress.not_absent after⟩ (Progress.not_initial after) rfl
    (fun _ held _ => held) rfl calls

theorem Role.of_inBody (role : Role n r) (inBody : r.progress.inBody = true) :
    (∃ p home, p ≠ n ∧ r.awaits = [p] ∧ r.coro = some p ∧ r.parent = some p ∧ r.goes = [] ∧
        r.scheduler = some home ∧ (∀ sch, r.entries sch = 0) ∧ ∀ sch, r.ready sch = false) ∨
      ∃ sch home, r.goes = [sch] ∧ r.awaits = [] ∧ r.parent = none ∧
        (r.coro = none ∨ r.coro = some n) ∧ r.scheduler = some home ∧ r.switched = some home ∧
        ∀ y, r.ready y = decide (y = home) := by
  cases role with
  | body cls moves switched p home x other =>
      exact .inl ⟨p, home, other, rfl, rfl, rfl, rfl, rfl, fun _ => rfl, fun _ => rfl⟩
  | task cls moves sch home y coro entries _ own =>
      exact .inr ⟨sch, home, rfl, rfl, rfl, own, rfl, rfl, fun _ => rfl⟩
  | left cls moves switched p home y coro entries ready _ left =>
      rw [Progress.left_eq_false inBody] at left
      cases left
  | taskEnded cls moves switched sch home y coro entries ready ended =>
      rw [Progress.ended_eq_false inBody] at ended
      cases ended
  | _ => cases inBody

theorem Role.scheduler_of_inBody (role : Role n r) (inBody : r.progress.inBody = true) :
    ∃ home, r.scheduler = some home := by
  rcases role.of_inBody inBody with ⟨p, home, -, -, -, -, -, scheduler, -⟩ |
    ⟨sch, home, -, -, -, -, scheduler, -⟩
  · exact ⟨home, scheduler⟩
  · exact ⟨home, scheduler⟩

theorem Role.of_unused (role : Role n r) (goes : r.goes = []) (awaits : r.awaits = []) :
    r.progress = .initial ∧ r.coro = none ∧ r.parent = none ∧
      (∀ p home, p ≠ n → Role n { r with scheduler := some home, awaits := [p] }) ∧
      ∀ sch entries ready, (∀ y, ready y = (decide (y = sch) || r.ready y)) → Role n { r with
        scheduler := some sch, goes := [sch], switched := some sch, entries, ready } := by
  cases role with
  | fresh cls moves switched =>
      refine ⟨rfl, rfl, rfl, fun p home => .called cls moves switched p home, ?_⟩
      intro sch entries ready same
      obtain rfl : ready = fun y => decide (y = sch) := funext fun y => (same y).trans (Bool.or_false _)
      exact .task cls moves sch sch _ none entries rfl (.inl rfl)
  | task => cases goes
  | taskEnded => cases goes
  | _ => cases awaits

theorem Role.isFuture (role : Role n r) : r.isFuture = true := by
  cases role <;> rfl

theorem Role.queue (role : Role n r) (called : r.Called p) (home : Nat) :
    p ≠ n ∧ Role n { r with
      scheduler := some home, coro := some p, parent := some p
      entries := fun y => r.entries y + if y = home then 1 else 0 } := by
  obtain ⟨progress, coro, awaits⟩ := called
  cases role with
  | called cls moves switched q old other =>
      cases awaits
      exact ⟨other, by simpa using Role.queued (n := n) cls moves switched p home other⟩
  | queued => cases coro
  | body cls moves switched q home' x _ inBody =>
      dsimp only at progress
      subst progress
      cases inBody
  | left cls moves switched q home' x coro' entries ready _ left =>
      dsimp only at progress
      subst progress
      cases left
  | _ => cases awaits

theorem Role.start (role : Role n r) {sch : Nat} (queued : 0 < r.entries sch)
    (initial : r.progress = .initial) : Role n { r.pop sch with progress := .running } := by
  cases role with
  | queued cls moves switched p home other =>
      have here : sch = home := by
        by_contra away
        simp [away] at queued
      subst here
      have empty : (fun y => if y = sch then (if y = sch then 1 else 0) - 1 else
          if y = sch then 1 else 0) = fun _ => 0 := by
        funext y
        by_cases here : y = sch <;> simp [here]
      simp only [TaskView.pop, empty]
      exact .body cls moves switched p sch _ other rfl
  | task cls moves own home x coro entries _ self =>
      exact .task cls moves own home _ coro _ rfl self
  | body cls moves switched q home x _ inBody =>
      dsimp only at initial
      subst initial
      cases inBody
  | left cls moves switched q home x coro entries ready _ left =>
      dsimp only at initial
      subst initial
      cases left
  | taskEnded cls moves switched own home x coro entries ready ended =>
      dsimp only at initial
      subst initial
      cases ended
  | _ => cases queued

theorem Role.not_called (role : Role n r) {sch : Nat} (queued : 0 < r.entries sch) :
    ¬ r.Called p := by
  rintro ⟨progress, coro, awaits⟩
  cases role with
  | fresh | called | body => cases queued
  | queued => cases coro
  | left cls moves switched q home x coro' entries ready _ left =>
      dsimp only at progress
      subst progress
      cases left
  | _ => cases awaits

theorem Forest.start (forest : Forest v) (coroutine : (v n).IsCoroutine)
    (initial : (v n).progress = .initial) {sch : Nat} (queued : 0 < (v n).entries sch) :
    Forest.Next v (Function.update v n { (v n).pop sch with progress := .running }) := by
  have role := forest.role n coroutine
  apply forest.update
  · exact fun _ => role.start queued initial
  · intro _ p _ waits
    exact absurd (forest.called p n coroutine waits) (role.not_called queued)
  · simp
  · exact fun _ p held other => forest.link n p coroutine held other
  · exact fun _ _ _ _ => rfl
  · exact fun _ p up => ⟨forest.parent_ne coroutine up, forest.parent n p coroutine up⟩
  · exact fun _ begun => absurd initial begun

theorem Role.release (role : Role n r) {sch : Nat} (queued : 0 < r.entries sch)
    (begun : r.progress ≠ .initial) : Role n { r.pop sch with coro := none } := by
  cases role with
  | left cls moves switched q home x coro entries ready other left =>
      exact .left cls moves switched q home x none _ ready other left (.inl rfl)
  | task cls moves own home x coro entries open_ self =>
      exact .task cls moves own home x none _ open_ (.inl rfl)
  | taskEnded cls moves switched own home x coro entries ready ended =>
      exact .taskEnded cls moves switched own home x none _ ready ended
  | body cls moves switched q home x => cases queued
  | _ => exact absurd rfl begun

theorem Role.of_own (role : Role n r) (held : r.coro = some n) : r.goes ≠ [] := by
  cases role with
  | task | taskEnded => simp
  | queued cls moves switched q home other | body cls moves switched q home x other =>
      cases held
      exact absurd rfl other
  | left cls moves switched q home x coro entries ready other _ self =>
      rcases self with self | self
      · cases held.symm.trans self
      · cases held.symm.trans self
        exact absurd rfl other
  | _ => cases held

theorem Role.leave (role : Role n r) (begun : r.progress ≠ .initial) {x : Progress}
    (ended : x.ended = true) (entries : Nat → Nat) (ready : Nat → Bool) :
    Role n { r with progress := x, entries, ready } := by
  have left : x.left = true := by simp [Progress.left, ended]
  cases role with
  | body cls moves switched p home y other =>
      exact .left cls moves switched p home x (some p) entries ready other left (.inr rfl)
  | task cls moves sch home y coro =>
      exact .taskEnded cls moves (some home) sch home x coro entries ready ended
  | left cls moves switched p home y coro _ _ other _ self =>
      exact .left cls moves switched p home x coro entries ready other left self
  | taskEnded cls moves switched sch home y coro =>
      exact .taskEnded cls moves switched sch home x coro entries ready ended
  | _ => exact absurd rfl begun

theorem Role.yield (role : Role n r) (now : r.progress = .running) (entries : Nat → Nat) :
    Role n { r with progress := .yielded, coro := r.coro.or (some n), entries } := by
  cases role with
  | body cls moves switched p home x other =>
      exact .left cls moves switched p home .yielded (some p) entries _ other rfl (.inr rfl)
  | task cls moves sch home x coro _ _ own =>
      refine .task cls moves sch home .yielded _ entries rfl (.inr ?_)
      rcases own with rfl | rfl <;> rfl
  | left cls moves switched p home x coro _ ready _ left =>
      dsimp only at now
      subst now
      cases left
  | taskEnded cls moves switched sch home x coro _ ready ended =>
      dsimp only at now
      subst now
      cases ended
  | _ => cases now

theorem Role.goOn (role : Role n r) (started : r.goes ≠ []) (open_ : r.progress.ended = false) :
    Role n { r with progress := .running } := by
  cases role with
  | task cls moves sch home x coro entries _ own =>
      exact .task cls moves sch home .running coro entries rfl own
  | taskEnded cls moves switched sch home y coro' entries' ready ended =>
      rw [open_] at ended
      cases ended
  | _ => exact absurd rfl started

/-! ## Whole chains -/

/-- The chain has been moved to `sch`. -/
def TaskView.move (sch : Nat) (r : TaskView) : TaskView :=
  { r with
    scheduler := some sch
    moves := r.moves ++ [sch]
    switched := if r.goes = [] then r.switched else some sch
    ready := fun y => if r.goes = [] then r.ready y else decide (y = sch) }

theorem TaskView.move_ready (sch : Nat) (r : TaskView) (y : Nat) :
    (r.move sch).ready y = if r.goes = [] then r.ready y else decide (y = sch) := rfl

theorem TaskView.move_switched (sch : Nat) (r : TaskView) :
    (r.move sch).switched = if r.goes = [] then r.switched else some sch := rfl

theorem Role.move (role : Role n r) (inBody : r.progress.inBody = true) (sch : Nat) :
    Role n (r.move sch) := by
  cases role with
  | body cls moves switched p home x other after =>
      exact .body cls (moves ++ [sch]) switched p sch x other after
  | task cls moves own home x coro entries open_ self =>
      exact .task cls (moves ++ [sch]) own sch x coro entries open_ self
  | left cls moves switched p home y coro entries ready _ left =>
      rw [Progress.left_eq_false inBody] at left
      cases left
  | taskEnded cls moves switched own home y coro entries ready ended =>
      rw [Progress.ended_eq_false inBody] at ended
      cases ended
  | _ => cases inBody

theorem Chain.mem_inBody (chain : Chain v n l) (inBody : (v n).progress.inBody = true) :
    ∀ q ∈ l, (v q).progress.inBody = true :=
  chain.forall_mem inBody fun _ _ _ _ _ waits => Progress.inBody_of_awaiting waits

theorem Chain.exists_below (chain : Chain v n l) {q : Nat} (passed : q ∈ l) :
    q = n ∨ ∃ c ∈ l, (v c).IsCoroutine ∧ (v q).progress = .awaiting c := by
  induction chain with
  | root _ _ => exact .inl (List.mem_singleton.1 passed)
  | @child n p l coroutine awaits waits above ih =>
      rcases List.mem_cons.1 passed with rfl | later
      · exact .inl rfl
      · right
        rcases ih later with rfl | ⟨c, below, target, waits'⟩
        · exact ⟨n, List.mem_cons_self, coroutine, waits⟩
        · exact ⟨c, List.mem_cons_of_mem _ below, target, waits'⟩

def Suspended (v : Nat → TaskView) : Prop :=
  ∀ m q, (v m).IsCoroutine → (v m).coro = some q → q ≠ m → (v q).progress = .awaiting m

theorem Forest.exists_chain (forest : Forest v) (suspended : Suspended v)
    (coroutine : (v n).IsCoroutine) (inBody : (v n).progress.inBody = true) :
    ∃ l, Chain v n l := by
  obtain ⟨l, ascent⟩ := forest.rooted n coroutine
  refine ⟨l, ?_⟩
  induction ascent with
  | @top n ends =>
      rcases (forest.role n coroutine).of_inBody inBody with ⟨p, home, -, -, -, parent, -⟩ |
        ⟨sch, home, goes, -⟩
      · cases ends.symm.trans parent
      · exact .root coroutine goes
  | @next n p l link _ ih =>
      rcases (forest.role n coroutine).of_inBody inBody with
        ⟨q, home, other, awaits, coro, parent, -⟩ | ⟨sch, home, -, -, none, -⟩
      · cases link.symm.trans parent
        have waits := suspended n p coroutine coro other
        exact .child coroutine awaits waits
          (ih (forest.parent n p coroutine link).1 (Progress.inBody_of_awaiting waits))
      · cases link.symm.trans none

theorem Forest.ascent (forest : Forest v) (chain : Chain v n l)
    (inBody : (v n).progress.inBody = true) : Ascent (fun m => (v m).parent) n l := by
  induction chain with
  | root coroutine goes =>
      rcases (forest.role _ coroutine).of_inBody inBody with ⟨p, home, -, -, -, -, none, -⟩ |
        ⟨sch, home, -, -, parent, -⟩
      · rw [goes] at none
        cases none
      · exact .top parent
  | child coroutine awaits waits _ ih =>
      rcases (forest.role _ coroutine).of_inBody inBody with ⟨p, home, -, awaits', -, parent, -⟩ |
        ⟨sch, home, -, none, -⟩
      · rw [awaits] at awaits'
        cases awaits'
        exact .next parent (ih (Progress.inBody_of_awaiting waits))
      · rw [awaits] at none
        cases none

theorem Forest.same_home (forest : Forest v) (chain : Chain v n l)
    (inBody : (v n).progress.inBody = true) : ∀ q ∈ l, (v q).scheduler = (v n).scheduler := by
  induction chain with
  | root coroutine goes => exact fun q passed => by rw [List.mem_singleton.1 passed]
  | @child n p l coroutine awaits waits above ih =>
      rcases (forest.role _ coroutine).of_inBody inBody with ⟨q, home, other, awaits', coro, -⟩ |
        ⟨sch, home, -, none, -⟩
      · rw [awaits] at awaits'
        cases awaits'
        have equal := forest.link n p coroutine coro other
        intro q passed
        rcases List.mem_cons.1 passed with rfl | later
        · rfl
        · exact (ih (Progress.inBody_of_awaiting waits) q later).trans equal.symm
      · rw [awaits] at none
        cases none

theorem Forest.last (forest : Forest v) (chain : Chain v n l)
    (inBody : (v n).progress.inBody = true) {r : Nat} (last : l.getLast? = some r) :
    (v r).goes ≠ [] ∧ r ∈ l ∧ ∀ q ∈ l, q ≠ r → (v q).goes = [] := by
  induction chain with
  | root coroutine goes =>
      obtain rfl : _ = r := by simpa using last
      refine ⟨by simp [goes], List.mem_cons_self, fun q passed other => ?_⟩
      exact absurd (List.mem_singleton.1 passed) other
  | @child n p l coroutine awaits waits above ih =>
      have inBody' := Progress.inBody_of_awaiting waits
      obtain ⟨r', last', -⟩ := (forest.ascent above inBody').exists_last
      obtain rfl : r' = r := by simpa [List.getLast?_cons, last'] using last
      obtain ⟨task, within, rest⟩ := ih inBody' last'
      refine ⟨task, List.mem_cons_of_mem _ within, fun q passed other => ?_⟩
      rcases List.mem_cons.1 passed with rfl | later
      · rcases (forest.role _ coroutine).of_inBody inBody with ⟨q', home, -, -, -, -, none, -⟩ |
          ⟨sch, home, -, none, -⟩
        · exact none
        · rw [awaits] at none
          cases none
      · exact rest q later other

def moveChain (sch : Nat) (l : List Nat) (v : Nat → TaskView) (q : Nat) : TaskView :=
  if q ∈ l then (v q).move sch else v q

theorem moveChain_frame (sch : Nat) (l : List Nat) (v : Nat → TaskView) (q : Nat) :
    (moveChain sch l v q).cls = (v q).cls ∧ (moveChain sch l v q).progress = (v q).progress ∧
      (moveChain sch l v q).coro = (v q).coro ∧ (moveChain sch l v q).parent = (v q).parent ∧
      (moveChain sch l v q).awaits = (v q).awaits := by
  unfold moveChain
  split <;> exact ⟨rfl, rfl, rfl, rfl, rfl⟩

theorem Forest.move (forest : Forest v) (suspended : Suspended v) (chain : Chain v n l)
    (now : (v n).progress = .running) (sch : Nat) : Forest.Next v (moveChain sch l v) := by
  have inBody : (v n).progress.inBody = true := by rw [now]; rfl
  have coroutine : ∀ q, (moveChain sch l v q).IsCoroutine ↔ (v q).IsCoroutine := by
    intro q
    obtain ⟨cls, progress, -⟩ := moveChain_frame sch l v q
    rw [TaskView.IsCoroutine, TaskView.IsCoroutine, cls, progress]
  have progress : ∀ q, (moveChain sch l v q).progress = (v q).progress :=
    fun q => (moveChain_frame sch l v q).2.1
  have parent : ∀ q, (moveChain sch l v q).parent = (v q).parent :=
    fun q => (moveChain_frame sch l v q).2.2.2.1
  refine ⟨?_, ?_⟩
  · constructor
    · intro q here
      have role := forest.role q ((coroutine q).1 here)
      unfold moveChain
      split
      · rename_i passed
        exact role.move (chain.mem_inBody inBody q passed) sch
      · exact role
    · intro q m here waits
      rw [progress] at waits
      obtain ⟨initial, coro, awaits⟩ := forest.called q m ((coroutine m).1 here) waits
      obtain ⟨-, progress', coro', -, awaits'⟩ := moveChain_frame sch l v m
      exact ⟨progress'.trans initial, coro'.trans coro, awaits'.trans awaits⟩
    · intro m q here held other
      rw [coroutine] at here
      rw [(moveChain_frame sch l v m).2.2.1] at held
      have waits := suspended m q here held other
      -- The two of them are on the same chains.
      have both : m ∈ l ↔ q ∈ l := by
        constructor
        · intro passed
          rcases (forest.role m here).of_inBody (chain.mem_inBody inBody m passed) with
            ⟨p, home, -, -, coro, up, -⟩ | ⟨own, home, -, -, -, self, -⟩
          · cases held.symm.trans coro
            exact (forest.ascent chain inBody).mem_up passed up
          · rcases self with none | self
            · cases held.symm.trans none
            · cases held.symm.trans self
              exact absurd rfl other
        · intro passed
          rcases chain.exists_below passed with rfl | ⟨c, below, -, waits'⟩
          · cases now.symm.trans waits
          · cases waits'.symm.trans waits
            exact below
      by_cases passed : m ∈ l
      · simp only [moveChain, if_pos passed, if_pos (both.1 passed)]
        rfl
      · simp only [moveChain, if_neg passed, if_neg fun on => passed (both.2 on)]
        exact forest.link m q here held other
    · intro m q here up
      rw [coroutine, progress]
      exact forest.parent m q ((coroutine m).1 here) ((parent m).symm.trans up)
    · intro q here
      obtain ⟨l', ascent⟩ := forest.rooted q ((coroutine q).1 here)
      exact ⟨l', ascent.congr fun c _ => parent c⟩
  · intro q here begun
    exact ⟨(coroutine q).2 here, fun initial => begun ((progress q).symm.trans initial), parent q⟩

end Librf
