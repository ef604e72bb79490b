import Librf.Mutex.Locking

/-!
# One key for all coroutines under a `go`
-/

namespace Librf

namespace Locking

variable {α ε : Type*} {s t : Locking α ε} {sch m n p key root : Nat} {kind : LockKind}

structure Keyed (s : Locking α ε) : Prop where
  used : ∀ u ∈ s.used, s.runtime.Rooted u.coroutine u.key
  owners : ∀ o ∈ s.owners, s.runtime.Rooted o.coroutine o.owner
  awaiters : ∀ p a, s.awaiters p = some a →
    { use := .lock, mutex := a.mutex, coroutine := p, key := a.root } ∈ s.used
  waiters : ∀ m w, w < (s.mutexes m).created →
    { use := .lock, mutex := m, coroutine := s.coroutines m w
      key := ((s.mutexes m).waiters w).root } ∈ s.used

theorem caller_rooted (asked : s.caller sch = some (p, root)) : s.runtime.Rooted p root :=
  ⟨caller_started asked, (caller_cases asked).2.2.2.2⟩

theorem Keyed.recordUse (keyed : s.Keyed) (rooted : s.runtime.Rooted p key) (use : KeyUse)
    (m : Nat) : (s.recordUse use m p key).Keyed := by
  obtain ⟨used, owners, awaiters, waiters⟩ := keyed
  constructor
  · intro u member
    rcases List.mem_append.1 member with old | new
    · exact used u old
    · cases List.mem_singleton.1 new
      exact rooted
  · exact owners
  · exact fun q a inside => List.mem_append_left _ (awaiters q a inside)
  · exact fun m' w older => List.mem_append_left _ (waiters m' w older)

theorem Keyed.setMutex (keyed : s.Keyed) {action : MutexAction} {mutex : Mutex}
    (action_ : (s.mutexes m).step action = some mutex)
    (plain : ∀ handler root timed, action ≠ .lock handler root timed) :
    (s.setMutex m mutex).Keyed := by
  obtain ⟨used, owners, awaiters, waiters⟩ := keyed
  refine ⟨used, owners, awaiters, ?_⟩
  intro m' w older
  by_cases here : m' = m
  · subst here
    have created : mutex.created = (s.mutexes m').created := by
      rcases Mutex.created_of_step action_ with same | ⟨handler, root, timed, lock⟩
      · exact same
      · exact absurd lock (plain handler root timed)
    simp only [Locking.setMutex, Function.update_self] at older ⊢
    rw [created] at older
    rw [(Mutex.step_waiter action_ older).root]
    exact waiters m' w older
  · simp only [Locking.setMutex, Function.update_of_ne here] at older ⊢
    exact waiters m' w older

theorem Keyed.call (keyed : s.Keyed) (rooted : s.runtime.Rooted p key) {use : KeyUse} {action : MutexAction}
    (plain : ∀ handler root timed, action ≠ .lock handler root timed)
    (h : s.call use m p key action = some t) : t.Keyed := by
  obtain ⟨mutex, action_, rfl⟩ := Option.map_eq_some_iff.1 h
  exact (keyed.setMutex action_ plain).recordUse rooted use m

theorem Keyed.run (keyed : s.Keyed) {runtime : Runtime α ε}
    (onward : Runtime.Onward s.runtime runtime) : Keyed { s with runtime } :=
  ⟨fun u member => (keyed.used u member).onward onward,
    fun o member => (keyed.owners o member).onward onward, keyed.awaiters, keyed.waiters⟩

/-! ## Locks -/

inductive Locked (s : Locking α ε) (sch m : Nat) (kind : LockKind) (p root : Nat) :
    Locking α ε → Prop
  | granted : (s.mutexes m).owner = none ∨ (s.mutexes m).owner = some root →
      Locked s sch m kind p root { s with
        mutexes := Function.update s.mutexes m { (s.mutexes m).record (.locked root) with
          owner := some root, counter := (s.mutexes m).counter + 1 }
        awaiters := Function.update s.awaiters p (some { mutex := m, root, kind })
        used := s.used ++ [{ use := .lock, mutex := m, coroutine := p, key := root }] }
  | suspended (r runtime) : (s.mutexes m).owner = some r → r ≠ root →
      s.runtime.step (.body sch .park) = some runtime →
      Locked s sch m kind p root { s with
        runtime
        mutexes := Function.update s.mutexes m ((s.mutexes m).suspend p root (kind == .timed))
        awaiters := Function.update s.awaiters p (some { mutex := m, root, kind })
        coroutines := Function.update s.coroutines m
          (Function.update (s.coroutines m) (s.mutexes m).created p)
        used := s.used ++ [{ use := .lock, mutex := m, coroutine := p, key := root }] }

theorem locked_of_lock (h : s.lock sch m kind p root = some t) :
    (∃ mutex, (s.mutexes m).step (.lock p root (kind == .timed)) = some mutex ∧
        t.mutexes = Function.update s.mutexes m mutex) ∧ Locked s sch m kind p root t := by
  obtain ⟨mutex, action, rest⟩ := Option.bind_eq_some_iff.1 h
  obtain ⟨free, ⟨owner, after⟩ | ⟨⟨r, owner, other⟩, after⟩⟩ := Mutex.lock_cases action
  · have left : mutex.lockSection = .free := by
      rw [after]
      exact free
    simp only [left, Option.some.injEq] at rest
    subst after
    cases rest
    exact ⟨⟨_, action, rfl⟩, .granted owner⟩
  · have left : mutex.lockSection = .suspending (s.mutexes m).created := by
      rw [after]
      rfl
    simp only [left] at rest
    obtain ⟨runtime, parked, rfl⟩ := Option.map_eq_some_iff.1 rest
    subst after
    exact ⟨⟨_, action, rfl⟩, .suspended r runtime owner other parked⟩

theorem Keyed.locked (keyed : s.Keyed) (rooted : s.runtime.Rooted p root)
    (onward : Runtime.Onward s.runtime t.runtime) (locked : Locked s sch m kind p root t) : t.Keyed := by
  have recorded := keyed.recordUse rooted .lock m
  have asking : ∀ q a,
      Function.update s.awaiters p (some { mutex := m, root, kind }) q = some a →
      { use := .lock, mutex := a.mutex, coroutine := q, key := a.root } ∈
        (s.recordUse .lock m p root).used := by
    intro q a inside
    by_cases here : q = p
    · subst here
      rw [Function.update_self] at inside
      cases inside
      exact List.mem_append_right _ (List.mem_singleton.2 rfl)
    · rw [Function.update_of_ne here] at inside
      exact recorded.awaiters q a inside
  cases locked with
  | granted owner =>
      refine ⟨recorded.used, recorded.owners, asking, fun m' w older => ?_⟩
      by_cases here : m' = m
      · subst here
        simp only [Function.update_self] at older ⊢
        exact recorded.waiters m' w older
      · simp only [Function.update_of_ne here] at older ⊢
        exact recorded.waiters m' w older
  | suspended r runtime owner other parked =>
      have later := recorded.run onward
      refine ⟨later.used, later.owners, asking, fun m' w older => ?_⟩
      by_cases here : m' = m
      · subst here
        simp only [Function.update_self] at older ⊢
        by_cases new : w = (s.mutexes m').created
        · subst new
          simp [Mutex.suspend, Mutex.setWaiter, Mutex.record]
        · have old : w < (s.mutexes m').created :=
            Nat.lt_of_le_of_ne (Nat.le_of_lt_succ older) new
          have same : ((s.mutexes m').suspend p root (kind == .timed)).waiters w =
              (s.mutexes m').waiters w := Mutex.setWaiter_of_ne new
          rw [same, Function.update_of_ne new]
          exact recorded.waiters m' w old
      · simp only [Function.update_of_ne here] at older ⊢
        exact recorded.waiters m' w older

/-! ## Every run -/

structure Regular (s : Locking α ε) : Prop where
  runtime : (Runtime.system α ε).ReachableBy Runtime.Chained s.runtime
  mutexes : ∀ m, Mutex.system.Reachable (s.mutexes m)
  keyed : s.Keyed

theorem Regular.onward (regular : s.Regular)
    (reached : (Runtime.system α ε).ReachableBy Runtime.Chained t.runtime)
    (next : Forest.Next s.runtime.task t.runtime.task) :
    Runtime.Onward s.runtime t.runtime :=
  ⟨Runtime.sound_of_reachable regular.runtime, Runtime.linked_of_reachable regular.runtime,
    Runtime.sound_of_reachable reached, Runtime.linked_of_reachable reached, next⟩

theorem Regular.waiter_root (regular : s.Regular) {w : Nat} {rest : List Nat}
    (queue : (s.mutexes m).waitAwakes = w :: rest) :
    { use := .lock, mutex := m, coroutine := s.coroutines m w
      key := ((s.mutexes m).waiters w).root } ∈ s.used ∧
      s.runtime.getRoot ((s.mutexes m).waiters w).root = some ((s.mutexes m).waiters w).root := by
  have linked := Runtime.linked_of_reachable regular.runtime
  have sound := Runtime.sound_of_reachable regular.runtime
  have older : w < (s.mutexes m).created := by
    apply (Mutex.served (regular.mutexes m)).inLine.bounded
    simp [Mutex.line, queue]
  have used := regular.keyed.waiters m w older
  obtain ⟨started, root⟩ := regular.keyed.used _ used
  obtain ⟨started', descends⟩ := linked.started_root started ((linked.getRoot_iff sound started).1 root)
  exact ⟨used, linked.getRoot_of_descends sound started' descends⟩

inductive Effect (s : Locking α ε) : LockingAction α ε → Locking α ε → Prop
  | run (action : RuntimeAction α ε) (runtime : Runtime α ε) :
      s.runtime.step action = some runtime → Effect s (.run action) { s with runtime }
  | lock (sch m : Nat) (kind : LockKind) (p root : Nat) (t : Locking α ε) :
      s.caller sch = some (p, root) →
      (∃ mutex, (s.mutexes m).step (.lock p root (kind == .timed)) = some mutex ∧
        t.mutexes = Function.update s.mutexes m mutex) →
      Locked s sch m kind p root t → Effect s (.lock sch m kind) t
  | awaitResume (sch p : Nat) (awaiter : LockAwaiter) (owners : List UnlockOwner) :
      s.awaiters p = some awaiter →
      owners = s.owners ∨ owners = s.owners ++
        [{ mutex := awaiter.mutex, owner := awaiter.root, coroutine := p }] →
      Effect s (.awaitResume sch) { s with
        awaiters := Function.update s.awaiters p none
        owners }
  | call (action : LockingAction α ε) (use : KeyUse) (m p key : Nat) (action' : MutexAction)
      (t : Locking α ε) : s.runtime.Rooted p key →
      (∀ handler root timed, action' ≠ .lock handler root timed) →
      s.call use m p key action' = some t → Effect s action t
  | rootState (sch m p root : Nat) : s.caller sch = some (p, root) →
      Effect s (.rootState sch m) { s with owners := s.owners ++
        [{ mutex := m, owner := root, coroutine := p }] }
  | mutex (m : Nat) (action : MutexAction) (mutex : Mutex) :
      (s.mutexes m).step action = some mutex →
      (∀ handler root timed, action ≠ .lock handler root timed) →
      Effect s (.mutex m action) (s.setMutex m mutex)

theorem Regular.effect (regular : s.Regular) {action : LockingAction α ε}
    (h : s.step action = some t) : Effect s action t := by
  cases action with
  | run action =>
      have done : ∃ runtime, s.runtime.step action = some runtime ∧ t = { s with runtime } := by
        cases action with
        | body sch action =>
            simp only [step, Option.ite_none_right_eq_some] at h
            obtain ⟨runtime, done, rfl⟩ := Option.map_eq_some_iff.1 h.2
            exact ⟨runtime, done, rfl⟩
        | _ =>
            simp only [step] at h
            obtain ⟨runtime, done, rfl⟩ := Option.map_eq_some_iff.1 h
            exact ⟨runtime, done, rfl⟩
      obtain ⟨runtime, done, rfl⟩ := done
      exact .run action runtime done
  | lock sch m kind =>
      obtain ⟨⟨p, root⟩, asked, locked⟩ := Option.bind_eq_some_iff.1 h
      obtain ⟨done, locked⟩ := locked_of_lock locked
      exact .lock sch m kind p root t asked done locked
  | awaitResume sch =>
      obtain ⟨p, -, arrived⟩ := Option.bind_eq_some_iff.1 h
      obtain ⟨awaiter, inside, rfl⟩ := Option.map_eq_some_iff.1 arrived
      split
      · exact .awaitResume sch p awaiter _ inside (.inr rfl)
      · exact .awaitResume sch p awaiter _ inside (.inl rfl)
      · exact .awaitResume sch p awaiter _ inside (.inl rfl)
  | tryLock sch m =>
      obtain ⟨⟨p, root⟩, asked, called⟩ := Option.bind_eq_some_iff.1 h
      exact .call _ _ m p root _ t (caller_rooted asked) (by simp) called
  | unlock sch m =>
      obtain ⟨⟨p, root⟩, asked, called⟩ := Option.bind_eq_some_iff.1 h
      exact .call _ _ m p root _ t (caller_rooted asked) (by simp) called
  | rootState sch m =>
      obtain ⟨⟨p, root⟩, asked, rfl⟩ := Option.map_eq_some_iff.1 h
      exact .rootState sch m p root asked
  | release owner =>
      simp only [step, Option.ite_none_right_eq_some] at h
      exact .call _ _ _ _ _ _ t (regular.keyed.owners owner h.1) (by simp) h.2
  | handOff m =>
      simp only [step] at h
      split at h
      · rename_i w rest queue
        obtain ⟨used, top⟩ := regular.waiter_root queue
        obtain ⟨root, known, called⟩ := Option.bind_eq_some_iff.1 h
        cases known.symm.trans top
        exact .call _ _ m _ _ _ t (regular.keyed.used _ used) (by simp) called
      · cases h
  | mutex m action =>
      cases action with
      | lock handler root timed | offer root => cases h
      | _ =>
          obtain ⟨mutex, done, rfl⟩ := Option.map_eq_some_iff.1 h
          exact .mutex m _ mutex done (by simp)

theorem Regular.setMutex (regular : s.Regular) {action : MutexAction} {mutex : Mutex}
    (action_ : (s.mutexes m).step action = some mutex) (m' : Nat) :
    Mutex.system.Reachable (Function.update s.mutexes m mutex m') := by
  by_cases here : m' = m
  · subst here
    rw [Function.update_self]
    exact (regular.mutexes m').step trivial action_
  · rw [Function.update_of_ne here]
    exact regular.mutexes m'

theorem Regular.refl (regular : s.Regular) : Runtime.Onward s.runtime s.runtime :=
  regular.onward regular.runtime (.refl (Runtime.linked_of_reachable regular.runtime).forest)

theorem Regular.onward_of_step (regular : s.Regular) {runtime : Runtime α ε}
    {action : RuntimeAction α ε} (allowed : s.runtime.Chained action)
    (h : s.runtime.step action = some runtime) :
    (Runtime.system α ε).ReachableBy Runtime.Chained runtime ∧
      Runtime.Onward s.runtime runtime := by
  have reached := regular.runtime.next action h allowed
  have linked := Runtime.linked_of_reachable regular.runtime
  have sound := Runtime.sound_of_reachable regular.runtime
  exact ⟨reached, sound, linked, Runtime.sound_of_reachable reached,
    Runtime.linked_of_reachable reached, (linked.step sound allowed h).forest⟩

theorem Regular.step (regular : s.Regular) {action : LockingAction α ε}
    (allowed : s.Chained action) (h : s.step action = some t) :
    t.Regular ∧ Runtime.Onward s.runtime t.runtime := by
  have keyed := regular.keyed
  cases regular.effect h with
  | run action runtime done =>
      obtain ⟨reached, onward⟩ := regular.onward_of_step allowed done
      exact ⟨⟨reached, regular.mutexes, keyed.run onward⟩, onward⟩
  | lock sch m kind p root _ asked done locked =>
      have rooted := caller_rooted asked
      have parked : (Runtime.system α ε).ReachableBy Runtime.Chained t.runtime ∧
          Runtime.Onward s.runtime t.runtime := by
        cases locked with
        | granted owner => exact ⟨regular.runtime, regular.refl⟩
        | suspended r runtime owner other parked =>
            have allowed : s.runtime.Chained (.body sch .park) := trivial
            exact regular.onward_of_step allowed parked
      refine ⟨⟨parked.1, fun m' => ?_, keyed.locked rooted parked.2 locked⟩, parked.2⟩
      obtain ⟨mutex, done, after⟩ := done
      rw [after]
      exact regular.setMutex done m'
  | awaitResume sch p awaiter owners inside guard =>
      refine ⟨⟨regular.runtime, regular.mutexes, keyed.used, ?_, ?_, keyed.waiters⟩, regular.refl⟩
      · intro o member
        rcases guard with rfl | rfl
        · exact keyed.owners o member
        · rcases List.mem_append.1 member with old | new
          · exact keyed.owners o old
          · cases List.mem_singleton.1 new
            exact keyed.used _ (keyed.awaiters p awaiter inside)
      · intro q a inside'
        by_cases here : q = p
        · subst here
          simp at inside'
        · simp only [Function.update_of_ne here] at inside'
          exact keyed.awaiters q a inside'
  | call _ use m p key action' _ rooted plain called =>
      have keyed' := keyed.call rooted plain called
      obtain ⟨mutex, done, rfl⟩ := Option.map_eq_some_iff.1 called
      exact ⟨⟨regular.runtime, regular.setMutex done, keyed'⟩, regular.refl⟩
  | rootState sch m p root asked =>
      refine ⟨⟨regular.runtime, regular.mutexes, keyed.used, ?_, keyed.awaiters, keyed.waiters⟩,
        regular.refl⟩
      intro o member
      rcases List.mem_append.1 member with old | new
      · exact keyed.owners o old
      · rw [List.mem_singleton.1 new]
        exact caller_rooted asked
  | mutex m action mutex done plain =>
      exact ⟨⟨regular.runtime, regular.setMutex done, keyed.setMutex done plain⟩, regular.refl⟩

theorem regular_of_reachable (reachable : (system α ε).ReachableBy Chained s) : s.Regular := by
  have inductive_ : (system α ε).Inductive Chained Regular := by
    constructor
    · refine ⟨.init, fun _ => .init, ?_⟩
      constructor
      · exact fun u member => absurd member List.not_mem_nil
      · exact fun o member => absurd member List.not_mem_nil
      · exact fun p a inside => nomatch inside
      · exact fun m w older => absurd older (Nat.not_lt_zero w)
    · exact fun s e t _ regular allowed h => (regular.step allowed h).1
  exact inductive_.holds reachable

theorem Regular.stays (regular : s.Regular) (rooted : s.runtime.Rooted n root)
    (later : ((system α ε).after s).ReachableBy Chained t) : t.runtime.Rooted n root := by
  have inductive_ : ((system α ε).after s).Inductive Chained
      fun t => t.Regular ∧ t.runtime.Rooted n root := by
    refine ⟨⟨regular, rooted⟩, ?_⟩
    intro s e t _ known allowed h
    obtain ⟨regular', onward⟩ := known.1.step allowed h
    exact ⟨regular', known.2.onward onward⟩
  exact (inductive_.holds later).2

structure StableRoots (s : Locking α ε) : Prop where
  top : ∀ n, s.runtime.Started n →
    ∃ r, s.runtime.getRoot n = some r ∧ ∀ r', s.runtime.Descends n r' ↔ r' = r
  stays : ∀ n t, s.runtime.Started n → ((system α ε).after s).ReachableBy Chained t →
    t.runtime.getRoot n = s.runtime.getRoot n
  same : ∀ n n', s.runtime.Started n → s.runtime.Started n' →
    (s.runtime.getRoot n = s.runtime.getRoot n' ↔
      ∃ r, s.runtime.Descends n r ∧ s.runtime.Descends n' r)
  -- of a lock, a `try_lock`, an `unlock`, a guard or a hand-off, whenever it was
  used : ∀ u ∈ s.used, s.runtime.Started u.coroutine ∧ s.runtime.Descends u.coroutine u.key
  agree : ∀ u ∈ s.used, ∀ u' ∈ s.used,
    (u.key = u'.key ↔ ∃ r, s.runtime.Descends u.coroutine r ∧ s.runtime.Descends u'.coroutine r)
  nested : ∀ sch m kind p root, s.caller sch = some (p, root) →
    (s.mutexes m).lockSection = .free → (s.mutexes m).owner = some root →
    ∃ t, s.step (.lock sch m kind) = some t ∧ t.runtime = s.runtime ∧
      t.mutexes m = { (s.mutexes m).record (.locked root) with
        counter := (s.mutexes m).counter + 1 }
  waits : ∀ sch m kind p root t w, s.caller sch = some (p, root) →
    s.step (.lock sch m kind) = some t → (t.mutexes m).lockSection = .suspending w →
    ∃ r, (s.mutexes m).owner = some r ∧ ¬ s.runtime.Descends p r
  guard : ∀ sch t o, s.step (.awaitResume sch) = some t → o ∈ t.owners → o ∉ s.owners →
    { use := .lock, mutex := o.mutex, coroutine := o.coroutine, key := o.owner } ∈ s.used
  handOff : ∀ m t, s.step (.handOff m) = some t → ∃ w rest key,
    (s.mutexes m).waitAwakes = w :: rest ∧ (t.mutexes m).owner = some key ∧
      { use := .lock, mutex := m, coroutine := s.coroutines m w, key } ∈ s.used

theorem Regular.descends_iff (regular : s.Regular) (started : s.runtime.Started n) :
    ∃ r, s.runtime.getRoot n = some r ∧ ∀ r', s.runtime.Descends n r' ↔ r' = r := by
  have linked := Runtime.linked_of_reachable regular.runtime
  have sound := Runtime.sound_of_reachable regular.runtime
  obtain ⟨r, descends⟩ := linked.exists_descends started
  have root := linked.getRoot_of_descends sound started descends
  refine ⟨r, root, fun r' => ?_⟩
  rw [← linked.getRoot_iff sound started, root, Option.some.injEq, eq_comm]

theorem lock_nested (asked : s.caller sch = some (p, root))
    (free : (s.mutexes m).lockSection = .free) (owner : (s.mutexes m).owner = some root) :
    ∃ t, s.step (.lock sch m kind) = some t ∧ t.runtime = s.runtime ∧
      t.mutexes m = { (s.mutexes m).record (.locked root) with
        counter := (s.mutexes m).counter + 1 } := by
  obtain ⟨mutex, after⟩ : ∃ mutex, mutex = { (s.mutexes m).record (.locked root) with
    counter := (s.mutexes m).counter + 1 } := ⟨_, rfl⟩
  have granted : (s.mutexes m).step (.lock p root (kind == .timed)) = some mutex := by
    simp [Mutex.step, Mutex.lock, MutexImpl.tryLockLockless, free, owner, after, Mutex.record]
  have left : mutex.lockSection = .free := by
    rw [after]
    exact free
  refine ⟨{ (s.setMutex m mutex).recordUse .lock m p root with
    awaiters := Function.update s.awaiters p (some { mutex := m, root, kind }) }, ?_, rfl,
    (Function.update_self ..).trans after⟩
  simp [step, asked, Locking.lock, granted, left]

theorem Regular.waits (regular : s.Regular) {w : Nat} (asked : s.caller sch = some (p, root))
    (h : s.step (.lock sch m kind) = some t)
    (suspended : (t.mutexes m).lockSection = .suspending w) :
    ∃ r, (s.mutexes m).owner = some r ∧ ¬ s.runtime.Descends p r := by
  obtain ⟨started, top⟩ := caller_rooted asked
  obtain ⟨r', top', descends⟩ := regular.descends_iff started
  cases top.symm.trans top'
  obtain ⟨asked', same, lock⟩ := Option.bind_eq_some_iff.1 h
  cases asked.symm.trans same
  obtain ⟨⟨mutex, done, -⟩, locked⟩ := locked_of_lock lock
  cases locked with
  | granted owner =>
      have free : (s.mutexes m).lockSection = .free := (Mutex.lock_cases done).1
      simp only [Function.update_self] at suspended
      cases free.symm.trans suspended
  | suspended r runtime owner other parked =>
      exact ⟨r, owner, fun above => other ((descends r).1 above)⟩

theorem Regular.guard (regular : s.Regular) {o : UnlockOwner}
    (h : s.step (.awaitResume sch) = some t) (member : o ∈ t.owners) (new : o ∉ s.owners) :
    { use := .lock, mutex := o.mutex, coroutine := o.coroutine, key := o.owner } ∈ s.used := by
  obtain ⟨p, -, arrived⟩ := Option.bind_eq_some_iff.1 h
  obtain ⟨awaiter, inside, rfl⟩ := Option.map_eq_some_iff.1 arrived
  split at member
  · rcases List.mem_append.1 member with old | made
    · exact absurd old new
    · rw [List.mem_singleton.1 made]
      exact regular.keyed.awaiters p awaiter inside
  · exact absurd member new
  · exact absurd member new

theorem Regular.handOff (regular : s.Regular) (h : s.step (.handOff m) = some t) :
    ∃ w rest key, (s.mutexes m).waitAwakes = w :: rest ∧ (t.mutexes m).owner = some key ∧
      { use := .lock, mutex := m, coroutine := s.coroutines m w, key } ∈ s.used := by
  simp only [Locking.step] at h
  split at h
  · rename_i w rest queue
    obtain ⟨used, top⟩ := regular.waiter_root queue
    obtain ⟨root, known, called⟩ := Option.bind_eq_some_iff.1 h
    cases known.symm.trans top
    refine ⟨w, rest, _, queue, ?_, used⟩
    obtain ⟨mutex, done, rfl⟩ := Option.map_eq_some_iff.1 called
    have owner : mutex.owner = some ((s.mutexes m).waiters w).root := by
      cases Mutex.effect_of_step done with
      | offer => rfl
    simpa [recordUse, Locking.setMutex] using owner
  · cases h

theorem roots_stable (reachable : (system α ε).ReachableBy Chained s) : s.StableRoots := by
  have regular := regular_of_reachable reachable
  have keyed := regular.keyed
  have of_used : ∀ u ∈ s.used, ∀ r, s.runtime.Descends u.coroutine r ↔ r = u.key := by
    intro u member
    obtain ⟨started, root⟩ := keyed.used u member
    obtain ⟨r, root', descends⟩ := regular.descends_iff started
    cases root.symm.trans root'
    exact descends
  constructor
  · exact fun n started => regular.descends_iff started
  · intro n t started later
    obtain ⟨r, root, -⟩ := regular.descends_iff started
    rw [root]
    exact (regular.stays ⟨started, root⟩ later).root
  · intro n n' started started'
    obtain ⟨r, root, descends⟩ := regular.descends_iff started
    obtain ⟨r', root', descends'⟩ := regular.descends_iff started'
    rw [root, root', Option.some.injEq]
    constructor
    · rintro rfl
      exact ⟨r, (descends r).2 rfl, (descends' r).2 rfl⟩
    · rintro ⟨x, here, there⟩
      rw [← (descends x).1 here, ← (descends' x).1 there]
  · exact fun u member => ⟨(keyed.used u member).started, (of_used u member u.key).2 rfl⟩
  · intro u member u' member'
    constructor
    · intro same
      exact ⟨u.key, (of_used u member _).2 rfl, (of_used u' member' _).2 same⟩
    · rintro ⟨r, here, there⟩
      rw [← (of_used u member r).1 here, ← (of_used u' member' r).1 there]
  · exact fun sch m kind p root asked free owner => lock_nested asked free owner
  · exact fun sch m kind p root t w asked h suspended => regular.waits asked h suspended
  · exact fun sch t o h member new => regular.guard h member new
  · exact fun m t h => regular.handOff h

/-- A coroutine locks a mutex, and so does one that it awaits; another one has to wait for both. -/
def sharedMutex : List (LockingAction Unit Unit) :=
  [.run (.newCoroutine .unit), .run (.newCoroutine .unit), .run (.newCoroutine .unit),
    .run (.go 0 0), .run (.swap 0), .run (.resume 0), .lock 0 0 .guard, .awaitResume 0,
    .run (.body 0 (.transform 1)), .run (.body 0 .test), .run (.body 0 .suspend), .run (.swap 0),
    .run (.resume 0), .lock 0 0 .manual, .awaitResume 0, .run (.go 1 2), .run (.swap 1),
    .run (.resume 1), .lock 1 0 .guard, .mutex 0 .enqueue, .unlock 0 0,
    .release { mutex := 0, owner := 0, coroutine := 0 }, .handOff 0]

theorem roots_stable_sharedMutex :
    ∃ s : Locking Unit Unit, (system Unit Unit).ReachableBy Chained s ∧
      s.used.map UsedKey.coroutine = [0, 1, 2, 1, 0, 2] ∧
      s.used.map UsedKey.key = [0, 0, 2, 0, 0, 2] ∧ s.StableRoots := by
  obtain ⟨s, reachable, test⟩ := Transition.System.reachableBy_of_replay (system Unit Unit)
    Chained sharedMutex (fun s => s.used.map UsedKey.coroutine = [0, 1, 2, 1, 0, 2] ∧
      s.used.map UsedKey.key = [0, 0, 2, 0, 0, 2]) (by decide)
  simp only [decide_eq_true_eq] at test
  exact ⟨s, reachable, test.1, test.2, roots_stable reachable⟩

end Locking

end Librf
