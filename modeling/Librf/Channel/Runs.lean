import Librf.Channel.Delivery

/-!
# Every run of a channel

An action that an awaiter can take never faults and keeps the invariant, so the order of delivery
and the exactness of the wake-ups hold in every reachable state.
-/

namespace Librf.ChannelRun

variable {useOption : Bool} {α : Type*} {n : Nat} {vals : Nat → α} {s : ChannelRun useOption α}
  {stored : List Nat}

theorem new_ok (useOption : Bool) (vals : Nat → α) (fits : n < 2 ^ 32 - 1) :
    ∃ c, Channel.new useOption n vals = .ok c := by
  obtain ⟨q, made, -⟩ : ∃ q, RingQueue.new useOption 32 α n = .ok q ∧ q.Holds n [] :=
    RingQueue.new_holds fits
  exact ⟨_, by simp only [Channel.new, made, bind, Except.bind]; rfl⟩

theorem Coherent.init {c : Channel useOption α} (new : Channel.new useOption n vals = .ok c)
    (fits : n < 2 ^ 32 - 1) : Coherent n vals (system c).init [] := by
  obtain ⟨q, made, holds⟩ : ∃ q, RingQueue.new useOption 32 α n = .ok q ∧ q.Holds n [] :=
    RingQueue.new_holds fits
  simp only [Channel.new, made, bind, Except.bind, Except.ok.injEq] at new
  subst new
  constructor <;>
    simp [system, pairing, Pairing.waitingLeft, Pairing.waitingRight, Pairing.Paired, received,
      Channel.wokenReaders, Channel.wokenWriters, holds]

theorem Coherent.read_attempt (h : Coherent n vals s stored) {r : Nat} (fresh : r ∉ s.reads) :
    (stored = [] ∧ s.channel.writeAwakes = [] ∧
      s.channel.attemptRead r = .ok ⟨false, (), s.channel⟩) ∨
    ∃ w q kept, s.channel.attemptRead r = .ok ⟨true, (), (s.serveRead r (vals w) q).channel⟩ ∧
      Coherent n vals (s.serveRead r (vals w) q) kept := by
  cases first : stored ++ s.channel.writeAwakes with
  | nil =>
      obtain ⟨rfl, idle⟩ := List.append_eq_nil_iff.mp first
      exact Or.inl ⟨rfl, idle,
        Channel.attemptRead_of_refused (Channel.tryReadNolock_refused h.ring idle _)⟩
  | cons w rest =>
      obtain ⟨q, kept, attempt, holds, split, full⟩ :=
        Channel.tryReadNolock_accepts h.ring h.ring_full h.writer_suspended
          (fun w waiting => h.carried w (Or.inr waiting)) first (s.channel.readers r).value
      refine Or.inr ⟨w, q, kept, ?_, h.serveRead fresh first holds split full⟩
      simpa [ChannelRun.serveRead] using Channel.attemptRead_of_accepted attempt

theorem Coherent.write_attempt (h : Coherent n vals s stored) {w : Nat} (fresh : w ∉ s.writes) :
    (stored.length = n ∧ s.channel.readAwakes = [] ∧
      s.channel.attemptWrite w = .ok ⟨false, (), s.channel⟩) ∨
    ∃ q kept, s.channel.attemptWrite w = .ok ⟨true, (), (s.serveWrite w (vals w) q).channel⟩ ∧
      Coherent n vals (s.serveWrite w (vals w) q) kept := by
  have carried := h.carried w (Or.inl fresh)
  cases waiting : s.channel.readAwakes with
  | nil =>
      rcases Nat.lt_or_ge stored.length n with room | full
      · have idle : s.channel.writeAwakes = [] := by
          by_contra busy
          exact room.ne (h.ring_full busy)
        obtain ⟨q, attempt, holds⟩ := Channel.tryWriteNolock_store h.ring (by simpa using room)
          waiting (vals w)
        rw [← carried] at attempt
        refine Or.inr ⟨q, stored ++ [w], ?_, h.serveWrite fresh idle (by simpa using holds)
          (if_pos waiting).symm⟩
        simpa [ChannelRun.serveWrite, Channel.wakeReader, waiting] using
          Channel.attemptWrite_of_accepted attempt
      · have length : stored.length = n := le_antisymm (by simpa using h.ring.bounded) full
        exact Or.inl ⟨length, rfl, Channel.attemptWrite_of_refused
          (Channel.tryWriteNolock_refused h.ring (by simpa using length) waiting _)⟩
  | cons r rest =>
      have ahead : s.pairing.waitingLeft ≠ [] := by simp [← h.reads_waiting, waiting]
      obtain ⟨rfl, idle⟩ := List.append_eq_nil_iff.mp
        (h.writes_waiting.symm.trans (Pairing.waitingRight_eq_nil ahead))
      obtain ⟨q, attempt, holds⟩ := Channel.tryWriteNolock_wake h.ring waiting
        (h.reader_suspended r (by simp [waiting])) (vals w)
      rw [← carried] at attempt
      refine Or.inr ⟨q, [], ?_, h.serveWrite fresh idle holds (if_neg (by simp [waiting])).symm⟩
      simpa [ChannelRun.serveWrite] using Channel.attemptWrite_of_accepted attempt

theorem Coherent.resumed_reader (h : Coherent n vals s stored) {r : Nat}
    (enabled : s.enabled (.resumeRead r) = true) :
    s.results r = none ∧ r ∉ s.channel.readAwakes ∧ ∃ w, (s.channel.readers r).value = some (vals w) := by
  simp only [ChannelRun.enabled, Bool.and_eq_true, Bool.not_eq_true', Option.isNone_iff_eq_none,
    Bool.or_eq_true, Channel.contains_reader] at enabled
  obtain ⟨⟨closed, untaken⟩, resumable⟩ := enabled
  have awake : r ∉ s.channel.readAwakes := by
    intro waiting
    rcases resumable with unsuspended | notified
    · have suspended := (h.reader_suspended r waiting).2
      simp [unsuspended] at suspended
    · have distinct := h.reads_nodup.sublist h.queuedReads_accepted
      rw [h.readers_woken] at distinct
      exact List.disjoint_of_nodup_append distinct notified waiting
  obtain ⟨w, paired⟩ : ∃ w, s.pairing.Paired r w := by
    refine (Pairing.waiting_or_paired ((h.read_closed r).mp closed)).resolve_left fun waiting => ?_
    exact awake (h.reads_waiting ▸ waiting)
  refine ⟨untaken, awake, w, ?_⟩
  simpa [received, untaken] using h.delivered r w paired

theorem Coherent.resumed_writer (h : Coherent n vals s stored) {w : Nat}
    (enabled : s.enabled (.resumeWrite w) = true) : w ∉ s.channel.writeAwakes := by
  simp only [ChannelRun.enabled, Bool.and_eq_true, Channel.contains_writer] at enabled
  have distinct := h.writes_nodup.sublist h.queuedWrites_accepted
  rw [h.writers_woken] at distinct
  exact fun waiting => List.disjoint_of_nodup_append distinct enabled.2 waiting

theorem Coherent.perform (h : Coherent n vals s stored) {action : ChannelAction}
    (enabled : s.enabled action = true) :
    ∃ t kept, s.perform action = .ok t ∧ Coherent n vals t kept := by
  have unread : ∀ r, (s.channel.readers r).channel = true → r ∉ s.reads := by
    intro r set member
    simp [(h.read_closed r).mpr member] at set
  have unwritten : ∀ w, (s.channel.writers w).channel = true → w ∉ s.writes := by
    intro w set member
    simp [(h.write_closed w).mpr member] at set
  cases action with
  | tryRead r =>
      rcases h.read_attempt (unread r enabled) with ⟨_, _, refused⟩ | ⟨w, q, kept, served, after⟩
      · exact ⟨s, stored, by simp [ChannelRun.perform, refused, bind, Except.bind], h⟩
      · refine ⟨_, kept, ?_, after⟩
        simp [ChannelRun.perform, served, bind, Except.bind, ChannelRun.serveRead]
  | suspendRead r handler sch =>
      rcases h.read_attempt (unread r enabled) with ⟨rfl, idle, refused⟩ | ⟨w, q, kept, served, after⟩
      · refine ⟨_, [], ?_, h.queueRead handler sch (unread r enabled) idle⟩
        simp [ChannelRun.perform, Channel.suspendRead, refused, bind, Except.bind, ChannelRun.queueRead,
          Channel.setReader]
      · refine ⟨_, kept, ?_, after⟩
        simp [ChannelRun.perform, Channel.suspendRead, served, bind, Except.bind, ChannelRun.serveRead]
  | tryWrite w =>
      rcases h.write_attempt (unwritten w enabled) with ⟨_, _, refused⟩ | ⟨q, kept, served, after⟩
      · exact ⟨s, stored, by simp [ChannelRun.perform, refused, bind, Except.bind], h⟩
      · refine ⟨_, kept, ?_, after⟩
        simp [ChannelRun.perform, served, bind, Except.bind, ChannelRun.serveWrite]
  | suspendWrite w handler sch =>
      rcases h.write_attempt (unwritten w enabled) with ⟨full, idle, refused⟩ | ⟨q, kept, served, after⟩
      · refine ⟨_, stored, ?_, h.queueWrite handler sch (unwritten w enabled) idle full⟩
        simp [ChannelRun.perform, Channel.suspendWrite, refused, bind, Except.bind, ChannelRun.queueWrite,
          Channel.setWriter]
      · refine ⟨_, kept, ?_, after⟩
        simp [ChannelRun.perform, Channel.suspendWrite, served, bind, Except.bind, ChannelRun.serveWrite]
  | resumeRead r =>
      obtain ⟨untaken, awake, w, value⟩ := h.resumed_reader enabled
      refine ⟨_, stored, ?_, h.finishRead untaken awake⟩
      cases useOption <;>
        simp [ChannelRun.perform, Channel.resumeRead, value, RingQueue.takeSlot, bind, Except.bind,
          ChannelRun.finishRead]
  | resumeWrite w => exact ⟨_, stored, rfl, h.finishWrite (h.resumed_writer enabled)⟩

theorem coherent {c : Channel useOption α} (new : Channel.new useOption n vals = .ok c)
    (fits : n < 2 ^ 32 - 1) (reachable : (system c).Reachable s) :
    ∃ stored, Coherent n vals s stored := by
  refine Transition.System.Inductive.holds (I := fun s => ∃ stored, Coherent n vals s stored)
    ⟨⟨[], Coherent.init new fits⟩, ?_⟩ reachable
  rintro s action t _ ⟨stored, h⟩ _ step
  simp only [system, ChannelRun.step] at step
  split at step
  · rename_i enabled
    obtain ⟨t', kept, performed, after⟩ := h.perform enabled
    rw [performed] at step
    cases step
    exact ⟨kept, after⟩
  · cases step

/-! ## Delivery -/

/-- Every read gets the value of the write it is numbered with and nothing before that write; the
values of the writes that are ahead lie in the ring and with the suspended writers, in order. -/
structure DeliveredInOrder (n : Nat) (vals : Nat → α) (s : ChannelRun useOption α) : Prop where
  reads_once : s.reads.Nodup
  writes_once : s.writes.Nodup
  delivered : ∀ (k r w : Nat), s.reads[k]? = some r → s.writes[k]? = some w →
    s.received r = some (vals w)
  undelivered : ∀ r, (∀ (k w : Nat), s.reads[k]? = some r → s.writes[k]? ≠ some w) →
    s.received r = none
  retained : ∃ stored, s.writes.drop s.reads.length = stored ++ s.channel.writeAwakes ∧
    s.channel.values.Holds n (stored.map vals) ∧
    ∀ w ∈ s.channel.writeAwakes, (s.channel.writers w).value = some (vals w)
  unwritten : ∀ w, w ∉ s.writes → (s.channel.writers w).value = some (vals w)

theorem Coherent.deliveredInOrder (h : Coherent n vals s stored) : DeliveredInOrder n vals s where
  reads_once := h.reads_nodup
  writes_once := h.writes_nodup
  delivered k r w left right := h.delivered r w ⟨k, left, right⟩
  undelivered r unmatched := h.undelivered r fun w ⟨k, left, right⟩ => unmatched k w left right
  retained := ⟨stored, h.writes_waiting, h.ring, fun w waiting => h.carried w (Or.inr waiting)⟩
  unwritten w never := h.carried w (Or.inl never)

/-- Delivery is one FIFO over the whole history, and a refused attempt changes nothing. -/
theorem delivery_is_fifo (useOption : Bool) (n : Nat) (vals : Nat → α) (fits : n < 2 ^ 32 - 1) :
    (∃ c, Channel.new useOption n vals = .ok c ∧
      ∀ s, (system c).Reachable s → DeliveredInOrder n vals s) ∧
    (∀ (c c' : Channel useOption α) (val result : Option α),
      c.tryReadNolock val = .ok ⟨false, result, c'⟩ → result = val ∧ c' = c) ∧
    (∀ (c c' : Channel useOption α) (val result : Option α),
      c.tryWriteNolock val = .ok ⟨false, result, c'⟩ → result = val ∧ c' = c) := by
  obtain ⟨c, new⟩ := new_ok useOption vals fits
  refine ⟨⟨c, new, fun s reachable => ?_⟩, fun _ _ _ _ => Channel.tryReadNolock_unchanged,
    fun _ _ _ _ => Channel.tryWriteNolock_unchanged⟩
  obtain ⟨stored, h⟩ := coherent new fits reachable
  exact h.deliveredInOrder

theorem delivery_is_fifo_rendezvous :
    ∃ c, Channel.new true 0 (id : Nat → Nat) = .ok c ∧
      ∀ s, (system c).Reachable s → DeliveredInOrder 0 id s :=
  (delivery_is_fifo true 0 id (by decide)).1

/-! ## Suspension and wake-up -/

/-- A coroutine is suspended only when the channel leaves it no choice, and it is notified once, in
the order of suspension, when its value is supplied or taken. -/
structure WokenExactly (n : Nat) (s : ChannelRun useOption α) : Prop where
  reader_waits : s.channel.readAwakes ≠ [] →
    s.channel.values.size = 0 ∧ s.channel.writeAwakes = []
  writer_waits : s.channel.writeAwakes ≠ [] →
    s.channel.values.size = n ∧ s.channel.readAwakes = []
  bounded : s.channel.values.size ≤ n
  no_fault : ∀ action, s.enabled action = true → ∃ t, s.perform action = .ok t
  reads_once : s.queuedReads.Nodup
  writes_once : s.queuedWrites.Nodup
  readers_in_order : s.queuedReads = s.channel.wokenReaders ++ s.channel.readAwakes
  writers_in_order : s.queuedWrites = s.channel.wokenWriters ++ s.channel.writeAwakes
  reader_woken_iff : ∀ r ∈ s.queuedReads,
    r ∈ s.channel.wokenReaders ↔ (s.received r).isSome
  writer_woken_iff : ∀ w ∈ s.queuedWrites,
    w ∈ s.channel.wokenWriters ↔ (s.channel.writers w).value = none

theorem Coherent.reader_woken_iff (h : Coherent n vals s stored) {r : Nat}
    (queued : r ∈ s.queuedReads) : r ∈ s.channel.wokenReaders ↔ (s.received r).isSome := by
  have distinct := h.reads_nodup.sublist h.queuedReads_accepted
  rw [h.readers_woken] at distinct queued
  constructor
  · intro woken
    have awake : r ∉ s.pairing.waitingLeft := by
      rw [← h.reads_waiting]
      exact fun waiting => List.disjoint_of_nodup_append distinct woken waiting
    have accepted := h.queuedReads_accepted.subset (h.readers_woken ▸ queued)
    obtain ⟨w, paired⟩ := (Pairing.waiting_or_paired accepted).resolve_left awake
    simp [h.delivered r w paired]
  · intro has
    refine (List.mem_append.mp queued).resolve_right fun waiting => ?_
    rw [h.reads_waiting] at waiting
    have nothing := h.undelivered r fun w => Pairing.not_paired_of_waiting h.reads_nodup waiting
    simp [nothing] at has

theorem Coherent.writer_woken_iff (h : Coherent n vals s stored) {w : Nat}
    (queued : w ∈ s.queuedWrites) :
    w ∈ s.channel.wokenWriters ↔ (s.channel.writers w).value = none := by
  have distinct := h.writes_nodup.sublist h.queuedWrites_accepted
  rw [h.writers_woken] at distinct queued
  constructor
  · intro woken
    refine h.handed w (h.queuedWrites_accepted.subset (h.writers_woken ▸ queued)) fun waiting => ?_
    exact List.disjoint_of_nodup_append distinct woken waiting
  · intro gone
    refine (List.mem_append.mp queued).resolve_right fun waiting => ?_
    simp [h.carried w (Or.inr waiting)] at gone

theorem Coherent.wokenExactly (h : Coherent n vals s stored) : WokenExactly n s where
  reader_waits := by
    intro waiting
    rw [h.reads_waiting] at waiting
    obtain ⟨rfl, idle⟩ := List.append_eq_nil_iff.mp
      (h.writes_waiting.symm.trans (Pairing.waitingRight_eq_nil waiting))
    exact ⟨h.ring.size_eq, idle⟩
  writer_waits := by
    intro waiting
    have ahead : s.pairing.waitingRight ≠ [] := by simp [h.writes_waiting, waiting]
    exact ⟨by simpa [h.ring.size_eq] using h.ring_full waiting,
      h.reads_waiting.trans (Pairing.waitingLeft_eq_nil ahead)⟩
  bounded := h.ring.size_eq ▸ h.ring.bounded
  no_fault action enabled := by
    obtain ⟨t, _, performed, _⟩ := h.perform enabled
    exact ⟨t, performed⟩
  reads_once := h.reads_nodup.sublist h.queuedReads_accepted
  writes_once := h.writes_nodup.sublist h.queuedWrites_accepted
  readers_in_order := h.readers_woken
  writers_in_order := h.writers_woken
  reader_woken_iff _ queued := h.reader_woken_iff queued
  writer_woken_iff _ queued := h.writer_woken_iff queued

theorem waits_only_when_needed (useOption : Bool) (n : Nat) (vals : Nat → α)
    (fits : n < 2 ^ 32 - 1) :
    ∃ c, Channel.new useOption n vals = .ok c ∧
      ∀ s, (system c).Reachable s → WokenExactly n s := by
  obtain ⟨c, new⟩ := new_ok useOption vals fits
  refine ⟨c, new, fun s reachable => ?_⟩
  obtain ⟨stored, h⟩ := coherent new fits reachable
  exact h.wokenExactly

theorem waits_only_when_needed_rendezvous :
    ∃ c, Channel.new true 0 (id : Nat → Nat) = .ok c ∧
      ∀ s, (system c).Reachable s → WokenExactly 0 s :=
  waits_only_when_needed true 0 id (by decide)

end Librf.ChannelRun
