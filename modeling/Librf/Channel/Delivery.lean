import Librf.Channel.Attempts

/-!
# The order of delivery

The invariant ties the ring and the two queues to the whole history: the writes that no read has
been paired with lie in the ring and, behind them, in the queue of suspended writers; the reads
without a write are the suspended readers.
-/

namespace Librf

def Waiter.reader? : Waiter → Option Nat
  | .reader r => some r
  | .writer _ => none

def Waiter.writer? : Waiter → Option Nat
  | .reader _ => none
  | .writer w => some w

namespace Channel

variable {useOption : Bool} {α : Type*}

def wokenReaders (c : Channel useOption α) : List Nat := c.notified.filterMap Waiter.reader?

def wokenWriters (c : Channel useOption α) : List Nat := c.notified.filterMap Waiter.writer?

section Woken

variable (c : Channel useOption α) (x : α)

@[simp] theorem wokenReaders_wakeWriter : c.wakeWriter.wokenReaders = c.wokenReaders := by
  simp [wokenReaders, wakeWriter_notified, List.filterMap_append, Waiter.reader?,
    Function.comp_def]

@[simp] theorem wokenWriters_wakeWriter :
    c.wakeWriter.wokenWriters = c.wokenWriters ++ c.writeAwakes.head?.toList := by
  simp [wokenWriters, wakeWriter_notified, List.filterMap_append, Waiter.writer?,
    Function.comp_def]

@[simp] theorem wokenReaders_wakeReader :
    (c.wakeReader x).wokenReaders = c.wokenReaders ++ c.readAwakes.head?.toList := by
  simp [wokenReaders, wakeReader_notified, List.filterMap_append, Waiter.reader?,
    Function.comp_def]

@[simp] theorem wokenWriters_wakeReader : (c.wakeReader x).wokenWriters = c.wokenWriters := by
  simp [wokenWriters, wakeReader_notified, List.filterMap_append, Waiter.writer?,
    Function.comp_def]

theorem contains_reader {r : Nat} :
    c.notified.contains (.reader r) = true ↔ r ∈ c.wokenReaders := by
  simp only [List.contains_iff_mem, wokenReaders, List.mem_filterMap]
  constructor
  · exact fun member => ⟨_, member, rfl⟩
  · rintro ⟨_ | _, member, same⟩ <;> simp_all [Waiter.reader?]

theorem contains_writer {w : Nat} :
    c.notified.contains (.writer w) = true ↔ w ∈ c.wokenWriters := by
  simp only [List.contains_iff_mem, wokenWriters, List.mem_filterMap]
  constructor
  · exact fun member => ⟨_, member, rfl⟩
  · rintro ⟨_ | _, member, same⟩ <;> simp_all [Waiter.writer?]

end Woken

variable {c c' : Channel useOption α} {v : Option α}

theorem attemptRead_of_accepted {r : Nat}
    (accepted : c.tryReadNolock (c.readers r).value = .ok ⟨true, v, c'⟩) :
    c.attemptRead r =
      .ok ⟨true, (), c'.setReader r { c'.readers r with value := v, channel := false }⟩ := by
  simp [attemptRead, accepted, bind, Except.bind]

theorem attemptRead_of_refused {r : Nat}
    (refused : c.tryReadNolock (c.readers r).value = .ok ⟨false, (c.readers r).value, c⟩) :
    c.attemptRead r = .ok ⟨false, (), c⟩ := by
  simp [attemptRead, refused, bind, Except.bind, setReader]

theorem attemptWrite_of_accepted {w : Nat}
    (accepted : c.tryWriteNolock (c.writers w).value = .ok ⟨true, v, c'⟩) :
    c.attemptWrite w =
      .ok ⟨true, (), c'.setWriter w { c'.writers w with value := v, channel := false }⟩ := by
  simp [attemptWrite, accepted, bind, Except.bind]

theorem attemptWrite_of_refused {w : Nat}
    (refused : c.tryWriteNolock (c.writers w).value = .ok ⟨false, (c.writers w).value, c⟩) :
    c.attemptWrite w = .ok ⟨false, (), c⟩ := by
  simp [attemptWrite, refused, bind, Except.bind, setWriter]

end Channel

namespace ChannelRun

variable {useOption : Bool} {α : Type*}

/-! ## What a step leaves behind -/

def serveRead (s : ChannelRun useOption α) (r : Nat) (x : α) (q : RingQueue useOption 32 α) :
    ChannelRun useOption α :=
  { s with channel := (Channel.wakeWriter { s.channel with values := q }).setReader r
             { s.channel.readers r with value := some x, channel := false }
           reads := s.reads ++ [r] }

def queueRead (s : ChannelRun useOption α) (r handler sch : Nat) : ChannelRun useOption α :=
  { s with channel := { s.channel.setReader r
             { s.channel.readers r with
                 scheduler := some sch, coro := some handler, channel := false } with
               readAwakes := s.channel.readAwakes ++ [r] }
           reads := s.reads ++ [r]
           queuedReads := s.queuedReads ++ [r] }

def serveWrite (s : ChannelRun useOption α) (w : Nat) (x : α) (q : RingQueue useOption 32 α) :
    ChannelRun useOption α :=
  { s with channel := (Channel.wakeReader { s.channel with values := q } x).setWriter w
             { s.channel.writers w with value := none, channel := false }
           writes := s.writes ++ [w] }

def queueWrite (s : ChannelRun useOption α) (w handler sch : Nat) : ChannelRun useOption α :=
  { s with channel := { s.channel.setWriter w
             { s.channel.writers w with
                 scheduler := some sch, coro := some handler, channel := false } with
               writeAwakes := s.channel.writeAwakes ++ [w] }
           writes := s.writes ++ [w]
           queuedWrites := s.queuedWrites ++ [w] }

def finishRead (s : ChannelRun useOption α) (r : Nat) : ChannelRun useOption α :=
  { s with channel := s.channel.setReader r { s.channel.readers r with value := none, coro := none }
           results := Function.update s.results r (s.channel.readers r).value }

/-- `stored` are the writes whose values lie in the ring. -/
structure Coherent (n : Nat) (vals : Nat → α) (s : ChannelRun useOption α) (stored : List Nat) :
    Prop where
  ring : s.channel.values.Holds n (stored.map vals)
  reads_waiting : s.channel.readAwakes = s.pairing.waitingLeft
  writes_waiting : s.pairing.waitingRight = stored ++ s.channel.writeAwakes
  ring_full : s.channel.writeAwakes ≠ [] → stored.length = n
  reads_nodup : s.reads.Nodup
  writes_nodup : s.writes.Nodup
  read_closed : ∀ r, (s.channel.readers r).channel = false ↔ r ∈ s.reads
  write_closed : ∀ w, (s.channel.writers w).channel = false ↔ w ∈ s.writes
  reader_suspended : ∀ r ∈ s.channel.readAwakes, (s.channel.readers r).Suspended
  writer_suspended : ∀ w ∈ s.channel.writeAwakes, (s.channel.writers w).Suspended
  delivered : ∀ r w, s.pairing.Paired r w → s.received r = some (vals w)
  undelivered : ∀ r, (∀ w, ¬ s.pairing.Paired r w) → s.received r = none
  carried : ∀ w, w ∉ s.writes ∨ w ∈ s.channel.writeAwakes →
    (s.channel.writers w).value = some (vals w)
  handed : ∀ w ∈ s.writes, w ∉ s.channel.writeAwakes → (s.channel.writers w).value = none
  readers_woken : s.queuedReads = s.channel.wokenReaders ++ s.channel.readAwakes
  writers_woken : s.queuedWrites = s.channel.wokenWriters ++ s.channel.writeAwakes
  queuedReads_accepted : s.queuedReads.Sublist s.reads
  queuedWrites_accepted : s.queuedWrites.Sublist s.writes

variable {n : Nat} {vals : Nat → α} {s : ChannelRun useOption α} {stored : List Nat}

theorem mem_reads_of_paired {r w : Nat} (paired : s.pairing.Paired r w) :
    r ∈ s.reads ∧ w ∈ s.writes := by
  obtain ⟨k, left, right⟩ := paired
  exact ⟨List.mem_of_getElem? left, List.mem_of_getElem? right⟩

theorem Coherent.writeAwakes_subset (h : Coherent n vals s stored) {w : Nat}
    (waiting : w ∈ s.channel.writeAwakes) : w ∈ s.writes := by
  have here : w ∈ s.pairing.waitingRight := by
    rw [h.writes_waiting]
    exact List.mem_append_right _ waiting
  exact List.mem_of_mem_drop here

theorem Coherent.results_eq_none (h : Coherent n vals s stored) {r : Nat}
    (unpaired : ∀ w, ¬ s.pairing.Paired r w) : s.results r = none := by
  have nothing := h.undelivered r unpaired
  rw [received, Option.or_eq_none_iff] at nothing
  exact nothing.1

theorem not_paired_of_fresh {r : Nat} (fresh : r ∉ s.reads) (w : Nat) :
    ¬ s.pairing.Paired r w := fun paired => fresh (mem_reads_of_paired paired).1

theorem head_append_tail {β : Type*} (l : List β) : l.head?.toList ++ l.tail = l := by
  cases l <;> rfl

theorem nodup_append_fresh {β : Type*} {l : List β} {b : β} (nodup : l.Nodup) (fresh : b ∉ l) :
    (l ++ [b]).Nodup := by
  simpa using nodup.concat fresh

section ServeRead

variable (s) (r : Nat) (x : α) (q : RingQueue useOption 32 α)

@[simp] theorem serveRead_values : (s.serveRead r x q).channel.values = q := by
  simp [serveRead, Channel.setReader]

@[simp] theorem serveRead_readAwakes :
    (s.serveRead r x q).channel.readAwakes = s.channel.readAwakes := by
  simp [serveRead, Channel.setReader]

@[simp] theorem serveRead_writeAwakes :
    (s.serveRead r x q).channel.writeAwakes = s.channel.writeAwakes.tail := by
  simp [serveRead, Channel.setReader]

@[simp] theorem serveRead_readers_self : (s.serveRead r x q).channel.readers r =
    { s.channel.readers r with value := some x, channel := false } := by
  simp [serveRead, Channel.setReader]

theorem serveRead_readers_of_ne {r' : Nat} (other : r' ≠ r) :
    (s.serveRead r x q).channel.readers r' = s.channel.readers r' := by
  simp [serveRead, Channel.setReader, Function.update_of_ne other]

theorem serveRead_writers (w : Nat) : (s.serveRead r x q).channel.writers w =
    if s.channel.writeAwakes.head? = some w then { s.channel.writers w with value := none }
    else s.channel.writers w :=
  Channel.wakeWriter_writers _ w

@[simp] theorem serveRead_wokenReaders :
    (s.serveRead r x q).channel.wokenReaders = s.channel.wokenReaders :=
  Channel.wokenReaders_wakeWriter _

@[simp] theorem serveRead_wokenWriters : (s.serveRead r x q).channel.wokenWriters =
    s.channel.wokenWriters ++ s.channel.writeAwakes.head?.toList :=
  Channel.wokenWriters_wakeWriter _

end ServeRead

theorem Coherent.writeAwakes_nodup (h : Coherent n vals s stored) :
    s.channel.writeAwakes.Nodup := by
  have waiting := h.writes_nodup.sublist (List.drop_sublist s.reads.length s.writes)
  have split : (stored ++ s.channel.writeAwakes).Nodup := h.writes_waiting ▸ waiting
  exact split.of_append_right

theorem Coherent.serveRead (h : Coherent n vals s stored) {r w : Nat} {rest kept : List Nat}
    {q : RingQueue useOption 32 α} (fresh : r ∉ s.reads)
    (first : stored ++ s.channel.writeAwakes = w :: rest)
    (holds : q.Holds n (kept.map vals)) (split : rest = kept ++ s.channel.writeAwakes.tail)
    (full : s.channel.writeAwakes.tail ≠ [] → kept.length = n) :
    Coherent n vals (s.serveRead r (vals w) q) kept := by
  have pending : s.pairing.waitingRight = w :: rest := h.writes_waiting.trans first
  have ahead : s.pairing.waitingRight ≠ [] := by simp [pending]
  have pushed : (s.serveRead r (vals w) q).pairing = s.pairing.pushLeft r := rfl
  have nobody : s.channel.readAwakes = [] :=
    h.reads_waiting.trans (Pairing.waitingLeft_eq_nil ahead)
  have received_new : (s.serveRead r (vals w) q).received r = some (vals w) := by
    have unread : (s.serveRead r (vals w) q).results r = none :=
      h.results_eq_none (not_paired_of_fresh fresh)
    simp [received, unread]
  have received_other : ∀ r', r' ≠ r → (s.serveRead r (vals w) q).received r' = s.received r' := by
    intro r' other
    rw [received, serveRead_readers_of_ne _ _ _ _ other]
    rfl
  -- the suspended writer that moves up leaves the queue
  have moved : ∀ w', s.channel.writeAwakes.head? = some w' → w' ∉ s.channel.writeAwakes.tail := by
    intro w' head
    obtain ⟨others, queue⟩ := List.head?_eq_some_iff.mp head
    have distinct := h.writeAwakes_nodup
    rw [queue] at distinct ⊢
    exact (List.nodup_cons.mp distinct).1
  constructor
  case ring => simpa using holds
  case reads_waiting =>
    rw [pushed, Pairing.waitingLeft_pushLeft_of_ahead r ahead, serveRead_readAwakes, nobody]
  case writes_waiting =>
    rw [pushed, Pairing.waitingRight_pushLeft, pending, serveRead_writeAwakes]
    exact split
  case ring_full => simpa using full
  case reads_nodup => exact nodup_append_fresh h.reads_nodup fresh
  case writes_nodup => exact h.writes_nodup
  case read_closed =>
    intro r'
    rcases eq_or_ne r' r with rfl | other
    · simp [ChannelRun.serveRead, Channel.setReader]
    · rw [serveRead_readers_of_ne _ _ _ _ other, h.read_closed r']
      simp [ChannelRun.serveRead, other]
  case write_closed =>
    intro w'
    rw [serveRead_writers]
    split <;> exact h.write_closed w'
  case reader_suspended => simp [nobody]
  case writer_suspended =>
    intro w' waiting
    rw [serveRead_writers]
    rw [serveRead_writeAwakes] at waiting
    split <;> exact h.writer_suspended w' (List.mem_of_mem_tail waiting)
  case delivered =>
    intro r' w' paired
    rw [pushed, Pairing.paired_pushLeft] at paired
    rcases paired with old | ⟨rfl, head⟩
    · rw [received_other r' (by rintro rfl; exact not_paired_of_fresh fresh w' old)]
      exact h.delivered r' w' old
    · have same : w = w' := by simpa [pending] using head
      rw [received_new, same]
  case undelivered =>
    intro r' unpaired
    simp only [pushed, Pairing.paired_pushLeft, not_or, not_and] at unpaired
    rcases eq_or_ne r' r with rfl | other
    · exact absurd (by simp [pending]) ((unpaired w).2 rfl)
    · rw [received_other r' other]
      exact h.undelivered r' fun w' => (unpaired w').1
  case carried =>
    intro w' out
    rw [serveRead_writers]
    rw [serveRead_writeAwakes] at out
    rcases out with never | waiting
    · rw [if_neg fun head => never (h.writeAwakes_subset (List.mem_of_head? head))]
      exact h.carried w' (Or.inl never)
    · rw [if_neg fun head => moved w' head waiting]
      exact h.carried w' (Or.inr (List.mem_of_mem_tail waiting))
  case handed =>
    intro w' accepted gone
    rw [serveRead_writers]
    rw [serveRead_writeAwakes] at gone
    split
    · rfl
    · rename_i head
      refine h.handed w' accepted fun waiting => gone ?_
      cases queue : s.channel.writeAwakes with
      | nil => simp [queue] at waiting
      | cons first others =>
          rw [queue, List.mem_cons] at waiting
          exact waiting.resolve_left fun same => head (by simp [queue, same])
  case readers_woken =>
    rw [serveRead_wokenReaders, serveRead_readAwakes]
    exact h.readers_woken
  case writers_woken =>
    rw [serveRead_wokenWriters, serveRead_writeAwakes, List.append_assoc, head_append_tail]
    exact h.writers_woken
  case queuedReads_accepted =>
    exact h.queuedReads_accepted.trans (List.sublist_append_left _ _)
  case queuedWrites_accepted => exact h.queuedWrites_accepted

section ServeWrite

variable (s) (w : Nat) (x : α) (q : RingQueue useOption 32 α)

@[simp] theorem serveWrite_values : (s.serveWrite w x q).channel.values = q := by
  simp [serveWrite, Channel.setWriter]

@[simp] theorem serveWrite_writeAwakes :
    (s.serveWrite w x q).channel.writeAwakes = s.channel.writeAwakes := by
  simp [serveWrite, Channel.setWriter]

@[simp] theorem serveWrite_readAwakes :
    (s.serveWrite w x q).channel.readAwakes = s.channel.readAwakes.tail := by
  simp [serveWrite, Channel.setWriter]

@[simp] theorem serveWrite_writers_self : (s.serveWrite w x q).channel.writers w =
    { s.channel.writers w with value := none, channel := false } := by
  simp [serveWrite, Channel.setWriter]

theorem serveWrite_writers_of_ne {w' : Nat} (other : w' ≠ w) :
    (s.serveWrite w x q).channel.writers w' = s.channel.writers w' := by
  simp [serveWrite, Channel.setWriter, Function.update_of_ne other]

theorem serveWrite_readers (r : Nat) : (s.serveWrite w x q).channel.readers r =
    if s.channel.readAwakes.head? = some r then { s.channel.readers r with value := some x }
    else s.channel.readers r :=
  Channel.wakeReader_readers _ x r

@[simp] theorem serveWrite_wokenReaders : (s.serveWrite w x q).channel.wokenReaders =
    s.channel.wokenReaders ++ s.channel.readAwakes.head?.toList :=
  Channel.wokenReaders_wakeReader _ x

@[simp] theorem serveWrite_wokenWriters :
    (s.serveWrite w x q).channel.wokenWriters = s.channel.wokenWriters :=
  Channel.wokenWriters_wakeReader _ x

end ServeWrite

theorem Coherent.serveWrite (h : Coherent n vals s stored) {w : Nat} {kept : List Nat}
    {q : RingQueue useOption 32 α} (fresh : w ∉ s.writes) (idle : s.channel.writeAwakes = [])
    (holds : q.Holds n (kept.map vals))
    (split : kept = if s.channel.readAwakes = [] then stored ++ [w] else []) :
    Coherent n vals (s.serveWrite w (vals w) q) kept := by
  have pushed : (s.serveWrite w (vals w) q).pairing = s.pairing.pushRight w := rfl
  have unpaired_head : ∀ r', s.channel.readAwakes.head? = some r' →
      ∀ w', ¬ s.pairing.Paired r' w' := by
    intro r' head w'
    apply Pairing.not_paired_of_waiting h.reads_nodup ?_
    rw [← h.reads_waiting]
    exact List.mem_of_head? head
  have received_head : ∀ r', s.channel.readAwakes.head? = some r' →
      (s.serveWrite w (vals w) q).received r' = some (vals w) := by
    intro r' head
    have unread : (s.serveWrite w (vals w) q).results r' = none :=
      h.results_eq_none (unpaired_head r' head)
    simp [received, unread, serveWrite_readers, head]
  have received_other : ∀ r', s.channel.readAwakes.head? ≠ some r' →
      (s.serveWrite w (vals w) q).received r' = s.received r' := by
    intro r' other
    rw [received, serveWrite_readers, if_neg other]
    rfl
  constructor
  case ring => simpa using holds
  case reads_waiting =>
    rw [pushed, Pairing.waitingLeft_pushRight, serveWrite_readAwakes, h.reads_waiting]
  case writes_waiting =>
    rw [pushed, serveWrite_writeAwakes, idle, List.append_nil, split]
    split
    · rename_i nobody
      rw [Pairing.waitingRight_pushRight w (h.reads_waiting ▸ nobody), h.writes_waiting, idle,
        List.append_nil]
    · rename_i somebody
      exact Pairing.waitingRight_pushRight_of_ahead w (h.reads_waiting ▸ somebody)
  case ring_full => simp [idle]
  case reads_nodup => exact h.reads_nodup
  case writes_nodup => exact nodup_append_fresh h.writes_nodup fresh
  case read_closed =>
    intro r'
    rw [serveWrite_readers]
    split <;> exact h.read_closed r'
  case write_closed =>
    intro w'
    rcases eq_or_ne w' w with rfl | other
    · simp [ChannelRun.serveWrite, Channel.setWriter]
    · rw [serveWrite_writers_of_ne _ _ _ _ other, h.write_closed w']
      simp [ChannelRun.serveWrite, other]
  case reader_suspended =>
    intro r' waiting
    rw [serveWrite_readers]
    rw [serveWrite_readAwakes] at waiting
    split <;> exact h.reader_suspended r' (List.mem_of_mem_tail waiting)
  case writer_suspended => simp [idle]
  case delivered =>
    intro r' w' paired
    rw [pushed, Pairing.paired_pushRight, ← h.reads_waiting] at paired
    rcases paired with old | ⟨rfl, head⟩
    · rw [received_other r' fun head => unpaired_head r' head w' old]
      exact h.delivered r' w' old
    · exact received_head r' head
  case undelivered =>
    intro r' unpaired
    simp only [pushed, Pairing.paired_pushRight, not_or, not_and, ← h.reads_waiting] at unpaired
    rw [received_other r' ((unpaired w).2 rfl)]
    exact h.undelivered r' fun w' => (unpaired w').1
  case carried =>
    intro w' out
    have never : w' ∉ s.writes ++ [w] := by
      rw [serveWrite_writeAwakes, idle] at out
      exact out.resolve_right List.not_mem_nil
    rw [List.mem_append, List.mem_singleton, not_or] at never
    rw [serveWrite_writers_of_ne _ _ _ _ never.2]
    exact h.carried w' (Or.inl never.1)
  case handed =>
    intro w' accepted _
    rcases eq_or_ne w' w with rfl | other
    · simp
    · rw [serveWrite_writers_of_ne _ _ _ _ other]
      have before : w' ∈ s.writes := by simpa [ChannelRun.serveWrite, other] using accepted
      exact h.handed w' before (by simp [idle])
  case readers_woken =>
    rw [serveWrite_wokenReaders, serveWrite_readAwakes, List.append_assoc, head_append_tail]
    exact h.readers_woken
  case writers_woken =>
    rw [serveWrite_wokenWriters, serveWrite_writeAwakes]
    exact h.writers_woken
  case queuedReads_accepted => exact h.queuedReads_accepted
  case queuedWrites_accepted =>
    exact h.queuedWrites_accepted.trans (List.sublist_append_left _ _)

theorem queueRead_readers_self (r handler sch : Nat) :
    (s.queueRead r handler sch).channel.readers r =
      { s.channel.readers r with scheduler := some sch, coro := some handler, channel := false } :=
  Function.update_self _ _ _

theorem queueRead_readers_of_ne {r r' : Nat} (handler sch : Nat) (other : r' ≠ r) :
    (s.queueRead r handler sch).channel.readers r' = s.channel.readers r' :=
  Function.update_of_ne other _ _

theorem queueWrite_writers_self (w handler sch : Nat) :
    (s.queueWrite w handler sch).channel.writers w =
      { s.channel.writers w with scheduler := some sch, coro := some handler, channel := false } :=
  Function.update_self _ _ _

theorem queueWrite_writers_of_ne {w w' : Nat} (handler sch : Nat) (other : w' ≠ w) :
    (s.queueWrite w handler sch).channel.writers w' = s.channel.writers w' :=
  Function.update_of_ne other _ _

theorem Coherent.queueRead (h : Coherent n vals s []) {r : Nat} (handler sch : Nat)
    (fresh : r ∉ s.reads) (idle : s.channel.writeAwakes = []) :
    Coherent n vals (s.queueRead r handler sch) [] := by
  have pushed : (s.queueRead r handler sch).pairing = s.pairing.pushLeft r := rfl
  have level : s.pairing.waitingRight = [] := by simp [h.writes_waiting, idle]
  have received_same : ∀ r', (s.queueRead r handler sch).received r' = s.received r' := by
    intro r'
    rcases eq_or_ne r' r with rfl | other
    · rw [received, queueRead_readers_self]
      rfl
    · rw [received, queueRead_readers_of_ne _ _ other]
      rfl
  have paired_same : ∀ r' w', (s.pairing.pushLeft r).Paired r' w' ↔ s.pairing.Paired r' w' := by
    intro r' w'
    simp [Pairing.paired_pushLeft, level]
  exact { h with
    reads_waiting := by
      rw [pushed, Pairing.waitingLeft_pushLeft r level, ← h.reads_waiting]
      rfl
    writes_waiting := by
      rw [pushed, Pairing.waitingRight_pushLeft, level]
      exact idle.symm
    reads_nodup := nodup_append_fresh h.reads_nodup fresh
    read_closed := by
      intro r'
      rcases eq_or_ne r' r with rfl | other
      · simp [ChannelRun.queueRead, Channel.setReader]
      · rw [queueRead_readers_of_ne _ _ other, h.read_closed r']
        simp [ChannelRun.queueRead, other]
    reader_suspended := by
      intro r' waiting
      rcases eq_or_ne r' r with rfl | other
      · simp [queueRead_readers_self, Awaiter.Suspended]
      · rw [queueRead_readers_of_ne _ _ other]
        exact h.reader_suspended r' (by simpa [ChannelRun.queueRead, other] using waiting)
    delivered := by
      intro r' w' paired
      rw [received_same]
      exact h.delivered r' w' ((paired_same r' w').mp paired)
    undelivered := by
      intro r' unpaired
      rw [received_same]
      exact h.undelivered r' fun w' paired => unpaired w' ((paired_same r' w').mpr paired)
    readers_woken := by
      change s.queuedReads ++ [r] = s.channel.wokenReaders ++ (s.channel.readAwakes ++ [r])
      rw [h.readers_woken, List.append_assoc]
    queuedReads_accepted := h.queuedReads_accepted.append (List.Sublist.refl [r]) }

theorem Coherent.queueWrite (h : Coherent n vals s stored) {w : Nat} (handler sch : Nat)
    (fresh : w ∉ s.writes) (idle : s.channel.readAwakes = []) (full : stored.length = n) :
    Coherent n vals (s.queueWrite w handler sch) stored := by
  have pushed : (s.queueWrite w handler sch).pairing = s.pairing.pushRight w := rfl
  have level : s.pairing.waitingLeft = [] := h.reads_waiting ▸ idle
  have paired_same : ∀ r' w', (s.pairing.pushRight w).Paired r' w' ↔ s.pairing.Paired r' w' := by
    intro r' w'
    simp [Pairing.paired_pushRight, level]
  exact { h with
    reads_waiting := by
      rw [pushed, Pairing.waitingLeft_pushRight, level]
      exact idle
    writes_waiting := by
      rw [pushed, Pairing.waitingRight_pushRight w level, h.writes_waiting, List.append_assoc]
      rfl
    ring_full := fun _ => full
    writes_nodup := nodup_append_fresh h.writes_nodup fresh
    write_closed := by
      intro w'
      rcases eq_or_ne w' w with rfl | other
      · simp [ChannelRun.queueWrite, Channel.setWriter]
      · rw [queueWrite_writers_of_ne _ _ other, h.write_closed w']
        simp [ChannelRun.queueWrite, other]
    writer_suspended := by
      intro w' waiting
      rcases eq_or_ne w' w with rfl | other
      · simp [queueWrite_writers_self, Awaiter.Suspended]
      · rw [queueWrite_writers_of_ne _ _ other]
        exact h.writer_suspended w' (by simpa [ChannelRun.queueWrite, other] using waiting)
    delivered := fun r' w' paired => h.delivered r' w' ((paired_same r' w').mp paired)
    undelivered :=
      fun r' unpaired => h.undelivered r' fun w' paired =>
        unpaired w' ((paired_same r' w').mpr paired)
    carried := by
      intro w' out
      rcases eq_or_ne w' w with rfl | other
      · rw [queueWrite_writers_self]
        exact h.carried w' (Or.inl fresh)
      · rw [queueWrite_writers_of_ne _ _ other]
        exact h.carried w' (by simpa [ChannelRun.queueWrite, other] using out)
    handed := by
      intro w' accepted gone
      have other : w' ≠ w := by
        rintro rfl
        exact gone (by simp [ChannelRun.queueWrite])
      rw [queueWrite_writers_of_ne _ _ other]
      exact h.handed w' (by simpa [ChannelRun.queueWrite, other] using accepted)
        (by simpa [ChannelRun.queueWrite, other] using gone)
    writers_woken := by
      change s.queuedWrites ++ [w] = s.channel.wokenWriters ++ (s.channel.writeAwakes ++ [w])
      rw [h.writers_woken, List.append_assoc]
    queuedWrites_accepted := h.queuedWrites_accepted.append (List.Sublist.refl [w]) }

theorem Coherent.finishRead (h : Coherent n vals s stored) {r : Nat} (untaken : s.results r = none)
    (awake : r ∉ s.channel.readAwakes) : Coherent n vals (s.finishRead r) stored := by
  have readers_of_ne : ∀ r', r' ≠ r →
      (s.finishRead r).channel.readers r' = s.channel.readers r' :=
    fun r' other => Function.update_of_ne other _ _
  have readers_self : (s.finishRead r).channel.readers r =
      { s.channel.readers r with value := none, coro := none } := Function.update_self _ _ _
  have received_same : ∀ r', (s.finishRead r).received r' = s.received r' := by
    intro r'
    rcases eq_or_ne r' r with rfl | other
    · simp [received, ChannelRun.finishRead, Channel.setReader, untaken]
    · rw [received, readers_of_ne r' other]
      simp [received, ChannelRun.finishRead, Function.update_of_ne other]
  exact { h with
    read_closed := by
      intro r'
      rcases eq_or_ne r' r with rfl | other
      · rw [readers_self]
        exact h.read_closed r'
      · rw [readers_of_ne r' other]
        exact h.read_closed r'
    reader_suspended := by
      intro r' waiting
      rw [readers_of_ne r' (by rintro rfl; exact awake waiting)]
      exact h.reader_suspended r' waiting
    delivered := fun r' w' paired => (received_same r').trans (h.delivered r' w' paired)
    undelivered :=
      fun r' unpaired => (received_same r').trans (h.undelivered r' unpaired) }

theorem Coherent.finishWrite (h : Coherent n vals s stored) {w : Nat}
    (awake : w ∉ s.channel.writeAwakes) :
    Coherent n vals { s with channel := s.channel.resumeWrite w } stored := by
  have writers_of_ne : ∀ w', w' ≠ w →
      (s.channel.resumeWrite w).writers w' = s.channel.writers w' :=
    fun w' other => Function.update_of_ne other _ _
  have writers_self : (s.channel.resumeWrite w).writers w =
      { s.channel.writers w with coro := none } := Function.update_self _ _ _
  have channel_same : ∀ w', ((s.channel.resumeWrite w).writers w').channel =
      (s.channel.writers w').channel := by
    intro w'
    rcases eq_or_ne w' w with rfl | other
    · rw [writers_self]
    · rw [writers_of_ne w' other]
  have value_same : ∀ w', ((s.channel.resumeWrite w).writers w').value =
      (s.channel.writers w').value := by
    intro w'
    rcases eq_or_ne w' w with rfl | other
    · rw [writers_self]
    · rw [writers_of_ne w' other]
  exact { h with
    write_closed := by
      intro w'
      rw [channel_same]
      exact h.write_closed w'
    writer_suspended := by
      intro w' waiting
      rw [writers_of_ne w' (by rintro rfl; exact awake waiting)]
      exact h.writer_suspended w' waiting
    carried := fun w' out => (value_same w').trans (h.carried w' out)
    handed := fun w' accepted gone => (value_same w').trans (h.handed w' accepted gone) }

end ChannelRun

end Librf
