/-
# `accounting.py`: the drain loop

`_drain_loop` waits for a wake-up or a timeout and flushes; `stop()` ends it and flushes once more.
A flush takes the whole buffer as one batch, and while the batch is being written `enqueue` goes on.
The loop and the owner that calls `start()` and `stop()` are run side by side, between their awaits
(`DrainState.step`).

Every record is somewhere: `DrainState.Conserved` says where, and that nothing is counted twice.
-/
import Librouter.Accounting
import Librouter.Foundations.Runs

namespace Librouter

/-! ## 1. The loop and its owner -/

/-- Where the task `_drain_loop` stands. -/
inductive DrainPc
  /-- at the test of the `while` -/
  | top
  /-- in `asyncio.wait_for(self._wakeup.wait(), ...)` -/
  | waiting
  /-- in the `write_batch` of a flush in the loop -/
  | flushing
  /-- in the `write_batch` of the flush after the loop -/
  | lastFlushing
  | done
deriving DecidableEq

/-- Where the owner stands: in neither `start()` nor `stop()`, or in an await of `stop()`. -/
inductive OwnerPc
  | idle
  /-- in `await self._task` -/
  | joining
  /-- in the `write_batch` of the final flush -/
  | flushing
deriving DecidableEq

/-- The two that flush. -/
inductive Flusher
  | loop
  | owner
deriving DecidableEq

/-- An `AccountingQueue` with its task, its owner, and what became of the records. -/
structure DrainState where
  queue : AccountingQueue
  stopSet : Bool := false
  task : Option DrainPc := none
  owner : OwnerPc := .idle
  /-- the local `batch` of a flush in progress -/
  batch : Flusher → List AttemptRecord := fun _ => []
  /-- what `ACCOUNTING_DROPPED` was incremented by -/
  accountingDropped : ℕ := 0
  /-- history: the arguments of `enqueue` -/
  enqueued : List AttemptRecord := []
  /-- history: the records that went for lack of room -/
  evicted : List AttemptRecord := []
  /-- history: the batches, in the order they were taken -/
  batches : List (List AttemptRecord) := []
  /-- history: the records of the batches whose write returned -/
  written : List AttemptRecord := []
  /-- history: the records of the batches whose write raised -/
  lost : List AttemptRecord := []

/-- What happens to the queue. -/
inductive DrainEvent
  | enqueue (rec : AttemptRecord)
  | start
  | stop
  /-- the test of the `while` -/
  | check
  /-- the wait is over: a wake-up, or the timeout -/
  | wake
  /-- `await self._task` returns -/
  | joined
  /-- a `write_batch` returns, or raises -/
  | settled (who : Flusher) (ok : Bool)

/-- The records that `enqueue` drops. -/
def AccountingQueue.evicts (q : AccountingQueue) : List AttemptRecord :=
  if q.capacity ≤ q.buffer.length then q.buffer.take 1 else []

namespace DrainState

variable (s : DrainState)

/-- The records of the batches that are being written. -/
def inFlight : List AttemptRecord := s.batch .loop ++ s.batch .owner

/-- `enqueue`. -/
def enqueue (rec : AttemptRecord) : DrainState :=
  { s with
    queue := s.queue.enqueue rec
    enqueued := s.enqueued ++ [rec]
    evicted := s.evicted ++ s.queue.evicts }

/-- `_flush`, up to the `write_batch`. -/
def take (who : Flusher) : DrainState :=
  { s with
    queue := { s.queue with buffer := [] }
    batch := Function.update s.batch who s.queue.buffer
    batches := s.batches ++ [s.queue.buffer] }

/-- `_flush`, after the `write_batch`. -/
def settle (who : Flusher) (ok : Bool) : DrainState :=
  if ok then
    { s with
      batch := Function.update s.batch who []
      written := s.written ++ s.batch who }
  else
    { s with
      queue := { s.queue with droppedTotal := s.queue.droppedTotal + (s.batch who).length }
      batch := Function.update s.batch who []
      accountingDropped := s.accountingDropped + (s.batch who).length
      lost := s.lost ++ s.batch who }

/-- `_flush` in the loop, or after it: an empty buffer is not written. -/
def flushTask (writing after : DrainPc) : DrainState :=
  if s.queue.buffer = [] then { s with task := some after }
  else { s.take .loop with task := some writing }

/-- The final flush of `stop()`. -/
def flushOwner : DrainState :=
  if s.queue.buffer = [] then { s with owner := .idle }
  else { s.take .owner with owner := .flushing }

/-- `start()`. -/
def begin : DrainState :=
  match s.task with
  | none => { s with stopSet := false, task := some .top }
  | some _ => s

/-- `self._stop.set()` and `self._wakeup.set()`. -/
def setStop : DrainState := { s with stopSet := true, queue := { s.queue with wakeup := true } }

/-- `self._wakeup.clear()`. -/
def clearWakeup : DrainState := { s with queue := { s.queue with wakeup := false } }

/-- `stop()`, up to its first await. -/
def stop : DrainState :=
  match s.task with
  | none => s.setStop.flushOwner
  | some _ => { s.setStop with owner := .joining }

/-- One event. -/
def step (s : DrainState) : DrainEvent → Option DrainState
  | .enqueue rec => some (s.enqueue rec)
  | .start => if s.owner = .idle then some s.begin else none
  | .stop => if s.owner = .idle then some s.stop else none
  | .check =>
    if s.task = some .top then
      some (if s.stopSet then s.flushTask .lastFlushing .done else { s with task := some .waiting })
    else none
  | .wake =>
    if s.task = some .waiting then some (s.clearWakeup.flushTask .flushing .top) else none
  | .joined =>
    if s.owner = .joining ∧ s.task = some .done then some { s with task := none }.flushOwner
    else none
  | .settled .loop ok =>
    match s.task with
    | some .flushing => some { s.settle .loop ok with task := some .top }
    | some .lastFlushing => some { s.settle .loop ok with task := some .done }
    | _ => none
  | .settled .owner ok =>
    if s.owner = .flushing then some { s.settle .owner ok with owner := .idle } else none

end DrainState

/-- `AccountingQueue(...)`. -/
def DrainState.init (capacity flushSize : ℕ) : DrainState :=
  { queue := { capacity := capacity, flushSize := flushSize } }

/-! ## 2. Where every record is -/

/-- Making room drops nothing, or the oldest record. -/
theorem AccountingQueue.evicts_cases (q : AccountingQueue) :
    q.evicts = [] ∧ q.makeRoom = q ∨ ∃ oldest, q.evicts = [oldest] ∧
      q.buffer = oldest :: q.makeRoom.buffer ∧ q.makeRoom.droppedTotal = q.droppedTotal + 1 := by
  unfold evicts makeRoom
  cases hbuffer : q.buffer with
  | nil => simp
  | cons oldest rest =>
    split
    · exact Or.inr ⟨oldest, rfl, rfl, rfl⟩
    · exact Or.inl ⟨rfl, rfl⟩

theorem AccountingQueue.evicts_append (q : AccountingQueue) :
    q.evicts ++ q.makeRoom.buffer = q.buffer := by
  rcases q.evicts_cases with ⟨hnone, hroom⟩ | ⟨oldest, hsome, hbuffer, -⟩
  · rw [hnone, hroom, List.nil_append]
  · rw [hsome, hbuffer, List.singleton_append]

theorem AccountingQueue.droppedTotal_makeRoom (q : AccountingQueue) :
    q.makeRoom.droppedTotal = q.droppedTotal + q.evicts.length := by
  rcases q.evicts_cases with ⟨hnone, hroom⟩ | ⟨oldest, hsome, -, hdropped⟩
  · rw [hnone, hroom, List.length_nil, Nat.add_zero]
  · rw [hsome, hdropped, List.length_singleton]

@[simp] theorem AccountingQueue.capacity_makeRoom (q : AccountingQueue) :
    q.makeRoom.capacity = q.capacity := by
  unfold makeRoom
  split
  · split <;> rfl
  · rfl

/-- There is room for one more record, unless there is never any. -/
theorem AccountingQueue.length_makeRoom_lt (q : AccountingQueue) (hcap : 1 ≤ q.capacity)
    (h : q.buffer.length ≤ q.capacity) : q.makeRoom.buffer.length < q.capacity := by
  unfold makeRoom
  split
  · rename_i oldest rest hbuffer
    rw [hbuffer, List.length_cons] at h
    split
    · exact h
    · rename_i hroom
      exact not_le.mp hroom
  · rename_i hbuffer
    rw [hbuffer]
    exact hcap

namespace DrainState

variable {s s' : DrainState}

/-- **Every record is in one place, and is counted there once.** -/
structure Conserved (s : DrainState) : Prop where
  accounted : (s.enqueued : Multiset AttemptRecord) =
    s.written + s.lost + s.evicted + s.inFlight + s.queue.buffer
  dropped : s.queue.droppedTotal = s.lost.length + s.evicted.length
  /-- the batches and the buffer keep the order of `enqueue` -/
  ordered : (s.batches.flatten ++ s.queue.buffer).Sublist s.enqueued
  bounded : s.queue.buffer.length ≤ s.queue.capacity

/-- Who is not in a flush has no batch. -/
structure Quiet (s : DrainState) : Prop where
  loop : s.task ≠ some .flushing → s.task ≠ some .lastFlushing → s.batch .loop = []
  owner : s.owner ≠ .flushing → s.batch .owner = []

theorem conserved_init (capacity flushSize : ℕ) : (init capacity flushSize).Conserved :=
  ⟨rfl, rfl, List.Sublist.refl [], Nat.zero_le _⟩

/-- `enqueue` puts the record into the buffer, and at most the oldest one out of it. -/
theorem Conserved.enqueue (h : s.Conserved) (hcap : 1 ≤ s.queue.capacity) (rec : AttemptRecord) :
    (s.enqueue rec).Conserved := by
  have hroom := s.queue.evicts_append
  refine ⟨?_, ?_, ?_, ?_⟩
  · have hall := h.accounted
    rw [← hroom, ← Multiset.coe_add] at hall
    show ((s.enqueued ++ [rec] : List AttemptRecord) : Multiset AttemptRecord) =
      s.written + s.lost + ↑(s.evicted ++ s.queue.evicts) + s.inFlight +
        ↑(s.queue.makeRoom.buffer ++ [rec])
    rw [← Multiset.coe_add, ← Multiset.coe_add, ← Multiset.coe_add, hall]
    abel
  · show s.queue.makeRoom.droppedTotal = s.lost.length + (s.evicted ++ s.queue.evicts).length
    rw [s.queue.droppedTotal_makeRoom, h.dropped, List.length_append, Nat.add_assoc]
  · show (s.batches.flatten ++ (s.queue.makeRoom.buffer ++ [rec])).Sublist (s.enqueued ++ [rec])
    have hkept : s.queue.makeRoom.buffer.Sublist s.queue.buffer := by
      rw [← hroom]
      exact List.sublist_append_right _ _
    rw [← List.append_assoc]
    exact (((List.Sublist.refl _).append hkept).trans h.ordered).append (List.Sublist.refl _)
  · show (s.queue.makeRoom.buffer ++ [rec]).length ≤ s.queue.makeRoom.capacity
    have hlt := s.queue.length_makeRoom_lt hcap h.bounded
    rw [List.length_append, List.length_singleton, s.queue.capacity_makeRoom]
    exact hlt

/-- A flush that begins has the buffer as its batch. -/
theorem Conserved.take (h : s.Conserved) {who : Flusher} (hnone : s.batch who = []) :
    (s.take who).Conserved := by
  refine ⟨?_, h.dropped, ?_, Nat.zero_le _⟩
  · have hflight : ((s.take who).inFlight : Multiset AttemptRecord) =
        s.inFlight + s.queue.buffer := by
      cases who
      · simp only [inFlight, DrainState.take, Function.update_self, hnone, List.nil_append]
        rw [Function.update_of_ne (by decide), ← Multiset.coe_add, add_comm]
      · simp only [inFlight, DrainState.take, Function.update_self, hnone, List.append_nil]
        rw [Function.update_of_ne (by decide), ← Multiset.coe_add]
    show (s.enqueued : Multiset AttemptRecord) =
      s.written + s.lost + s.evicted + (s.take who).inFlight + ([] : List AttemptRecord)
    rw [hflight, h.accounted, Multiset.coe_nil, add_zero, ← add_assoc]
  · show ((s.batches ++ [s.queue.buffer]).flatten ++ []).Sublist s.enqueued
    rw [List.append_nil, List.flatten_append, List.flatten_singleton]
    exact h.ordered

/-- A flush that ends has written its batch, or lost it. -/
theorem Conserved.settle (h : s.Conserved) (who : Flusher) (ok : Bool) :
    (s.settle who ok).Conserved := by
  have hflight : (s.inFlight : Multiset AttemptRecord) =
      s.batch who + (s.settle who ok).inFlight := by
    cases who <;> cases ok <;>
      simp [inFlight, DrainState.settle, ← Multiset.coe_add, add_comm]
  have hall := h.accounted
  rw [hflight] at hall
  cases ok
  · refine ⟨?_, ?_, h.ordered, h.bounded⟩
    · show (s.enqueued : Multiset AttemptRecord) = s.written + ↑(s.lost ++ s.batch who) +
        s.evicted + (s.settle who false).inFlight + s.queue.buffer
      rw [hall, ← Multiset.coe_add]
      abel
    · show s.queue.droppedTotal + (s.batch who).length =
        (s.lost ++ s.batch who).length + s.evicted.length
      rw [h.dropped, List.length_append]
      omega
  · refine ⟨?_, h.dropped, h.ordered, h.bounded⟩
    show (s.enqueued : Multiset AttemptRecord) = ↑(s.written ++ s.batch who) + s.lost +
      s.evicted + (s.settle who true).inFlight + s.queue.buffer
    rw [hall, ← Multiset.coe_add]
    abel

/-- A flush ends with an empty buffer before it begins, or it takes the buffer. -/
theorem flushTask_cases (s : DrainState) (writing after : DrainPc) :
    s.flushTask writing after = { s with task := some after } ∧ s.queue.buffer = [] ∨
      s.flushTask writing after = { s.take .loop with task := some writing } := by
  unfold flushTask
  split
  · exact Or.inl ⟨rfl, ‹_›⟩
  · exact Or.inr rfl

theorem flushOwner_cases (s : DrainState) :
    s.flushOwner = { s with owner := .idle } ∧ s.queue.buffer = [] ∨
      s.flushOwner = { s.take .owner with owner := .flushing } := by
  unfold flushOwner
  split
  · exact Or.inl ⟨rfl, ‹_›⟩
  · exact Or.inr rfl

/-! ## 3. The transitions -/

/-- The transitions of the queue with its loop and its owner. -/
inductive Moves (s : DrainState) : DrainEvent → DrainState → Prop
  | enqueue (rec : AttemptRecord) : Moves s (.enqueue rec) (s.enqueue rec)
  | begin (hidle : s.owner = .idle) (htask : s.task = none) :
      Moves s .start { s with stopSet := false, task := some .top }
  | running (hidle : s.owner = .idle) : Moves s .start s
  | stopDirect (hidle : s.owner = .idle) (htask : s.task = none) :
      Moves s .stop s.setStop.flushOwner
  | stopJoin (hidle : s.owner = .idle) (htask : s.task ≠ none) :
      Moves s .stop { s.setStop with owner := .joining }
  | wait (htask : s.task = some .top) (hstop : s.stopSet = false) :
      Moves s .check { s with task := some .waiting }
  | leave (htask : s.task = some .top) (hstop : s.stopSet = true) :
      Moves s .check (s.flushTask .lastFlushing .done)
  | wake (htask : s.task = some .waiting) :
      Moves s .wake (s.clearWakeup.flushTask .flushing .top)
  | joined (howner : s.owner = .joining) (htask : s.task = some .done) :
      Moves s .joined { s with task := none }.flushOwner
  | settledLoop {ok : Bool} (htask : s.task = some .flushing) :
      Moves s (.settled .loop ok) { s.settle .loop ok with task := some .top }
  | settledLast {ok : Bool} (htask : s.task = some .lastFlushing) :
      Moves s (.settled .loop ok) { s.settle .loop ok with task := some .done }
  | settledOwner {ok : Bool} (howner : s.owner = .flushing) :
      Moves s (.settled .owner ok) { s.settle .owner ok with owner := .idle }

/-- A step is one of the transitions. -/
theorem moves_of_step {event : DrainEvent} (h : s.step event = some s') : s.Moves event s' := by
  cases event with
  | enqueue rec =>
    cases h
    exact .enqueue rec
  | start =>
    obtain ⟨hidle, h⟩ := Option.ite_none_right_eq_some.mp h
    cases h
    unfold DrainState.begin
    split
    · exact .begin hidle ‹_›
    · exact .running hidle
  | stop =>
    obtain ⟨hidle, h⟩ := Option.ite_none_right_eq_some.mp h
    cases h
    unfold DrainState.stop
    split
    · exact .stopDirect hidle ‹_›
    · rename_i pc htask
      refine .stopJoin hidle fun hnone => ?_
      rw [hnone] at htask
      cases htask
  | check =>
    obtain ⟨htask, h⟩ := Option.ite_none_right_eq_some.mp h
    cases h
    split
    · exact .leave htask ‹_›
    · exact .wait htask (Bool.not_eq_true _ ▸ ‹_›)
  | wake =>
    obtain ⟨htask, h⟩ := Option.ite_none_right_eq_some.mp h
    cases h
    exact .wake htask
  | joined =>
    obtain ⟨⟨howner, htask⟩, h⟩ := Option.ite_none_right_eq_some.mp h
    cases h
    exact .joined howner htask
  | settled who ok =>
    cases who with
    | loop =>
      simp only [DrainState.step] at h
      split at h <;> cases h
      · exact .settledLoop ‹_›
      · exact .settledLast ‹_›
    | owner =>
      obtain ⟨howner, h⟩ := Option.ite_none_right_eq_some.mp h
      cases h
      exact .settledOwner howner

/-! ## 4. Every run -/

theorem Conserved.flushTask (h : s.Conserved) (hnone : s.batch .loop = [])
    (writing after : DrainPc) : (s.flushTask writing after).Conserved := by
  rcases s.flushTask_cases writing after with ⟨heq, -⟩ | heq <;> rw [heq]
  · exact ⟨h.accounted, h.dropped, h.ordered, h.bounded⟩
  · obtain ⟨haccounted, hdropped, hordered, hbounded⟩ := h.take hnone
    exact ⟨haccounted, hdropped, hordered, hbounded⟩

theorem Conserved.flushOwner (h : s.Conserved) (hnone : s.batch .owner = []) :
    s.flushOwner.Conserved := by
  rcases s.flushOwner_cases with ⟨heq, -⟩ | heq <;> rw [heq]
  · exact ⟨h.accounted, h.dropped, h.ordered, h.bounded⟩
  · obtain ⟨haccounted, hdropped, hordered, hbounded⟩ := h.take hnone
    exact ⟨haccounted, hdropped, hordered, hbounded⟩

/-- **Every step conserves the records.** -/
theorem Conserved.step (h : s.Conserved) (hquiet : s.Quiet) (hcap : 1 ≤ s.queue.capacity)
    {event : DrainEvent} (hstep : s.step event = some s') : s'.Conserved := by
  cases moves_of_step hstep with
  | enqueue rec => exact h.enqueue hcap rec
  | begin hidle htask | wait htask hstop =>
    exact ⟨h.accounted, h.dropped, h.ordered, h.bounded⟩
  | running hidle => exact h
  | stopDirect hidle htask =>
    refine Conserved.flushOwner ⟨h.accounted, h.dropped, h.ordered, h.bounded⟩ ?_
    exact hquiet.owner (by simp [hidle])
  | stopJoin hidle htask => exact ⟨h.accounted, h.dropped, h.ordered, h.bounded⟩
  | leave htask hstop =>
    exact h.flushTask (hquiet.loop (by simp [htask]) (by simp [htask])) _ _
  | wake htask =>
    have hcleared : s.clearWakeup.Conserved := ⟨h.accounted, h.dropped, h.ordered, h.bounded⟩
    exact hcleared.flushTask (hquiet.loop (by simp [htask]) (by simp [htask])) _ _
  | joined howner htask =>
    refine Conserved.flushOwner ⟨h.accounted, h.dropped, h.ordered, h.bounded⟩ ?_
    exact hquiet.owner (by simp [howner])
  | @settledLoop ok htask | @settledLast ok htask =>
    obtain ⟨haccounted, hdropped, hordered, hbounded⟩ := h.settle .loop ok
    exact ⟨haccounted, hdropped, hordered, hbounded⟩
  | @settledOwner ok howner =>
    obtain ⟨haccounted, hdropped, hordered, hbounded⟩ := h.settle .owner ok
    exact ⟨haccounted, hdropped, hordered, hbounded⟩

theorem batch_take_of_ne (s : DrainState) {who other : Flusher} (h : other ≠ who) :
    (s.take who).batch other = s.batch other :=
  Function.update_of_ne h _ _

theorem Quiet.flushTask (h : s.Quiet) (hnone : s.batch .loop = []) {writing after : DrainPc}
    (hwriting : writing = .flushing ∨ writing = .lastFlushing) :
    (s.flushTask writing after).Quiet := by
  rcases s.flushTask_cases writing after with ⟨heq, -⟩ | heq <;> rw [heq]
  · exact ⟨fun _ _ => hnone, h.owner⟩
  · refine ⟨fun hflushing hlast => ?_, fun howner => ?_⟩
    · rcases hwriting with rfl | rfl
      · exact absurd rfl hflushing
      · exact absurd rfl hlast
    · have hkept : (s.take .loop).batch .owner = s.batch .owner := s.batch_take_of_ne (by decide)
      exact hkept.trans (h.owner howner)

theorem Quiet.flushOwner (h : s.Quiet) (hnone : s.batch .owner = []) : s.flushOwner.Quiet := by
  rcases s.flushOwner_cases with ⟨heq, -⟩ | heq <;> rw [heq]
  · exact ⟨h.loop, fun _ => hnone⟩
  · refine ⟨fun hflushing hlast => ?_, fun howner => absurd rfl howner⟩
    have hkept : (s.take .owner).batch .loop = s.batch .loop := s.batch_take_of_ne (by decide)
    exact hkept.trans (h.loop hflushing hlast)

@[simp] theorem batch_settle_self (s : DrainState) (who : Flusher) (ok : Bool) :
    (s.settle who ok).batch who = [] := by
  cases ok <;> exact Function.update_self ..

theorem batch_settle_of_ne (s : DrainState) {who other : Flusher} (ok : Bool) (h : other ≠ who) :
    (s.settle who ok).batch other = s.batch other := by
  cases ok <;> exact Function.update_of_ne h _ _

@[simp] theorem task_settle (s : DrainState) (who : Flusher) (ok : Bool) :
    (s.settle who ok).task = s.task := by
  cases ok <;> rfl

@[simp] theorem stopSet_settle (s : DrainState) (who : Flusher) (ok : Bool) :
    (s.settle who ok).stopSet = s.stopSet := by
  cases ok <;> rfl

@[simp] theorem owner_settle (s : DrainState) (who : Flusher) (ok : Bool) :
    (s.settle who ok).owner = s.owner := by
  cases ok <;> rfl

theorem Quiet.step (h : s.Quiet) {event : DrainEvent} (hstep : s.step event = some s') :
    s'.Quiet := by
  cases moves_of_step hstep with
  | enqueue rec | running hidle => exact ⟨h.loop, h.owner⟩
  | begin hidle htask | wait htask hstop =>
    exact ⟨fun _ _ => h.loop (by simp [htask]) (by simp [htask]), h.owner⟩
  | stopDirect hidle htask =>
    have hset : s.setStop.Quiet := ⟨h.loop, h.owner⟩
    exact hset.flushOwner (h.owner (by simp [hidle]))
  | stopJoin hidle htask => exact ⟨h.loop, fun _ => h.owner (by simp [hidle])⟩
  | leave htask hstop =>
    exact h.flushTask (h.loop (by simp [htask]) (by simp [htask])) (Or.inr rfl)
  | wake htask =>
    have hcleared : s.clearWakeup.Quiet := ⟨h.loop, h.owner⟩
    exact hcleared.flushTask (h.loop (by simp [htask]) (by simp [htask])) (Or.inl rfl)
  | joined howner htask =>
    have hjoined : Quiet { s with task := none } :=
      ⟨fun _ _ => h.loop (by simp [htask]) (by simp [htask]), h.owner⟩
    exact hjoined.flushOwner (h.owner (by simp [howner]))
  | settledLoop htask | settledLast htask =>
    refine ⟨fun _ _ => s.batch_settle_self _ _, fun howner => ?_⟩
    rw [owner_settle] at howner
    exact (s.batch_settle_of_ne _ (by decide)).trans (h.owner howner)
  | settledOwner howner =>
    refine ⟨fun hflushing hlast => ?_, fun _ => s.batch_settle_self _ _⟩
    rw [task_settle] at hflushing hlast
    exact (s.batch_settle_of_ne _ (by decide)).trans (h.loop hflushing hlast)

/-- No step changes the capacity. -/
theorem capacity_step {event : DrainEvent} (hstep : s.step event = some s') :
    s'.queue.capacity = s.queue.capacity := by
  have htask : ∀ (s : DrainState) (writing after : DrainPc),
      (s.flushTask writing after).queue.capacity = s.queue.capacity := fun s writing after => by
    rcases s.flushTask_cases writing after with ⟨heq, -⟩ | heq
    · rw [heq]
    · rw [heq]
      rfl
  have howner : ∀ s : DrainState, s.flushOwner.queue.capacity = s.queue.capacity := fun s => by
    rcases s.flushOwner_cases with ⟨heq, -⟩ | heq
    · rw [heq]
    · rw [heq]
      rfl
  cases moves_of_step hstep with
  | enqueue rec => exact s.queue.capacity_makeRoom
  | begin | running | stopJoin | wait => rfl
  | stopDirect => exact howner _
  | leave | wake => exact htask _ _ _
  | joined => exact howner _
  | @settledLoop ok | @settledLast ok | @settledOwner ok => cases ok <;> rfl

theorem history_flushTask (s : DrainState) (writing after : DrainPc) :
    (s.flushTask writing after).enqueued = s.enqueued ∧
      (s.flushTask writing after).written = s.written := by
  rcases s.flushTask_cases writing after with ⟨heq, -⟩ | heq <;> rw [heq] <;> exact ⟨rfl, rfl⟩

theorem history_flushOwner (s : DrainState) :
    s.flushOwner.enqueued = s.enqueued ∧ s.flushOwner.written = s.written := by
  rcases s.flushOwner_cases with ⟨heq, -⟩ | heq <;> rw [heq] <;> exact ⟨rfl, rfl⟩

/-- Only a batch that is written adds to what is written... -/
theorem written_step {event : DrainEvent} (hstep : s.step event = some s') :
    s'.written = s.written ++ match event with
      | .settled who true => s.batch who
      | _ => [] := by
  cases moves_of_step hstep with
  | enqueue | begin | running | stopJoin | wait => exact (List.append_nil _).symm
  | stopDirect | joined => exact (history_flushOwner _).2.trans (List.append_nil _).symm
  | leave | wake => exact (history_flushTask _ _ _).2.trans (List.append_nil _).symm
  | @settledLoop ok | @settledLast ok | @settledOwner ok =>
    cases ok with
    | true => rfl
    | false => exact (List.append_nil _).symm

/-- ...and only `enqueue` to what is enqueued. -/
theorem enqueued_step {event : DrainEvent} (hstep : s.step event = some s') :
    s'.enqueued = s.enqueued ++ match event with
      | .enqueue rec => [rec]
      | _ => [] := by
  cases moves_of_step hstep with
  | enqueue rec => rfl
  | begin | running | stopJoin | wait => exact (List.append_nil _).symm
  | stopDirect | joined => exact (history_flushOwner _).1.trans (List.append_nil _).symm
  | leave | wake => exact (history_flushTask _ _ _).1.trans (List.append_nil _).symm
  | @settledLoop ok | @settledLast ok | @settledOwner ok =>
    cases ok <;> exact (List.append_nil _).symm

/-- Only a batch whose write raises is lost. -/
theorem lost_step {event : DrainEvent} (hstep : s.step event = some s') :
    s'.lost = s.lost ++ match event with
      | .settled who false => s.batch who
      | _ => [] := by
  have htask : ∀ (s : DrainState) (writing after : DrainPc),
      (s.flushTask writing after).lost = s.lost := fun s writing after => by
    rcases s.flushTask_cases writing after with ⟨heq, -⟩ | heq
    · rw [heq]
    · rw [heq]
      rfl
  have howner : ∀ s : DrainState, s.flushOwner.lost = s.lost := fun s => by
    rcases s.flushOwner_cases with ⟨heq, -⟩ | heq
    · rw [heq]
    · rw [heq]
      rfl
  cases moves_of_step hstep with
  | enqueue | begin | running | stopJoin | wait => exact (List.append_nil _).symm
  | stopDirect | joined => exact (howner _).trans (List.append_nil _).symm
  | leave | wake => exact (htask _ _ _).trans (List.append_nil _).symm
  | @settledLoop ok | @settledLast ok | @settledOwner ok =>
    cases ok with
    | true => exact (List.append_nil _).symm
    | false => rfl

/-- A step that neither enqueues nor ends a write leaves the histories alone. -/
theorem history_step {event : DrainEvent} (henqueue : ∀ rec, event ≠ .enqueue rec)
    (hsettled : ∀ who ok, event ≠ .settled who ok) (hstep : s.step event = some s') :
    s'.enqueued = s.enqueued ∧ s'.written = s.written ∧ s'.lost = s.lost := by
  have henqueued := enqueued_step hstep
  have hwritten := written_step hstep
  have hlost := lost_step hstep
  cases event with
  | enqueue rec => exact absurd rfl (henqueue rec)
  | settled who ok => exact absurd rfl (hsettled who ok)
  | start | stop | check | wake | joined =>
    exact ⟨henqueued.trans (List.append_nil _), hwritten.trans (List.append_nil _),
      hlost.trans (List.append_nil _)⟩

/-- A write moves its batch to what is written... -/
theorem history_written {who : Flusher} (hstep : s.step (.settled who true) = some s') :
    s'.enqueued = s.enqueued ∧ s'.written = s.written ++ s.batch who ∧ s'.lost = s.lost :=
  ⟨(enqueued_step hstep).trans (List.append_nil _), written_step hstep,
    (lost_step hstep).trans (List.append_nil _)⟩

/-- ...and one that raises to what is lost. -/
theorem history_refused {who : Flusher} (hstep : s.step (.settled who false) = some s') :
    s'.enqueued = s.enqueued ∧ s'.written = s.written ∧ s'.lost = s.lost ++ s.batch who :=
  ⟨(enqueued_step hstep).trans (List.append_nil _),
    (written_step hstep).trans (List.append_nil _), lost_step hstep⟩

/-- The records that were enqueued and are not written. -/
def unwritten (s : DrainState) : List AttemptRecord :=
  s.lost ++ s.evicted ++ s.inFlight ++ s.queue.buffer

theorem Conserved.perm (h : s.Conserved) : s.enqueued.Perm (s.written ++ s.unwritten) := by
  rw [← Multiset.coe_eq_coe, h.accounted, unwritten]
  simp only [← Multiset.coe_add, add_assoc]

/-- What holds of the queue in every run. -/
structure Sound (capacity : ℕ) (s : DrainState) : Prop where
  conserved : s.Conserved
  quiet : s.Quiet
  capacity_eq : s.queue.capacity = capacity

theorem Sound.step {capacity : ℕ} (hcap : 1 ≤ capacity) (h : s.Sound capacity)
    {event : DrainEvent} (hstep : s.step event = some s') : s'.Sound capacity :=
  ⟨h.conserved.step h.quiet (h.capacity_eq ▸ hcap) hstep, h.quiet.step hstep,
    (capacity_step hstep).trans h.capacity_eq⟩

theorem sound_of_run {capacity flushSize : ℕ} (hcap : 1 ≤ capacity) {es : List DrainEvent}
    (hrun : Runs.run step (init capacity flushSize) es = some s) : s.Sound capacity := by
  have hinit : (init capacity flushSize).Sound capacity :=
    ⟨conserved_init _ _, ⟨fun _ _ => rfl, fun _ => rfl⟩, rfl⟩
  exact Runs.invariant_along _ (fun _ s => s.Sound capacity) hinit
    (fun _ _ _ _ h _ hstep => h.step hcap hstep) hrun (Runs.along_true es _)

/-! ## 5. After `stop()` -/

/-- While nothing is enqueued and `start()` is not called, this holds from the call of `stop()`
on. -/
def Stopping (s : DrainState) : Prop :=
  match s.owner with
  | .joining => s.stopSet = true
  | .flushing => s.queue.buffer = [] ∧ s.task = none
  | .idle => s.queue.buffer = [] ∧ s.inFlight = [] ∧ s.task = none

theorem stopping_of_joining (howner : s.owner = .joining) (hstop : s.stopSet = true) :
    s.Stopping := by
  simpa only [Stopping, howner] using hstop

theorem stopping_flushOwner (hquiet : s.Quiet) (howner : s.batch .owner = [])
    (htask : s.task = none) : s.flushOwner.Stopping := by
  rcases s.flushOwner_cases with ⟨heq, hempty⟩ | heq <;> rw [heq]
  · refine ⟨hempty, ?_, htask⟩
    show s.batch .loop ++ s.batch .owner = []
    rw [hquiet.loop (by simp [htask]) (by simp [htask]), howner, List.append_nil]
  · exact ⟨rfl, htask⟩

/-- A flush of the loop while the owner waits for it. -/
theorem stopping_flushTask (howner : s.owner = .joining) (hstop : s.stopSet = true)
    (writing after : DrainPc) : (s.flushTask writing after).Stopping := by
  rcases s.flushTask_cases writing after with ⟨heq, -⟩ | heq
  · rw [heq]
    exact stopping_of_joining howner hstop
  · rw [heq]
    exact stopping_of_joining howner hstop

/-- As long as the task is there, the owner is waiting for it. -/
theorem Stopping.joining (h : s.Stopping) (htask : s.task ≠ none) :
    s.owner = .joining ∧ s.stopSet = true := by
  unfold Stopping at h
  cases howner : s.owner with
  | joining =>
    rw [howner] at h
    exact ⟨rfl, h⟩
  | flushing =>
    rw [howner] at h
    exact absurd h.2 htask
  | idle =>
    rw [howner] at h
    exact absurd h.2.2 htask

/-- **Once `stop()` is called**, every step but `enqueue` and `start()` brings it closer to its
end. -/
theorem Stopping.step (h : s.Stopping) (hquiet : s.Quiet) {event : DrainEvent}
    (henqueue : ∀ rec, event ≠ .enqueue rec) (hstart : event ≠ .start)
    (hstep : s.step event = some s') : s'.Stopping := by
  cases moves_of_step hstep with
  | enqueue rec => exact absurd rfl (henqueue rec)
  | begin | running => exact absurd rfl hstart
  | stopDirect hidle htask =>
    have hset : s.setStop.Quiet := ⟨hquiet.loop, hquiet.owner⟩
    exact stopping_flushOwner hset (hquiet.owner (by simp [hidle])) htask
  | stopJoin => exact rfl
  | wait htask hstop =>
    have hjoining := h.joining (by simp [htask])
    rw [hjoining.2] at hstop
    cases hstop
  | leave htask hstop =>
    have hjoining := h.joining (by simp [htask])
    exact stopping_flushTask hjoining.1 hstop _ _
  | wake htask =>
    have hjoining := h.joining (by simp [htask])
    exact stopping_flushTask (s := s.clearWakeup) hjoining.1 hjoining.2 _ _
  | joined howner htask =>
    have hjoined : Quiet { s with task := none } :=
      ⟨fun _ _ => hquiet.loop (by simp [htask]) (by simp [htask]), hquiet.owner⟩
    exact stopping_flushOwner hjoined (hquiet.owner (by simp [howner])) rfl
  | @settledLoop ok htask | @settledLast ok htask =>
    obtain ⟨howner, hstop⟩ := h.joining (by simp [htask])
    exact stopping_of_joining ((s.owner_settle _ _).trans howner)
      ((s.stopSet_settle _ _).trans hstop)
  | @settledOwner ok howner =>
    unfold Stopping at h
    rw [howner] at h
    refine ⟨?_, ?_, (s.task_settle _ _).trans h.2⟩
    · cases ok <;> exact h.1
    · show (s.settle .owner ok).batch .loop ++ (s.settle .owner ok).batch .owner = []
      rw [batch_settle_self, s.batch_settle_of_ne ok (by decide), List.append_nil]
      exact hquiet.loop (by simp [h.2]) (by simp [h.2])

/-- The call of `stop()`. -/
theorem stopping_stop (hquiet : s.Quiet) (hstep : s.step .stop = some s') : s'.Stopping := by
  cases moves_of_step hstep with
  | stopDirect hidle htask =>
    have hset : s.setStop.Quiet := ⟨hquiet.loop, hquiet.owner⟩
    exact stopping_flushOwner hset (hquiet.owner (by simp [hidle])) htask
  | stopJoin => exact rfl

theorem stopping_of_run {es : List DrainEvent} (hquiet : s.Quiet)
    (henqueue : ∀ rec, .enqueue rec ∉ es) (hstart : .start ∉ es)
    (hrun : Runs.run step s (.stop :: es) = some s') : s'.Stopping := by
  obtain ⟨m, hstop, hrun⟩ := Runs.run_cons_iff.mp hrun
  have hevents : ∀ event ∈ es, (∀ rec, event ≠ .enqueue rec) ∧ event ≠ .start :=
    fun event hmem => ⟨fun rec heq => henqueue rec (heq ▸ hmem), fun heq => hstart (heq ▸ hmem)⟩
  have hend := Runs.invariant_along _ (fun _ s => s.Quiet ∧ s.Stopping)
    ⟨hquiet.step hstop, stopping_stop hquiet hstop⟩
    (fun _ _ _ _ h hevent hstep => ⟨h.1.step hstep, h.2.step h.1 hevent.1 hevent.2 hstep⟩)
    hrun (Runs.along_of_forall es m hevents)
  exact hend.2

/-- **The records are conserved.**  Every enqueued record is written, lost with a batch whose
write raised, evicted, in flight or in the buffer, once; `dropped_total` counts the lost and the
evicted ones; the batches and the buffer keep the order; the buffer is never over its capacity; and
when `stop()` has returned and nothing was enqueued meanwhile, the buffer is empty and nothing is in
flight. -/
theorem records_conserved {capacity : ℕ} (hcap : 1 ≤ capacity) (flushSize : ℕ)
    {es : List DrainEvent} (hrun : Runs.run step (init capacity flushSize) es = some s) :
    ((s.enqueued : Multiset AttemptRecord) =
        s.written + s.lost + s.evicted + s.inFlight + s.queue.buffer ∧
      s.queue.droppedTotal = s.lost.length + s.evicted.length ∧
      (s.batches.flatten ++ s.queue.buffer).Sublist s.enqueued ∧
      s.queue.buffer.length ≤ capacity) ∧
    ∀ before during, es = before ++ .stop :: during → (∀ rec, .enqueue rec ∉ during) →
      .start ∉ during → s.owner = .idle → s.queue.buffer = [] ∧ s.inFlight = [] := by
  obtain ⟨⟨haccounted, hdropped, hordered, hbounded⟩, hquiet, hcapacity⟩ := sound_of_run hcap hrun
  refine ⟨⟨haccounted, hdropped, hordered, hcapacity ▸ hbounded⟩, ?_⟩
  rintro before during rfl henqueue hstart hidle
  obtain ⟨m, hbefore, hduring⟩ := Runs.run_append_iff.mp hrun
  have h := stopping_of_run (sound_of_run hcap hbefore).quiet henqueue hstart hduring
  unfold Stopping at h
  rw [hidle] at h
  exact ⟨h.1, h.2.1⟩

/-- One record is evicted, one is lost in a batch that raises, and `stop()` leaves nothing. -/
def stoppedEvents : List DrainEvent :=
  [.start, .enqueue (sampleRecord "r1"), .check, .enqueue (sampleRecord "r2"), .wake, .stop,
    .settled .loop false, .check, .joined]

theorem records_conserved_stopped : ∃ s, Runs.run step (init 1 200) stoppedEvents = some s ∧
    (s.enqueued : Multiset AttemptRecord) =
      s.written + s.lost + s.evicted + s.inFlight + s.queue.buffer ∧
    s.queue.droppedTotal = 2 ∧ s.queue.buffer = [] ∧ s.inFlight = [] := by
  have hrun : Runs.run step (init 1 200) stoppedEvents = some _ := rfl
  obtain ⟨⟨haccounted, hdropped, -, -⟩, hstop⟩ := records_conserved (by decide) 200 hrun
  refine ⟨_, hrun, haccounted, hdropped, hstop (stoppedEvents.take 5) (stoppedEvents.drop 6) rfl
    (by simp [stoppedEvents]) (by simp [stoppedEvents]) rfl⟩

end DrainState

end Librouter
