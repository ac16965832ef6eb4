/-
# `accounting.py`: the queue never looks at a record

What the queue does depends on how many records there are, and on nothing in them.  So if every
record is replaced by its image under a function, the queue goes through the images of its states
(`mapRecords_step`).  Two runs of the gateway that differ in what the records say, and in nothing
else, are compared by it.
-/
import Librouter.Accounting.Drain

namespace Librouter

variable (f : AttemptRecord → AttemptRecord)

/-! ## 1. The queue -/

namespace AccountingQueue

variable (q : AccountingQueue)

/-- The queue with the images of its records. -/
def mapRecords : AccountingQueue := { q with buffer := q.buffer.map f }

theorem mapRecords_makeRoom : (q.mapRecords f).makeRoom = q.makeRoom.mapRecords f := by
  obtain ⟨capacity, flushSize, buffer, droppedTotal, wakeup⟩ := q
  cases buffer with
  | nil => rfl
  | cons oldest rest =>
    simp only [makeRoom, mapRecords, List.map_cons, List.length_cons, List.length_map]
    split <;> rfl

theorem mapRecords_enqueue (rec : AttemptRecord) :
    (q.mapRecords f).enqueue (f rec) = (q.enqueue rec).mapRecords f := by
  simp only [enqueue, mapRecords_makeRoom]
  simp [mapRecords]

theorem mapRecords_evicts : (q.mapRecords f).evicts = q.evicts.map f := by
  simp only [evicts, mapRecords, List.length_map]
  split
  · rw [List.map_take]
  · rfl

end AccountingQueue

/-! ## 2. The loop and its owner -/

/-- The event with the image of its record. -/
def DrainEvent.mapRecord : DrainEvent → DrainEvent
  | .enqueue rec => .enqueue (f rec)
  | event => event

namespace DrainState

variable (s : DrainState)

/-- The state with the images of its records. -/
def mapRecords : DrainState :=
  { s with
    queue := s.queue.mapRecords f
    batch := fun who => (s.batch who).map f
    enqueued := s.enqueued.map f
    evicted := s.evicted.map f
    batches := s.batches.map (List.map f)
    written := s.written.map f
    lost := s.lost.map f }

theorem mapRecords_enqueue (rec : AttemptRecord) :
    (s.mapRecords f).enqueue (f rec) = (s.enqueue rec).mapRecords f := by
  have hqueue := s.queue.mapRecords_enqueue f rec
  have hevicts := s.queue.mapRecords_evicts f
  simp [enqueue, mapRecords, hqueue, hevicts]

/-- The batches of the images. -/
theorem map_update (batch : Flusher → List AttemptRecord) (who : Flusher)
    (recs : List AttemptRecord) :
    (fun other => (Function.update batch who recs other).map f)
      = Function.update (fun other => (batch other).map f) who (recs.map f) :=
  Function.comp_update (List.map f) batch who recs

theorem mapRecords_take (who : Flusher) :
    (s.mapRecords f).take who = (s.take who).mapRecords f := by
  simp [take, mapRecords, AccountingQueue.mapRecords, map_update]

theorem mapRecords_settle (who : Flusher) (ok : Bool) :
    (s.mapRecords f).settle who ok = (s.settle who ok).mapRecords f := by
  cases ok <;> simp [settle, mapRecords, AccountingQueue.mapRecords, map_update]

theorem mapRecords_flushTask (writing after : DrainPc) :
    (s.mapRecords f).flushTask writing after = (s.flushTask writing after).mapRecords f := by
  have hempty : (s.mapRecords f).queue.buffer = [] ↔ s.queue.buffer = [] := List.map_eq_nil_iff
  simp only [flushTask, hempty, mapRecords_take]
  split <;> rfl

theorem mapRecords_flushOwner :
    (s.mapRecords f).flushOwner = s.flushOwner.mapRecords f := by
  have hempty : (s.mapRecords f).queue.buffer = [] ↔ s.queue.buffer = [] := List.map_eq_nil_iff
  simp only [flushOwner, hempty, mapRecords_take]
  split <;> rfl

/-- `stop()` on the images. -/
theorem mapRecords_stop : (s.mapRecords f).stop = s.stop.mapRecords f := by
  have htask : (s.mapRecords f).task = s.task := rfl
  unfold stop
  rw [htask]
  split
  · exact s.setStop.mapRecords_flushOwner f
  · rfl

theorem mapRecords_begin : (s.mapRecords f).begin = s.begin.mapRecords f := by
  have htask : (s.mapRecords f).task = s.task := rfl
  unfold begin
  rw [htask]
  split <;> rfl

/-- **The queue takes the same step with the images of its records.** -/
theorem mapRecords_step (event : DrainEvent) :
    (s.mapRecords f).step (event.mapRecord f) = (s.step event).map (mapRecords f) := by
  have htask : (s.mapRecords f).task = s.task := rfl
  have howner : (s.mapRecords f).owner = s.owner := rfl
  have hstop : (s.mapRecords f).stopSet = s.stopSet := rfl
  cases event with
  | enqueue rec => exact congrArg some (s.mapRecords_enqueue f rec)
  | start =>
    simp only [step, DrainEvent.mapRecord, howner, mapRecords_begin]
    split <;> rfl
  | stop =>
    simp only [step, DrainEvent.mapRecord, howner, mapRecords_stop]
    split <;> rfl
  | check =>
    simp only [step, DrainEvent.mapRecord, htask, hstop, mapRecords_flushTask]
    split
    · split <;> rfl
    · rfl
  | wake =>
    simp only [step, DrainEvent.mapRecord, htask]
    split
    · exact congrArg some (s.clearWakeup.mapRecords_flushTask f _ _)
    · rfl
  | joined =>
    simp only [step, DrainEvent.mapRecord, htask, howner]
    split
    · exact congrArg some (mapRecords_flushOwner f { s with task := none })
    · rfl
  | settled who ok =>
    cases who with
    | loop =>
      simp only [step, DrainEvent.mapRecord, htask, mapRecords_settle]
      split <;> rfl
    | owner =>
      simp only [step, DrainEvent.mapRecord, howner, mapRecords_settle]
      split <;> rfl

end DrainState

end Librouter
