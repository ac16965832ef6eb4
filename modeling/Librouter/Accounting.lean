/-
# `accounting.py`: the queue of attempt records

`enqueue` never blocks: when the buffer is full the oldest record goes.
-/
import Librouter.Models

namespace Librouter

/-- `AccountingQueue`, with its defaults. -/
structure AccountingQueue where
  capacity : ℕ := 10000
  flushSize : ℕ := 200
  buffer : List AttemptRecord := []
  droppedTotal : ℕ := 0
  wakeup : Bool := false

namespace AccountingQueue

/-- `popleft`, when the buffer is full; an empty buffer has nothing to drop. -/
def makeRoom (q : AccountingQueue) : AccountingQueue :=
  match q.buffer with
  | _ :: rest =>
    if q.capacity ≤ q.buffer.length then
      { q with buffer := rest, droppedTotal := q.droppedTotal + 1 }
    else q
  | [] => q

/-- `enqueue`. -/
def enqueue (q : AccountingQueue) (rec : AttemptRecord) : AccountingQueue :=
  let buffer := q.makeRoom.buffer ++ [rec]
  { q.makeRoom with
    buffer := buffer
    wakeup := q.makeRoom.wakeup || decide (q.flushSize ≤ buffer.length) }

/-- `enqueue` of one record after another. -/
def enqueueAll (q : AccountingQueue) (recs : List AttemptRecord) : AccountingQueue :=
  recs.foldl enqueue q

/-- Making room either drops the oldest record and counts it, or does nothing. -/
theorem makeRoom_cases (q : AccountingQueue) :
    q.makeRoom.droppedTotal = q.droppedTotal + 1 ∨ q.makeRoom = q := by
  unfold makeRoom
  split
  · split
    · exact Or.inl rfl
    · exact Or.inr rfl
  · exact Or.inr rfl

/-- **As long as nothing is dropped, records are appended.** -/
theorem enqueueAll_of_noDrop {q : AccountingQueue} {recs : List AttemptRecord}
    (h : (q.enqueueAll recs).droppedTotal = 0) :
    q.droppedTotal = 0 ∧ (q.enqueueAll recs).buffer = q.buffer ++ recs := by
  induction recs generalizing q with
  | nil => exact ⟨h, (List.append_nil _).symm⟩
  | cons r recs ih =>
    obtain ⟨hdropped, hbuffer⟩ := ih (q := q.enqueue r) h
    rcases q.makeRoom_cases with hroom | hroom
    · have hzero : q.makeRoom.droppedTotal = 0 := hdropped
      omega
    · refine ⟨by rwa [enqueue, hroom] at hdropped, ?_⟩
      rw [enqueueAll, List.foldl_cons]
      rw [enqueueAll] at hbuffer
      rw [hbuffer, enqueue, hroom, List.append_assoc, List.singleton_append]

end AccountingQueue

end Librouter
