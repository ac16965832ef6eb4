/-
# The drop metric

Two counters are to say how many records were dropped: `dropped_total`, and the metric
`ACCOUNTING_DROPPED`.  A batch that cannot be written is added to both; a record that `enqueue`
evicts is added to the first one only.  So `dropped_total` is the number of the records that were
dropped, in every run, and the metric is not, as soon as one was evicted
(`metric_truthful_iff`).
-/
import Librouter.Accounting.Drain

namespace Librouter
namespace DrainState

variable {s s' : DrainState} {event : DrainEvent}

/-! ## 1. The counters -/

/-- The counters and what they count: the metric, `dropped_total`, the lost records and the evicted
ones. -/
structure Counters where
  metric : ℕ
  dropped : ℕ
  lost : List AttemptRecord
  evicted : List AttemptRecord

def counters (s : DrainState) : Counters :=
  ⟨s.accountingDropped, s.queue.droppedTotal, s.lost, s.evicted⟩

/-- What an event does to them. -/
def count (s : DrainState) (c : Counters) : DrainEvent → Counters
  | .enqueue _ =>
    { c with
      dropped := c.dropped + s.queue.evicts.length
      evicted := c.evicted ++ s.queue.evicts }
  | .settled who false =>
    { c with
      metric := c.metric + (s.batch who).length
      dropped := c.dropped + (s.batch who).length
      lost := c.lost ++ s.batch who }
  | _ => c

theorem counters_flushTask (s : DrainState) (writing after : DrainPc) :
    (s.flushTask writing after).counters = s.counters := by
  rcases s.flushTask_cases writing after with ⟨heq, -⟩ | heq
  · rw [heq]
    rfl
  · rw [heq]
    rfl

theorem counters_flushOwner (s : DrainState) : s.flushOwner.counters = s.counters := by
  rcases s.flushOwner_cases with ⟨heq, -⟩ | heq
  · rw [heq]
    rfl
  · rw [heq]
    rfl

/-- **What an event does to the counters.** -/
theorem counters_step (hstep : s.step event = some s') :
    s'.counters = s.count s.counters event := by
  cases moves_of_step hstep with
  | enqueue rec =>
    show (⟨_, s.queue.makeRoom.droppedTotal, _, _⟩ : Counters) = _
    rw [s.queue.droppedTotal_makeRoom]
    rfl
  | begin | running | stopJoin | wait => rfl
  | stopDirect => exact counters_flushOwner _
  | joined => exact counters_flushOwner _
  | leave => exact counters_flushTask _ _ _
  | wake => exact counters_flushTask _ _ _
  | @settledLoop ok | @settledLast ok | @settledOwner ok => cases ok <;> rfl

/-! ## 2. What they count -/

/-- `dropped_total` counts both kinds of dropped records, the metric only the lost ones. -/
structure Counters.Correct (c : Counters) : Prop where
  metric : c.metric = c.lost.length
  dropped : c.dropped = c.lost.length + c.evicted.length

theorem Counters.Correct.count {c : Counters} (h : c.Correct) : (s.count c event).Correct := by
  cases event with
  | enqueue rec =>
    refine ⟨h.metric, ?_⟩
    simp only [DrainState.count, List.length_append, h.dropped]
    omega
  | settled who ok =>
    cases ok with
    | true => exact h
    | false =>
      refine ⟨?_, ?_⟩
      · simp only [DrainState.count, List.length_append, h.metric]
      · simp only [DrainState.count, List.length_append, h.dropped]
        omega
  | start | stop | check | wake | joined => exact h

variable {capacity flushSize : ℕ} {es : List DrainEvent}

theorem correct_of_run (hrun : Runs.run step (init capacity flushSize) es = some s) :
    s.counters.Correct := by
  refine Runs.invariant (fun _ s => s.counters.Correct) ⟨rfl, rfl⟩
    (fun _ s e s' h hstep => ?_) hrun
  rw [counters_step hstep]
  exact h.count

/-! ## 3. Evictions -/

/-- `enqueue` finds room, or nothing that it could evict. -/
def Fits (s : DrainState) : DrainEvent → Prop
  | .enqueue _ => s.queue.buffer = [] ∨ s.queue.buffer.length < s.queue.capacity
  | _ => True

instance (s : DrainState) (event : DrainEvent) : Decidable (s.Fits event) := by
  cases event <;> unfold Fits <;> infer_instance

theorem evicts_eq_nil_iff (q : AccountingQueue) :
    q.evicts = [] ↔ q.buffer = [] ∨ q.buffer.length < q.capacity := by
  unfold AccountingQueue.evicts
  split
  · rename_i hfull
    simp [not_lt.mpr hfull]
  · rename_i hroom
    simp [not_le.mp hroom]

/-- The records that the event evicts. -/
def evictedBy (s : DrainState) : DrainEvent → List AttemptRecord
  | .enqueue _ => s.queue.evicts
  | _ => []

theorem evictedBy_eq_nil_iff : s.evictedBy event = [] ↔ s.Fits event := by
  cases event with
  | enqueue rec => exact evicts_eq_nil_iff s.queue
  | start | stop | check | wake | joined | settled => exact ⟨fun _ => trivial, fun _ => rfl⟩

theorem evicted_step (hstep : s.step event = some s') :
    s'.evicted = s.evicted ++ s.evictedBy event := by
  have hcounters := congrArg Counters.evicted (counters_step hstep)
  cases event with
  | enqueue rec => exact hcounters
  | settled who ok => cases ok <;> exact hcounters.trans (List.append_nil _).symm
  | start | stop | check | wake | joined => exact hcounters.trans (List.append_nil _).symm

theorem evicted_prefix {m : DrainState} (hrun : Runs.run step m es = some s) :
    m.evicted <+: s.evicted :=
  Runs.invariant (fun _ s => m.evicted <+: s.evicted) (List.prefix_refl _)
    (fun _ s e s' h hstep => by
      rw [evicted_step hstep]
      exact h.trans (List.prefix_append _ _)) hrun

/-- **Nothing was evicted if and only if every `enqueue` found room.** -/
theorem evicted_eq_nil_iff (hrun : Runs.run step (init capacity flushSize) es = some s) :
    s.evicted = [] ↔ Runs.Along step Fits (init capacity flushSize) es := by
  constructor
  · intro hnone
    refine Runs.along_iff.mpr fun before event after hes m hm => ?_
    rw [hes] at hrun
    obtain ⟨m₀, hm₀, hrest⟩ := Runs.run_append_iff.mp hrun
    obtain rfl := Option.some.inj (hm.symm.trans hm₀)
    obtain ⟨m', hm', hrest⟩ := Runs.run_cons_iff.mp hrest
    have hprefix := evicted_prefix hrest
    rw [hnone, List.prefix_nil, evicted_step hm'] at hprefix
    exact evictedBy_eq_nil_iff.mp (List.append_eq_nil_iff.mp hprefix).2
  · refine Runs.invariant_along Fits (fun _ s => s.evicted = []) rfl
      (fun _ s e s' h hfits hstep => ?_) hrun
    rw [evicted_step hstep, h, evictedBy_eq_nil_iff.mpr hfits, List.append_nil]

/-! ## 4. When the metric is right -/

/-- The metric and `dropped_total` are both the number of the dropped records. -/
structure Truthful (s : DrainState) : Prop where
  metric : s.accountingDropped = s.queue.droppedTotal
  dropped : s.queue.droppedTotal = (s.lost ++ s.evicted).length

/-- **The metric tells the truth, after a run, if and only if every `enqueue` of the run found
room** or an empty buffer; `dropped_total` does always. -/
theorem metric_truthful_iff {capacity flushSize : ℕ} {es : List DrainEvent} {s : DrainState}
    (hrun : Runs.run step (init capacity flushSize) es = some s) :
    (s.Truthful ↔ Runs.Along step Fits (init capacity flushSize) es) ∧
      s.queue.droppedTotal = (s.lost ++ s.evicted).length := by
  obtain ⟨hmetric, hdropped⟩ := correct_of_run hrun
  have hmetric : s.accountingDropped = s.lost.length := hmetric
  have htotal : s.queue.droppedTotal = (s.lost ++ s.evicted).length := by
    rw [List.length_append]
    exact hdropped
  refine ⟨?_, htotal⟩
  rw [← evicted_eq_nil_iff hrun, ← List.length_eq_zero_iff]
  rw [List.length_append] at htotal
  constructor
  · rintro ⟨hsame, -⟩
    omega
  · intro hnone
    exact ⟨by omega, by rw [List.length_append, htotal]⟩

/-- Two batches, the second of which is not written. -/
def lossyEvents : List DrainEvent :=
  [.start, .enqueue (sampleRecord "r1"), .check, .wake, .enqueue (sampleRecord "r2"),
    .settled .loop true, .check, .wake, .settled .loop false]

theorem metric_truthful_iff_lossy : ∃ s, Runs.run step (init 1 200) lossyEvents = some s ∧
    s.Truthful ∧ s.accountingDropped = 1 := by
  have hrun : Runs.run step (init 1 200) lossyEvents = some _ := rfl
  exact ⟨_, hrun, (metric_truthful_iff hrun).1.mpr (by decide), rfl⟩

/-- A record is evicted, and the metric does not know. -/
theorem eviction_uncounted : ¬ ∀ (capacity flushSize : ℕ) (es : List DrainEvent) (s : DrainState),
    Runs.run step (init capacity flushSize) es = some s → s.Truthful := by
  intro h
  have htruthful := h 1 200 [.enqueue (sampleRecord "r1"), .enqueue (sampleRecord "r2")] _ rfl
  have hmetric := htruthful.metric
  exact absurd hmetric (by decide)

end DrainState
end Librouter
