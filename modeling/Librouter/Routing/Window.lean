/-
# The observation window is exact

The observers of all replicas count into one Redis hash per candidate and second, and every count
renews the time to live of the hash.  `aggregate` sums the hashes of the last `window_s` seconds.
Here the records themselves are kept as a list (`ObserverSystem`), on one clock that does not go
backwards, which is Redis' as well.

A time to live of four windows outlasts the window, and the names of the hashes are unambiguous, so
what is summed is what was recorded: `aggregate_exact`.
-/
import Librouter.RedisState.Keys
import Librouter.Foundations.Runs

namespace Librouter

/-! ## 1. Records -/

/-- `record_success(latency_s=...)` or `record_failure(kind=...)`. -/
inductive ObservedOutcome
  | success (latencyS : ℚ)
  | failure (kind : String)

/-- A record. -/
structure Observation where
  time : ℚ
  cand : CandidateRef
  outcome : ObservedOutcome

namespace ObservedOutcome

/-- What is incremented. -/
def incrs : ObservedOutcome → List (String × ℤ)
  | success latencyS =>
    [("successes", 1), ("latency_sum_ms", toInt (latencyS * 1000)), ("latency_count", 1)]
  | failure kind => [("failures", 1), ("fail_" ++ kind, 1)]

def isSuccess : ObservedOutcome → Bool
  | success _ => true
  | failure _ => false

/-- The milliseconds that are recorded. -/
def latencyMs : ObservedOutcome → ℤ
  | success latencyS => toInt (latencyS * 1000)
  | failure _ => 0

end ObservedOutcome

namespace Observation

/-- The second under which it is counted. -/
def second (x : Observation) : ℤ := toInt x.time

/-- By how much a field is incremented. -/
def incr (x : Observation) (field : String) : ℤ :=
  (x.outcome.incrs.map fun i => if i.1 = field then i.2 else 0).sum

/-- The candidate's names can be told apart in the key. -/
def Named (x : Observation) : Prop := ':' ∉ x.cand.provider.toList

end Observation

namespace Observer

variable (o : Observer)

/-- `record_success` or `record_failure`, on a Redis. -/
def observe (r : Redis) (x : Observation) : Redis := o.record r x.time x.cand x.outcome.incrs

theorem observe_success (r : Redis) (nowS : ℚ) (cand : CandidateRef) (latencyS : ℚ) :
    o.observe r ⟨nowS, cand, .success latencyS⟩ = o.recordSuccess r nowS cand latencyS := rfl

theorem observe_failure (r : Redis) (nowS : ℚ) (cand : CandidateRef) (kind : String) :
    o.observe r ⟨nowS, cand, .failure kind⟩ = o.recordFailure r nowS cand kind := rfl

/-- The time to live of a hash, in seconds. -/
def ttlS : ℚ := o.windowS * 4

/-- What `aggregate` sums up in one field. -/
def windowSum (r : Redis) (nowS : ℚ) (cand : CandidateRef) (field : String) : ℤ :=
  ((intRange (toInt nowS - o.windowS) (toInt nowS + 1)).map fun sec =>
    (r.read (nowS * 1000) (observeKey cand.provider cand.model sec)).count field).sum

end Observer

/-- Redis, which all replicas share, and the time. -/
structure ObserverSystem where
  redis : Redis
  clock : ℚ
  /-- history: what was recorded -/
  history : List Observation := []

/-- A replica records an outcome. -/
def ObserverSystem.step (o : Observer) (s : ObserverSystem) (x : Observation) :
    Option ObserverSystem :=
  if s.clock ≤ x.time then
    some { redis := o.observe s.redis x, clock := x.time, history := s.history ++ [x] }
  else none

/-- Nothing was observed. -/
def Redis.NoObservations (r : Redis) : Prop :=
  ∀ provider model sec, r.get? (observeKey provider model sec) = none

/-- No record has been made. -/
def ObserverSystem.boot (redis : Redis) (start : ℚ) : ObserverSystem :=
  { redis := redis, clock := start }

/-! ## 2. One hash -/

/-- The records that one hash counts. -/
def ownRecords (history : List Observation) (cand : CandidateRef) (n : ℤ) : List Observation :=
  history.filter fun x => x.cand = cand ∧ x.second = n

theorem mem_ownRecords {history : List Observation} {cand : CandidateRef} {n : ℤ}
    {x : Observation} : x ∈ ownRecords history cand n ↔
      x ∈ history ∧ x.cand = cand ∧ x.second = n := by
  simp [ownRecords]

theorem ownRecords_concat (history : List Observation) (x : Observation) (cand : CandidateRef)
    (n : ℤ) : ownRecords (history ++ [x]) cand n =
      ownRecords history cand n ++ if x.cand = cand ∧ x.second = n then [x] else [] := by
  rw [ownRecords, List.filter_append, ← ownRecords]
  by_cases h : x.cand = cand ∧ x.second = n <;> simp [h]

/-- The hash counts the records of the list, field by field. -/
def RedisEntry.Sums (e : RedisEntry) (xs : List Observation) : Prop :=
  ∀ field, e.count field = (xs.map fun x => x.incr field).sum

theorem RedisEntry.sums_missing : RedisEntry.missing.Sums [] := fun field =>
  RedisEntry.count_missing field

theorem RedisEntry.count_foldl_hincrby (field : String) : ∀ (incrs : List (String × ℤ))
    (e : RedisEntry), (incrs.foldl (fun e i => e.hincrby i.1 i.2) e).count field =
      e.count field + (incrs.map fun i => if i.1 = field then i.2 else 0).sum
  | [], e => by simp
  | i :: incrs, e => by
    rw [List.foldl_cons, count_foldl_hincrby field incrs, List.map_cons, List.sum_cons, ← add_assoc]
    by_cases h : i.1 = field
    · subst h
      rw [count_hincrby_self, if_pos rfl]
    · rw [count_hincrby_ne e i.2 (Ne.symm h), if_neg h, add_zero]

/-- A pipeline adds its record. -/
theorem RedisEntry.Sums.observe {e : RedisEntry} {xs : List Observation} (h : e.Sums xs)
    (x : Observation) :
    (x.outcome.incrs.foldl (fun e i => e.hincrby i.1 i.2) e).Sums (xs ++ [x]) := by
  intro field
  rw [count_foldl_hincrby, h field, List.map_append, List.sum_append, List.map_singleton,
    List.sum_singleton]
  rfl

/-! ## 3. Redis and the history -/

/-- Every hash of a candidate is there iff something was recorded under it; it is due a time to live
after the last record, and it counts them all. -/
structure Observer.Logged (o : Observer) (r : Redis) (history : List Observation) : Prop where
  absent : ∀ cand n, ':' ∉ cand.provider.toList → ownRecords history cand n = [] →
    r.get? (observeKey cand.provider cand.model n) = none
  present : ∀ cand n xs y, ':' ∉ cand.provider.toList → ownRecords history cand n = xs ++ [y] →
    ∃ e, r.get? (observeKey cand.provider cand.model n) = some e ∧
      e.expireAtMs = some ((y.time + o.ttlS) * 1000) ∧ e.Sums (xs ++ [y])

/-- Two hashes have one name only if they are of one candidate and one second. -/
theorem observeKey_inj {cand cand' : CandidateRef} {m n : ℤ} (hcand : ':' ∉ cand.provider.toList)
    (hcand' : ':' ∉ cand'.provider.toList)
    (h : observeKey cand.provider cand.model m = observeKey cand'.provider cand'.model n) :
    cand = cand' ∧ m = n := by
  have hkey : GatewayKey.observe cand.provider cand.model m =
      .observe cand'.provider cand'.model n := GatewayKey.text_inj hcand hcand' h
  obtain ⟨hprovider, hmodel, hsec⟩ := GatewayKey.observe.inj hkey
  obtain ⟨provider, model⟩ := cand
  obtain ⟨provider', model'⟩ := cand'
  simp only at hprovider hmodel
  exact ⟨by rw [hprovider, hmodel], hsec⟩

section Logged

variable {o : Observer} {r : Redis} {history : List Observation} {x : Observation}

/-- What a command finds in a hash that has not expired. -/
theorem Observer.Logged.read_of_alive (h : o.Logged r history) {cand : CandidateRef} {n : ℤ} {t : ℚ}
    (hcand : ':' ∉ cand.provider.toList)
    (halive : ∀ y ∈ ownRecords history cand n, t < y.time + o.ttlS) :
    (r.read (t * 1000) (observeKey cand.provider cand.model n)).Sums
      (ownRecords history cand n) := by
  rcases List.eq_nil_or_concat (ownRecords history cand n) with hnil | ⟨xs, y, hown⟩
  · rw [Redis.read, h.absent cand n hcand hnil, hnil]
    exact RedisEntry.sums_missing
  · rw [List.concat_eq_append] at hown
    obtain ⟨e, he, hdue, hsums⟩ := h.present cand n xs y hcand hown
    rw [Redis.read_present he hdue, if_pos (halive y (by rw [hown]; simp)), hown]
    exact hsums

/-- **A record keeps the log.** -/
theorem Observer.Logged.observe (h : o.Logged r history) (hw : 1 ≤ o.windowS) (hx : x.Named) :
    o.Logged (o.observe r x) (history ++ [x]) := by
  have hget : ∀ cand n, ':' ∉ cand.provider.toList → ¬ (x.cand = cand ∧ x.second = n) →
      (o.observe r x).get? (observeKey cand.provider cand.model n) =
        r.get? (observeKey cand.provider cand.model n) := by
    intro cand n hcand hne
    refine Dict.get?_set_ne r _ fun hkey => hne ?_
    obtain ⟨hc, hn⟩ := observeKey_inj hcand hx hkey
    exact ⟨hc.symm, hn.symm⟩
  constructor
  · intro cand n hcand hown
    rw [ownRecords_concat] at hown
    obtain ⟨hown, hnot⟩ := List.append_eq_nil_iff.mp hown
    have hne : ¬ (x.cand = cand ∧ x.second = n) := fun hxn => by simp [hxn] at hnot
    rw [hget cand n hcand hne]
    exact h.absent cand n hcand hown
  · intro cand n xs y hcand hown
    rw [ownRecords_concat] at hown
    by_cases hxn : x.cand = cand ∧ x.second = n
    · -- the hash of `x` itself
      rw [if_pos hxn] at hown
      obtain ⟨rfl, hxy⟩ := List.append_inj' hown rfl
      obtain rfl : x = y := by simpa using hxy
      obtain ⟨rfl, rfl⟩ := hxn
      have halive : ∀ y ∈ ownRecords history x.cand x.second, x.time < y.time + o.ttlS := by
        intro y hy
        obtain ⟨hy, -, hsec⟩ := mem_ownRecords.mp hy
        have hlt := lt_add_two_of_toInt_le (le_of_eq hsec.symm)
        have hw' : (1 : ℚ) ≤ o.windowS := by exact_mod_cast hw
        rw [ttlS]
        linarith
      refine ⟨_, Dict.get?_set_self r _ _, ?_, (h.read_of_alive hx halive).observe x⟩
      rw [RedisEntry.pexpire_expireAtMs, ttlS]
      ring_nf
    · rw [if_neg hxn, List.append_nil] at hown
      rw [hget cand n hcand hxn]
      exact h.present cand n xs y hcand hown

/-! ## 4. The window -/

/-- The records for a candidate in the seconds `int(now) - window_s..int(now)`. -/
def Observer.inWindow (o : Observer) (history : List Observation) (nowS : ℚ) (cand : CandidateRef) :
    List Observation :=
  history.filter fun x =>
    x.cand = cand ∧ toInt nowS - o.windowS ≤ x.second ∧ x.second ≤ toInt nowS

/-- **What is summed in the window is what was recorded in it**: no hash of the window has expired. -/
theorem Observer.Logged.windowSum_eq (h : o.Logged r history) (hw : 1 ≤ o.windowS)
    {cand : CandidateRef} (hcand : ':' ∉ cand.provider.toList) (nowS : ℚ) (field : String) :
    o.windowSum r nowS cand field =
      ((o.inWindow history nowS cand).map fun x => x.incr field).sum := by
  have hread : ∀ sec ∈ intRange (toInt nowS - o.windowS) (toInt nowS + 1),
      (r.read (nowS * 1000) (observeKey cand.provider cand.model sec)).count field =
        (((history.filter fun x => x.cand = cand).filter fun x => x.second = sec).map
          fun x => x.incr field).sum := by
    intro sec hsec
    have hown : ownRecords history cand sec =
        (history.filter fun x => x.cand = cand).filter fun x => x.second = sec := by
      rw [ownRecords, List.filter_filter]
      refine List.filter_congr fun x _ => ?_
      by_cases hc : x.cand = cand <;> simp [hc]
    rw [← hown]
    refine h.read_of_alive hcand (fun y hy => ?_) field
    obtain ⟨-, -, rfl⟩ := mem_ownRecords.mp hy
    have hlow : toInt nowS - o.windowS ≤ toInt y.time := (mem_intRange.mp hsec).1
    have hnow := sub_one_lt_toInt nowS
    have hy := toInt_lt_add_one y.time
    have hlow' : ((toInt nowS : ℚ)) - o.windowS ≤ toInt y.time := by exact_mod_cast hlow
    have hw' : (1 : ℚ) ≤ o.windowS := by exact_mod_cast hw
    rw [ttlS]
    linarith
  rw [windowSum, List.map_congr_left hread, sum_map_intRange Observation.second, inWindow,
    List.filter_filter]
  congr 2
  refine List.filter_congr fun x _ => ?_
  by_cases hc : x.cand = cand <;> simp [hc]

end Logged

/-- The counter of a failure's kind is none of the others. -/
theorem fail_append_ne (kind field : String) (h : ¬ "fail_".toList <+: field.toList) :
    "fail_" ++ kind ≠ field := by
  rintro rfl
  exact h (by rw [String.toList_append]; exact List.prefix_append _ _)

section Fields

variable (x : Observation)

theorem Observation.incr_successes :
    x.incr "successes" = if x.outcome.isSuccess then 1 else 0 := by
  obtain ⟨time, cand, outcome⟩ := x
  cases outcome with
  | success latencyS => simp [incr, ObservedOutcome.incrs, ObservedOutcome.isSuccess]
  | failure kind =>
    have hne := fail_append_ne kind "successes" (by decide)
    simp [incr, ObservedOutcome.incrs, ObservedOutcome.isSuccess, hne]

theorem Observation.incr_failures :
    x.incr "failures" = if !x.outcome.isSuccess then 1 else 0 := by
  obtain ⟨time, cand, outcome⟩ := x
  cases outcome with
  | success latencyS => simp [incr, ObservedOutcome.incrs, ObservedOutcome.isSuccess]
  | failure kind =>
    have hne := fail_append_ne kind "failures" (by decide)
    simp [incr, ObservedOutcome.incrs, ObservedOutcome.isSuccess, hne]

theorem Observation.incr_latency_sum_ms : x.incr "latency_sum_ms" = x.outcome.latencyMs := by
  obtain ⟨time, cand, outcome⟩ := x
  cases outcome with
  | success latencyS => simp [incr, ObservedOutcome.incrs, ObservedOutcome.latencyMs]
  | failure kind =>
    have hne := fail_append_ne kind "latency_sum_ms" (by decide)
    simp [incr, ObservedOutcome.incrs, ObservedOutcome.latencyMs, hne]

theorem Observation.incr_latency_count :
    x.incr "latency_count" = if x.outcome.isSuccess then 1 else 0 := by
  obtain ⟨time, cand, outcome⟩ := x
  cases outcome with
  | success latencyS => simp [incr, ObservedOutcome.incrs, ObservedOutcome.isSuccess]
  | failure kind =>
    have hne := fail_append_ne kind "latency_count" (by decide)
    simp [incr, ObservedOutcome.incrs, ObservedOutcome.isSuccess, hne]

end Fields

/-! ## 5. Every run -/

/-- What `aggregate` answers are the records of the window. -/
structure AggregateExact (o : Observer) (r : Redis) (nowS : ℚ) (cand : CandidateRef)
    (window : List Observation) : Prop where
  successes : (o.aggregate r nowS cand).successes = window.countP fun x => x.outcome.isSuccess
  failures : (o.aggregate r nowS cand).failures = window.countP fun x => !x.outcome.isSuccess
  latency_sum_ms : o.windowSum r nowS cand "latency_sum_ms" =
    (window.map fun x => x.outcome.latencyMs).sum
  latency_count : o.windowSum r nowS cand "latency_count" =
    window.countP fun x => x.outcome.isSuccess
  total : (o.aggregate r nowS cand).total = window.length
  errorRate : (o.aggregate r nowS cand).errorRate =
    if window = [] then 0 else (window.countP fun x => !x.outcome.isSuccess : ℚ) / window.length
  errorRate_range : 0 ≤ (o.aggregate r nowS cand).errorRate ∧
    (o.aggregate r nowS cand).errorRate ≤ 1
  /-- the mean over the successes; the failures have no milliseconds -/
  meanLatencyS : (o.aggregate r nowS cand).meanLatencyS =
    if window.countP (fun x => x.outcome.isSuccess) = 0 then 0
    else (((window.filter fun x => x.outcome.isSuccess).map fun x => x.outcome.latencyMs).sum : ℤ) /
      (window.countP (fun x => x.outcome.isSuccess) : ℚ) / 1000

/-- A failure has no milliseconds. -/
theorem ObservedOutcome.latencyMs_of_failure {outcome : ObservedOutcome}
    (h : outcome.isSuccess = false) : outcome.latencyMs = 0 := by
  cases outcome with
  | success latencyS => cases h
  | failure kind => rfl

theorem sum_latencyMs_filter (window : List Observation) :
    ((window.filter fun x => x.outcome.isSuccess).map fun x => x.outcome.latencyMs).sum =
      (window.map fun x => x.outcome.latencyMs).sum := by
  induction window with
  | nil => rfl
  | cons x window ih =>
    cases h : x.outcome.isSuccess with
    | true => simp [h, ih]
    | false => simp [h, ih, ObservedOutcome.latencyMs_of_failure h]

theorem Observer.Logged.aggregateExact {o : Observer} {r : Redis} {history : List Observation}
    (h : o.Logged r history) (hw : 1 ≤ o.windowS) {cand : CandidateRef}
    (hcand : ':' ∉ cand.provider.toList) (nowS : ℚ) :
    AggregateExact o r nowS cand (o.inWindow history nowS cand) := by
  set window := o.inWindow history nowS cand with hwindow
  have hsum : ∀ field, o.windowSum r nowS cand field = (window.map fun x => x.incr field).sum :=
    h.windowSum_eq hw hcand nowS
  have hsuccesses : o.windowSum r nowS cand "successes" =
      window.countP fun x => x.outcome.isSuccess := by
    rw [hsum, countP_eq_sum]
    simp only [Observation.incr_successes]
  have hfailures : o.windowSum r nowS cand "failures" =
      window.countP fun x => !x.outcome.isSuccess := by
    rw [hsum, countP_eq_sum]
    simp only [Observation.incr_failures]
  have hms : o.windowSum r nowS cand "latency_sum_ms" =
      (window.map fun x => x.outcome.latencyMs).sum := by
    rw [hsum]
    simp only [Observation.incr_latency_sum_ms]
  have hcount : o.windowSum r nowS cand "latency_count" =
      window.countP fun x => x.outcome.isSuccess := by
    rw [hsum, countP_eq_sum]
    simp only [Observation.incr_latency_count]
  have hagg : o.aggregate r nowS cand =
      { successes := o.windowSum r nowS cand "successes"
        failures := o.windowSum r nowS cand "failures"
        total := o.windowSum r nowS cand "successes" + o.windowSum r nowS cand "failures"
        meanLatencyS := if o.windowSum r nowS cand "latency_count" = 0 then 0
          else (o.windowSum r nowS cand "latency_sum_ms" : ℚ) /
            o.windowSum r nowS cand "latency_count" / 1000
        errorRate :=
          if o.windowSum r nowS cand "successes" + o.windowSum r nowS cand "failures" = 0 then 0
          else (o.windowSum r nowS cand "failures" : ℚ) /
            (o.windowSum r nowS cand "successes" + o.windowSum r nowS cand "failures" : ℤ) } := by
    simp only [aggregate, windowSum, List.map_map]
    rfl
  have htotal : (window.countP (fun x => x.outcome.isSuccess) : ℤ) +
      window.countP (fun x => !x.outcome.isSuccess) = window.length := by
    have hsplit := List.length_eq_countP_add_countP (p := fun x => x.outcome.isSuccess) (l := window)
    rw [hsplit]
    push_cast
    simp
  rw [hsuccesses, hfailures, hms, hcount, htotal] at hagg
  have hle : (window.countP (fun x => !x.outcome.isSuccess) : ℚ) ≤ window.length := by
    exact_mod_cast List.countP_le_length
  have hrate : (o.aggregate r nowS cand).errorRate = if window = [] then 0
      else (window.countP (fun x => !x.outcome.isSuccess) : ℚ) / window.length := by
    rw [hagg]
    by_cases hnil : window = []
    · simp [hnil]
    · have hne : (window.length : ℤ) ≠ 0 := by
        exact_mod_cast fun hzero => hnil (List.length_eq_zero_iff.mp hzero)
      simp [hnil]
  refine ⟨by rw [hagg], by rw [hagg], hms, hcount, by rw [hagg], hrate, ?_, ?_⟩
  · rw [hrate]
    split
    · exact ⟨le_refl 0, zero_le_one⟩
    · exact ⟨div_nonneg (Nat.cast_nonneg _) (Nat.cast_nonneg _), div_le_one_of_le₀ hle
        (Nat.cast_nonneg _)⟩
  · rw [hagg, sum_latencyMs_filter]
    by_cases hzero : window.countP (fun x => x.outcome.isSuccess) = 0
    · simp [hzero]
    · simp [hzero]

theorem Observer.logged_boot {o : Observer} {redis : Redis} (h : redis.NoObservations) :
    o.Logged redis [] where
  absent cand n _ _ := h cand.provider cand.model n
  present cand n xs y _ hown := by simp [ownRecords] at hown

/-- **What the observers count is what was recorded.**  After every run of records, of any
candidates by any replica, `aggregate` answers for the records of its window. -/
theorem aggregate_exact (o : Observer) (redis : Redis) (start : ℚ) (xs : List Observation)
    (s : ObserverSystem) (hw : 1 ≤ o.windowS) (hredis : redis.NoObservations)
    (hxs : ∀ x ∈ xs, x.Named)
    (hrun : Runs.run (ObserverSystem.step o) (.boot redis start) xs = some s) (nowS : ℚ)
    (cand : CandidateRef) (hcand : ':' ∉ cand.provider.toList) :
    AggregateExact o s.redis nowS cand (o.inWindow xs nowS cand) := by
  have hall : s.history = xs ∧ o.Logged s.redis s.history := by
    refine Runs.invariant_along (fun _ x => x.Named)
      (fun xs s => s.history = xs ∧ o.Logged s.redis s.history) ⟨rfl, Observer.logged_boot hredis⟩
      ?_ hrun (Runs.along_of_forall xs _ hxs)
    rintro past s x s' ⟨rfl, hlogged⟩ hx hstep
    obtain ⟨-, hstep⟩ := Option.ite_none_right_eq_some.mp hstep
    cases hstep
    exact ⟨rfl, hlogged.observe hw hx⟩
  rw [← hall.1]
  exact hall.2.aggregateExact hw hcand nowS

/-- A success at the edge of the window, and a failure after it. -/
def edgeRecords : List Observation :=
  [⟨5 / 2, ⟨"openai", "gpt-4o-mini"⟩, .success (3 / 4)⟩,
    ⟨60, ⟨"openai", "gpt-4o-mini"⟩, .failure "Timeout"⟩]

/-- The exact window, on that run, within the second in which the success is still in it. -/
theorem aggregate_exact_edge : ∃ s,
    Runs.run (ObserverSystem.step {}) (.boot Dict.empty 0) edgeRecords = some s ∧
      AggregateExact {} s.redis (125 / 2) ⟨"openai", "gpt-4o-mini"⟩
        (Observer.inWindow {} edgeRecords (125 / 2) ⟨"openai", "gpt-4o-mini"⟩) := by
  have hsome : (Runs.run (ObserverSystem.step {}) (.boot Dict.empty 0) edgeRecords).isSome := by
    decide +kernel
  obtain ⟨s, hs⟩ := Option.isSome_iff_exists.mp hsome
  refine ⟨s, hs, aggregate_exact {} Dict.empty 0 edgeRecords s (by decide)
    (fun _ _ _ => Dict.get?_empty _) ?_ hs _ _ (by decide)⟩
  intro x hx
  rcases List.mem_pair.mp hx with rfl | rfl
  · show ':' ∉ "openai".toList
    decide
  · show ':' ∉ "openai".toList
    decide

end Librouter
