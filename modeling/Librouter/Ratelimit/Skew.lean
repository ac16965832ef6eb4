/-
# What a bucket key accepts when replicas' clocks disagree

`RATELIMIT_LUA` gives a late call no refill, but it writes the late `now_ms` back.  The next call
on time is then credited the milliseconds between the two readings, which an earlier call had
been credited already.  So what governs a run is not the time its readings span but the time it
was CREDITED: the sum over neighbouring readings of the step forward, at most a minute each
because a minute refills a whole bucket (`creditedMs`).

* Every run accepts at most a full bucket plus the refill of the credited time
  (`accepted_le_credited`).
* A run that takes all there is at every call takes exactly that (`acceptedTokens_greedy`).

Hence the bound by the span holds, for all caps and all requests, exactly for the readings that
are credited no more than they span (`skew_bound_iff`): every clock that does not go back is one
(`creditedMs_le_span_of_sorted`), and two replicas a minute apart are not
(`skew_overage`).
-/
import Librouter.Ratelimit

namespace Librouter

open TokenBucket

/-! ## 1. Credited time -/

/-- The milliseconds a call at `t` after a call at `t₀` is credited. -/
def creditMs (t₀ t : ℚ) : ℚ := min 60000 (max 0 (t - t₀))

/-- The milliseconds a sequence of readings is credited. -/
def creditedMs : List ℚ → ℚ
  | [] => 0
  | [_] => 0
  | t₀ :: t :: ts => creditMs t₀ t + creditedMs (t :: ts)

/-- `hi - lo`: from the least reading to the greatest. -/
def spanMs (ts : List ℚ) : ℚ := ts.max?.getD 0 - ts.min?.getD 0

theorem creditMs_nonneg (t₀ t : ℚ) : 0 ≤ creditMs t₀ t := le_min (by norm_num) (le_max_left _ _)

/-- A refill is paid by the credited milliseconds. -/
theorem refill_le_credit {cap level : ℚ} (t₀ t : ℚ) (hcap : 0 ≤ cap) (hl : 0 ≤ level) :
    refill cap (cap / 60000) level (max 0 (t - t₀)) ≤ level + cap / 60000 * creditMs t₀ t := by
  refine (refill_le_add_cap hl).trans ?_
  have hrate : 0 ≤ cap / 60000 := div_nonneg hcap (by norm_num)
  have hcap' : cap / 60000 * 60000 = cap := by ring
  rw [creditMs, mul_min_of_nonneg _ _ hrate, hcap', mul_comm (cap / 60000)]

/-! ## 2. No run accepts more than it is credited -/

/-- The calls of a run of acquires: `(now_ms, request_tokens)`. -/
def acquireAll (calls : List (ℚ × ℚ)) : List BucketCall :=
  calls.map fun p => .acquire p.1 p.2

theorem acceptedCount_cons (row : AcquireRow) (rows : List AcquireRow) :
    (acceptedCount (row :: rows) : ℚ) = row.rpmSpent + acceptedCount rows := by
  cases h : row.ok <;> simp [acceptedCount, AcquireRow.rpmSpent, h, add_comm]

theorem acceptedTokens_cons (row : AcquireRow) (rows : List AcquireRow) :
    acceptedTokens (row :: rows) = row.tpmSpent + acceptedTokens rows := by
  cases h : row.ok <;> simp [acceptedTokens, AcquireRow.tpmSpent, h]

/-- From stored levels on, a run accepts at most them plus the refill of the credited time.  The
induction is on the calls: each takes from what it finds and hands the rest on. -/
theorem accepted_le_stored (c : BucketCaps) (calls : List (ℚ × ℚ)) {t₀ r p : ℚ} {e : RedisEntry}
    (h : Stored t₀ r p e) (hr : 0 ≤ r) (hp : 0 ≤ p) :
    (acceptedCount (runCalls c e (acquireAll calls)) : ℚ)
        ≤ r + c.rpmCap / 60000 * creditedMs (t₀ :: calls.map Prod.fst) ∧
      acceptedTokens (runCalls c e (acquireAll calls))
        ≤ p + c.tpmCap / 60000 * creditedMs (t₀ :: calls.map Prod.fst) := by
  induction calls generalizing t₀ r p e with
  | nil => simpa [acquireAll, runCalls, acceptedCount, acceptedTokens, creditedMs] using ⟨hr, hp⟩
  | cons x calls ih =>
    obtain ⟨t, n⟩ := x
    have hcr := c.rpmCap_nonneg
    have hcp := c.tpmCap_nonneg
    have hel : (0 : ℚ) ≤ max 0 (t - t₀) := le_max_left _ _
    have hrpm := h.refilledRpm (c := c) t n
    have htpm := h.refilledTpm (c := c) t n
    have hr' : 0 ≤ (acquireRow c e t n).rpmLevel :=
      rpmLeft_nonneg (hrpm ▸ refill_nonneg hcr hr (div_nonneg hcr (by norm_num)) hel)
    have hp' : 0 ≤ (acquireRow c e t n).tpmLevel :=
      tpmLeft_nonneg (htpm ▸ refill_nonneg hcp hp (div_nonneg hcp (by norm_num)) hel)
    obtain ⟨ih₁, ih₂⟩ := ih (stored_acquire c e t n) hr' hp'
    have hs₁ := rpmLevel_add_spent c e t n
    have hs₂ := tpmLevel_add_spent c e t n
    have hle₁ := refill_le_credit t₀ t hcr hr
    have hle₂ := refill_le_credit t₀ t hcp hp
    rw [← hrpm, ← hs₁] at hle₁
    rw [← htpm, ← hs₂] at hle₂
    simp only [acquireAll, List.map_cons, runCalls, acceptedCount_cons, acceptedTokens_cons,
      creditedMs, mul_add] at ih₁ ih₂ ⊢
    constructor <;> linarith

/-- **The credited bound.**  A run on a fresh key accepts at most a full bucket plus the refill
of the time it was credited, whichever way its clocks go. -/
theorem accepted_le_credited (c : BucketCaps) (calls : List (ℚ × ℚ)) :
    (acceptedCount (runCalls c .missing (acquireAll calls)) : ℚ)
        ≤ c.rpmCap + c.rpmCap / 60000 * creditedMs (calls.map Prod.fst) ∧
      acceptedTokens (runCalls c .missing (acquireAll calls))
        ≤ c.tpmCap + c.tpmCap / 60000 * creditedMs (calls.map Prod.fst) := by
  have hcr := c.rpmCap_nonneg
  have hcp := c.tpmCap_nonneg
  rcases calls with _ | ⟨⟨t, n⟩, calls⟩
  · simpa [acquireAll, runCalls, acceptedCount, acceptedTokens, creditedMs] using ⟨hcr, hcp⟩
  · obtain ⟨hrpm, htpm⟩ := refilled_missing c t n
    have hr' : 0 ≤ (acquireRow c .missing t n).rpmLevel := rpmLeft_nonneg (hrpm ▸ hcr)
    have hp' : 0 ≤ (acquireRow c .missing t n).tpmLevel := tpmLeft_nonneg (htpm ▸ hcp)
    obtain ⟨h₁, h₂⟩ := accepted_le_stored c calls (stored_acquire c .missing t n) hr' hp'
    have hs₁ := rpmLevel_add_spent c .missing t n
    have hs₂ := tpmLevel_add_spent c .missing t n
    simp only [acquireAll, List.map_cons, runCalls, acceptedCount_cons, acceptedTokens_cons]
      at h₁ h₂ ⊢
    constructor <;> linarith

/-! ## 3. The run that takes all there is

With 60000 tokens a minute the token dimension refills one per millisecond.  The draining run
asks at every call for exactly the tokens it finds, and there are enough requests for all of
its calls. -/

/-- One request for each of `n` calls, and a token per millisecond. -/
def drainCaps (n : ℕ) : BucketCaps where
  rpmCap := max 1 n
  tpmCap := 60000
  one_le_rpmCap := le_max_left _ _
  one_le_tpmCap := by norm_num

/-- After a call at `t₀` that left nothing, every call asks for what it was credited. -/
def drainFrom (t₀ : ℚ) : List ℚ → List (ℚ × ℚ)
  | [] => []
  | t :: ts => (t, creditMs t₀ t) :: drainFrom t ts

/-- The draining run with the given readings. -/
def drainCalls : List ℚ → List (ℚ × ℚ)
  | [] => []
  | t :: ts => (t, 60000) :: drainFrom t ts

theorem map_fst_drainFrom : ∀ (ts : List ℚ) (t₀ : ℚ), (drainFrom t₀ ts).map Prod.fst = ts
  | [], _ => rfl
  | t :: ts, _ => by rw [drainFrom, List.map_cons, map_fst_drainFrom ts t]

theorem map_fst_drainCalls : ∀ ts : List ℚ, (drainCalls ts).map Prod.fst = ts
  | [] => rfl
  | t :: ts => by rw [drainCalls, List.map_cons, map_fst_drainFrom ts t]

theorem drainFrom_nonneg : ∀ (ts : List ℚ) (t₀ : ℚ), ∀ p ∈ drainFrom t₀ ts, 0 ≤ p.2
  | [], _ => by simp [drainFrom]
  | t :: ts, t₀ => by
    rw [drainFrom, List.forall_mem_cons]
    exact ⟨creditMs_nonneg t₀ t, drainFrom_nonneg ts t⟩

theorem drainCalls_nonneg : ∀ ts : List ℚ, ∀ p ∈ drainCalls ts, 0 ≤ p.2
  | [] => by simp [drainCalls]
  | t :: ts => by
    rw [drainCalls, List.forall_mem_cons]
    exact ⟨by norm_num, drainFrom_nonneg ts t⟩

/-- An acquire of all the tokens it finds, with a request to spare, takes them. -/
theorem acquireRow_of_all {c : BucketCaps} {e : RedisEntry} {t n : ℚ}
    (hr : 1 ≤ (c.acquireArgs t n).refilledRpm e) (hp : (c.acquireArgs t n).refilledTpm e = n) :
    (acquireRow c e t n).rpmLevel = (c.acquireArgs t n).refilledRpm e - 1 ∧
      (acquireRow c e t n).tpmLevel = 0 ∧ (acquireRow c e t n).tpmSpent = n := by
  have hok : (c.acquireArgs t n).ok e = true := ok_iff.mpr ⟨hr, hp.ge⟩
  refine ⟨if_pos hok, ?_, if_pos hok⟩
  refine (if_pos hok).trans ?_
  rw [hp]
  exact sub_self n

/-- A draining run takes every token it is credited.  The induction is on the readings; what
carries it is that the requests left cover the calls to come. -/
theorem acceptedTokens_drainFrom {n : ℕ} {ts : List ℚ} {t₀ r : ℚ} {e : RedisEntry}
    (h : Stored t₀ r 0 e) (hlen : ts.length ≤ n) (hr : ts.length ≤ r) :
    acceptedTokens (runCalls (drainCaps n) e (acquireAll (drainFrom t₀ ts)))
      = creditedMs (t₀ :: ts) := by
  induction ts generalizing t₀ r e with
  | nil => rfl
  | cons t ts ih =>
    have hn : ((ts.length + 1 : ℕ) : ℚ) ≤ n := by exact_mod_cast hlen
    have hr1 : ((ts.length + 1 : ℕ) : ℚ) ≤ r := by exact_mod_cast hr
    push_cast at hn hr1
    have hlen0 : (0 : ℚ) ≤ ts.length := Nat.cast_nonneg _
    have hfull : (ts.length + 1 : ℚ)
        ≤ ((drainCaps n).acquireArgs t (creditMs t₀ t)).refilledRpm e := by
      rw [h.refilledRpm, refill]
      refine le_min (hn.trans (le_max_right _ _)) (hr1.trans (le_add_of_nonneg_right ?_))
      exact mul_nonneg (le_max_left _ _) (div_nonneg (drainCaps n).rpmCap_nonneg (by norm_num))
    have htpm : ((drainCaps n).acquireArgs t (creditMs t₀ t)).refilledTpm e = creditMs t₀ t := by
      rw [h.refilledTpm, refill, creditMs]
      norm_num [drainCaps]
    obtain ⟨hrow, hzero, hspent⟩ := acquireRow_of_all (by linarith) htpm
    have hnext : Stored t (acquireRow (drainCaps n) e t (creditMs t₀ t)).rpmLevel 0
        (callState (drainCaps n) e (.acquire t (creditMs t₀ t))) :=
      hzero ▸ stored_acquire (drainCaps n) e t (creditMs t₀ t)
    have hrest := ih hnext (by simp only [List.length_cons] at hlen; omega) (by linarith)
    rw [drainFrom, acquireAll, List.map_cons, runCalls, acceptedTokens_cons, hspent, creditedMs]
    exact congrArg _ hrest

/-- **The draining run takes exactly what it is credited**, besides the full bucket it starts
from. -/
theorem acceptedTokens_drain (t : ℚ) (ts : List ℚ) :
    acceptedTokens (runCalls (drainCaps (ts.length + 1)) .missing (acquireAll (drainCalls (t :: ts))))
      = 60000 + creditedMs (t :: ts) := by
  obtain ⟨hrpm, htpm⟩ := refilled_missing (drainCaps (ts.length + 1)) t 60000
  have hcap : (ts.length + 1 : ℚ) ≤ (drainCaps (ts.length + 1)).rpmCap :=
    (by push_cast; exact le_refl _ : (ts.length + 1 : ℚ) ≤ ((ts.length + 1 : ℕ) : ℚ)).trans
      (le_max_right _ _)
  have hlen0 : (0 : ℚ) ≤ ts.length := Nat.cast_nonneg _
  obtain ⟨hrow, hzero, hspent⟩ := acquireRow_of_all (c := drainCaps (ts.length + 1))
    (e := .missing) (by rw [hrpm]; linarith) htpm
  have hnext : Stored t (acquireRow (drainCaps (ts.length + 1)) .missing t 60000).rpmLevel 0
      (callState (drainCaps (ts.length + 1)) .missing (.acquire t 60000)) :=
    hzero ▸ stored_acquire (drainCaps (ts.length + 1)) .missing t 60000
  have hrest := acceptedTokens_drainFrom hnext (Nat.le_succ _) (by rw [hrow, hrpm]; linarith)
  rw [drainCalls, acquireAll, List.map_cons, runCalls, acceptedTokens_cons, hspent]
  exact congrArg _ hrest

/-! ## 4. The bound by the span -/

/-- The run accepts at most a full bucket plus the refill of `span` milliseconds. -/
def WithinSpan (c : BucketCaps) (rows : List AcquireRow) (span : ℚ) : Prop :=
  (acceptedCount rows : ℚ) ≤ c.rpmCap + c.rpmCap / 60000 * span ∧
    acceptedTokens rows ≤ c.tpmCap + c.tpmCap / 60000 * span

/-- No caps and no requests make a run with the readings `ts` accept more than a full bucket
plus the refill of the time the readings span. -/
def NeverOver (ts : List ℚ) : Prop :=
  ∀ (c : BucketCaps) (calls : List (ℚ × ℚ)), calls.map Prod.fst = ts → (∀ p ∈ calls, 0 ≤ p.2) →
    WithinSpan c (runCalls c .missing (acquireAll calls)) (spanMs ts)

/-- **Skewed clocks never cause overage exactly when they are credited no more than they span.** -/
theorem skew_bound_iff (ts : List ℚ) : NeverOver ts ↔ creditedMs ts ≤ spanMs ts := by
  constructor
  · intro h
    rcases ts with _ | ⟨t, ts⟩
    · simp [creditedMs, spanMs]
    · have hdrain := (h (drainCaps (ts.length + 1)) (drainCalls (t :: ts))
        (map_fst_drainCalls _) (drainCalls_nonneg _)).2
      rw [acceptedTokens_drain] at hdrain
      have hone : (drainCaps (ts.length + 1)).tpmCap = 60000 := rfl
      rw [hone] at hdrain
      linarith
  · rintro h c calls rfl hnn
    obtain ⟨h₁, h₂⟩ := accepted_le_credited c calls
    have hr : c.rpmCap / 60000 * creditedMs (calls.map Prod.fst)
        ≤ c.rpmCap / 60000 * spanMs (calls.map Prod.fst) :=
      mul_le_mul_of_nonneg_left h (div_nonneg c.rpmCap_nonneg (by norm_num))
    have hp : c.tpmCap / 60000 * creditedMs (calls.map Prod.fst)
        ≤ c.tpmCap / 60000 * spanMs (calls.map Prod.fst) :=
      mul_le_mul_of_nonneg_left h (div_nonneg c.tpmCap_nonneg (by norm_num))
    exact ⟨by linarith, by linarith⟩

/-- One request and one token a minute. -/
def unitCaps : BucketCaps := ⟨1, 1, le_refl 1, le_refl 1⟩

/-- Two replicas, one a minute ahead of the other, call in turns. -/
def skewedCalls : List (ℚ × ℚ) := [(0, 0), (60000, 0), (0, 0), (60000, 0)]

/-- **Two replicas a minute apart overshoot.**  With one request a minute and clocks that read
0, 60000, 0 and 60000, three requests are accepted where the readings allow two. -/
theorem skew_overage :
    ¬ WithinSpan unitCaps (runCalls unitCaps .missing (acquireAll skewedCalls))
      (spanMs (skewedCalls.map Prod.fst)) := by
  intro h
  have hcount : acceptedCount (runCalls unitCaps .missing (acquireAll skewedCalls)) = 3 := by
    decide +kernel
  have hspan : spanMs (skewedCalls.map Prod.fst) = 60000 := by norm_num [spanMs, skewedCalls]
  have hle := h.1
  rw [hcount, hspan] at hle
  norm_num [unitCaps] at hle

theorem le_spanMs {ts : List ℚ} {x y : ℚ} (hx : x ∈ ts) (hy : y ∈ ts) : y - x ≤ spanMs ts := by
  obtain ⟨hi, hhi⟩ := Option.isSome_iff_exists.mp (List.isSome_max?_of_mem hy)
  obtain ⟨lo, hlo⟩ := Option.isSome_iff_exists.mp (List.isSome_min?_of_mem hx)
  have h₁ : y ≤ hi := (List.max?_eq_some_iff.mp hhi).2 y hy
  have h₂ : lo ≤ x := (List.min?_eq_some_iff.mp hlo).2 x hx
  rw [spanMs, hhi, hlo, Option.getD_some, Option.getD_some]
  exact sub_le_sub h₁ h₂

theorem creditedMs_le_of_sorted : ∀ {ts : List ℚ} {t₀ hi : ℚ}, (t₀ :: ts).Pairwise (· ≤ ·) →
    (∀ t ∈ t₀ :: ts, t ≤ hi) → creditedMs (t₀ :: ts) ≤ hi - t₀
  | [], t₀, hi, _, hle => by simpa [creditedMs] using hle t₀ List.mem_cons_self
  | t :: ts, t₀, hi, hs, hle => by
    obtain ⟨hge, hs'⟩ := List.pairwise_cons.mp hs
    have ih := creditedMs_le_of_sorted hs' fun x hx => hle x (List.mem_cons_of_mem _ hx)
    have hstep : creditMs t₀ t ≤ t - t₀ :=
      (min_le_right _ _).trans (max_le (sub_nonneg.mpr (hge t List.mem_cons_self)) (le_refl _))
    rw [creditedMs]
    linarith

/-- A clock that does not go back is credited no more than it spans. -/
theorem creditedMs_le_span_of_sorted : ∀ {ts : List ℚ}, ts.Pairwise (· ≤ ·) →
    creditedMs ts ≤ spanMs ts
  | [], _ => by simp [creditedMs, spanMs]
  | t :: ts, hs => by
    have hlast := List.getLast_mem (List.cons_ne_nil t ts)
    refine (creditedMs_le_of_sorted hs fun x hx => ?_).trans (le_spanMs List.mem_cons_self hlast)
    exact hs.rel_getLast hx

end Librouter
