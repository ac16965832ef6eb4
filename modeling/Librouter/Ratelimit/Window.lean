/-
# What a bucket key accepts in a window, on a clock that does not go back

For every run of acquires, clamps and expiries and every window of its acquires, at most a full
bucket plus the refill during the window is accepted, in requests and in tokens
(`window_accepted_le`).

The script's state between two acquires is one of two things (`After`).  Either the levels of the
last acquire are still there, lowered at most by clamps, and the refill since then is what the
next acquire can take in addition.  Or Redis dropped the key, and then the next acquire starts
from a full bucket; but at least ten minutes have passed, in which the refill alone covers one
(`cap_le_refill`).  So in both cases neighbouring rows satisfy the one local law the potential
argument of `Foundations.Bucket` asks for.
-/
import Librouter.Ratelimit

namespace Librouter

open TokenBucket

/-! ## 1. Between two acquires

Only two things can happen to the state under the key after an acquire: clamps lower its levels,
or Redis drops it.  Both keep the next acquire within what the refill pays for. -/

/-- Nothing is stored that an acquire would refill from. -/
structure Idle (e : RedisEntry) : Prop where
  last : e.fields "last_refill_ms" = none
  expireAt : e.expireAtMs = none
  rpm_nonneg : 0 ≤ (e.fields "rpm_remaining").getD 0
  tpm_nonneg : 0 ≤ (e.fields "tpm_remaining").getD 0

/-- The levels of `row` are stored, or lower ones. -/
structure Live (row : AcquireRow) (e : RedisEntry) : Prop where
  last : e.fields "last_refill_ms" = some row.nowMs
  expireAt : e.expireAtMs = some (row.nowMs + 600000)
  rpm : ∃ r, e.fields "rpm_remaining" = some r ∧ 0 ≤ r ∧ r ≤ row.rpmLevel
  tpm : ∃ p, e.fields "tpm_remaining" = some p ∧ 0 ≤ p ∧ p ≤ row.tpmLevel

/-- What may be stored at time `t` after `row` was the last acquire. -/
def After (row : AcquireRow) (t : ℚ) (e : RedisEntry) : Prop :=
  Live row e ∨ row.nowMs + 600000 ≤ t ∧ Idle e

theorem idle_missing : Idle RedisEntry.missing :=
  ⟨rfl, rfl, by simp, by simp⟩

theorem clampLevel_nonneg {l : Option ℚ} {o : ℚ} (hl : 0 ≤ l.getD 0) (ho : 0 ≤ o) :
    0 ≤ clampLevel l o := by
  cases l with
  | none => rwa [clampLevel_none]
  | some x => rw [clampLevel_some]; exact le_min hl ho

theorem Idle.clamp {e : RedisEntry} {r p : ℚ} (h : Idle e) (hr : 0 ≤ r) (hp : 0 ≤ p) :
    Idle (clampLua e r p).1 where
  last := by rw [clampLua_last, h.last]
  expireAt := by rw [clampLua_expireAtMs, h.expireAt]
  rpm_nonneg := by rw [clampLua_rpm]; exact clampLevel_nonneg h.rpm_nonneg hr
  tpm_nonneg := by rw [clampLua_tpm]; exact clampLevel_nonneg h.tpm_nonneg hp

theorem Live.clamp {row : AcquireRow} {e : RedisEntry} {r p : ℚ} (h : Live row e) (hr : 0 ≤ r)
    (hp : 0 ≤ p) : Live row (clampLua e r p).1 := by
  obtain ⟨x, hx, hx0, hxr⟩ := h.rpm
  obtain ⟨y, hy, hy0, hyp⟩ := h.tpm
  refine ⟨?_, ?_, ⟨min x r, ?_, le_min hx0 hr, (min_le_left _ _).trans hxr⟩,
    ⟨min y p, ?_, le_min hy0 hp, (min_le_left _ _).trans hyp⟩⟩
  · rw [clampLua_last, h.last]
  · rw [clampLua_expireAtMs, h.expireAt]
  · rw [clampLua_rpm, hx, clampLevel_some]
  · rw [clampLua_tpm, hy, clampLevel_some]

theorem Idle.expire {e : RedisEntry} (h : Idle e) (t : ℚ) : e.expire t = e := by
  unfold RedisEntry.expire
  rw [h.expireAt]

theorem After.mono {row : AcquireRow} {t t' : ℚ} {e : RedisEntry} (h : After row t e)
    (ht : t ≤ t') : After row t' e :=
  h.imp id fun hi => ⟨hi.1.trans ht, hi.2⟩

/-- A clamp keeps the state within what the last acquire left. -/
theorem After.clamp {row : AcquireRow} {t : ℚ} {e : RedisEntry} {r p : ℚ} (h : After row t e)
    (hr : 0 ≤ r) (hp : 0 ≤ p) : After row t (clampLua e r p).1 :=
  h.imp (fun hl => hl.clamp hr hp) fun hi => ⟨hi.1, hi.2.clamp hr hp⟩

/-- An expiry drops the key only when the refill of ten minutes is due. -/
theorem After.expire {row : AcquireRow} {t : ℚ} {e : RedisEntry} (h : After row t e) :
    After row t (e.expire t) := by
  rcases h with hl | ⟨hdue, hi⟩
  · rcases e.expire_cases t with ⟨due, hdue, hle, hmiss⟩ | hsame
    · rw [hl.expireAt, Option.some.injEq] at hdue
      exact Or.inr ⟨hdue ▸ hle, hmiss ▸ idle_missing⟩
    · rw [hsame]
      exact Or.inl hl
  · rw [hi.expire t]
    exact Or.inr ⟨hdue, hi⟩

/-- An acquire is the last acquire, whatever was stored before. -/
theorem live_acquire {c : BucketCaps} {e : RedisEntry} {t n : ℚ}
    (hr : 0 ≤ (acquireRow c e t n).rpmLevel) (hp : 0 ≤ (acquireRow c e t n).tpmLevel) :
    Live (acquireRow c e t n) (callState c e (.acquire t n)) where
  last := ratelimitLua_last _ _
  expireAt := ratelimitLua_expireAtMs _ _
  rpm := ⟨_, ratelimitLua_rpm _ _, hr, le_refl _⟩
  tpm := ⟨_, ratelimitLua_tpm _ _, hp, le_refl _⟩

/-! ## 2. Every row fits the bucket, and the refill pays for the next one -/

/-- What one row keeps: levels within the caps, before and after it took its share. -/
structure AcquireRow.Sound (c : BucketCaps) (row : AcquireRow) : Prop where
  rpm_nonneg : 0 ≤ row.rpmLevel
  tpm_nonneg : 0 ≤ row.tpmLevel
  rpm_le : row.rpmLevel + row.rpmSpent ≤ c.rpmCap
  tpm_le : row.tpmLevel + row.tpmSpent ≤ c.tpmCap
  tokens_nonneg : 0 ≤ row.requestTokens

/-- The row as a draw on the request dimension. -/
def AcquireRow.rpmDraw (row : AcquireRow) : Draw ℚ := ⟨row.nowMs, row.rpmSpent, row.rpmLevel⟩

/-- The row as a draw on the token dimension. -/
def AcquireRow.tpmDraw (row : AcquireRow) : Draw ℚ := ⟨row.nowMs, row.tpmSpent, row.tpmLevel⟩

/-- The refill between two neighbouring rows pays for the second, in both dimensions. -/
def Pays (c : BucketCaps) (row row' : AcquireRow) : Prop :=
  Funded (c.rpmCap / 60000) row.rpmDraw row'.rpmDraw ∧
    Funded (c.tpmCap / 60000) row.tpmDraw row'.tpmDraw

/-- A row whose levels before the acquire were not negative is sound. -/
theorem sound_acquireRow {c : BucketCaps} {e : RedisEntry} {t n : ℚ} (hn : 0 ≤ n)
    (hr : 0 ≤ (e.fields "rpm_remaining").getD 0) (hp : 0 ≤ (e.fields "tpm_remaining").getD 0) :
    (acquireRow c e t n).Sound c := by
  have hcr := c.rpmCap_nonneg
  have hcp := c.tpmCap_nonneg
  have hel := elapsed_nonneg (c.acquireArgs t n) e
  have hlevel : ∀ {l : Option ℚ} {cap : ℚ}, 0 ≤ cap → 0 ≤ l.getD 0 → 0 ≤ l.getD cap := by
    rintro (_ | x) cap hcap hx
    · exact hcap
    · exact hx
  have hrpm : 0 ≤ (c.acquireArgs t n).refilledRpm e :=
    refill_nonneg hcr (hlevel hcr hr) (div_nonneg hcr (by norm_num)) hel
  have htpm : 0 ≤ (c.acquireArgs t n).refilledTpm e :=
    refill_nonneg hcp (hlevel hcp hp) (div_nonneg hcp (by norm_num)) hel
  exact
    { rpm_nonneg := rpmLeft_nonneg hrpm
      tpm_nonneg := tpmLeft_nonneg htpm
      rpm_le := by rw [rpmLevel_add_spent]; exact refill_le_cap _ _ _ _
      tpm_le := by rw [tpmLevel_add_spent]; exact refill_le_cap _ _ _ _
      tokens_nonneg := hn }

theorem After.levels_nonneg {row : AcquireRow} {t : ℚ} {e : RedisEntry} (h : After row t e) :
    0 ≤ (e.fields "rpm_remaining").getD 0 ∧ 0 ≤ (e.fields "tpm_remaining").getD 0 := by
  rcases h with hl | ⟨-, hi⟩
  · obtain ⟨x, hx, hx0, -⟩ := hl.rpm
    obtain ⟨y, hy, hy0, -⟩ := hl.tpm
    exact ⟨by rw [hx]; exact hx0, by rw [hy]; exact hy0⟩
  · exact ⟨hi.rpm_nonneg, hi.tpm_nonneg⟩

/-- Ten minutes refill a whole bucket ten times over. -/
theorem cap_le_refill {cap t₀ t : ℚ} (hcap : 0 ≤ cap) (h : t₀ + 600000 ≤ t) :
    cap ≤ cap / 60000 * (t - t₀) := by
  have h1 : cap / 60000 * 600000 ≤ cap / 60000 * (t - t₀) :=
    mul_le_mul_of_nonneg_left (by linarith) (div_nonneg hcap (by norm_num))
  linarith

/-- **The refill pays.**  An acquire at `t`, with `row` the last one before it, leaves and takes
at most what `row` left plus the refill since. -/
theorem After.pays {c : BucketCaps} {row : AcquireRow} {t n : ℚ} {e : RedisEntry}
    (h : After row t e) (hrow : row.Sound c) (ht : row.nowMs ≤ t) :
    Pays c row (acquireRow c e t n) := by
  have hcr := c.rpmCap_nonneg
  have hcp := c.tpmCap_nonneg
  rcases h with hl | ⟨hdue, -⟩
  · obtain ⟨x, hx, -, hxr⟩ := hl.rpm
    obtain ⟨y, hy, -, hyp⟩ := hl.tpm
    have hel : (c.acquireArgs t n).elapsed e = t - row.nowMs := by
      rw [elapsed_of_last hl.last]
      exact max_eq_right (sub_nonneg.mpr ht)
    constructor
    · refine (rpmLevel_add_spent c e t n).le.trans ((refill_le_add _ _ _ _).trans ?_)
      rw [hx, hel, Option.getD_some, mul_comm]
      exact add_le_add_left hxr _
    · refine (tpmLevel_add_spent c e t n).le.trans ((refill_le_add _ _ _ _).trans ?_)
      rw [hy, hel, Option.getD_some, mul_comm]
      exact add_le_add_left hyp _
  · constructor
    · refine (rpmLevel_add_spent c e t n).le.trans ((refill_le_cap _ _ _ _).trans ?_)
      exact (cap_le_refill hcr hdue).trans (le_add_of_nonneg_left hrow.rpm_nonneg)
    · refine (tpmLevel_add_spent c e t n).le.trans ((refill_le_cap _ _ _ _).trans ?_)
      exact (cap_le_refill hcp hdue).trans (le_add_of_nonneg_left hrow.tpm_nonneg)

/-! ## 3. Whole runs, on a clock that does not go back -/

/-- A run the callers can produce: counts are not negative and time does not go back. -/
structure RunOk (calls : List BucketCall) : Prop where
  nonneg : ∀ x ∈ calls, x.Nonneg
  clock : calls.Pairwise (fun x y => x.time ≤ y.time)

theorem RunOk.tail {x : BucketCall} {calls : List BucketCall} (h : RunOk (x :: calls)) :
    RunOk calls :=
  ⟨fun y hy => h.nonneg y (List.mem_cons_of_mem x hy), (List.pairwise_cons.mp h.clock).2⟩

theorem RunOk.head_le {x : BucketCall} {calls : List BucketCall} (h : RunOk (x :: calls)) :
    ∀ y ∈ calls, x.time ≤ y.time :=
  (List.pairwise_cons.mp h.clock).1

/-- The log of a run that continues from the row `row`: every row is sound and paid for by the
one before it.  The induction is on the calls; `After` is what a clamp or an expiry keeps. -/
theorem chain_runCalls {c : BucketCaps} {calls : List BucketCall} {row : AcquireRow} {t : ℚ}
    {e : RedisEntry} (hok : RunOk calls) (ht : ∀ x ∈ calls, t ≤ x.time) (hrt : row.nowMs ≤ t)
    (hrow : row.Sound c) (hafter : After row t e) :
    List.IsChain (Pays c) (row :: runCalls c e calls) ∧
      ∀ r ∈ row :: runCalls c e calls, r.Sound c := by
  induction calls generalizing row t e with
  | nil => exact ⟨List.isChain_singleton _, by simpa [runCalls] using hrow⟩
  | cons x calls ih =>
    have htt : t ≤ x.time := ht x List.mem_cons_self
    have hnn : x.Nonneg := hok.nonneg x List.mem_cons_self
    have hlater := hok.head_le
    cases x with
    | acquire t' n =>
      obtain ⟨hr, hp⟩ := hafter.levels_nonneg
      have hsound : (acquireRow c e t' n).Sound c := sound_acquireRow hnn hr hp
      have hlive := live_acquire hsound.rpm_nonneg hsound.tpm_nonneg
      have hnow : (acquireRow c e t' n).nowMs ≤ t' := le_refl t'
      have hafter' : After (acquireRow c e t' n) t' (callState c e (.acquire t' n)) :=
        Or.inl hlive
      obtain ⟨hchain, hall⟩ := ih hok.tail hlater hnow hsound hafter'
      have hpays : Pays c row (acquireRow c e t' n) :=
        (hafter.mono htt).pays hrow (hrt.trans htt)
      exact ⟨List.isChain_cons_cons.mpr ⟨hpays, hchain⟩, List.forall_mem_cons.mpr ⟨hrow, hall⟩⟩
    | clamp t' r p =>
      obtain ⟨hr, hp⟩ := hnn
      exact ih hok.tail hlater (hrt.trans htt) hrow ((hafter.mono htt).clamp hr hp)
    | expire t' =>
      exact ih hok.tail hlater (hrt.trans htt) hrow (hafter.mono htt).expire

/-- The log of a run on a key that holds nothing to refill from. -/
theorem chain_of_idle {c : BucketCaps} {calls : List BucketCall} {e : RedisEntry}
    (hok : RunOk calls) (hidle : Idle e) :
    List.IsChain (Pays c) (runCalls c e calls) ∧ ∀ r ∈ runCalls c e calls, r.Sound c := by
  induction calls generalizing e with
  | nil => exact ⟨List.isChain_nil, by simp [runCalls]⟩
  | cons x calls ih =>
    have hnn : x.Nonneg := hok.nonneg x List.mem_cons_self
    cases x with
    | acquire t n =>
      have hsound : (acquireRow c e t n).Sound c :=
        sound_acquireRow hnn hidle.rpm_nonneg hidle.tpm_nonneg
      have hlive := live_acquire hsound.rpm_nonneg hsound.tpm_nonneg
      have hnow : (acquireRow c e t n).nowMs ≤ t := le_refl t
      exact chain_runCalls hok.tail hok.head_le hnow hsound (Or.inl hlive)
    | clamp t r p => exact ih hok.tail (hidle.clamp hnn.1 hnn.2)
    | expire t =>
      rw [runCalls, callState, hidle.expire t]
      exact ih hok.tail hidle

/-- What the draws of a log spend on requests is the number of accepted acquires... -/
theorem spent_rpmDraw : ∀ rows : List AcquireRow,
    spent (rows.map AcquireRow.rpmDraw) = acceptedCount rows
  | [] => by simp [acceptedCount]
  | row :: rows => by
    rw [List.map_cons, spent_cons, spent_rpmDraw rows]
    cases h : row.ok <;> simp [acceptedCount, AcquireRow.rpmDraw, AcquireRow.rpmSpent, h, add_comm]

/-- ...and on tokens, the tokens they were accepted for. -/
theorem spent_tpmDraw : ∀ rows : List AcquireRow,
    spent (rows.map AcquireRow.tpmDraw) = acceptedTokens rows
  | [] => by simp [acceptedTokens]
  | row :: rows => by
    rw [List.map_cons, spent_cons, spent_tpmDraw rows]
    cases h : row.ok <;> simp [acceptedTokens, AcquireRow.tpmDraw, AcquireRow.tpmSpent, h]

theorem AcquireRow.Sound.levels_le {c : BucketCaps} {row : AcquireRow} (h : row.Sound c) :
    row.rpmLevel ≤ c.rpmCap ∧ row.tpmLevel ≤ c.tpmCap := by
  have hr : 0 ≤ row.rpmSpent := by unfold AcquireRow.rpmSpent; split <;> norm_num
  have hp : 0 ≤ row.tpmSpent := by
    unfold AcquireRow.tpmSpent
    split
    · exact h.tokens_nonneg
    · exact le_refl 0
  exact ⟨(le_add_of_nonneg_right hr).trans h.rpm_le, (le_add_of_nonneg_right hp).trans h.tpm_le⟩

/-- What a window bound says of the rows at the positions `i, …, j` of a log. -/
def WindowBound (c : BucketCaps) (rows : List AcquireRow) (i j : ℕ) (spanMs : ℚ) : Prop :=
  (acceptedCount (window rows i j) : ℚ) ≤ c.rpmCap + c.rpmCap / 60000 * spanMs ∧
    acceptedTokens (window rows i j) ≤ c.tpmCap + c.tpmCap / 60000 * spanMs

/-- A log whose rows are sound and paid for satisfies every window bound. -/
theorem windowBound_of_chain {c : BucketCaps} {rows : List AcquireRow}
    (hchain : List.IsChain (Pays c) rows) (hsound : ∀ r ∈ rows, r.Sound c) {i j : ℕ} (hij : i ≤ j)
    (hj : j < rows.length) : WindowBound c rows i j (rows[j].nowMs - rows[i].nowMs) := by
  have hlen : ∀ f : AcquireRow → Draw ℚ, j < (rows.map f).length := fun f => by
    rwa [List.length_map]
  constructor
  · have hpaid : List.IsChain (Funded (c.rpmCap / 60000)) (rows.map AcquireRow.rpmDraw) :=
      (List.isChain_map _).mpr (hchain.imp fun _ _ hp => hp.1)
    have h := window_spent_le hpaid (List.forall_mem_map.mpr fun r hr => (hsound r hr).rpm_le)
      (List.forall_mem_map.mpr fun r hr => (hsound r hr).rpm_nonneg) hij (hlen _)
    rw [window_map, spent_rpmDraw, List.getElem_map, List.getElem_map] at h
    exact h
  · have hpaid : List.IsChain (Funded (c.tpmCap / 60000)) (rows.map AcquireRow.tpmDraw) :=
      (List.isChain_map _).mpr (hchain.imp fun _ _ hp => hp.2)
    have h := window_spent_le hpaid (List.forall_mem_map.mpr fun r hr => (hsound r hr).tpm_le)
      (List.forall_mem_map.mpr fun r hr => (hsound r hr).tpm_nonneg) hij (hlen _)
    rw [window_map, spent_tpmDraw, List.getElem_map, List.getElem_map] at h
    exact h

/-- Both stored levels of every row lie between zero and the cap. -/
def LevelsWithinCaps (c : BucketCaps) (rows : List AcquireRow) : Prop :=
  ∀ row ∈ rows, (0 ≤ row.rpmLevel ∧ row.rpmLevel ≤ c.rpmCap) ∧
    0 ≤ row.tpmLevel ∧ row.tpmLevel ≤ c.tpmCap

/-- Every window of the rows accepts at most a full bucket plus the refill during it. -/
def EveryWindowBounded (c : BucketCaps) (rows : List AcquireRow) : Prop :=
  ∀ (i j : ℕ) (_ : i ≤ j) (_ : j < rows.length),
    WindowBound c rows i j (rows[j].nowMs - rows[i].nowMs)

/-- **The window bound.**  In every run on one bucket key, of acquires, clamps and expiries in
any order, every window of the acquires accepts at most a full bucket plus what was refilled
between its first and its last, in requests and in tokens; and both stored levels stay between
zero and the cap. -/
theorem window_accepted_le (c : BucketCaps) (calls : List BucketCall) (h : RunOk calls) :
    LevelsWithinCaps c (runCalls c .missing calls) ∧
      EveryWindowBounded c (runCalls c .missing calls) := by
  obtain ⟨hchain, hsound⟩ := chain_of_idle (c := c) h idle_missing
  refine ⟨fun row hrow => ?_, fun i j hij hj => windowBound_of_chain hchain hsound hij hj⟩
  have hs := hsound row hrow
  exact ⟨⟨hs.rpm_nonneg, hs.levels_le.1⟩, hs.tpm_nonneg, hs.levels_le.2⟩

/-- A run that drains the bucket, clamps it, lets it expire and drains it again. -/
def drainedRun : List BucketCall :=
  [.acquire 0 40, .clamp 10 0 5, .acquire 30000 5, .expire 630000, .acquire 630000 50]

theorem drainedRun_ok : RunOk drainedRun where
  nonneg := by simp [drainedRun, BucketCall.Nonneg]
  clock := by norm_num [drainedRun, BucketCall.time]

/-- `window_accepted_le` on that run, with one request and fifty tokens a minute. -/
theorem window_accepted_le_drainedRun :
    let c := (⟨1, 50, by decide, by decide⟩ : RateLimitEntry).caps
    LevelsWithinCaps c (runCalls c .missing drainedRun) ∧
      EveryWindowBounded c (runCalls c .missing drainedRun) :=
  window_accepted_le _ drainedRun drainedRun_ok

end Librouter
