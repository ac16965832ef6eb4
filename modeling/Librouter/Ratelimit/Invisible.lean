/-
# Rejected acquires leave no trace

A rejected acquire writes: the refilled levels, its own instant as the last refill, and ten more
minutes to live.  None of it can be seen.  The levels it wrote refill to what the old ones would
have refilled to (`refill_refill`), and a key that lives longer than it would have is full by then,
as a missing one is (`levelsAt_stored`).

So what counts about a stored state is the levels it leads to at every later instant (`levelsAt`):
they decide an acquire, and a rejected acquire keeps them.  Deleting any of the rejected acquires of
a sequence changes nothing for the others (`rejected_invisible`).
-/
import Librouter.Ratelimit.Window

namespace Librouter

open TokenBucket

/-! ## 1. Sequences of acquires -/

/-- An acquire: when it runs, and the tokens it asks for. -/
structure TimedAcquire where
  nowMs : ℚ
  requestTokens : ℚ

/-- An acquire finds the key as Redis has it: gone, when it is due. -/
def TimedAcquire.calls (a : TimedAcquire) : List BucketCall :=
  [.expire a.nowMs, .acquire a.nowMs a.requestTokens]

/-- The log of a sequence of acquires. -/
def acquireLog (c : BucketCaps) (e : RedisEntry) (acquires : List TimedAcquire) : List AcquireRow :=
  runCalls c e (acquires.flatMap TimedAcquire.calls)

/-- The acquire of a row. -/
def AcquireRow.acquire (row : AcquireRow) : TimedAcquire := ⟨row.nowMs, row.requestTokens⟩

/-- What the acquire of a row returned. -/
def AcquireRow.reply (row : AcquireRow) : RatelimitReply :=
  ⟨row.ok, ⌊row.rpmLevel⌋, ⌊row.tpmLevel⌋⟩

theorem acquireRow_reply (c : BucketCaps) (e : RedisEntry) (t n : ℚ) :
    (acquireRow c e t n).reply = (ratelimitLua e (c.acquireArgs t n)).2 := by
  simp only [AcquireRow.reply, acquireRow, ratelimitLua]

/-- What is stored after an acquire. -/
def afterAcquire (c : BucketCaps) (e : RedisEntry) (a : TimedAcquire) : RedisEntry :=
  callState c (e.expire a.nowMs) (.acquire a.nowMs a.requestTokens)

theorem acquireLog_cons (c : BucketCaps) (e : RedisEntry) (a : TimedAcquire)
    (acquires : List TimedAcquire) :
    acquireLog c e (a :: acquires) = acquireRow c (e.expire a.nowMs) a.nowMs a.requestTokens ::
      acquireLog c (afterAcquire c e a) acquires := by
  simp only [acquireLog, afterAcquire, TimedAcquire.calls, List.flatMap_cons, List.cons_append,
    List.nil_append, runCalls, callState]

/-! ## 2. The levels a state leads to -/

/-- The levels an acquire at `t` works from. -/
def levelsAt (c : BucketCaps) (e : RedisEntry) (t : ℚ) : ℚ × ℚ :=
  ((c.acquireArgs t 0).refilledRpm (e.expire t), (c.acquireArgs t 0).refilledTpm (e.expire t))

/-- The levels decide the acquire. -/
theorem acquireRow_eq_of_levelsAt {c : BucketCaps} {e e' : RedisEntry} {t : ℚ}
    (h : levelsAt c e t = levelsAt c e' t) (n : ℚ) :
    acquireRow c (e.expire t) t n = acquireRow c (e'.expire t) t n := by
  have hrpm : (c.acquireArgs t n).refilledRpm (e.expire t)
      = (c.acquireArgs t n).refilledRpm (e'.expire t) := congrArg Prod.fst h
  have htpm : (c.acquireArgs t n).refilledTpm (e.expire t)
      = (c.acquireArgs t n).refilledTpm (e'.expire t) := congrArg Prod.snd h
  have hok : (c.acquireArgs t n).ok (e.expire t) = (c.acquireArgs t n).ok (e'.expire t) := by
    rw [RatelimitArgs.ok, RatelimitArgs.ok, hrpm, htpm]
  simp only [acquireRow, ratelimitLua, RatelimitArgs.rpmLeft, RatelimitArgs.tpmLeft, hok, hrpm,
    htpm]

/-- From `t` on the two states lead to the same levels. -/
def SameFrom (c : BucketCaps) (t : ℚ) (e e' : RedisEntry) : Prop :=
  ∀ t', t ≤ t' → levelsAt c e t' = levelsAt c e' t'

theorem SameFrom.mono {c : BucketCaps} {t t' : ℚ} {e e' : RedisEntry} (h : SameFrom c t e e')
    (ht : t ≤ t') : SameFrom c t' e e' := fun u hu => h u (ht.trans hu)

/-- Full buckets of these caps, in both dimensions. -/
theorem levelsAt_missing (c : BucketCaps) (t : ℚ) : levelsAt c .missing t = (c.rpmCap, c.tpmCap) :=
  Prod.ext (refilled_missing c t 0).1 (refilled_missing c t 0).2

/-- The levels `r`, `p` of an acquire at `t₀`, within the caps, with ten minutes to live. -/
structure Kept (c : BucketCaps) (t₀ r p : ℚ) (e : RedisEntry) : Prop where
  stored : Stored t₀ r p e
  due : e.expireAtMs = some (t₀ + 600000)
  rpm_nonneg : 0 ≤ r
  tpm_nonneg : 0 ≤ p
  rpm_le : r ≤ c.rpmCap
  tpm_le : p ≤ c.tpmCap

/-- Ten minutes fill a bucket. -/
theorem refill_eq_cap {cap level t₀ t : ℚ} (hcap : 0 ≤ cap) (hlevel : 0 ≤ level)
    (ht : t₀ + 600000 ≤ t) : refill cap (cap / 60000) level (t - t₀) = cap := by
  have hfull := cap_le_refill hcap ht
  rw [refill, min_eq_left]
  linarith

/-- **An expired key is a full one**: the levels refill as if the key lived forever. -/
theorem levelsAt_stored {c : BucketCaps} {t₀ r p t : ℚ} {e : RedisEntry} (h : Kept c t₀ r p e)
    (ht : t₀ ≤ t) : levelsAt c e t = (refill c.rpmCap (c.rpmCap / 60000) r (t - t₀),
      refill c.tpmCap (c.tpmCap / 60000) p (t - t₀)) := by
  rcases e.expire_cases t with ⟨due, hdue, hle, hmissing⟩ | hsame
  · rw [h.due, Option.some.injEq] at hdue
    have hten : t₀ + 600000 ≤ t := hdue ▸ hle
    rw [refill_eq_cap c.rpmCap_nonneg h.rpm_nonneg hten,
      refill_eq_cap c.tpmCap_nonneg h.tpm_nonneg hten, levelsAt, hmissing]
    exact Prod.ext (refilled_missing c t 0).1 (refilled_missing c t 0).2
  · rw [levelsAt, hsame, h.stored.refilledRpm, h.stored.refilledTpm,
      max_eq_right (sub_nonneg.mpr ht)]

/-- What acquires alone can store by the time `t`. -/
def Reached (c : BucketCaps) (t : ℚ) (e : RedisEntry) : Prop :=
  e = .missing ∨ ∃ t₀ r p, t₀ ≤ t ∧ Kept c t₀ r p e

namespace Reached

variable {c : BucketCaps} {t : ℚ} {e : RedisEntry}

theorem mono {t' : ℚ} (h : Reached c t e) (ht : t ≤ t') : Reached c t' e := by
  rcases h with hmissing | ⟨t₀, r, p, ht₀, hkept⟩
  · exact Or.inl hmissing
  · exact Or.inr ⟨t₀, r, p, ht₀.trans ht, hkept⟩

theorem expire (h : Reached c t e) (t' : ℚ) : Reached c t (e.expire t') := by
  rcases e.expire_cases t' with ⟨_, _, _, hmissing⟩ | hsame
  · exact Or.inl hmissing
  · exact hsame.symm ▸ h

theorem levels_nonneg (h : Reached c t e) :
    0 ≤ (e.fields "rpm_remaining").getD 0 ∧ 0 ≤ (e.fields "tpm_remaining").getD 0 := by
  rcases h with rfl | ⟨t₀, r, p, -, hkept⟩
  · simp
  · rw [hkept.stored.rpm, hkept.stored.tpm]
    exact ⟨hkept.rpm_nonneg, hkept.tpm_nonneg⟩

/-- The levels an acquire left are kept. -/
theorem kept_afterAcquire {a : TimedAcquire} (h : Reached c t e) (htokens : 0 ≤ a.requestTokens) :
    Kept c a.nowMs (acquireRow c (e.expire a.nowMs) a.nowMs a.requestTokens).rpmLevel
      (acquireRow c (e.expire a.nowMs) a.nowMs a.requestTokens).tpmLevel
      (afterAcquire c e a) := by
  obtain ⟨hrpm, htpm⟩ := (h.expire a.nowMs).levels_nonneg
  have hsound : (acquireRow c (e.expire a.nowMs) a.nowMs a.requestTokens).Sound c :=
    sound_acquireRow htokens hrpm htpm
  exact ⟨stored_acquire c _ _ _, ratelimitLua_expireAtMs _ _, hsound.rpm_nonneg, hsound.tpm_nonneg,
    hsound.levels_le.1, hsound.levels_le.2⟩

theorem afterAcquire {a : TimedAcquire} (h : Reached c t e) (htokens : 0 ≤ a.requestTokens) :
    Reached c a.nowMs (afterAcquire c e a) :=
  Or.inr ⟨a.nowMs, _, _, le_refl _, h.kept_afterAcquire htokens⟩

end Reached

/-! ## 3. One acquire -/

/-- **A rejection deducts nothing**: it stores the levels it found, as refilled. -/
theorem rejected_deducts_nothing {c : BucketCaps} {e : RedisEntry} {t n : ℚ}
    (h : (acquireRow c e t n).ok = false) :
    (acquireRow c e t n).rpmLevel = (c.acquireArgs t n).refilledRpm e ∧
      (acquireRow c e t n).tpmLevel = (c.acquireArgs t n).refilledTpm e := by
  have hrpm := rpmLevel_add_spent c e t n
  have htpm := tpmLevel_add_spent c e t n
  rw [AcquireRow.rpmSpent, h] at hrpm
  rw [AcquireRow.tpmSpent, h] at htpm
  exact ⟨by simpa using hrpm, by simpa using htpm⟩

section Acquire

variable {c : BucketCaps} {t : ℚ} {e e' : RedisEntry} {a : TimedAcquire}

/-- **A rejection cannot be seen later**, neither in the levels nor in the longer life of the
key. -/
theorem sameFrom_of_rejected (h : Reached c t e) (ht : t ≤ a.nowMs) (htokens : 0 ≤ a.requestTokens)
    (hrejected : (acquireRow c (e.expire a.nowMs) a.nowMs a.requestTokens).ok = false) :
    SameFrom c a.nowMs (afterAcquire c e a) e := by
  intro t' ht'
  obtain ⟨hrpm, htpm⟩ := rejected_deducts_nothing hrejected
  have hafter := levelsAt_stored (h.kept_afterAcquire htokens) ht'
  have hfound : levelsAt c e a.nowMs
      = ((acquireRow c (e.expire a.nowMs) a.nowMs a.requestTokens).rpmLevel,
        (acquireRow c (e.expire a.nowMs) a.nowMs a.requestTokens).tpmLevel) := by
    rw [hrpm, htpm]
    rfl
  have hrpmRate : 0 ≤ c.rpmCap / 60000 := div_nonneg c.rpmCap_nonneg (by norm_num)
  have htpmRate : 0 ≤ c.tpmCap / 60000 := div_nonneg c.tpmCap_nonneg (by norm_num)
  have hlater : 0 ≤ t' - a.nowMs := sub_nonneg.mpr ht'
  rw [hafter]
  rcases h with rfl | ⟨t₀, r, p, ht₀, hkept⟩
  · rw [levelsAt_missing] at hfound ⊢
    obtain ⟨hr, hp⟩ := Prod.mk.inj hfound
    rw [← hr, ← hp, refill, refill, min_eq_left (le_add_of_nonneg_right (mul_nonneg hlater hrpmRate)),
      min_eq_left (le_add_of_nonneg_right (mul_nonneg hlater htpmRate))]
  · have hpast := ht₀.trans ht
    rw [levelsAt_stored hkept hpast] at hfound
    obtain ⟨hr, hp⟩ := Prod.mk.inj hfound
    have hsum : a.nowMs - t₀ + (t' - a.nowMs) = t' - t₀ := by ring
    rw [← hr, ← hp, refill_refill _ _ hrpmRate hlater, refill_refill _ _ htpmRate hlater, hsum,
      levelsAt_stored hkept (hpast.trans ht')]

/-- An acquire that finds the same levels leaves the same levels. -/
theorem sameFrom_afterAcquire (h : Reached c t e) (h' : Reached c t e') (hsame : SameFrom c t e e')
    (ht : t ≤ a.nowMs) (htokens : 0 ≤ a.requestTokens) :
    SameFrom c a.nowMs (afterAcquire c e a) (afterAcquire c e' a) := by
  intro t' ht'
  have hrow := acquireRow_eq_of_levelsAt (hsame a.nowMs ht) a.requestTokens
  rw [levelsAt_stored (h.kept_afterAcquire htokens) ht',
    levelsAt_stored (h'.kept_afterAcquire htokens) ht', hrow]

end Acquire

/-! ## 4. Sequences -/

/-- Acquires on a clock that does not go back, of non-negative amounts. -/
structure AcquiresOk (acquires : List TimedAcquire) : Prop where
  clock : acquires.Pairwise fun a b => a.nowMs ≤ b.nowMs
  tokens : ∀ a ∈ acquires, 0 ≤ a.requestTokens

theorem AcquiresOk.tail {a : TimedAcquire} {acquires : List TimedAcquire}
    (h : AcquiresOk (a :: acquires)) :
    AcquiresOk acquires :=
  ⟨(List.pairwise_cons.mp h.clock).2, fun b hb => h.tokens b (List.mem_cons_of_mem a hb)⟩

/-- `kept` is the log without some of its rejected acquires. -/
structure WithoutRejected (log kept : List AcquireRow) : Prop where
  sublist : kept.Sublist log
  accepted : kept.filter AcquireRow.ok = log.filter AcquireRow.ok

/-- The first acquire of a log is deleted, and then it was rejected, or kept. -/
theorem WithoutRejected.cases {row : AcquireRow} {log kept : List AcquireRow}
    (h : WithoutRejected (row :: log) kept) : (row.ok = false ∧ WithoutRejected log kept) ∨
      ∃ rest, kept = row :: rest ∧ WithoutRejected log rest := by
  obtain ⟨hsub, hfilter⟩ := h
  rcases List.sublist_cons_iff.mp hsub with hdeleted | ⟨rest, rfl, hrest⟩
  · refine Or.inl ?_
    cases hok : row.ok with
    | false =>
      rw [List.filter_cons_of_neg (by simp [hok])] at hfilter
      exact ⟨rfl, hdeleted, hfilter⟩
    | true =>
      -- an accepted acquire is missing
      rw [List.filter_cons_of_pos hok] at hfilter
      have hlength := (hdeleted.filter AcquireRow.ok).length_le
      rw [hfilter, List.length_cons] at hlength
      omega
  · refine Or.inr ⟨rest, rfl, hrest, ?_⟩
    cases hok : row.ok with
    | false => simpa [List.filter_cons, hok] using hfilter
    | true => simpa [List.filter_cons, hok] using hfilter

/-- Without the deleted acquires the kept ones find the same levels.  The induction is on the
sequence; `SameFrom` is what a deleted rejection and a kept acquire preserve. -/
theorem acquireLog_without {c : BucketCaps} {acquires : List TimedAcquire} :
    ∀ {t : ℚ} {e e' : RedisEntry} {kept : List AcquireRow}, AcquiresOk acquires →
      (∀ a ∈ acquires, t ≤ a.nowMs) → Reached c t e → Reached c t e' → SameFrom c t e e' →
      WithoutRejected (acquireLog c e acquires) kept →
      acquireLog c e' (kept.map AcquireRow.acquire) = kept := by
  induction acquires with
  | nil =>
    intro t e e' kept _ _ _ _ _ hkept
    obtain rfl := List.eq_nil_of_sublist_nil hkept.sublist
    rfl
  | cons a acquires ih =>
    intro t e e' kept hok htimes he he' hsame hkept
    have ht : t ≤ a.nowMs := htimes a List.mem_cons_self
    have htokens := hok.tokens a List.mem_cons_self
    have hlater := (List.pairwise_cons.mp hok.clock).1
    rw [acquireLog_cons] at hkept
    rcases hkept.cases with ⟨hrejected, hrest⟩ | ⟨rest, rfl, hrest⟩
    · have hunseen := sameFrom_of_rejected he ht htokens hrejected
      have hnext : SameFrom c a.nowMs (afterAcquire c e a) e' :=
        fun t' ht' => (hunseen t' ht').trans (hsame.mono ht t' ht')
      exact ih hok.tail hlater (he.afterAcquire htokens) (he'.mono ht) hnext hrest
    · have hrow := acquireRow_eq_of_levelsAt (hsame a.nowMs ht) a.requestTokens
      have hnext := sameFrom_afterAcquire he he' hsame ht htokens
      rw [List.map_cons, acquireLog_cons]
      refine List.cons_eq_cons.mpr ⟨hrow.symm, ?_⟩
      exact ih hok.tail hlater (he.afterAcquire htokens) (he'.afterAcquire htokens) hnext hrest

/-- **Rejected acquires are invisible.**  Delete any of the rejected acquires of a sequence: every
other acquire has the result and the levels it had.  And a rejected acquire deducts nothing, in
either dimension. -/
theorem rejected_invisible (c : BucketCaps) (acquires : List TimedAcquire)
    (h : AcquiresOk acquires) :
    (∀ kept, WithoutRejected (acquireLog c .missing acquires) kept →
      acquireLog c .missing (kept.map AcquireRow.acquire) = kept) ∧
    ∀ e t n, (acquireRow c e t n).ok = false →
      Stored t ((c.acquireArgs t n).refilledRpm e) ((c.acquireArgs t n).refilledTpm e)
        (callState c e (.acquire t n)) := by
  constructor
  · intro kept hkept
    have hfirst : ∃ t, ∀ a ∈ acquires, t ≤ a.nowMs := by
      cases acquires with
      | nil => exact ⟨0, fun a ha => absurd ha List.not_mem_nil⟩
      | cons a rest =>
        exact ⟨a.nowMs, List.forall_mem_cons.mpr ⟨le_refl _, (List.pairwise_cons.mp h.clock).1⟩⟩
    obtain ⟨t, ht⟩ := hfirst
    exact acquireLog_without h ht (Or.inl rfl) (Or.inl rfl) (fun _ _ => rfl) hkept
  · intro e t n hrejected
    obtain ⟨hrpm, htpm⟩ := rejected_deducts_nothing hrejected
    exact hrpm ▸ htpm ▸ stored_acquire c e t n

/-- An acquire that drains the tokens, two that are rejected, and one after the key would have been
dropped. -/
def drainingAcquires : List TimedAcquire := [⟨0, 50⟩, ⟨10, 20⟩, ⟨599000, 51⟩, ⟨610000, 50⟩]

theorem drainingAcquires_ok : AcquiresOk drainingAcquires where
  clock := by norm_num [drainingAcquires]
  tokens := by simp [drainingAcquires]

/-- `rejected_invisible` there, with twenty requests and fifty tokens a minute. -/
theorem rejected_invisible_draining :
    let c := (⟨20, 50, by decide, by decide⟩ : RateLimitEntry).caps
    (∀ kept, WithoutRejected (acquireLog c .missing drainingAcquires) kept →
      acquireLog c .missing (kept.map AcquireRow.acquire) = kept) ∧
    ∀ e t n, (acquireRow c e t n).ok = false →
      Stored t ((c.acquireArgs t n).refilledRpm e) ((c.acquireArgs t n).refilledTpm e)
        (callState c e (.acquire t n)) :=
  rejected_invisible _ drainingAcquires drainingAcquires_ok

end Librouter
