/-
# What the sample hashes hold

Redis counts the outcomes of a candidate in one hash per second of the clock of the process that
recorded them, and every count renews the time to live of the hash.  Here the outcomes themselves
are kept as a list, and the counts are read off it: `Stored` says of an outcome that its hash has
not expired, and what `refresh_snapshot` sums over a range of seconds are the stored outcomes of
these seconds (`sumSamples_eq`).

The recording process reads its own clock and Redis has its own time; `incrementAt` keeps the two
apart.
-/
import Librouter.Breaker.Keys

namespace Librouter

/-! ## 1. Recording -/

/-- A recorded outcome. -/
structure Sample where
  /-- when Redis counted it -/
  time : ℚ
  /-- what the clock of the recording process read -/
  clock : ℚ
  cand : String × String
  failed : Bool
deriving DecidableEq

namespace Sample

/-- The second under which it is counted. -/
def second (x : Sample) : ℤ := toInt x.clock

/-- It is counted in the hashes of this candidate. -/
def CountsFor (x : Sample) (cand : String × String) : Prop := sampleStem x.cand = sampleStem cand

instance (x : Sample) (cand : String × String) : Decidable (x.CountsFor cand) :=
  inferInstanceAs (Decidable (sampleStem x.cand = sampleStem cand))

/-- The field that counts it. -/
def field (x : Sample) : String := if x.failed then "failures" else "successes"

end Sample

namespace BreakerSet

variable (b : BreakerSet)

/-- `_increment`: the clock reads `nowS`, and Redis executes the pipeline at `atS`. -/
def incrementAt (r : Redis) (atS nowS : ℚ) (provider model field : String) : Redis :=
  r.write (atS * 1000) (sampleKey provider model (toInt nowS)) fun e =>
    (e.hincrby field 1).pexpire (atS * 1000) (toInt b.windowS * 4 * 1000)

/-- `record_success` or `record_failure`. -/
def record (r : Redis) (x : Sample) : Redis :=
  b.incrementAt r x.time x.clock x.cand.1 x.cand.2 x.field

theorem record_success (r : Redis) (nowS : ℚ) (cand : String × String) :
    b.record r ⟨nowS, nowS, cand, false⟩ = b.recordSuccess r nowS cand.1 cand.2 := rfl

theorem record_failure (r : Redis) (nowS : ℚ) (cand : String × String) :
    b.record r ⟨nowS, nowS, cand, true⟩ = b.recordFailure r nowS cand.1 cand.2 := rfl

/-- The time to live of a sample hash, in seconds: `int(self._window_s) * 4`. -/
def ttlS : ℚ := toInt b.windowS * 4

/-- The hash that counts `x` has not expired. -/
def Stored (history : List Sample) (t : ℚ) (x : Sample) : Prop :=
  ∃ y ∈ history, (y.CountsFor x.cand ∧ y.second = x.second) ∧ t < y.time + b.ttlS

instance (history : List Sample) (t : ℚ) (x : Sample) : Decidable (b.Stored history t x) :=
  inferInstanceAs (Decidable (∃ y ∈ history, _))

/-- The stored outcomes of a candidate in the seconds from `lo` to `hi`. -/
def storedIn (history : List Sample) (t : ℚ) (cand : String × String) (lo hi : ℤ) : List Sample :=
  history.filter fun x =>
    x.CountsFor cand ∧ (lo ≤ x.second ∧ x.second ≤ hi) ∧ b.Stored history t x

end BreakerSet

/-- The outcomes that one hash counts. -/
def ownSamples (history : List Sample) (cand : String × String) (n : ℤ) : List Sample :=
  history.filter fun x => x.CountsFor cand ∧ x.second = n

/-! ## 2. The time to live -/

namespace BreakerSet

variable (b : BreakerSet)

/-- A window of one second or more is outlived by its hashes. -/
theorem window_lt_ttlS (h : 1 ≤ b.windowS) : b.windowS + 2 ≤ b.ttlS := by
  have hfloor : toInt b.windowS = ⌊b.windowS⌋ := toInt_of_nonneg (zero_le_one.trans h)
  have hone : (1 : ℤ) ≤ ⌊b.windowS⌋ := Int.le_floor.mpr (by exact_mod_cast h)
  have hlt := Int.lt_floor_add_one b.windowS
  have hone' : (1 : ℚ) ≤ ⌊b.windowS⌋ := by exact_mod_cast hone
  rw [ttlS, hfloor]
  linarith

/-- Of a shorter window nothing is kept at all. -/
theorem ttlS_nonpos (h : b.windowS < 1) : b.ttlS ≤ 0 := by
  have hle : toInt b.windowS ≤ 0 := by
    rcases le_or_gt 0 b.windowS with h0 | h0
    · rw [toInt_of_nonneg h0]
      exact Int.lt_add_one_iff.mp (Int.floor_lt.mpr (by exact_mod_cast h))
    · rw [toInt_of_neg h0]
      exact Int.ceil_le.mpr (by exact_mod_cast h0.le)
  have hle' : (toInt b.windowS : ℚ) ≤ 0 := by exact_mod_cast hle
  rw [ttlS]
  linarith

/-- A time to live is no time, or two seconds and more. -/
theorem two_lt_ttlS (h : 0 < b.ttlS) : 2 < b.ttlS := by
  by_contra hle
  rcases le_or_gt 1 b.windowS with hw | hw
  · have := b.window_lt_ttlS hw
    linarith
  · have := b.ttlS_nonpos hw
    linarith

end BreakerSet

/-! ## 3. Redis and the history -/

/-- The hash counts the successes and the failures of the list. -/
def RedisEntry.Tallies (e : RedisEntry) (xs : List Sample) : Prop :=
  e.count "successes" = xs.countP (fun x => !x.failed) ∧ e.count "failures" = xs.countP Sample.failed

theorem RedisEntry.Tallies.hincrby {e : RedisEntry} {xs : List Sample} (h : e.Tallies xs)
    (x : Sample) : (e.hincrby x.field 1).Tallies (xs ++ [x]) := by
  obtain ⟨hs, hf⟩ := h
  have hne : ("failures" : String) ≠ "successes" := by decide
  cases hx : x.failed with
  | false =>
    have hfield : x.field = "successes" := by simp [Sample.field, hx]
    rw [Tallies, hfield, count_hincrby_self, count_hincrby_ne e 1 hne, hs, hf]
    simp [hx]
  | true =>
    have hfield : x.field = "failures" := by simp [Sample.field, hx]
    rw [Tallies, hfield, count_hincrby_self, count_hincrby_ne e 1 hne.symm, hs, hf]
    simp [hx]

theorem ownSamples_concat (history : List Sample) (x : Sample) (cand : String × String) (n : ℤ) :
    ownSamples (history ++ [x]) cand n =
      ownSamples history cand n ++ if x.CountsFor cand ∧ x.second = n then [x] else [] := by
  rw [ownSamples, List.filter_append, ← ownSamples]
  by_cases h : x.CountsFor cand ∧ x.second = n <;> simp [h]

theorem mem_ownSamples {history : List Sample} {cand : String × String} {n : ℤ} {x : Sample} :
    x ∈ ownSamples history cand n ↔ x ∈ history ∧ x.CountsFor cand ∧ x.second = n := by
  simp [ownSamples]

namespace BreakerSet

variable (b : BreakerSet)

/-- Every sample hash is there iff something was recorded under it; it is due a time to live after
the last outcome, and until then it counts them all. -/
structure Counted (r : Redis) (history : List Sample) : Prop where
  absent : ∀ cand n, ownSamples history cand n = [] → r.get? (sampleKey cand.1 cand.2 n) = none
  present : ∀ cand n xs y, ownSamples history cand n = xs ++ [y] →
    ∃ e, r.get? (sampleKey cand.1 cand.2 n) = some e ∧
      e.expireAtMs = some ((y.time + b.ttlS) * 1000) ∧ (0 < b.ttlS → e.Tallies (xs ++ [y]))

/-- The outcomes come in the order of Redis' time, and those of one second within two seconds. -/
structure Orderly (history : List Sample) (x : Sample) : Prop where
  time_le : ∀ y ∈ history, y.time ≤ x.time
  close : ∀ y ∈ history, y.second = x.second → x.time < y.time + 2

variable {b}

theorem counted_of_noSamples {r : Redis} (h : r.NoSamples) : b.Counted r [] where
  absent cand n _ := by
    refine Dict.get?_eq_none_iff.mpr fun hk => ?_
    have hmatch := h _ hk
    rw [isSampleKey_sampleKey] at hmatch
    cases hmatch
  present cand n xs y h := by simp [ownSamples] at h

/-- **A record keeps the counts.** -/
theorem Counted.record {r : Redis} {history : List Sample} {x : Sample} (h : b.Counted r history)
    (hord : Orderly history x) : b.Counted (b.record r x) (history ++ [x]) := by
  have hget : ∀ cand n, ¬ (x.CountsFor cand ∧ x.second = n) →
      (b.record r x).get? (sampleKey cand.1 cand.2 n) = r.get? (sampleKey cand.1 cand.2 n) := by
    intro cand n hne
    refine Dict.get?_set_ne r _ fun hkey => hne ?_
    obtain ⟨hc, hn⟩ := sampleKey_inj hkey
    exact ⟨hc.symm, hn.symm⟩
  constructor
  · intro cand n hown
    rw [ownSamples_concat] at hown
    obtain ⟨hown, hnot⟩ := List.append_eq_nil_iff.mp hown
    have hne : ¬ (x.CountsFor cand ∧ x.second = n) := fun hxn => by simp [hxn] at hnot
    rw [hget cand n hne]
    exact h.absent cand n hown
  · intro cand n xs y hown
    rw [ownSamples_concat] at hown
    by_cases hxn : x.CountsFor cand ∧ x.second = n
    · -- the hash of `x` itself
      rw [if_pos hxn] at hown
      obtain ⟨rfl, hxy⟩ := List.append_inj' hown rfl
      obtain rfl : x = y := by simpa using hxy
      obtain ⟨hcount, rfl⟩ := hxn
      have hkey : sampleKey cand.1 cand.2 x.second = sampleKey x.cand.1 x.cand.2 x.second := by
        rw [← String.toList_inj, toList_sampleKey, toList_sampleKey, hcount]
      refine ⟨_, by rw [hkey]; exact Dict.get?_set_self r _ _, ?_, fun httl => ?_⟩
      · rw [RedisEntry.pexpire_expireAtMs, ttlS]
        ring_nf
      · -- until now it was there, or nothing was recorded under it
        have hread : (r.read (x.time * 1000) (sampleKey cand.1 cand.2 x.second)).Tallies
            (ownSamples history cand x.second) := by
          rcases List.eq_nil_or_concat (ownSamples history cand x.second) with hnil | ⟨ys, z, hz⟩
          · rw [Redis.read, h.absent _ _ hnil, hnil]
            exact ⟨RedisEntry.count_missing _, RedisEntry.count_missing _⟩
          · rw [List.concat_eq_append] at hz
            obtain ⟨e, he, hdue, htallies⟩ := h.present _ _ ys z hz
            have hmem : z ∈ history ∧ z.CountsFor cand ∧ z.second = x.second :=
              mem_ownSamples.mp (by rw [hz]; simp)
            have hclose := hord.close z hmem.1 hmem.2.2
            have hlong := b.two_lt_ttlS httl
            rw [Redis.read_present he hdue, if_pos (by linarith), hz]
            exact htallies httl
        rw [hkey] at hread
        exact hread.hincrby x
    · rw [if_neg hxn, List.append_nil] at hown
      rw [hget cand n hxn]
      exact h.present cand n xs y hown

end BreakerSet

/-! ## 4. What is read -/

namespace BreakerSet

variable {b : BreakerSet} {r : Redis} {history : List Sample} {t : ℚ}

/-- **What is read from a hash are its stored outcomes.** -/
theorem Counted.read (h : b.Counted r history)
    (hsorted : history.Pairwise fun x y => x.time ≤ y.time) (ht : ∀ y ∈ history, y.time ≤ t)
    (cand : String × String) (n : ℤ) :
    (r.read (t * 1000) (sampleKey cand.1 cand.2 n)).Tallies
      ((ownSamples history cand n).filter fun x => b.Stored history t x) := by
  rcases List.eq_nil_or_concat (ownSamples history cand n) with hnil | ⟨xs, y, hown⟩
  · rw [Redis.read, h.absent cand n hnil, hnil]
    exact ⟨RedisEntry.count_missing _, RedisEntry.count_missing _⟩
  · rw [List.concat_eq_append] at hown
    obtain ⟨e, he, hdue, htallies⟩ := h.present cand n xs y hown
    have hy : y ∈ history ∧ y.CountsFor cand ∧ y.second = n :=
      mem_ownSamples.mp (by rw [hown]; simp)
    rw [Redis.read_present he hdue, hown]
    by_cases halive : t < y.time + b.ttlS
    · have hall : (xs ++ [y]).filter (fun x => b.Stored history t x) = xs ++ [y] := by
        refine List.filter_eq_self.mpr fun x hx => decide_eq_true ?_
        obtain ⟨-, hc, hn⟩ := mem_ownSamples.mp (hown ▸ hx)
        exact ⟨y, hy.1, ⟨Eq.trans hy.2.1 (Eq.symm hc), hy.2.2.trans hn.symm⟩, halive⟩
      rw [if_pos halive, hall]
      exact htallies (by linarith [ht y hy.1])
    · have hnone : (xs ++ [y]).filter (fun x => b.Stored history t x) = [] := by
        refine List.filter_eq_nil_iff.mpr fun x hx => ?_
        obtain ⟨-, hc, hn⟩ := mem_ownSamples.mp (hown ▸ hx)
        rw [decide_eq_true_eq]
        rintro ⟨z, hz, ⟨hzc, hzn⟩, hlt⟩
        -- `y` is the last of the hash, so `z` is no later
        have hzown : z ∈ xs ++ [y] := hown ▸ mem_ownSamples.mpr ⟨hz, Eq.trans hzc hc, hzn.trans hn⟩
        have hlast : z.time ≤ y.time := by
          have hpair : (xs ++ [y]).Pairwise fun x y => x.time ≤ y.time :=
            hown ▸ hsorted.sublist List.filter_sublist
          rcases List.mem_append.mp hzown with hzx | hzy
          · exact (List.pairwise_append.mp hpair).2.2 z hzx y List.mem_cons_self
          · rw [List.mem_singleton.mp hzy]
        linarith
      rw [if_neg halive, hnone]
      exact ⟨RedisEntry.count_missing _, RedisEntry.count_missing _⟩

/-- The successes and the failures of a list. -/
def tally (xs : List Sample) : ℤ × ℤ := (xs.countP fun x => !x.failed, xs.countP Sample.failed)

theorem tally_nonneg (xs : List Sample) : 0 ≤ (tally xs).1 ∧ 0 ≤ (tally xs).2 :=
  ⟨Int.natCast_nonneg _, Int.natCast_nonneg _⟩

theorem tally_fst_pos_iff {xs : List Sample} :
    0 < (tally xs).1 ↔ ∃ x ∈ xs, x.failed = false := by
  rw [tally, Int.natCast_pos, List.countP_pos_iff]
  simp

theorem tally_snd_pos_iff {xs : List Sample} : 0 < (tally xs).2 ↔ ∃ x ∈ xs, x.failed = true := by
  rw [tally, Int.natCast_pos, List.countP_pos_iff]

/-- **What is summed over a range of seconds are the stored outcomes of these seconds.** -/
theorem sumSamples_eq (h : b.Counted r history)
    (hsorted : history.Pairwise fun x y => x.time ≤ y.time) (ht : ∀ y ∈ history, y.time ≤ t)
    (cand : String × String) (lo hi : ℤ) :
    sumSamples r t (sampleKeys cand lo hi) = tally (b.storedIn history t cand lo hi) := by
  have hfilter : ∀ n, (ownSamples history cand n).filter (fun x => b.Stored history t x) =
      (history.filter fun x => x.CountsFor cand ∧ b.Stored history t x).filter
        fun x => x.second = n := by
    intro n
    rw [ownSamples, List.filter_filter, List.filter_filter]
    refine List.filter_congr fun x _ => ?_
    by_cases hc : x.CountsFor cand <;> by_cases hn : x.second = n <;> simp [hc, hn]
  have hstored : b.storedIn history t cand lo hi =
      (history.filter fun x => x.CountsFor cand ∧ b.Stored history t x).filter
        fun x => lo ≤ x.second ∧ x.second ≤ hi := by
    rw [storedIn, List.filter_filter]
    refine List.filter_congr fun x _ => ?_
    by_cases hc : x.CountsFor cand <;> by_cases hn : lo ≤ x.second ∧ x.second ≤ hi <;> simp [hc, hn]
  have hread := fun n => h.read hsorted ht cand n
  simp only [hfilter] at hread
  simp only [sumSamples, sampleKeys, List.map_map, tally, hstored]
  rw [← sum_countP_intRange Sample.second, ← sum_countP_intRange Sample.second]
  congr 2
  · exact List.map_congr_left fun n _ => (hread n).1
  · exact List.map_congr_left fun n _ => (hread n).2

end BreakerSet

end Librouter
