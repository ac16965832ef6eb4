/-
# The cache of the resolver is a bounded LRU

Two things touch a key: a fresh hit, and the store at the end of a lookup.  Both move it to the end
of the dictionary; a store may then let the first key go.  Any number of lookups is in flight, so a
stale entry may be stored anew, or be evicted, while a lookup for it waits; the clock does not
matter.

What the cache holds are the `cache_maxsize` keys that were touched last, in that order
(`keys_of_run`), which is the library's `Recency.touch` once a step.
-/
import Librouter.Auth
import Librouter.Foundations.Recency

namespace Librouter
namespace CallerResolver

variable (r : CallerResolver)

/-! ## 1. Touches -/

/-- The cache holds a fresh entry for the key. -/
def hits (s : AuthState) (now : ℚ) (keyHash : String) : Bool :=
  (s.cache.get? keyHash).any fun entry => now - entry.stamp < r.cacheTtlS

/-- The key that the event touches: of a fresh hit, or of a store. -/
def touched (s : AuthState) (e : AuthEvent) : Option String :=
  match e.action with
  | .call header => (r.keyHash? header).filter (r.hits s e.now)
  | .resume i => (s.calls[i]?).bind fun call =>
    match call.pc with
    | .fetched keyHash answer _ => if (callerByKeyHash answer).isSome then some keyHash else none
    | _ => none
  | _ => none

/-- The touches of a run, in order. -/
def touches (s : AuthState) (es : List AuthEvent) : List String :=
  Runs.notes r.act (fun s e => (r.touched s e).toList) s es

/-! ## 2. One event -/

/-- The keys after a touch, or without one. -/
def touchKeys (keys : List String) (touched : Option String) : List String :=
  touched.elim keys (Recency.touch r.cacheMaxsize keys)

variable {r} {s s' : AuthState} {e : AuthEvent} {es : List AuthEvent}

/-- A store touches the key. -/
theorem keys_store {cache : Dict String CacheEntry} (h : cache.items.length ≤ r.cacheMaxsize)
    (keyHash : String) (entry : CacheEntry) :
    (r.store cache keyHash entry).keys = Recency.touch r.cacheMaxsize cache.keys keyHash := by
  have hkeys := cache.keys_set_moveToEnd keyHash entry
  have hlen : ((cache.set keyHash entry).moveToEnd keyHash).items.length =
      (cache.keys.filter (· ≠ keyHash) ++ [keyHash]).length := by
    rw [← hkeys, Dict.length_keys]
  have hfew : (cache.keys.filter (· ≠ keyHash)).length ≤ r.cacheMaxsize :=
    (List.length_filter_le _ _).trans (cache.length_keys.trans_le h)
  simp only [store]
  rw [Recency.touch]
  split
  · rename_i hover
    -- one too many
    rw [Dict.keys_popFirst, hkeys]
    rw [hlen, List.length_append, List.length_singleton] at hover
    rw [List.rtake, List.length_append, List.length_singleton, ← List.drop_one]
    congr 1
    omega
  · rename_i hfits
    rw [hkeys, Recency.rtake_of_length_le]
    rw [hlen] at hfits
    exact Nat.le_of_not_lt hfits

/-- A hit touches the key. -/
theorem keys_hit {cache : Dict String CacheEntry} (h : cache.items.length ≤ r.cacheMaxsize)
    {keyHash : String} (hmem : keyHash ∈ cache.keys) :
    (cache.moveToEnd keyHash).keys = Recency.touch r.cacheMaxsize cache.keys keyHash := by
  have hkeys := Dict.keys_moveToEnd hmem
  have hsame : (cache.moveToEnd keyHash).keys.length ≤ r.cacheMaxsize := by
    rwa [Dict.length_keys, (cache.perm_moveToEnd keyHash).length_eq]
  rw [Recency.touch, ← hkeys, Recency.rtake_of_length_le hsame]

/-- **What an event does to the keys.** -/
theorem keys_act (h : s.cache.items.length ≤ r.cacheMaxsize) (hact : r.act s e = some s') :
    s'.cache.keys = r.touchKeys s.cache.keys (r.touched s e) := by
  obtain ⟨now, action⟩ := e
  cases action with
  | call header =>
    obtain rfl := Option.some.inj hact
    simp only [begin, touched]
    cases hkey : r.keyHash? header with
    | none => rfl
    | some keyHash =>
      simp only [Option.filter_some]
      by_cases hhits : r.hits s now keyHash = true
      · obtain ⟨entry, hentry, hfresh⟩ := (Option.any_eq_true _ _).mp hhits
        simp only [hentry, if_pos (of_decide_eq_true hfresh), if_pos hhits]
        exact keys_hit h (Dict.mem_keys_iff.mpr ⟨entry, hentry⟩)
      · rw [if_neg hhits]
        split
        · rename_i entry hentry
          have hstale : ¬ now - entry.stamp < r.cacheTtlS := fun hfresh =>
            hhits ((Option.any_eq_true _ _).mpr ⟨entry, hentry, decide_eq_true hfresh⟩)
          rw [if_neg hstale]
          rfl
        · rfl
  | read i answer =>
    obtain ⟨call, -, hact⟩ := Option.bind_eq_some_iff.mp hact
    split at hact
    · obtain ⟨-, hact⟩ := Option.ite_none_right_eq_some.mp hact
      cases hact
      rfl
    · cases hact
  | resume i =>
    obtain ⟨call, hcall, hact⟩ := Option.bind_eq_some_iff.mp hact
    split at hact
    · rename_i keyHash answer read hpc
      obtain rfl := Option.some.inj hact
      simp only [touched, hcall, Option.bind_some, hpc, finish]
      cases callerByKeyHash answer with
      | none => rfl
      | some caller => exact keys_store h keyHash _
    · cases hact
  | fail i =>
    obtain ⟨call, -, hact⟩ := Option.bind_eq_some_iff.mp hact
    split at hact
    · cases hact
      rfl
    · cases hact
      rfl
    · cases hact
  | change rows =>
    obtain rfl := Option.some.inj hact
    rfl

/-! ## 3. Runs -/

variable {clock : ℚ} {callers : List CallerRow}

/-- The keys that were touched last. -/
def Recent (r : CallerResolver) (touches : List String) (s : AuthState) : Prop :=
  s.cache.keys = touches.dedup.rtake r.cacheMaxsize

/-- A key that is touched by a call is there already. -/
theorem mem_of_touched {now : ℚ} {header : Option String} {keyHash : String}
    (h : r.touched s ⟨now, .call header⟩ = some keyHash) : keyHash ∈ s.cache.keys := by
  obtain ⟨-, hhits⟩ := Option.filter_eq_some_iff.mp h
  obtain ⟨entry, hentry, -⟩ := (Option.any_eq_true _ _).mp hhits
  exact Dict.mem_keys_iff.mpr ⟨entry, hentry⟩

theorem Recent.length_le {touches : List String} (h : Recent r touches s) :
    s.cache.items.length ≤ r.cacheMaxsize := by
  rw [← Dict.length_keys, h, Recency.length_rtake]
  exact min_le_left _ _

/-- **Every event keeps it.** -/
theorem Recent.act {touches : List String} (h : Recent r touches s)
    (hact : r.act s e = some s') : Recent r (touches ++ (r.touched s e).toList) s' := by
  have hkeys := keys_act h.length_le hact
  cases htouched : r.touched s e with
  | none =>
    rw [htouched] at hkeys
    rw [Option.toList_none, List.append_nil]
    exact hkeys.trans h
  | some keyHash =>
    rw [htouched] at hkeys
    have hstep : s'.cache.keys = Recency.touch r.cacheMaxsize s.cache.keys keyHash := hkeys
    rw [h, Recency.touch_recent] at hstep
    exact hstep

/-- What the cache holds after a run. -/
theorem keys_of_run (hrun : Runs.run r.act (.init clock callers) es = some s) :
    Recent r (r.touches (.init clock callers) es) s := by
  have hinv := Runs.invariant (fun es s => Runs.run r.act (.init clock callers) es = some s ∧
      Recent r (r.touches (.init clock callers) es) s)
    ⟨rfl, by simp [Recent, touches, Runs.notes, AuthState.init]⟩ (fun es s e s' h hact => by
      obtain ⟨hrun, hrecent⟩ := h
      refine ⟨Runs.run_concat_iff.mpr ⟨s, hrun, hact⟩, ?_⟩
      rw [touches, Runs.notes_concat hrun]
      exact hrecent.act hact) hrun
  exact hinv.2

/-- A cache of at most `cache_maxsize` keys, in the order of the last touches, and what an event
does to it. -/
structure IsLru (r : CallerResolver) (touches : List String) (s : AuthState) : Prop where
  bounded : s.cache.items.length ≤ r.cacheMaxsize
  ordered : s.cache.keys.Pairwise (Recency.Before touches)
  /-- no other key was touched more recently -/
  recent : s.cache.keys = touches.dedup.rtake r.cacheMaxsize
  /-- what is touched stays -/
  touched : ∀ e s', r.act s e = some s' → ∀ keyHash, r.touched s e = some keyHash →
    keyHash ∈ s'.cache.keys
  /-- only the key goes that was touched least recently, for another that is stored -/
  evicts : ∀ e s', r.act s e = some s' → ∀ keyHash ∈ s.cache.keys, keyHash ∉ s'.cache.keys →
    ∃ i stored, e.action = .resume i ∧ r.touched s e = some stored ∧
      s.cache.keys.filter (· ≠ stored) ++ [stored] = keyHash :: s'.cache.keys ∧
      ∀ other ∈ s'.cache.keys, Recency.Before (touches ++ [stored]) keyHash other

/-- **The cache is a bounded LRU**, after any run, on any clock. -/
theorem cache_isLru {r : CallerResolver} (hsize : 1 ≤ r.cacheMaxsize) {clock : ℚ}
    {callers : List CallerRow} {es : List AuthEvent} {s : AuthState}
    (hrun : Runs.run r.act (.init clock callers) es = some s) :
    IsLru r (r.touches (.init clock callers) es) s := by
  have hrecent := keys_of_run hrun
  have hbounded := hrecent.length_le
  have htouch : ∀ e s' keyHash, r.act s e = some s' → r.touched s e = some keyHash →
      s'.cache.keys = Recency.touch r.cacheMaxsize s.cache.keys keyHash := by
    intro e s' keyHash hact htouched
    have hkeys := keys_act hbounded hact
    rw [htouched] at hkeys
    exact hkeys
  refine ⟨hbounded, ?_, hrecent, fun e s' hact keyHash htouched => ?_,
    fun e s' hact keyHash hmem hgone => ?_⟩
  · have hsuffix := (List.drop_sublist
      ((r.touches (.init clock callers) es).dedup.length - r.cacheMaxsize)
      (r.touches (.init clock callers) es).dedup)
    rw [hrecent]
    exact (Recency.pairwise_before _).sublist hsuffix
  · rw [htouch e s' keyHash hact htouched]
    exact Recency.mem_touch hsize _ _
  · cases htouched : r.touched s e with
    | none =>
      have hkeys := keys_act hbounded hact
      rw [htouched] at hkeys
      exact absurd (hkeys ▸ hmem) hgone
    | some stored =>
      have hkeys := htouch e s' stored hact htouched
      rw [hkeys] at hgone ⊢
      have hevicts := Recency.touch_evicts hsize (s.cache.length_keys.trans_le hbounded) hmem hgone
      obtain ⟨i, haction⟩ : ∃ i, e.action = .resume i := by
        obtain ⟨now, action⟩ := e
        cases action with
        | resume i => exact ⟨i, rfl⟩
        | call header =>
          -- a hit lets nothing go
          rw [← keys_hit hbounded (mem_of_touched htouched)] at hgone
          obtain ⟨entry, hentry⟩ := Dict.mem_keys_iff.mp hmem
          have hitem := Dict.get?_eq_some_iff.mp hentry
          have hstays := Dict.mem_items_moveToEnd (k := stored).mpr hitem
          exact absurd (Dict.mem_keys_of_mem hstays) hgone
        | read | fail | change => cases htouched
      refine ⟨i, stored, haction, rfl, hevicts, ?_⟩
      have hlast : (keyHash :: Recency.touch r.cacheMaxsize s.cache.keys stored).Sublist
          (r.touches (.init clock callers) es ++ [stored]).dedup := by
        rw [← hevicts, Recency.dedup_concat, hrecent]
        exact ((List.drop_sublist _ _).filter _).append (List.Sublist.refl _)
      exact (List.pairwise_cons.mp ((Recency.pairwise_before _).sublist hlast)).1

/-- A resolver that remembers two keys. -/
def smallResolver : CallerResolver := { sampleResolver with cacheMaxsize := 2 }

/-- Three lookups side by side; then the clock goes back, and the first key is a hit. -/
def crowdedEvents : List AuthEvent :=
  [⟨5, .call (some "Bearer k")⟩, ⟨5, .call (some "Bearer l")⟩, ⟨6, .call (some "Bearer m")⟩,
    ⟨6, .read 0 none⟩, ⟨7, .read 1 none⟩, ⟨7, .read 2 none⟩,
    ⟨8, .resume 2⟩, ⟨8, .resume 0⟩, ⟨3, .call (some "Bearer k")⟩, ⟨9, .resume 1⟩]

theorem cache_isLru_crowded : ∃ s,
    Runs.run smallResolver.act (.init 5 []) crowdedEvents = some s ∧
      IsLru smallResolver (smallResolver.touches (.init 5 []) crowdedEvents) s := by
  have hend : (Runs.run smallResolver.act (.init 5 []) crowdedEvents).isSome = true := by
    decide +kernel
  obtain ⟨s, hrun⟩ := Option.isSome_iff_exists.mp hend
  exact ⟨s, hrun, cache_isLru (by decide) hrun⟩

end CallerResolver
end Librouter
