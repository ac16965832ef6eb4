/-
# The names of the Redis keys

Four families of keys are built from a provider and a model: the buckets, the observations of a
second, the sample hashes of the breaker, and its probe locks.  They join free-form names with the
`:` that a model may contain as well.

A provider has no `:`, so the first one ends it; a second has none, so the last one begins it.  That
makes each family injective, and the prefixes and endings keep the families apart (`text_inj`).  The
sample hashes are also read back, by the `SCAN` that finds candidates (`keys_unambiguous`).
-/
import Librouter.Breaker.Snapshot

namespace Librouter

/-! ## 1. The keys -/

/-- A key that the gateway uses. -/
inductive GatewayKey
  | bucket (provider model : String)
  | observe (provider model : String) (epochSec : ℤ)
  | sample (provider model : String) (epochSec : ℤ)
  | probe (provider model : String)
deriving DecidableEq

namespace GatewayKey

/-- The name of the key. -/
def text : GatewayKey → String
  | bucket provider model => bucketKey provider model
  | observe provider model epochSec => observeKey provider model epochSec
  | sample provider model epochSec => sampleKey provider model epochSec
  | probe provider model => breakerProbeKey provider model

def provider : GatewayKey → String
  | bucket provider _ => provider
  | observe provider _ _ => provider
  | sample provider _ _ => provider
  | probe provider _ => provider

/-- The first part of the name. -/
def family : GatewayKey → String
  | bucket _ _ => "gw:bkt:"
  | observe _ _ _ => "gw:obs:"
  | sample _ _ _ => "gw:brk:"
  | probe _ _ => "gw:brk:"

/-- What follows the provider and its `:`. -/
def tail : GatewayKey → List Char
  | bucket _ model => model.toList
  | observe _ model epochSec => model.toList ++ ':' :: (toString epochSec).toList
  | sample _ model epochSec =>
    (model.toList ++ ":samples".toList) ++ ':' :: (toString epochSec).toList
  | probe _ model => model.toList ++ ':' :: "probe".toList

theorem toList_text (k : GatewayKey) :
    k.text.toList = k.family.toList ++ (k.provider.toList ++ ':' :: k.tail) := by
  cases k with
  | bucket provider model =>
    simp [text, family, GatewayKey.provider, tail, bucketKey, String.toList_append]
  | observe provider model epochSec =>
    simp [text, family, GatewayKey.provider, tail, observeKey, String.toList_append]
  | sample provider model epochSec =>
    simp [text, family, GatewayKey.provider, tail, sampleKey, String.toList_append]
  | probe provider model =>
    simp [text, family, GatewayKey.provider, tail, breakerProbeKey, String.toList_append]

/-! ## 2. No two keys have one name -/

theorem length_family (k : GatewayKey) : k.family.toList.length = 7 := by
  cases k <;> simp [family]

/-- Equal names have equal parts. -/
theorem parts_of_text_eq {k k' : GatewayKey} (hk : ':' ∉ k.provider.toList)
    (hk' : ':' ∉ k'.provider.toList) (h : k.text = k'.text) :
    k.family = k'.family ∧ k.provider = k'.provider ∧ k.tail = k'.tail := by
  have hlist := congrArg String.toList h
  rw [toList_text, toList_text] at hlist
  obtain ⟨hfamily, hrest⟩ :=
    List.append_inj hlist (k.length_family.trans k'.length_family.symm)
  have hsplit := congrArg (splitFirst ':') hrest
  rw [splitFirst_append hk, splitFirst_append hk'] at hsplit
  obtain ⟨hprovider, htail⟩ := Prod.mk.inj (Option.some.inj hsplit)
  exact ⟨String.toList_inj.mp hfamily, String.toList_inj.mp hprovider, htail⟩

/-- A second is not written `probe`. -/
theorem toString_ne_probe (n : ℤ) : (toString n).toList ≠ "probe".toList := by
  intro h
  have hp : 'p' ∈ (toString n).toList := by
    rw [h]
    decide
  rcases mem_toString hp with hminus | hdigit
  · cases hminus
  · cases hdigit

/-- **The name determines the key**, whatever the models are. -/
theorem text_inj {k k' : GatewayKey} (hk : ':' ∉ k.provider.toList)
    (hk' : ':' ∉ k'.provider.toList) (h : k.text = k'.text) : k = k' := by
  obtain ⟨hfamily, hprovider, htail⟩ := parts_of_text_eq hk hk' h
  cases k with
  | bucket provider model =>
    cases k' with
    | bucket provider' model' =>
      obtain rfl : provider = provider' := hprovider
      rw [String.toList_inj.mp htail]
    | observe | sample | probe => simp [family] at hfamily
  | observe provider model epochSec =>
    cases k' with
    | observe provider' model' epochSec' =>
      obtain rfl : provider = provider' := hprovider
      obtain ⟨hmodel, hsec⟩ :=
        append_cons_inj_of_not_mem (not_mem_toString _) (not_mem_toString _) htail
      rw [String.toList_inj.mp hmodel, toString_inj (String.toList_inj.mp hsec)]
    | bucket | sample | probe => simp [family] at hfamily
  | sample provider model epochSec =>
    cases k' with
    | sample provider' model' epochSec' =>
      obtain rfl : provider = provider' := hprovider
      obtain ⟨hmodel, hsec⟩ :=
        append_cons_inj_of_not_mem (not_mem_toString _) (not_mem_toString _) htail
      rw [String.toList_inj.mp (List.append_cancel_right hmodel),
        toString_inj (String.toList_inj.mp hsec)]
    | probe provider' model' =>
      -- both are the breaker's, and end differently
      obtain ⟨-, hsec⟩ := append_cons_inj_of_not_mem (not_mem_toString _) (by decide) htail
      exact absurd hsec (toString_ne_probe _)
    | bucket | observe => simp [family] at hfamily
  | probe provider model =>
    cases k' with
    | probe provider' model' =>
      obtain rfl : provider = provider' := hprovider
      obtain ⟨hmodel, -⟩ := append_cons_inj_of_not_mem (by decide) (by decide) htail
      rw [String.toList_inj.mp hmodel]
    | sample provider' model' epochSec =>
      obtain ⟨-, hsec⟩ := append_cons_inj_of_not_mem (by decide) (not_mem_toString _) htail
      exact absurd hsec.symm (toString_ne_probe _)
    | bucket | observe => simp [family] at hfamily

end GatewayKey

/-! ## 3. Sample hashes are read back -/

/-- What the `SCAN` finds becomes a candidate of the snapshot. -/
theorem Snapshot.mem_keys_seed {snapshot : Snapshot} {r : Redis} {nowS : ℚ} {key : String}
    {cand : String × String} (hkey : key ∈ r.scan (nowS * 1000) isSampleKey)
    (hread : sampleKeyCandidate key = some cand) : cand ∈ (snapshot.seed r nowS).keys := by
  have hmem : cand ∈ (r.scan (nowS * 1000) isSampleKey).filterMap sampleKeyCandidate :=
    List.mem_filterMap.mpr ⟨key, hkey, hread⟩
  rw [Dict.mem_keys_iff, Snapshot.get?_seed, if_pos hmem]
  cases snapshot.get? cand with
  | none => exact ⟨_, rfl⟩
  | some entry => exact ⟨entry, rfl⟩

/-- A sample hash that is there is found. -/
theorem mem_scan_sampleKey {r : Redis} {nowS : ℚ} {cand : String × String} {n : ℤ}
    {entry : RedisEntry} (hentry : r.get? (sampleKey cand.1 cand.2 n) = some entry)
    (hlive : entry.live (nowS * 1000) = true) :
    sampleKey cand.1 cand.2 n ∈ r.scan (nowS * 1000) isSampleKey := by
  refine List.mem_map.mpr ⟨_, List.mem_filter.mpr ⟨Dict.get?_eq_some_iff.mp hentry, ?_⟩, rfl⟩
  rw [hlive, isSampleKey_sampleKey]
  rfl

/-- **The keys are unambiguous.**  A name is the name of one key only; and the sample hash of a
plainly named candidate is read as that candidate, and found by the `SCAN` as long as it is there. -/
theorem keys_unambiguous (k k' : GatewayKey) (hk : ':' ∉ k.provider.toList)
    (hk' : ':' ∉ k'.provider.toList) : (k.text = k'.text → k = k') ∧
      ∀ (cand : String × String) (n : ℤ), k = .sample cand.1 cand.2 n →
        ¬ ":samples".toList <:+: ':' :: cand.2.toList →
          sampleKeyCandidate k.text = some cand ∧
            ∀ (snapshot : Snapshot) (r : Redis) (nowS : ℚ) (entry : RedisEntry),
              r.get? k.text = some entry → entry.live (nowS * 1000) = true →
                cand ∈ (snapshot.seed r nowS).keys := by
  refine ⟨GatewayKey.text_inj hk hk', ?_⟩
  rintro cand n rfl hmodel
  have hplain : PlainName cand := ⟨hk, hmodel⟩
  have hread := hplain.addressable n
  exact ⟨hread, fun snapshot r nowS entry hentry hlive =>
    Snapshot.mem_keys_seed (mem_scan_sampleKey hentry hlive) hread⟩

/-- Two keys whose models look like other keys. -/
theorem keys_unambiguous_lookalikes :
    (GatewayKey.sample "openai" "gpt:4o:sample" 7).text ≠
        (GatewayKey.probe "openai" "gpt:4o:sample:7").text ∧
      sampleKeyCandidate (GatewayKey.sample "openai" "gpt:4o:sample" 7).text =
        some ("openai", "gpt:4o:sample") := by
  have h := keys_unambiguous (.sample "openai" "gpt:4o:sample" 7)
    (.probe "openai" "gpt:4o:sample:7") (by decide) (by decide)
  refine ⟨fun heq => ?_, (h.2 ("openai", "gpt:4o:sample") 7 rfl (by decide)).1⟩
  cases h.1 heq

end Librouter
