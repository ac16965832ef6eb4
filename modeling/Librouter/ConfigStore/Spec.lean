/-
# What a load returns and what a write stores

The two translations between tiers of candidates and rows by provider, each as a function.  A
load reads CELLS: what the document of a provider says of a tier (`cell`).  It succeeds iff every
cell of every listed tier can be read, and then the tiers it returns are the tables of their
cells (`loadRows_ok_iff`).  A write sets, for each provider of the config, the cells of ALL tiers
(`cell_execAll`); so two loads agree iff they list the same tiers and the cells agree there
(`loadedConfig_eq_iff`).
-/
import Librouter.ConfigStore

namespace Librouter

open Json

/-! ## 1. What a load returns -/

section Loops

variable {α β ε : Type} {f : α → Except ε β}

/-- A loop that may raise returns iff no round raises, and then maps. -/
theorem mapM_ok_iff {g : α → β} (hg : ∀ a b, f a = .ok b → g a = b) : ∀ {l : List α} {bs : List β},
    l.mapM f = .ok bs ↔ (∀ a ∈ l, ∃ b, f a = .ok b) ∧ bs = l.map g
  | [], bs => by simp [pure, Except.pure, eq_comm]
  | a :: l, bs => by
    rw [List.mapM_cons]
    cases ha : f a with
    | error e => simp [bind, Except.bind, ha]
    | ok b =>
      have hb := hg a b ha
      cases hl : l.mapM f with
      | error e =>
        have hnot : ¬ ∀ a ∈ l, ∃ b, f a = .ok b := fun h => by
          have hok := (mapM_ok_iff hg).mpr ⟨h, rfl⟩
          rw [hl] at hok
          cases hok
        have hcons : ¬ ∀ x ∈ a :: l, ∃ b, f x = .ok b := fun h =>
          hnot fun x hx => h x (List.mem_cons_of_mem a hx)
        simp only [bind, Except.bind, hcons, false_and]
        exact iff_of_false nofun id
      | ok bs' =>
        obtain ⟨hall, rfl⟩ := (mapM_ok_iff hg).mp hl
        simp only [bind, Except.bind, pure, Except.pure, Except.ok.injEq, List.map_cons, hb]
        constructor
        · rintro rfl
          refine ⟨fun x hx => ?_, rfl⟩
          rcases List.mem_cons.mp hx with rfl | hx
          · exact ⟨b, ha⟩
          · exact hall x hx
        · exact fun h => h.2.symm

/-- A computation that returns went through every step of it... -/
theorem except_bind_ok {x : Except ε α} {k : α → Except ε β} {b : β} (h : x >>= k = .ok b) :
    ∃ a, x = .ok a ∧ k a = .ok b := by
  cases x with
  | error e => cases h
  | ok a => exact ⟨a, rfl, h⟩

/-- ...and one that raises stopped at one of them. -/
theorem except_bind_error {x : Except ε α} {k : α → Except ε β} {e : ε} (h : x >>= k = .error e) :
    x = .error e ∨ ∃ a, x = .ok a ∧ k a = .error e := by
  cases x with
  | error e' =>
    cases h
    exact Or.inl rfl
  | ok a => exact Or.inr ⟨a, rfl, h⟩

theorem mapM_error {e : ε} : ∀ {l : List α}, l.mapM f = .error e → ∃ a ∈ l, f a = .error e
  | [], h => by cases h
  | a :: l, h => by
    rw [List.mapM_cons] at h
    cases ha : f a with
    | error e' =>
      rw [ha] at h
      exact ⟨a, List.mem_cons_self, by rw [ha]; simpa [bind, Except.bind] using h⟩
    | ok b =>
      cases hl : l.mapM f with
      | error e' =>
        have he : e' = e := by simpa [bind, Except.bind, ha, hl] using h
        obtain ⟨x, hx, hfx⟩ := mapM_error hl
        exact ⟨x, List.mem_cons_of_mem a hx, he ▸ hfx⟩
      | ok bs => simp [bind, Except.bind, pure, Except.pure, ha, hl] at h

end Loops

section LoadSpec

variable (V : Scalars)

/-- What the stored documents say of `provider` in the tier. -/
def cell (models : Table String Json) (tierName provider : String) :
    Except LoadError (Option TierEntry) :=
  match models.get? provider with
  | none => .ok none
  | some tierMap => tierEntryOf V tierName provider tierMap

/-- Every document can be read for every one of the tiers. -/
def Readable (tierNames : List String) (models : Table String Json) : Prop :=
  ∀ t ∈ tierNames, ∀ p, ∃ r, cell V models t p = .ok r

/-- The candidate that was read, if one was. -/
def entryOf (r : Except LoadError (Option TierEntry)) : Option TierEntry :=
  match r with
  | .ok e => e
  | .error _ => none

/-- The candidates of a tier, keyed by their provider. -/
def tierTable (models : Table String Json) (tierName : String) : Table String TierEntry :=
  models.filterMap fun provider tierMap => entryOf (tierEntryOf V tierName provider tierMap)

/-- The config that a load builds from readable tables. -/
def loadedConfig (tiers : Table String (Option String)) (models : Table String Json)
    (routing : RoutingConfig) : Config where
  providerMode := .mock
  secretsMode := .mock
  tiers := ⟨tiers.keys.map fun t => (t, ⟨(tierTable V models t).values⟩), by
    rw [List.map_map]
    exact (List.map_id tiers.keys).symm ▸ tiers.nodup_keys⟩
  routing := routing
  callers := []

variable {V}

theorem tierEntryOf_provider {t p : String} {doc : Json} {e : TierEntry}
    (h : tierEntryOf V t p doc = .ok (some e)) : e.provider = p := by
  unfold tierEntryOf at h
  split at h
  · cases h
  · cases h
  · rename_i hc
    simp only [orMalformed] at h
    split at h
    · rename_i r hr
      cases h
      simp only [Option.bind_eq_bind, Option.bind_eq_some_iff, Option.pure_def,
        Option.some.injEq] at hr
      obtain ⟨entry, -, model, -, w, -, rl, -, e', he', rfl⟩ := hr
      unfold TierEntry.ofFields at he'
      split at he'
      · cases he'
        rfl
      · cases he'
    · cases h

theorem cell_provider {models : Table String Json} {t p : String} {e : TierEntry}
    (h : cell V models t p = .ok (some e)) : e.provider = p := by
  unfold cell at h
  split at h
  · cases h
  · exact tierEntryOf_provider h

/-- The table of a tier holds what the cells say. -/
theorem get?_tierTable (models : Table String Json) (t p : String) :
    (tierTable V models t).get? p = entryOf (cell V models t p) := by
  rw [tierTable, Table.get?_filterMap, cell]
  cases models.get? p <;> rfl

theorem tierTable_key {models : Table String Json} {t p : String} {e : TierEntry}
    (h : (tierTable V models t).get? p = some e) : e.provider = p := by
  rw [get?_tierTable] at h
  cases hr : cell V models t p with
  | error err => rw [hr] at h; cases h
  | ok r =>
    rw [hr] at h
    exact cell_provider (hr.trans (congrArg Except.ok h))

theorem readable_iff {ts : List String} {models : Table String Json} :
    Readable V ts models ↔
      ∀ t ∈ ts, ∀ e ∈ models.rows, ∃ r, tierEntryOf V t e.1 e.2 = .ok r := by
  refine forall₂_congr fun t _ => ?_
  constructor
  · intro h e he
    obtain ⟨r, hr⟩ := h e.1
    rw [cell, Table.get?_eq_some_iff.mpr he] at hr
    exact ⟨r, hr⟩
  · intro h p
    cases hp : models.get? p with
    | none => exact ⟨none, by rw [cell, hp]⟩
    | some doc =>
      obtain ⟨r, hr⟩ := h (p, doc) (Table.get?_eq_some_iff.mp hp)
      exact ⟨r, by rw [cell, hp]; exact hr⟩

/-- The candidates of one tier. -/
theorem tierCandidates_ok_iff {models : Table String Json} {t : String} {cs : List TierEntry} :
    tierCandidates V (Dict.ofList models.rows) t = .ok cs ↔
      (∀ e ∈ models.rows, ∃ r, tierEntryOf V t e.1 e.2 = .ok r) ∧
        cs = (tierTable V models t).values := by
  have hitems : (Dict.ofList models.rows).items = models.rows := Dict.items_ofList models.nodup_keys
  have hval : (tierTable V models t).values
      = (models.rows.map fun e => entryOf (tierEntryOf V t e.1 e.2)).reduceOption := by
    rw [Table.values, tierTable, Table.filterMap, List.map_filterMap, List.reduceOption,
      List.filterMap_map]
    refine List.filterMap_congr fun e _ => ?_
    rw [Option.map_map, Function.comp_apply, id]
    exact Option.map_id'
  have hmap : ∀ bs, models.rows.mapM (fun e => tierEntryOf V t e.1 e.2) = .ok bs ↔
      (∀ e ∈ models.rows, ∃ r, tierEntryOf V t e.1 e.2 = .ok r) ∧
        bs = models.rows.map fun e => entryOf (tierEntryOf V t e.1 e.2) :=
    fun bs => mapM_ok_iff fun a b h => by rw [h]; rfl
  rw [tierCandidates, hitems]
  constructor
  · intro h
    cases hm : models.rows.mapM (fun e => tierEntryOf V t e.1 e.2) with
    | error err => rw [hm] at h; cases h
    | ok bs =>
      obtain ⟨hall, rfl⟩ := (hmap bs).mp hm
      rw [hm] at h
      exact ⟨hall, by rw [hval]; exact (Except.ok.inj h).symm⟩
  · rintro ⟨hall, rfl⟩
    rw [(hmap _).mpr ⟨hall, rfl⟩, hval]
    rfl

theorem tierEntryOf_error {t p : String} {doc : Json} {err : LoadError}
    (h : tierEntryOf V t p doc = .error err) : err = .malformed := by
  unfold tierEntryOf at h
  split at h
  · exact (Except.error.inj h).symm
  · cases h
  · simp only [orMalformed] at h
    split at h
    · cases h
    · exact (Except.error.inj h).symm

/-- **What a load returns.**  It succeeds iff the routing row is in bounds and every document can
be read for every tier, and then it returns what the cells say. -/
theorem loadRows_ok_iff {row : RoutingRow} {tiers : Table String (Option String)}
    {models : Table String Json} {cfg : Config} :
    loadRows V row tiers.rows models.rows = .ok cfg ↔
      Readable V tiers.keys models ∧
        ∃ routing, row.decode = .ok routing ∧ cfg = loadedConfig V tiers models routing := by
  have hmap : ∀ bs, tiers.rows.mapM (fun r => (tierCandidates V (Dict.ofList models.rows) r.1).map
      fun cs => (r.1, TierConfig.mk cs)) = .ok bs ↔
      Readable V tiers.keys models ∧
        bs = tiers.rows.map fun r => (r.1, ⟨(tierTable V models r.1).values⟩) := by
    intro bs
    rw [mapM_ok_iff (g := fun r => (r.1, ⟨(tierTable V models r.1).values⟩))]
    · refine and_congr_left fun _ => ?_
      rw [readable_iff, Table.keys, List.forall_mem_map]
      refine forall₂_congr fun r _ => ?_
      constructor
      · rintro ⟨b, hb⟩
        cases hc : tierCandidates V (Dict.ofList models.rows) r.1 with
        | error err => rw [hc] at hb; cases hb
        | ok cs => exact (tierCandidates_ok_iff.mp hc).1
      · intro h
        exact ⟨_, by rw [tierCandidates_ok_iff.mpr ⟨h, rfl⟩]; rfl⟩
    · intro r b hb
      cases hc : tierCandidates V (Dict.ofList models.rows) r.1 with
      | error err => rw [hc] at hb; cases hb
      | ok cs =>
        rw [hc] at hb
        rw [← (tierCandidates_ok_iff.mp hc).2]
        exact Except.ok.inj hb
  have hitems : (Dict.ofList (tiers.rows.map fun r =>
      (r.1, TierConfig.mk (tierTable V models r.1).values))).items
      = tiers.keys.map fun t => (t, TierConfig.mk (tierTable V models t).values) := by
    rw [Dict.items_ofList, Table.keys, List.map_map]
    · rfl
    · rw [List.map_map]
      exact tiers.nodup_keys
  unfold loadRows
  constructor
  · intro h
    obtain ⟨bs, hbs, h⟩ := except_bind_ok h
    obtain ⟨routing, hrouting, h⟩ := except_bind_ok h
    obtain ⟨hread, rfl⟩ := (hmap bs).mp hbs
    refine ⟨hread, routing, hrouting, ?_⟩
    obtain rfl := Except.ok.inj h
    exact congrArg (fun d : Dict String TierConfig => (⟨.mock, .mock, d, routing, []⟩ : Config))
      (Dict.ext hitems)
  · rintro ⟨hread, routing, hrouting, rfl⟩
    simp only [(hmap _).mpr ⟨hread, rfl⟩, hrouting, bind, Except.bind]
    exact congrArg (fun d : Dict String TierConfig =>
      (Except.ok ⟨.mock, .mock, d, routing, []⟩ : Except LoadError Config)) (Dict.ext hitems)

/-- Otherwise the load raises. -/
theorem loadRows_error {row : RoutingRow} {tiers : Table String (Option String)}
    {models : Table String Json} {err : LoadError}
    (h : loadRows V row tiers.rows models.rows = .error err) : err = .malformed := by
  unfold loadRows at h
  rcases except_bind_error h with h | ⟨bs, -, h⟩
  · obtain ⟨r, -, hr⟩ := mapM_error h
    cases hc : tierCandidates V (Dict.ofList models.rows) r.1 with
    | ok cs => rw [hc] at hr; cases hr
    | error err' =>
      rw [hc] at hr
      obtain rfl := Except.error.inj hr
      unfold tierCandidates at hc
      cases hm : (Dict.ofList models.rows).items.mapM (fun e => tierEntryOf V r.1 e.1 e.2) with
      | ok cs => rw [hm] at hc; cases hc
      | error err'' =>
        rw [hm] at hc
        obtain rfl := Except.error.inj hc
        obtain ⟨e, -, he⟩ := mapM_error hm
        exact tierEntryOf_error he
  · rcases except_bind_error h with h | ⟨routing, -, h⟩
    · unfold RoutingRow.decode orMalformed at h
      split at h
      · cases h
      · exact (Except.error.inj h).symm
    · cases h

end LoadSpec

/-! ## 2. What a write stores -/

/-- The candidates of a tier; none if there is no such tier. -/
def Config.candidates (c : Config) (tierName : String) : List TierEntry :=
  ((c.tiers.get? tierName).map TierConfig.candidates).getD []

/-- The providers with a candidate somewhere in the config. -/
def Config.providers (c : Config) : List String :=
  c.tiers.items.flatMap fun tier => tier.2.candidates.map TierEntry.provider

/-- The last of the candidates of a provider. -/
def lastOf (provider : String) (cands : List TierEntry) : Option TierEntry :=
  cands.reverse.find? fun cand => decide (cand.provider = provider)

/-- The entry for `tierName` in the document of `provider`. -/
def docAt (m : ProviderMap) (provider tierName : String) : Option Json :=
  (m.get? provider).bind fun doc => doc.get? tierName

theorem get?_addCandidate (t : String) (m : ProviderMap) (cand : TierEntry) (p : String) :
    (addCandidate t m cand).get? p = if p = cand.provider then
      some (((m.get? cand.provider).getD Dict.empty).set t (candidateDoc cand)) else m.get? p := by
  simp only [addCandidate, Dict.get?_set, Dict.get?_setDefault]
  by_cases h : p = cand.provider
  · simp [h]
  · simp [h]

/-- A candidate overwrites its provider's entry for the tier, and no other. -/
theorem docAt_addCandidate (t : String) (m : ProviderMap) (cand : TierEntry) (p t' : String) :
    docAt (addCandidate t m cand) p t' =
      if p = cand.provider ∧ t' = t then some (candidateDoc cand) else docAt m p t' := by
  unfold docAt
  rw [get?_addCandidate]
  by_cases hp : p = cand.provider
  · subst hp
    by_cases ht : t' = t
    · simp [ht]
    · rw [if_pos rfl, if_neg (fun h => ht h.2), Option.bind_some, Dict.get?_set_ne _ _ ht]
      cases m.get? cand.provider <;> rfl
  · rw [if_neg hp, if_neg (fun h => hp h.1)]

theorem lastOf_cons (p : String) (cand : TierEntry) (cands : List TierEntry) :
    lastOf p (cand :: cands)
      = (lastOf p cands).or (if cand.provider = p then some cand else none) := by
  rw [lastOf, List.reverse_cons, List.find?_append, lastOf]
  by_cases h : cand.provider = p <;> simp [h]

/-- The candidates of one tier: the last of each provider stays. -/
theorem docAt_foldl (t p t' : String) : ∀ (cands : List TierEntry) (m : ProviderMap),
    docAt (cands.foldl (addCandidate t) m) p t' =
      if t' = t then ((lastOf p cands).map candidateDoc).or (docAt m p t') else docAt m p t'
  | [], m => by simp [lastOf]
  | cand :: cands, m => by
    rw [List.foldl_cons, docAt_foldl t p t' cands, docAt_addCandidate, lastOf_cons]
    by_cases ht : t' = t
    · by_cases hp : p = cand.provider
      · cases lastOf p cands <;> simp [ht, hp]
      · cases lastOf p cands <;> simp [ht, hp, Ne.symm hp]
    · simp [ht]

/-- All tiers, one after another. -/
theorem docAt_foldl_tiers (p t : String) : ∀ (items : List (String × TierConfig)) (m : ProviderMap),
    (items.map Prod.fst).Nodup →
      docAt (items.foldl (fun m tier => tier.2.candidates.foldl (addCandidate tier.1) m) m) p t =
        (((Dict.lookup t items).bind fun tc => lastOf p tc.candidates).map candidateDoc).or
          (docAt m p t)
  | [], m, _ => by simp [Dict.lookup]
  | tier :: items, m, h => by
    obtain ⟨hne, hitems⟩ := List.nodup_cons.mp h
    rw [List.foldl_cons, docAt_foldl_tiers p t items _ hitems, docAt_foldl, Dict.lookup]
    by_cases ht : tier.1 = t
    · have hnone : Dict.lookup t items = none := by
        rw [Option.eq_none_iff_forall_ne_some]
        intro tc htc
        exact hne (ht ▸ List.mem_map_of_mem ((Dict.lookup_eq_some_iff hitems).mp htc))
      simp [ht, hnone]
    · simp [ht, Ne.symm ht]

/-- **The written documents.**  The document of a provider holds, for each tier, the last of the
provider's candidates there. -/
theorem docAt_providerMap (c : Config) (p t : String) :
    docAt c.providerMap p t = (lastOf p (c.candidates t)).map candidateDoc := by
  unfold Config.providerMap Config.candidates
  rw [docAt_foldl_tiers p t c.tiers.items _ c.tiers.nodup_keys, Dict.get?]
  cases Dict.lookup t c.tiers.items <;> simp [docAt, lastOf]

theorem mem_keys_foldl (t p : String) : ∀ (cands : List TierEntry) (m : ProviderMap),
    p ∈ (cands.foldl (addCandidate t) m).keys ↔ p ∈ cands.map TierEntry.provider ∨ p ∈ m.keys
  | [], m => by simp
  | cand :: cands, m => by
    have hadd : p ∈ (addCandidate t m cand).keys ↔ p = cand.provider ∨ p ∈ m.keys := by
      rw [Dict.mem_keys_iff, Dict.mem_keys_iff, get?_addCandidate]
      by_cases hp : p = cand.provider <;> simp [hp]
    rw [List.foldl_cons, mem_keys_foldl t p cands, hadd, List.map_cons, List.mem_cons]
    tauto

/-- A document is written for the providers of the config, and for no others. -/
theorem mem_keys_providerMap (c : Config) (p : String) :
    p ∈ c.providerMap.keys ↔ p ∈ c.providers := by
  have hfold : ∀ (items : List (String × TierConfig)) (m : ProviderMap),
      p ∈ (items.foldl (fun m tier => tier.2.candidates.foldl (addCandidate tier.1) m) m).keys ↔
        p ∈ (items.flatMap fun tier => tier.2.candidates.map TierEntry.provider) ∨ p ∈ m.keys := by
    intro items
    induction items with
    | nil => simp
    | cons tier items ih =>
      intro m
      rw [List.foldl_cons, ih, mem_keys_foldl, List.flatMap_cons, List.mem_append]
      tauto
  simpa [Config.providerMap, Config.providers] using hfold c.tiers.items Dict.empty

theorem lastOf_provider {p : String} {cands : List TierEntry} {e : TierEntry}
    (h : lastOf p cands = some e) : e.provider = p := by
  simpa using List.find?_some h

/-- A candidate is read back from the entry written for it. -/
theorem tierEntryOf_written (V : Scalars) (doc : Dict String Json) (t p : String)
    {cand : Option TierEntry} (hdoc : doc.get? t = cand.map candidateDoc)
    (hp : ∀ e ∈ cand, e.provider = p) : tierEntryOf V t p (ofDict id doc) = .ok cand := by
  unfold tierEntryOf
  rw [contains?_ofDict, field?_ofDict, hdoc]
  cases cand with
  | none => rfl
  | some e =>
    obtain rfl := hp e rfl
    have hlimits : RateLimitEntry.validate V
        (.obj [("rpm", .int e.rateLimits.rpm), ("tpm", .int e.rateLimits.tpm)])
        = some e.rateLimits :=
      RateLimitEntry.validate_dump V e.rateLimits
    simp [candidateDoc, orMalformed, required, field?, Dict.lookup, hlimits]

/-! ## 3. A write that has got somewhere

The statements executed so far are a beginning of the statements of the write. -/

/-- The tiers that the statements upsert. -/
def upsertedTiers (ss : List Statement) : List String := (tierRowsOf ss).map Prod.fst

/-- The providers whose documents the statements replace. -/
def rewrittenProviders (ss : List Statement) : List String := (modelRowsOf ss).map Prod.fst

section Prefix

variable (c : Config)

theorem tierRowsOf_write :
    tierRowsOf (writeStatements c) = c.tiers.keys.map fun t => (t, none) := by
  simp [tierRowsOf, writeStatements, List.filterMap_append, List.filterMap_map]

theorem modelRowsOf_write :
    modelRowsOf (writeStatements c) = c.providerMap.items.map fun e => (e.1, ofDict id e.2) := by
  simp [modelRowsOf, writeStatements, List.filterMap_append, List.filterMap_map]

theorem routingRowsOf_write : routingRowsOf (writeStatements c) = [c.routing.row] := by
  simp [routingRowsOf, writeStatements, List.filterMap_append, List.filterMap_map]

@[simp] theorem upsertedTiers_write : upsertedTiers (writeStatements c) = c.tiers.keys := by
  rw [upsertedTiers, tierRowsOf_write, List.map_map]
  exact List.map_id _

theorem rewrittenProviders_write_keys :
    rewrittenProviders (writeStatements c) = c.providerMap.keys := by
  rw [rewrittenProviders, modelRowsOf_write, List.map_map]
  rfl

theorem mem_rewrittenProviders_write {p : String} :
    p ∈ rewrittenProviders (writeStatements c) ↔ p ∈ c.providers := by
  rw [rewrittenProviders_write_keys, mem_keys_providerMap]

variable {c} {pre : List Statement} (h : pre <+: writeStatements c)

include h

theorem upsertedTiers_nodup : (upsertedTiers pre).Nodup := by
  have hsub : (upsertedTiers pre).Sublist (upsertedTiers (writeStatements c)) :=
    (h.sublist.filterMap _).map _
  exact hsub.nodup (upsertedTiers_write c ▸ c.tiers.nodup_keys)

theorem rewrittenProviders_nodup : (rewrittenProviders pre).Nodup := by
  have hsub : (rewrittenProviders pre).Sublist (rewrittenProviders (writeStatements c)) :=
    (h.sublist.filterMap _).map _
  exact hsub.nodup (rewrittenProviders_write_keys c ▸ c.providerMap.nodup_keys)

variable (d : ConfigTables)

theorem mem_tiers_execAll {t : String} :
    t ∈ (d.execAll pre).tiers.keys ↔ t ∈ upsertedTiers pre ∨ t ∈ d.tiers.keys := by
  rw [d.tiers_execAll, Table.mem_keys_iff, Table.get?_upsertAll (upsertedTiers_nodup h)]
  cases hl : Dict.lookup t (tierRowsOf pre) with
  | none =>
    have hnot : t ∉ upsertedTiers pre := fun hmem => by
      obtain ⟨e, he, rfl⟩ := List.mem_map.mp hmem
      rw [(Dict.lookup_eq_some_iff (upsertedTiers_nodup h)).mpr he] at hl
      cases hl
    simp [hnot, Table.mem_keys_iff]
  | some v =>
    have hmem : t ∈ upsertedTiers pre :=
      List.mem_map_of_mem ((Dict.lookup_eq_some_iff (upsertedTiers_nodup h)).mp hl)
    simp [hmem]

/-- **The cells during a write.**  Those of the rewritten providers are the new ones, for every
tier; the others are as before. -/
theorem cell_execAll (V : Scalars) (t p : String) :
    cell V (d.execAll pre).tierModels t p =
      if p ∈ rewrittenProviders pre then .ok (lastOf p (c.candidates t))
      else cell V d.tierModels t p := by
  have hnodup := rewrittenProviders_nodup h
  unfold cell
  rw [d.tierModels_execAll, Table.get?_upsertAll hnodup]
  cases hl : Dict.lookup p (modelRowsOf pre) with
  | none =>
    have hnot : p ∉ rewrittenProviders pre := fun hmem => by
      obtain ⟨e, he, rfl⟩ := List.mem_map.mp hmem
      rw [(Dict.lookup_eq_some_iff hnodup).mpr he] at hl
      cases hl
    rw [if_neg hnot, Option.none_or]
  | some json =>
    have hmem := (Dict.lookup_eq_some_iff hnodup).mp hl
    have hrow : (p, json) ∈ modelRowsOf (writeStatements c) := (h.sublist.filterMap _).subset hmem
    rw [modelRowsOf_write] at hrow
    obtain ⟨⟨p', doc⟩, hdoc, heq⟩ := List.mem_map.mp hrow
    obtain ⟨rfl, rfl⟩ := Prod.mk.inj heq
    have hdocAt := docAt_providerMap c p' t
    rw [docAt, Dict.get?_eq_some_iff.mpr hdoc, Option.bind_some] at hdocAt
    have hp' : p' ∈ rewrittenProviders pre := List.mem_map_of_mem hmem
    rw [Option.some_or, if_pos hp']
    exact tierEntryOf_written V doc t p' hdocAt fun e he => lastOf_provider he

theorem routingConfig_execAll_proper (hne : pre ≠ writeStatements c) :
    (d.execAll pre).routingConfig = d.routingConfig := by
  have hpre : pre <+: c.tiers.keys.map (fun t => Statement.upsertTier t none) ++
      c.providerMap.items.map (fun e => Statement.upsertTierModels e.1 (ofDict id e.2)) := by
    rcases List.prefix_concat_iff.mp h with heq | hpre
    · exact absurd heq hne
    · exact hpre
  have hnone : routingRowsOf (c.tiers.keys.map (fun t => Statement.upsertTier t none) ++
      c.providerMap.items.map fun e => Statement.upsertTierModels e.1 (ofDict id e.2)) = [] := by
    simp [routingRowsOf, List.filterMap_append, List.filterMap_map]
  have hrows : routingRowsOf pre = [] :=
    List.sublist_nil.mp (hnone ▸ hpre.sublist.filterMap _)
  rw [d.routingConfig_execAll, hrows]
  rfl

end Prefix

theorem routingConfig_write (d : ConfigTables) (c : Config) :
    (d.write c).routingConfig = some c.routing.row := by
  rw [ConfigTables.write, d.routingConfig_execAll, routingRowsOf_write]
  rfl

/-! ## 4. Comparing loads -/

/-- The same tiers, in each the same candidates in some order, and the same routing. -/
structure SameConfig (r c : Config) : Prop where
  tiers : ∀ t, t ∈ r.tiers.keys ↔ t ∈ c.tiers.keys
  candidates : ∀ t, (r.candidates t).Perm (c.candidates t)
  routing : r.routing = c.routing

/-- No two of the candidates have one provider. -/
def DistinctProviders (cands : List TierEntry) : Prop := (cands.map TierEntry.provider).Nodup

section Loaded

variable {V : Scalars} {tiers : Table String (Option String)} {models : Table String Json}
  {routing : RoutingConfig}

/-- **A load from the tables as they stand.** -/
theorem loadFromDb_ok_iff {d : ConfigTables} {cfg : Config} :
    loadFromDb V d = .ok cfg ↔
      ∃ row routing, d.routingConfig = some row ∧ row.decode = .ok routing ∧
        Readable V d.tiers.keys d.tierModels ∧ cfg = loadedConfig V d.tiers d.tierModels routing := by
  unfold loadFromDb ConfigTables.fetchRoutingConfig
  cases hrow : d.routingConfig with
  | none => exact ⟨nofun, fun ⟨_, _, h, _⟩ => nomatch h⟩
  | some row =>
    refine loadRows_ok_iff.trans ?_
    constructor
    · rintro ⟨hread, routing, hdec, rfl⟩
      exact ⟨row, routing, rfl, hdec, hread, rfl⟩
    · rintro ⟨_, routing, ⟨⟩, hdec, hread, rfl⟩
      exact ⟨hread, routing, hdec, rfl⟩

@[simp] theorem row_decode (r : RoutingConfig) : r.row.decode = .ok r := by
  rw [RoutingRow.decode]
  exact congrArg orMalformed r.ofFields_self

@[simp] theorem keys_loadedConfig :
    (loadedConfig V tiers models routing).tiers.keys = tiers.keys := by
  rw [loadedConfig, Dict.keys, List.map_map]
  exact List.map_id _

theorem candidates_loadedConfig {t : String} (ht : t ∈ tiers.keys) :
    (loadedConfig V tiers models routing).candidates t = (tierTable V models t).values := by
  have hget : (loadedConfig V tiers models routing).tiers.get? t
      = some ⟨(tierTable V models t).values⟩ :=
    Dict.get?_eq_some_iff.mpr (List.mem_map.mpr ⟨t, ht, rfl⟩)
  rw [Config.candidates, hget]
  rfl

theorem candidates_of_not_mem {c : Config} {t : String} (ht : t ∉ c.tiers.keys) :
    c.candidates t = [] := by
  rw [Config.candidates, Dict.get?_eq_none_iff.mpr ht]
  rfl

theorem tierTable_ext {models' : Table String Json} {t : String} :
    tierTable V models t = tierTable V models' t ↔
      ∀ p, entryOf (cell V models t p) = entryOf (cell V models' t p) := by
  simp only [← get?_tierTable]
  exact ⟨fun h p => by rw [h], Table.ext_get?⟩

/-- **Two loads are equal** iff they list the same tiers, the cells of the listed tiers agree, and
so does the routing. -/
theorem loadedConfig_eq_iff {tiers' : Table String (Option String)} {models' : Table String Json}
    {routing' : RoutingConfig} :
    loadedConfig V tiers models routing = loadedConfig V tiers' models' routing' ↔
      tiers.keys = tiers'.keys ∧ (∀ t ∈ tiers.keys, tierTable V models t = tierTable V models' t) ∧
        routing = routing' := by
  constructor
  · intro h
    have hkeys : tiers.keys = tiers'.keys := by
      have hk := congrArg (fun c : Config => c.tiers.keys) h
      simpa using hk
    refine ⟨hkeys, fun t ht => ?_, congrArg Config.routing h⟩
    have hcands := congrArg (fun c : Config => c.candidates t) h
    simp only [candidates_loadedConfig ht, candidates_loadedConfig (hkeys ▸ ht)] at hcands
    exact (Table.values_inj (fun _ _ => tierTable_key) fun _ _ => tierTable_key).mp hcands
  · rintro ⟨hkeys, htables, rfl⟩
    have hitems : (tiers.keys.map fun t => (t, TierConfig.mk (tierTable V models t).values))
        = tiers'.keys.map fun t => (t, TierConfig.mk (tierTable V models' t).values) := by
      rw [← hkeys]
      exact List.map_congr_left fun t ht => by rw [htables t ht]
    exact congrArg (fun d : Dict String TierConfig => (⟨.mock, .mock, d, routing, []⟩ : Config))
      (Dict.ext hitems)

theorem lastOf_eq_some_iff {cands : List TierEntry} (h : DistinctProviders cands) {p : String}
    {e : TierEntry} : lastOf p cands = some e ↔ e ∈ cands ∧ e.provider = p := by
  have hrev : (cands.reverse.map TierEntry.provider).Nodup := by
    rw [List.map_reverse]
    exact List.nodup_reverse.mpr h
  rw [lastOf, Table.find?_eq_some_iff_of_nodup hrev, List.mem_reverse]

/-- The candidates of a loaded tier are those of a list iff no provider occurs twice in the list
and the cells are its candidates. -/
theorem values_perm_iff {t : String} {cands : List TierEntry} :
    (tierTable V models t).values.Perm cands ↔
      DistinctProviders cands ∧ ∀ p, entryOf (cell V models t p) = lastOf p cands := by
  have hnodup : ((tierTable V models t).values.map TierEntry.provider).Nodup :=
    Table.nodup_map_key fun _ _ => tierTable_key
  have hfind : ∀ p, (tierTable V models t).values.find? (fun e => decide (e.provider = p)) =
      (tierTable V models t).get? p := Table.find?_values fun _ _ => tierTable_key
  constructor
  · intro hp
    have hd : DistinctProviders cands := (hp.map TierEntry.provider).nodup_iff.mp hnodup
    refine ⟨hd, fun p => Option.ext fun e => ?_⟩
    rw [lastOf_eq_some_iff hd, ← get?_tierTable, ← hfind,
      Table.find?_eq_some_iff_of_nodup hnodup, hp.mem_iff]
  · rintro ⟨hd, hcells⟩
    refine (Table.perm_iff_find? hnodup hd).mpr fun p => Option.ext fun e => ?_
    rw [hfind, get?_tierTable, hcells, lastOf_eq_some_iff hd,
      Table.find?_eq_some_iff_of_nodup hd]

/-- **A load is a given config** iff it lists its tiers, no provider occurs twice in one of them,
and the cells are its candidates. -/
theorem sameConfig_loaded_iff {c : Config} :
    SameConfig (loadedConfig V tiers models routing) c ↔
      (∀ t, t ∈ tiers.keys ↔ t ∈ c.tiers.keys) ∧
        (∀ t ∈ tiers.keys, DistinctProviders (c.candidates t) ∧
          ∀ p, entryOf (cell V models t p) = lastOf p (c.candidates t)) ∧
        routing = c.routing := by
  constructor
  · rintro ⟨hkeys, hcands, hrouting⟩
    rw [keys_loadedConfig] at hkeys
    refine ⟨hkeys, fun t ht => ?_, hrouting⟩
    have hp := hcands t
    rw [candidates_loadedConfig ht] at hp
    exact values_perm_iff.mp hp
  · rintro ⟨hkeys, hcells, hrouting⟩
    refine ⟨by rw [keys_loadedConfig]; exact hkeys, fun t => ?_, hrouting⟩
    by_cases ht : t ∈ tiers.keys
    · rw [candidates_loadedConfig ht]
      exact values_perm_iff.mpr (hcells t ht)
    · rw [candidates_of_not_mem (by rwa [keys_loadedConfig]),
        candidates_of_not_mem ((hkeys t).not.mp ht)]

theorem SameConfig.refl (c : Config) : SameConfig c c :=
  ⟨fun _ => Iff.rfl, fun _ => List.Perm.refl _, rfl⟩

theorem lastOf_values (t p : String) :
    lastOf p (tierTable V models t).values = entryOf (cell V models t p) :=
  ((values_perm_iff.mp (List.Perm.refl _)).2 p).symm

/-- Loads list their tiers and candidates in the order of the tables, so loads that are the same
config are equal. -/
theorem sameConfig_loadedConfig_iff {tiers' : Table String (Option String)}
    {models' : Table String Json} {routing' : RoutingConfig} :
    SameConfig (loadedConfig V tiers models routing) (loadedConfig V tiers' models' routing') ↔
      loadedConfig V tiers models routing = loadedConfig V tiers' models' routing' := by
  constructor
  · intro h
    obtain ⟨hkeys, hcells, hrouting⟩ := sameConfig_loaded_iff.mp h
    rw [keys_loadedConfig] at hkeys
    refine loadedConfig_eq_iff.mpr ⟨Table.keys_eq_iff.mpr hkeys, fun t ht => ?_, hrouting⟩
    refine tierTable_ext.mpr fun p => ?_
    rw [(hcells t ht).2 p, candidates_loadedConfig ((hkeys t).mp ht), lastOf_values]
  · intro h
    rw [h]
    exact SameConfig.refl _

end Loaded

end Librouter
