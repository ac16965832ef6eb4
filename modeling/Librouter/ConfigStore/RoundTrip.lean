/-
# Writing a config and loading it back

Two laws a reader of `config_store.py` expects, and exactly how far they hold.

* Write, then load: the provider map has ONE entry for a tier and a provider, so of several
  candidates of one provider in a tier the last one survives.  A config comes back iff it has no
  such candidates (`write_load_iff`).
* Write again: a write upserts the rows of its own tiers and providers and deletes none, so what
  an earlier config had besides them stays.  A sequence of writes loads as its last one iff the
  others have only tiers and providers of the last (`reseed_iff`).
-/
import Librouter.ConfigStore.Spec

namespace Librouter

variable {V : Json.Scalars}

/-! ## 1. Tables that were only ever written by writes -/

/-- The writes, one after another. -/
def ConfigTables.writeAll (d : ConfigTables) (cs : List Config) : ConfigTables :=
  cs.foldl ConfigTables.write d

theorem writeAll_concat (d : ConfigTables) (cs : List Config) (c : Config) :
    d.writeAll (cs ++ [c]) = (d.writeAll cs).write c := by
  simp [ConfigTables.writeAll]

theorem mem_tiers_write {d : ConfigTables} {c : Config} {t : String} :
    t ∈ (d.write c).tiers.keys ↔ t ∈ c.tiers.keys ∨ t ∈ d.tiers.keys := by
  rw [ConfigTables.write, mem_tiers_execAll List.prefix_rfl, upsertedTiers_write]

theorem cell_write (d : ConfigTables) (c : Config) (t p : String) :
    cell V (d.write c).tierModels t p =
      if p ∈ c.providers then .ok (lastOf p (c.candidates t)) else cell V d.tierModels t p := by
  rw [ConfigTables.write, cell_execAll List.prefix_rfl]
  exact if_congr (mem_rewrittenProviders_write c) rfl rfl

theorem mem_tiers_writeAll (cs : List Config) (t : String) :
    t ∈ (ConfigTables.empty.writeAll cs).tiers.keys ↔ ∃ c ∈ cs, t ∈ c.tiers.keys := by
  induction cs using List.reverseRecOn with
  | nil => simp [ConfigTables.writeAll, ConfigTables.empty]
  | append_singleton cs c ih =>
    rw [writeAll_concat, mem_tiers_write, ih]
    simp only [List.mem_append, List.mem_singleton, or_and_right, exists_or, exists_eq_left]
    exact or_comm

/-- **Whose cells they are.**  After a sequence of writes the document of a provider is that of one
of the configs that have the provider, or there is none. -/
theorem cell_writeAll (V : Json.Scalars) (cs : List Config) (p : String) :
    ((∀ c ∈ cs, p ∉ c.providers) ∧
        ∀ t, cell V (ConfigTables.empty.writeAll cs).tierModels t p = .ok none) ∨
      ∃ c ∈ cs, p ∈ c.providers ∧
        ∀ t, cell V (ConfigTables.empty.writeAll cs).tierModels t p
          = .ok (lastOf p (c.candidates t)) := by
  induction cs using List.reverseRecOn with
  | nil => exact Or.inl ⟨fun c hc => absurd hc List.not_mem_nil, fun _ => rfl⟩
  | append_singleton cs c ih =>
    simp only [writeAll_concat, cell_write]
    by_cases hp : p ∈ c.providers
    · exact Or.inr ⟨c, List.mem_append_right _ List.mem_cons_self, hp, fun t => if_pos hp⟩
    · simp only [if_neg hp]
      rcases ih with ⟨hnot, hcell⟩ | ⟨c', hc', hp', hcell⟩
      · refine Or.inl ⟨fun x hx => ?_, hcell⟩
        rcases List.mem_append.mp hx with hx | hx
        · exact hnot x hx
        · exact List.mem_singleton.mp hx ▸ hp
      · exact Or.inr ⟨c', List.mem_append_left _ hc', hp', hcell⟩

/-- All their documents can be read. -/
theorem readable_writeAll (cs : List Config) (ts : List String) :
    Readable V ts (ConfigTables.empty.writeAll cs).tierModels := by
  intro t _ p
  rcases cell_writeAll V cs p with ⟨-, hcell⟩ | ⟨c, -, -, hcell⟩
  · exact ⟨_, hcell t⟩
  · exact ⟨_, hcell t⟩

/-- A load after the last of a sequence of writes succeeds. -/
theorem loadFromDb_writeAll (cs : List Config) (c : Config) :
    loadFromDb V ((ConfigTables.empty.writeAll cs).write c) =
      .ok (loadedConfig V ((ConfigTables.empty.writeAll cs).write c).tiers
        ((ConfigTables.empty.writeAll cs).write c).tierModels c.routing) := by
  refine loadFromDb_ok_iff.mpr ⟨c.routing.row, c.routing, routingConfig_write _ c, row_decode _, ?_,
    rfl⟩
  rw [← writeAll_concat]
  exact readable_writeAll _ _

/-! ## 2. Write, then load -/

/-- In no tier do two candidates have one provider. -/
def Config.OnePerProvider (c : Config) : Prop := ∀ t, DistinctProviders (c.candidates t)

theorem lastOf_of_not_mem {c : Config} {t p : String} (hp : p ∉ c.providers) :
    lastOf p (c.candidates t) = none := by
  rw [Option.eq_none_iff_forall_ne_some]
  intro e he
  refine hp ?_
  have hmem : e ∈ c.candidates t := List.mem_reverse.mp (List.mem_of_find?_eq_some he)
  unfold Config.candidates at hmem
  cases htc : c.tiers.get? t with
  | none => simp [htc] at hmem
  | some tc =>
    rw [htc, Option.map_some, Option.getD_some] at hmem
    exact List.mem_flatMap.mpr ⟨(t, tc), Dict.get?_eq_some_iff.mp htc,
      List.mem_map.mpr ⟨e, hmem, lastOf_provider he⟩⟩

/-- On empty tables the cells are the last candidates. -/
theorem cell_write_empty (c : Config) (t p : String) :
    cell V (ConfigTables.empty.write c).tierModels t p = .ok (lastOf p (c.candidates t)) := by
  rw [cell_write]
  split
  · rfl
  · rw [lastOf_of_not_mem ‹_›]
    rfl

theorem mem_tiers_write_empty {c : Config} {t : String} :
    t ∈ (ConfigTables.empty.write c).tiers.keys ↔ t ∈ c.tiers.keys := by
  rw [mem_tiers_write]
  exact or_iff_left List.not_mem_nil

/-- **The round trip.**  A config that is written to empty tables is loaded back iff no tier has
two candidates of one provider. -/
theorem write_load_iff (V : Json.Scalars) (c : Config) :
    (∃ r, loadFromDb V (ConfigTables.empty.write c) = .ok r ∧ SameConfig r c) ↔
      c.OnePerProvider := by
  have hload := loadFromDb_writeAll (V := V) [] c
  constructor
  · rintro ⟨r, hr, hsame⟩ t
    obtain rfl := Except.ok.inj (hload.symm.trans hr)
    by_cases ht : t ∈ c.tiers.keys
    · exact ((sameConfig_loaded_iff.mp hsame).2.1 t (mem_tiers_write_empty.mpr ht)).1
    · rw [candidates_of_not_mem ht]
      exact List.nodup_nil
  · intro hone
    refine ⟨_, hload, sameConfig_loaded_iff.mpr ⟨fun t => mem_tiers_write_empty, fun t _ => ?_, rfl⟩⟩
    exact ⟨hone t, fun p => congrArg entryOf (cell_write_empty c t p)⟩

/-- Two models of one provider in a tier. -/
def twoModels : Config :=
  sampleConfig "fast" [sampleEntry "openai" "gpt-4o-mini", sampleEntry "openai" "gpt-4o"]

/-- **The first of two models of a provider is lost.** -/
theorem twoModels_lost :
    ¬ ∃ r, loadFromDb .strict (ConfigTables.empty.write twoModels) = .ok r ∧
      SameConfig r twoModels := by
  rintro ⟨r, hr, hsame⟩
  have hload : loadFromDb .strict (ConfigTables.empty.write twoModels)
      = .ok (sampleConfig "fast" [sampleEntry "openai" "gpt-4o"]) := by decide +kernel
  obtain rfl := Except.ok.inj (hload.symm.trans hr)
  exact absurd (hsame.candidates "fast").length_eq (by decide)

/-! ## 3. Write again -/

theorem mem_providers_iff {c : Config} {p : String} :
    p ∈ c.providers ↔ ∃ t ∈ c.tiers.keys, ∃ e, lastOf p (c.candidates t) = some e := by
  constructor
  · intro hp
    obtain ⟨⟨t, tc⟩, htc, hmem⟩ := List.mem_flatMap.mp hp
    obtain ⟨e, he, rfl⟩ := List.mem_map.mp hmem
    refine ⟨t, Dict.mem_keys_of_mem htc, ?_⟩
    have hcands : c.candidates t = tc.candidates := by
      rw [Config.candidates, Dict.get?_eq_some_iff.mpr htc]
      rfl
    refine Option.isSome_iff_exists.mp (List.find?_isSome.mpr ⟨e, ?_, by simp⟩)
    rw [hcands]
    exact List.mem_reverse.mpr he
  · rintro ⟨t, -, e, he⟩
    by_contra hp
    rw [lastOf_of_not_mem hp] at he
    cases he

/-- **Re-seeding.**  After a sequence of writes the tables load as after the last write alone iff
the earlier configs have no tier and no provider that the last one does not have. -/
theorem reseed_iff (V : Json.Scalars) (cs : List Config) (c : Config) :
    loadFromDb V ((ConfigTables.empty.writeAll cs).write c)
        = loadFromDb V (ConfigTables.empty.write c) ↔
      ∀ c' ∈ cs, c'.tiers.keys ⊆ c.tiers.keys ∧ c'.providers ⊆ c.providers := by
  have hfirst := loadFromDb_writeAll (V := V) [] c
  simp only [ConfigTables.writeAll, List.foldl_nil] at hfirst
  rw [loadFromDb_writeAll, hfirst, Except.ok.injEq, loadedConfig_eq_iff]
  constructor
  · rintro ⟨hkeys, htables, -⟩ c' hc'
    have htiers : ∀ x ∈ cs, x.tiers.keys ⊆ c.tiers.keys := fun x hx t ht => by
      have hmem : t ∈ ((ConfigTables.empty.writeAll cs).write c).tiers.keys :=
        mem_tiers_write.mpr (Or.inr ((mem_tiers_writeAll cs t).mpr ⟨x, hx, ht⟩))
      exact mem_tiers_write_empty.mp (hkeys ▸ hmem)
    refine ⟨htiers c' hc', fun p hp => ?_⟩
    by_contra hnot
    rcases cell_writeAll V cs p with ⟨hnone, -⟩ | ⟨x, hx, hpx, hcell⟩
    · exact hnone c' hc' hp
    · -- the last config that had the provider still has a candidate in a tier that is listed
      obtain ⟨t, ht, e, he⟩ := mem_providers_iff.mp hpx
      have hlisted : t ∈ ((ConfigTables.empty.writeAll cs).write c).tiers.keys :=
        mem_tiers_write.mpr (Or.inl (htiers x hx ht))
      have hcells := tierTable_ext.mp (htables t hlisted) p
      rw [cell_write, if_neg hnot, hcell, cell_write_empty, lastOf_of_not_mem hnot, he] at hcells
      cases hcells
  · intro h
    refine ⟨Table.keys_eq_iff.mpr fun t => ?_, fun t _ => tierTable_ext.mpr fun p => ?_, rfl⟩
    · rw [mem_tiers_write, mem_tiers_write_empty, mem_tiers_writeAll]
      constructor
      · rintro (ht | ⟨c', hc', ht⟩)
        · exact ht
        · exact (h c' hc').1 ht
      · exact Or.inl
    · rw [cell_write, cell_write_empty]
      split
      · rfl
      · rename_i hp
        rcases cell_writeAll V cs p with ⟨-, hcell⟩ | ⟨c', hc', hp', -⟩
        · rw [hcell, lastOf_of_not_mem hp]
        · exact absurd ((h c' hc').2 hp') hp

/-- A tier of one candidate has one candidate per provider. -/
theorem sampleConfig_onePerProvider (tierName : String) (e : TierEntry) :
    (sampleConfig tierName [e]).OnePerProvider := by
  intro t
  have hget : (sampleConfig tierName [e]).tiers.get? t
      = if tierName = t then some ⟨[e]⟩ else none := rfl
  rw [Config.candidates, hget]
  split <;> simp [DistinctProviders]

/-- Another model there, and a slower refresh. -/
def slowConfig : Config :=
  { sampleConfig "fast" [sampleEntry "openai" "gpt-4o"] with
    routing := { RoutingConfig.default with
      refreshIntervalMs := 2000
      refreshIntervalMs_pos := by decide } }

/-- A config with the one tier `smart`. -/
def smartConfig : Config := sampleConfig "smart" [sampleEntry "anthropic" "claude-sonnet-4-6"]

/-- **A tier that the new config dropped is still there** after it was written. -/
theorem reseed_keeps_tier :
    fastConfig.OnePerProvider ∧ smartConfig.OnePerProvider ∧
      loadFromDb .strict ((ConfigTables.empty.writeAll [fastConfig]).write smartConfig)
        ≠ loadFromDb .strict (ConfigTables.empty.write smartConfig) :=
  ⟨sampleConfig_onePerProvider _ _, sampleConfig_onePerProvider _ _, by decide +kernel⟩

end Librouter
