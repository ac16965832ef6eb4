/-
# Keyed tables

A table with a primary key, as a query with `ORDER BY` the key sees it: rows in strictly
increasing key order.  `upsert` is `INSERT ... ON CONFLICT (key) DO UPDATE`.  Because the order
is part of the structure, two tables with the same rows are EQUAL (`ext_get?`), whatever history
of upserts produced them.
-/
import Librouter.Foundations.Dict

/-- A table keyed by `κ`, rows in key order. -/
structure Table (κ ν : Type*) [LT κ] where
  rows : List (κ × ν)
  sorted : rows.Pairwise (fun a b => a.1 < b.1)

namespace Table

variable {κ ν : Type*} [LinearOrder κ]

/-- The table with no rows. -/
def empty : Table κ ν := ⟨[], List.Pairwise.nil⟩

/-- The primary keys, in order. -/
def keys (t : Table κ ν) : List κ := t.rows.map Prod.fst

/-- The row with the key `k`. -/
def get? (t : Table κ ν) (k : κ) : Option ν := Dict.lookup k t.rows

/-- Insert or replace the row with the key `k`. -/
def upsertRows (k : κ) (v : ν) : List (κ × ν) → List (κ × ν)
  | [] => [(k, v)]
  | e :: l => if k < e.1 then (k, v) :: e :: l else if e.1 = k then (k, v) :: l
    else e :: upsertRows k v l

theorem mem_upsertRows {k : κ} {v : ν} {e : κ × ν} : ∀ {l : List (κ × ν)},
    e ∈ upsertRows k v l → e = (k, v) ∨ e ∈ l
  | [], h => Or.inl (List.mem_singleton.mp h)
  | x :: l, h => by
    rw [upsertRows] at h
    split at h
    · exact List.mem_cons.mp h
    · split at h
      · exact (List.mem_cons.mp h).imp_right (List.mem_cons_of_mem x)
      · rcases List.mem_cons.mp h with h | h
        · exact Or.inr (h ▸ List.mem_cons_self)
        · exact (mem_upsertRows h).imp_right (List.mem_cons_of_mem x)

theorem sorted_upsertRows (k : κ) (v : ν) : ∀ {l : List (κ × ν)},
    l.Pairwise (fun a b => a.1 < b.1) →
      (upsertRows k v l).Pairwise (fun a b => a.1 < b.1)
  | [], _ => List.pairwise_singleton _ _
  | x :: l, h => by
    obtain ⟨hx, hl⟩ := List.pairwise_cons.mp h
    rw [upsertRows]
    split
    · rename_i hk
      refine List.pairwise_cons.mpr ⟨fun e he => ?_, h⟩
      rcases List.mem_cons.mp he with rfl | he
      · exact hk
      · exact hk.trans (hx e he)
    · rename_i hk
      split
      · rename_i hxk
        exact List.pairwise_cons.mpr ⟨fun e he => hxk ▸ hx e he, hl⟩
      · rename_i hxk
        refine List.pairwise_cons.mpr ⟨fun e he => ?_, sorted_upsertRows k v hl⟩
        rcases mem_upsertRows he with rfl | he
        · exact lt_of_le_of_ne (not_lt.mp hk) hxk
        · exact hx e he

/-- `INSERT ... ON CONFLICT (key) DO UPDATE`. -/
def upsert (t : Table κ ν) (k : κ) (v : ν) : Table κ ν :=
  ⟨upsertRows k v t.rows, sorted_upsertRows k v t.sorted⟩

/-! ## Lookups -/

@[simp] theorem keys_empty : (empty : Table κ ν).keys = [] := rfl

@[simp] theorem get?_empty (k : κ) : (empty : Table κ ν).get? k = none := rfl

theorem nodup_keys (t : Table κ ν) : t.keys.Nodup :=
  (List.pairwise_map.mpr t.sorted).imp fun h => h.ne

theorem get?_eq_some_iff {t : Table κ ν} {k : κ} {v : ν} :
    t.get? k = some v ↔ (k, v) ∈ t.rows :=
  Dict.lookup_eq_some_iff t.nodup_keys

theorem mem_keys_iff {t : Table κ ν} {k : κ} : k ∈ t.keys ↔ ∃ v, t.get? k = some v := by
  simp only [keys, List.mem_map, get?_eq_some_iff]
  constructor
  · rintro ⟨⟨k', v⟩, h, rfl⟩
    exact ⟨v, h⟩
  · rintro ⟨v, h⟩
    exact ⟨(k, v), h, rfl⟩

theorem get?_eq_none_iff {t : Table κ ν} {k : κ} : t.get? k = none ↔ k ∉ t.keys := by
  rw [mem_keys_iff, Option.eq_none_iff_forall_ne_some]
  exact not_exists.symm

theorem lookup_upsertRows (k k' : κ) (v : ν) : ∀ {l : List (κ × ν)},
    l.Pairwise (fun a b => a.1 < b.1) →
      Dict.lookup k' (upsertRows k v l) = if k' = k then some v else Dict.lookup k' l
  | [], _ => by
    by_cases h : k' = k
    · simp [upsertRows, Dict.lookup, h]
    · simp [upsertRows, Dict.lookup, h, Ne.symm h]
  | x :: l, hs => by
    obtain ⟨hx, hl⟩ := List.pairwise_cons.mp hs
    have ih := lookup_upsertRows k k' v hl
    rw [upsertRows]
    by_cases hk : k' = k
    · subst hk
      split
      · simp [Dict.lookup]
      · split
        · simp [Dict.lookup]
        · rename_i hne
          rw [Dict.lookup, if_neg hne, ih, if_pos rfl, if_pos rfl]
    · rw [if_neg hk] at ih ⊢
      split
      · rw [Dict.lookup, if_neg (Ne.symm hk)]
      · split
        · rename_i hxk
          rw [Dict.lookup, Dict.lookup, if_neg (Ne.symm hk), if_neg (by rw [hxk]; exact Ne.symm hk)]
        · rw [Dict.lookup, Dict.lookup, ih]

/-- **Upsert is pointwise update.** -/
theorem get?_upsert (t : Table κ ν) (k k' : κ) (v : ν) :
    (t.upsert k v).get? k' = if k' = k then some v else t.get? k' :=
  lookup_upsertRows k k' v t.sorted

/-! ## Tables with the same rows are equal -/

/-- Two lists in strict key order with the same keys list them alike. -/
theorem eq_of_sorted_of_mem_iff {l l' : List κ} (hl : l.Pairwise (· < ·))
    (hl' : l'.Pairwise (· < ·)) (h : ∀ k, k ∈ l ↔ k ∈ l') : l = l' :=
  List.Perm.eq_of_pairwise (fun _ _ _ _ hab hba => absurd hba hab.asymm)
    hl hl' ((List.perm_ext_iff_of_nodup (hl.imp fun h => h.ne) (hl'.imp fun h => h.ne)).mpr h)

theorem sorted_keys (t : Table κ ν) : t.keys.Pairwise (· < ·) := List.pairwise_map.mpr t.sorted

/-- The key order of a table depends only on which keys it has. -/
theorem keys_eq_iff {μ : Type*} {t : Table κ ν} {t' : Table κ μ} :
    t.keys = t'.keys ↔ ∀ k, k ∈ t.keys ↔ k ∈ t'.keys :=
  ⟨fun h k => by rw [h], eq_of_sorted_of_mem_iff t.sorted_keys t'.sorted_keys⟩

/-- Rows are what the keys look up. -/
theorem rows_eq (t : Table κ ν) :
    t.rows.map (fun e => (e.1, some e.2)) = t.keys.map (fun k => (k, t.get? k)) := by
  rw [keys, List.map_map]
  refine List.map_congr_left fun e he => ?_
  rw [Function.comp_apply, get?_eq_some_iff.mpr he]

/-- **Extensionality.**  A table is determined by its lookups. -/
theorem ext_get? {t t' : Table κ ν} (h : ∀ k, t.get? k = t'.get? k) : t = t' := by
  have hkeys : t.keys = t'.keys := keys_eq_iff.mpr fun k => by rw [mem_keys_iff, mem_keys_iff, h k]
  have hrows : t.rows.map (fun e => (e.1, some e.2)) = t'.rows.map (fun e => (e.1, some e.2)) := by
    rw [rows_eq, rows_eq, hkeys]
    exact List.map_congr_left fun k _ => by rw [h k]
  have hinj : Function.Injective (fun e : κ × ν => (e.1, some e.2)) := by
    rintro ⟨a, b⟩ ⟨c, d⟩ hab
    simpa using hab
  cases t
  cases t'
  simpa using List.map_injective_iff.mpr hinj hrows

/-! ## Tables that agree on what a query reads -/

/-- Writing the rows of a dictionary, one upsert after another. -/
def upsertAll (t : Table κ ν) (l : List (κ × ν)) : Table κ ν :=
  l.foldl (fun t e => t.upsert e.1 e.2) t

@[simp] theorem upsertAll_nil (t : Table κ ν) : t.upsertAll [] = t := rfl

@[simp] theorem upsertAll_cons (t : Table κ ν) (e : κ × ν) (l : List (κ × ν)) :
    t.upsertAll (e :: l) = (t.upsert e.1 e.2).upsertAll l := rfl

/-- Upserts with distinct keys: the last word on a key is the entry written for it, or what the
table held before. -/
theorem get?_upsertAll : ∀ {l : List (κ × ν)} (_ : (l.map Prod.fst).Nodup) (t : Table κ ν) (k : κ),
    (t.upsertAll l).get? k = (Dict.lookup k l).or (t.get? k)
  | [], _, t, k => by simp [Dict.lookup]
  | e :: l, hl, t, k => by
    obtain ⟨hne, hl⟩ := List.nodup_cons.mp hl
    rw [upsertAll_cons, get?_upsertAll hl, get?_upsert, Dict.lookup]
    by_cases h : k = e.1
    · have hnone : Dict.lookup k l = none := by
        rw [Option.eq_none_iff_forall_ne_some]
        intro v hv
        exact hne (h ▸ List.mem_map_of_mem ((Dict.lookup_eq_some_iff hl).mp hv))
      simp [h, h ▸ hnone]
    · simp [h, Ne.symm h]

/-! ## Part of a table -/

section FilterMap

variable {μ : Type*}

/-- The rows that `f` keeps, under the same keys. -/
def filterMap (t : Table κ ν) (f : κ → ν → Option μ) : Table κ μ where
  rows := t.rows.filterMap fun e => (f e.1 e.2).map fun v => (e.1, v)
  sorted := by
    refine List.Pairwise.filterMap _ (fun a a' h b hb b' hb' => ?_) t.sorted
    obtain ⟨v, -, rfl⟩ := Option.map_eq_some_iff.mp hb
    obtain ⟨v', -, rfl⟩ := Option.map_eq_some_iff.mp hb'
    exact h

/-- The rows without their keys. -/
def values (t : Table κ ν) : List ν := t.rows.map Prod.snd

theorem get?_filterMap (t : Table κ ν) (f : κ → ν → Option μ) (k : κ) :
    (t.filterMap f).get? k = (t.get? k).bind (f k) := by
  refine Option.ext fun v => ?_
  rw [get?_eq_some_iff, Option.bind_eq_some_iff]
  simp only [filterMap, List.mem_filterMap, Option.map_eq_some_iff, get?_eq_some_iff]
  constructor
  · rintro ⟨⟨k', w⟩, hmem, v', hv, heq⟩
    obtain ⟨rfl, rfl⟩ := Prod.mk.inj heq
    exact ⟨w, hmem, hv⟩
  · rintro ⟨w, hmem, hv⟩
    exact ⟨(k, w), hmem, v, hv, rfl⟩

end FilterMap

section Keyed

variable {key : ν → κ} {t t' : Table κ ν}

/-- In a table whose rows know their key, the values list the rows. -/
theorem rows_eq_of_key (h : ∀ k v, t.get? k = some v → key v = k) :
    t.rows = t.values.map fun v => (key v, v) := by
  rw [values, List.map_map]
  refine (List.map_id _).symm.trans (List.map_congr_left fun e he => ?_)
  exact Prod.ext (h e.1 e.2 (get?_eq_some_iff.mpr he)).symm rfl

theorem mem_values_iff (h : ∀ k v, t.get? k = some v → key v = k) {v : ν} :
    v ∈ t.values ↔ t.get? (key v) = some v := by
  rw [get?_eq_some_iff, rows_eq_of_key h, List.mem_map]
  constructor
  · exact fun hv => ⟨v, hv, rfl⟩
  · rintro ⟨v', hv', heq⟩
    exact (Prod.mk.inj heq).2 ▸ hv'

theorem nodup_map_key (h : ∀ k v, t.get? k = some v → key v = k) : (t.values.map key).Nodup := by
  have hkeys : t.keys = t.values.map key := by
    rw [keys, rows_eq_of_key h, List.map_map]
    rfl
  exact hkeys ▸ t.nodup_keys

/-- Such tables with the same values are equal. -/
theorem values_inj (h : ∀ k v, t.get? k = some v → key v = k)
    (h' : ∀ k v, t'.get? k = some v → key v = k) : t.values = t'.values ↔ t = t' := by
  constructor
  · intro heq
    have hrows : t.rows = t'.rows := by rw [rows_eq_of_key h, rows_eq_of_key h', heq]
    cases t
    cases t'
    simpa using hrows
  · rintro rfl
    rfl

end Keyed

/-! ## Lists with distinct keys

A list whose elements have distinct keys is, up to order, the finite map from the keys to the
elements. -/

section KeyedLists

variable {α : Type*} {key : α → κ} {l l' : List α}

theorem find?_eq_some_iff_of_nodup (h : (l.map key).Nodup) {k : κ} {x : α} :
    l.find? (fun y => decide (key y = k)) = some x ↔ x ∈ l ∧ key x = k := by
  induction l with
  | nil => simp
  | cons y l ih =>
    obtain ⟨hy, hl⟩ := List.nodup_cons.mp h
    rw [List.find?_cons]
    by_cases hk : key y = k
    · simp only [hk, decide_true, Option.some.injEq, List.mem_cons]
      constructor
      · rintro rfl
        exact ⟨Or.inl rfl, hk⟩
      · rintro ⟨rfl | hx, hxk⟩
        · rfl
        · exact absurd (List.mem_map.mpr ⟨x, hx, hxk.trans hk.symm⟩) hy
    · simp only [hk, decide_false, ih hl, List.mem_cons]
      constructor
      · exact fun hx => ⟨Or.inr hx.1, hx.2⟩
      · rintro ⟨rfl | hx, hxk⟩
        · exact absurd hxk hk
        · exact ⟨hx, hxk⟩

/-- Lists with distinct keys are permutations of each other iff they find the same elements. -/
theorem perm_iff_find? (h : (l.map key).Nodup) (h' : (l'.map key).Nodup) :
    l.Perm l' ↔
      ∀ k, l.find? (fun y => decide (key y = k)) = l'.find? fun y => decide (key y = k) := by
  constructor
  · intro hp k
    refine Option.ext fun x => ?_
    rw [find?_eq_some_iff_of_nodup h, find?_eq_some_iff_of_nodup h', hp.mem_iff]
  · intro hf
    refine (List.perm_ext_iff_of_nodup (List.Nodup.of_map key h) (List.Nodup.of_map key h')).mpr ?_
    intro x
    have hx := hf (key x)
    constructor
    · intro hmem
      rw [(find?_eq_some_iff_of_nodup h).mpr ⟨hmem, rfl⟩] at hx
      exact ((find?_eq_some_iff_of_nodup h').mp hx.symm).1
    · intro hmem
      rw [(find?_eq_some_iff_of_nodup h').mpr ⟨hmem, rfl⟩] at hx
      exact ((find?_eq_some_iff_of_nodup h).mp hx).1

/-- The values of a table whose rows know their key find what the table holds. -/
theorem find?_values {t : Table κ α} (h : ∀ k v, t.get? k = some v → key v = k) (k : κ) :
    t.values.find? (fun y => decide (key y = k)) = t.get? k := by
  refine Option.ext fun v => ?_
  rw [find?_eq_some_iff_of_nodup (nodup_map_key h), mem_values_iff h]
  constructor
  · rintro ⟨hv, rfl⟩
    exact hv
  · intro hv
    obtain rfl := h k v hv
    exact ⟨hv, rfl⟩

end KeyedLists

end Table
