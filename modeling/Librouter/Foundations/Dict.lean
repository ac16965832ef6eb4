/-
# Insertion-ordered dictionaries

`Dict κ ν` is the dictionary of a scripting language: a finite map whose keys are listed in the
order in which they were FIRST inserted.  Assigning to a key that is already there keeps its
place and replaces its value; that a key occurs once is a field of the structure, so a dictionary
with two entries for one key cannot be built.

Iteration order matters to the programs that use one (it is the order in which they issue their
writes), so dictionaries are compared entry by entry, and `get?` is what survives when the order
does not matter.
-/
import Mathlib

/-- An insertion-ordered dictionary. -/
@[ext] structure Dict (κ ν : Type*) where
  items : List (κ × ν)
  nodup_keys : (items.map Prod.fst).Nodup

namespace Dict

variable {κ ν : Type*}

/-- The keys, in insertion order. -/
def keys (d : Dict κ ν) : List κ := d.items.map Prod.fst

/-- The values, in insertion order. -/
def values (d : Dict κ ν) : List ν := d.items.map Prod.snd

/-- The dictionary with no entries. -/
def empty : Dict κ ν := ⟨[], List.nodup_nil⟩

instance : Inhabited (Dict κ ν) := ⟨empty⟩

instance [DecidableEq κ] [DecidableEq ν] : DecidableEq (Dict κ ν) := fun a b =>
  decidable_of_iff (a.items = b.items) ⟨fun h => by cases a; cases b; simp_all, fun h => h ▸ rfl⟩

@[simp] theorem keys_empty : (empty : Dict κ ν).keys = [] := rfl

@[simp] theorem items_empty : (empty : Dict κ ν).items = [] := rfl

theorem mem_keys_of_mem {d : Dict κ ν} {e : κ × ν} (h : e ∈ d.items) : e.1 ∈ d.keys :=
  List.mem_map_of_mem h

variable [DecidableEq κ]

/-- The value of the first entry for `k`. -/
def lookup (k : κ) : List (κ × ν) → Option ν
  | [] => none
  | e :: l => if e.1 = k then some e.2 else lookup k l

/-- `d.get(k)`. -/
def get? (d : Dict κ ν) (k : κ) : Option ν := lookup k d.items

/-- `k in d`. -/
def contains (d : Dict κ ν) (k : κ) : Bool := decide (k ∈ d.keys)

/-- Assignment to `k` in a list of entries: in place if `k` is there, else at the end. -/
def setItems (k : κ) (v : ν) : List (κ × ν) → List (κ × ν)
  | [] => [(k, v)]
  | e :: l => if e.1 = k then (k, v) :: l else e :: setItems k v l

theorem keys_setItems (k : κ) (v : ν) : ∀ l : List (κ × ν),
    (setItems k v l).map Prod.fst =
      if k ∈ l.map Prod.fst then l.map Prod.fst else l.map Prod.fst ++ [k]
  | [] => by simp [setItems]
  | e :: l => by
    by_cases h : e.1 = k
    · simp [setItems, h]
    · have ih := keys_setItems k v l
      have hne : k ≠ e.1 := fun hk => h hk.symm
      simp only [setItems, if_neg h, List.map_cons, ih, List.mem_cons, hne, false_or]
      split
      · rfl
      · rw [List.cons_append]

/-- `d[k] = v`. -/
def set (d : Dict κ ν) (k : κ) (v : ν) : Dict κ ν where
  items := setItems k v d.items
  nodup_keys := by
    rw [keys_setItems]
    split
    · exact d.nodup_keys
    · rename_i hk
      exact List.Nodup.append d.nodup_keys (List.nodup_singleton k)
        (List.disjoint_singleton.mpr hk)

/-- `d.setdefault(k, v)`, for its effect. -/
def setDefault (d : Dict κ ν) (k : κ) (v : ν) : Dict κ ν := if d.contains k then d else d.set k v

/-- `d.move_to_end(k)`, for a key that is there. -/
def moveToEnd (d : Dict κ ν) (k : κ) : Dict κ ν where
  items := d.items.filter (fun e => e.1 ≠ k) ++ d.items.filter fun e => e.1 = k
  nodup_keys := by
    have hperm : (d.items.filter (fun e => e.1 ≠ k) ++ d.items.filter fun e => e.1 = k).Perm
        d.items := by
      refine List.perm_append_comm.trans ?_
      simpa using List.filter_append_perm (fun e => decide (e.1 = k)) d.items
    exact ((hperm.map Prod.fst).nodup_iff).mpr d.nodup_keys

omit [DecidableEq κ] in
/-- `d.popitem(last=False)`, for its effect. -/
def popFirst (d : Dict κ ν) : Dict κ ν where
  items := d.items.tail
  nodup_keys := by
    rw [List.map_tail]
    exact d.nodup_keys.sublist (List.tail_sublist _)

/-- The dictionary built by assigning the pairs one after another. -/
def ofList (l : List (κ × ν)) : Dict κ ν := l.foldl (fun d e => d.set e.1 e.2) empty

/-! ## Reading after writing -/

@[simp] theorem get?_empty (k : κ) : (empty : Dict κ ν).get? k = none := rfl

theorem contains_iff {d : Dict κ ν} {k : κ} : d.contains k = true ↔ k ∈ d.keys := by
  simp [contains]

theorem lookup_setItems_self (k : κ) (v : ν) : ∀ l : List (κ × ν),
    lookup k (setItems k v l) = some v
  | [] => by simp [setItems, lookup]
  | e :: l => by
    by_cases h : e.1 = k
    · simp [setItems, lookup, h]
    · rw [setItems, if_neg h, lookup, if_neg h, lookup_setItems_self k v l]

theorem lookup_setItems_ne {k k' : κ} (v : ν) (h : k' ≠ k) : ∀ l : List (κ × ν),
    lookup k' (setItems k v l) = lookup k' l
  | [] => by simp [setItems, lookup, h.symm]
  | e :: l => by
    by_cases he : e.1 = k
    · have hk : ¬ e.1 = k' := fun hk => h (hk.symm.trans he)
      rw [setItems, if_pos he, lookup, lookup, if_neg h.symm, if_neg hk]
    · rw [setItems, if_neg he, lookup, lookup, lookup_setItems_ne v h l]

@[simp] theorem get?_set_self (d : Dict κ ν) (k : κ) (v : ν) : (d.set k v).get? k = some v :=
  lookup_setItems_self k v d.items

theorem get?_set_ne (d : Dict κ ν) {k k' : κ} (v : ν) (h : k' ≠ k) :
    (d.set k v).get? k' = d.get? k' :=
  lookup_setItems_ne v h d.items

theorem get?_set (d : Dict κ ν) (k k' : κ) (v : ν) :
    (d.set k v).get? k' = if k' = k then some v else d.get? k' := by
  split
  · subst k'; exact get?_set_self d k v
  · exact get?_set_ne d v ‹_›

theorem keys_set (d : Dict κ ν) (k : κ) (v : ν) :
    (d.set k v).keys = if k ∈ d.keys then d.keys else d.keys ++ [k] :=
  keys_setItems k v d.items

theorem mem_keys_set {d : Dict κ ν} {k k' : κ} {v : ν} :
    k' ∈ (d.set k v).keys ↔ k' = k ∨ k' ∈ d.keys := by
  rw [keys_set]
  split
  · constructor
    · exact Or.inr
    · rintro (rfl | h) <;> assumption
  · simp [or_comm]

theorem lookup_map {μ : Type*} (g : ν → μ) (k : κ) : ∀ l : List (κ × ν),
    lookup k (l.map fun e => (e.1, g e.2)) = (lookup k l).map g
  | [] => rfl
  | e :: l => by
    rw [List.map_cons, lookup, lookup, lookup_map g k l]
    split <;> rfl

/-! ## Keys, items and lookups -/

theorem lookup_eq_some_iff {l : List (κ × ν)} (hl : (l.map Prod.fst).Nodup) {k : κ} {v : ν} :
    lookup k l = some v ↔ (k, v) ∈ l := by
  induction l with
  | nil => simp [lookup]
  | cons e l ih =>
    obtain ⟨hne, hl⟩ := List.nodup_cons.mp hl
    rw [lookup, List.mem_cons]
    by_cases h : e.1 = k
    · subst h
      rw [if_pos rfl, Option.some.injEq]
      constructor
      · rintro rfl
        exact Or.inl rfl
      · rintro (he | he)
        · exact congrArg Prod.snd he.symm
        · exact absurd (List.mem_map_of_mem he) hne
    · rw [if_neg h, ih hl]
      constructor
      · exact Or.inr
      · rintro (he | he)
        · exact absurd (congrArg Prod.fst he).symm h
        · exact he

theorem get?_eq_some_iff {d : Dict κ ν} {k : κ} {v : ν} :
    d.get? k = some v ↔ (k, v) ∈ d.items :=
  lookup_eq_some_iff d.nodup_keys

theorem mem_keys_iff {d : Dict κ ν} {k : κ} : k ∈ d.keys ↔ ∃ v, d.get? k = some v := by
  simp only [keys, List.mem_map, get?_eq_some_iff]
  constructor
  · rintro ⟨⟨k', v⟩, h, rfl⟩
    exact ⟨v, h⟩
  · rintro ⟨v, h⟩
    exact ⟨(k, v), h, rfl⟩

theorem get?_eq_none_iff {d : Dict κ ν} {k : κ} : d.get? k = none ↔ k ∉ d.keys := by
  rw [mem_keys_iff, Option.eq_none_iff_forall_ne_some]
  exact not_exists.symm

theorem get?_of_mem {d : Dict κ ν} {e : κ × ν} (h : e ∈ d.items) : d.get? e.1 = some e.2 :=
  get?_eq_some_iff.mpr h

theorem mem_items_set {d : Dict κ ν} {k : κ} {v : ν} {e : κ × ν} :
    e ∈ (d.set k v).items ↔ e = (k, v) ∨ e.1 ≠ k ∧ e ∈ d.items := by
  obtain ⟨k', v'⟩ := e
  rw [← get?_eq_some_iff, ← get?_eq_some_iff, get?_set]
  by_cases h : k' = k
  · simp [h, eq_comm]
  · simp [h]

theorem mem_items_moveToEnd {d : Dict κ ν} {k : κ} {e : κ × ν} :
    e ∈ (d.moveToEnd k).items ↔ e ∈ d.items := by
  by_cases h : e.1 = k <;> simp [moveToEnd, h]

omit [DecidableEq κ] in
theorem mem_items_of_mem_popFirst {d : Dict κ ν} {e : κ × ν} (h : e ∈ d.popFirst.items) :
    e ∈ d.items :=
  List.mem_of_mem_tail h

theorem get?_setDefault (d : Dict κ ν) (k k' : κ) (v : ν) :
    (d.setDefault k v).get? k' = if k' = k then some ((d.get? k).getD v) else d.get? k' := by
  unfold setDefault
  by_cases hc : k ∈ d.keys
  · rw [if_pos (contains_iff.mpr hc)]
    obtain ⟨w, hw⟩ := mem_keys_iff.mp hc
    split
    · subst k'
      rw [hw, Option.getD_some]
    · rfl
  · rw [if_neg fun h => hc (contains_iff.mp h), get?_set, get?_eq_none_iff.mpr hc, Option.getD_none]

/-! ## The keys of a dictionary that is reordered -/

theorem keys_moveToEnd {d : Dict κ ν} {k : κ} (h : k ∈ d.keys) :
    (d.moveToEnd k).keys = d.keys.filter (· ≠ k) ++ [k] := by
  have hrest : (d.items.filter fun e => e.1 ≠ k).map Prod.fst = d.keys.filter (· ≠ k) := by
    rw [keys, List.filter_map]
    rfl
  have hown : (d.items.filter fun e => e.1 = k).map Prod.fst = d.keys.filter (· = k) := by
    rw [keys, List.filter_map]
    rfl
  rw [keys, moveToEnd, List.map_append, hrest, hown]
  congr 1
  have hcount : d.keys.count k = 1 := List.count_eq_one_of_mem d.nodup_keys h
  have hall : ∀ k' ∈ d.keys.filter (· = k), k' = k := fun k' hk' =>
    of_decide_eq_true (List.mem_filter.mp hk').2
  rw [List.eq_replicate_of_mem hall, ← List.countP_eq_length_filter]
  have hsame : d.keys.countP (fun k' => decide (k' = k)) = d.keys.count k :=
    List.countP_congr fun k' _ => by simp
  rw [hsame, hcount, List.replicate_one]

/-- An assignment and a move leave the other keys as they were. -/
theorem keys_set_moveToEnd (d : Dict κ ν) (k : κ) (v : ν) :
    ((d.set k v).moveToEnd k).keys = d.keys.filter (· ≠ k) ++ [k] := by
  rw [keys_moveToEnd (mem_keys_set.mpr (Or.inl rfl)), keys_set]
  split
  · rfl
  · rw [List.filter_append]
    simp

theorem perm_moveToEnd (d : Dict κ ν) (k : κ) : (d.moveToEnd k).items.Perm d.items := by
  refine List.perm_append_comm.trans ?_
  simpa using List.filter_append_perm (fun e => decide (e.1 = k)) d.items

omit [DecidableEq κ] in
theorem keys_popFirst (d : Dict κ ν) : d.popFirst.keys = d.keys.tail := List.map_tail

omit [DecidableEq κ] in
theorem length_keys (d : Dict κ ν) : d.keys.length = d.items.length := List.length_map _

/-! ## Dictionaries from lists -/

theorem setItems_of_not_mem {k : κ} {v : ν} : ∀ {l : List (κ × ν)}, k ∉ l.map Prod.fst →
    setItems k v l = l ++ [(k, v)]
  | [], _ => rfl
  | e :: l, h => by
    obtain ⟨hne, hl⟩ := not_or.mp (List.mem_cons.not.mp h)
    rw [setItems, if_neg (Ne.symm hne), setItems_of_not_mem hl, List.cons_append]

theorem items_foldl_set : ∀ {l : List (κ × ν)} {d : Dict κ ν},
    ((d.items ++ l).map Prod.fst).Nodup →
      (l.foldl (fun d e => d.set e.1 e.2) d).items = d.items ++ l
  | [], d, _ => by simp
  | e :: l, d, h => by
    rw [List.append_cons] at h ⊢
    have hnot : e.1 ∉ d.items.map Prod.fst := by
      rw [List.map_append, List.map_append, List.append_assoc] at h
      exact fun hmem => List.disjoint_of_nodup_append h hmem (by simp)
    have hset : (d.set e.1 e.2).items = d.items ++ [e] := setItems_of_not_mem hnot
    rw [List.foldl_cons, items_foldl_set (hset ▸ h), hset]

/-- Assigning pairs with distinct keys builds the dictionary that lists them. -/
theorem items_ofList {l : List (κ × ν)} (h : (l.map Prod.fst).Nodup) : (ofList l).items = l :=
  items_foldl_set (d := empty) h

theorem ofList_items (d : Dict κ ν) : ofList d.items = d :=
  Dict.ext (items_ofList d.nodup_keys)

theorem lookup_append (k : κ) (l' : List (κ × ν)) : ∀ l : List (κ × ν),
    lookup k (l ++ l') = (lookup k l).or (lookup k l')
  | [] => rfl
  | e :: l => by
    rw [List.cons_append, lookup, lookup, lookup_append k l' l]
    split <;> rfl

/-- Of several pairs with one key the last is the one that is read... -/
theorem get?_foldl_set (k : κ) : ∀ (l : List (κ × ν)) (d : Dict κ ν),
    (l.foldl (fun d e => d.set e.1 e.2) d).get? k = (lookup k l.reverse).or (d.get? k)
  | [], d => rfl
  | e :: l, d => by
    rw [List.foldl_cons, get?_foldl_set k l, List.reverse_cons, lookup_append, get?_set, lookup,
      lookup, Option.or_assoc]
    by_cases h : e.1 = k
    · rw [if_pos h, if_pos h.symm, Option.some_or]
    · rw [if_neg h, if_neg (Ne.symm h), Option.none_or]

theorem get?_ofList (l : List (κ × ν)) (k : κ) : (ofList l).get? k = lookup k l.reverse := by
  rw [ofList, get?_foldl_set, get?_empty, Option.or_none]

/-- ...and the first, when they are put there by `setdefault`. -/
theorem get?_foldl_setDefault (k : κ) : ∀ (l : List (κ × ν)) (d : Dict κ ν),
    (l.foldl (fun d e => d.setDefault e.1 e.2) d).get? k = (d.get? k).or (lookup k l)
  | [], d => (Option.or_none).symm
  | e :: l, d => by
    rw [List.foldl_cons, get?_foldl_setDefault k l, get?_setDefault, lookup]
    by_cases h : e.1 = k
    · subst h
      rw [if_pos rfl, if_pos rfl]
      cases d.get? e.1 <;> rfl
    · rw [if_neg (Ne.symm h), if_neg h]

/-- Assigning to several keys what depends on the key alone. -/
theorem get?_foldl_set_key (f : κ → ν) (k : κ) : ∀ (l : List κ) (d : Dict κ ν),
    (l.foldl (fun d k => d.set k (f k)) d).get? k = if k ∈ l then some (f k) else d.get? k
  | [], d => by simp
  | k' :: l, d => by
    rw [List.foldl_cons, get?_foldl_set_key f k l, get?_set]
    by_cases hl : k ∈ l
    · simp [hl]
    · by_cases hk : k = k'
      · simp [hk]
      · simp [hl, hk]

/-- A pass over the entries of a list that replaces some of them. -/
theorem get?_foldl_ite_set (P : κ × ν → Prop) [DecidablePred P] (g : κ × ν → ν) (k : κ) :
    ∀ (l : List (κ × ν)) (d : Dict κ ν), (l.map Prod.fst).Nodup →
      (l.foldl (fun d e => if P e then d.set e.1 (g e) else d) d).get? k =
        match lookup k l with
        | some v => if P (k, v) then some (g (k, v)) else d.get? k
        | none => d.get? k
  | [], d, _ => rfl
  | e :: l, d, hnodup => by
    obtain ⟨hnot, hnodup⟩ := List.nodup_cons.mp hnodup
    rw [List.foldl_cons, get?_foldl_ite_set P g k l _ hnodup, lookup]
    by_cases hk : e.1 = k
    · subst hk
      have hnone : lookup e.1 l = none := by
        rw [Option.eq_none_iff_forall_ne_some]
        intro v hv
        have hmem : (e.1, v) ∈ l := (lookup_eq_some_iff hnodup).mp hv
        exact hnot (List.mem_map.mpr ⟨(e.1, v), hmem, rfl⟩)
      rw [hnone, if_pos rfl]
      by_cases hP : P e
      · simp [hP]
      · simp [hP]
    · rw [if_neg hk]
      by_cases hP : P e
      · simp only [if_pos hP, get?_set_ne d _ (Ne.symm hk)]
      · simp only [if_neg hP]

/-- A pass over its own entries, which replaces some of them, treats each by itself. -/
theorem get?_foldl_items (P : κ × ν → Prop) [DecidablePred P] (g : κ × ν → ν) (d : Dict κ ν)
    (k : κ) :
    (d.items.foldl (fun d e => if P e then d.set e.1 (g e) else d) d).get? k =
      (d.get? k).map fun v => if P (k, v) then g (k, v) else v := by
  have hlookup : lookup k d.items = d.get? k := rfl
  rw [get?_foldl_ite_set P g k d.items d d.nodup_keys, hlookup]
  cases d.get? k with
  | none => rfl
  | some v => exact (apply_ite some (P (k, v)) (g (k, v)) v).symm

/-- Looking up among pairs is finding the first element with the key. -/
theorem lookup_map_eq_find? {α : Type*} (f : α → κ) (g : α → ν) (k : κ) : ∀ l : List α,
    lookup k (l.map fun a => (f a, g a)) = (l.find? fun a => f a = k).map g
  | [] => rfl
  | a :: l => by
    rw [List.map_cons, lookup, lookup_map_eq_find? f g k l, List.find?_cons]
    by_cases h : f a = k
    · simp [h]
    · simp [h]

end Dict
