/-
# Grouped rows

`groupBy key rows` is the table of the groups of `GROUP BY key`: under each key that occurs, the
rows with that key, in the order of the rows.  What a group is can be said without the others
(`get?_groupBy`), and the groups together are the rows (`flatten_groupBy`); so an aggregate of one
group is one of a filtered list, and a sum over the groups is a sum over the rows.
-/
import Librouter.Foundations.Table

namespace Table

variable {α κ : Type*} [LinearOrder κ] (key : α → κ)

/-- One more row, before the others of its group. -/
def addRow (row : α) (t : Table κ (List α)) : Table κ (List α) :=
  t.upsert (key row) (row :: (t.get? (key row)).getD [])

/-- The groups of `GROUP BY key`. -/
def groupBy (rows : List α) : Table κ (List α) := rows.foldr (addRow key) empty

@[simp] theorem groupBy_nil : groupBy key [] = empty := rfl

@[simp] theorem groupBy_cons (row : α) (rows : List α) :
    groupBy key (row :: rows) = addRow key row (groupBy key rows) := rfl

/-- **A group has the rows with its key**, and there is none for a key without rows. -/
theorem get?_groupBy (rows : List α) (k : κ) : (groupBy key rows).get? k =
    if rows.filter (fun row => key row = k) = [] then none
    else some (rows.filter fun row => key row = k) := by
  induction rows with
  | nil => rfl
  | cons row rows ih =>
    rw [groupBy_cons, addRow, get?_upsert]
    by_cases hk : key row = k
    · subst hk
      rw [if_pos rfl, ih, List.filter_cons_of_pos (by simp), if_neg (List.cons_ne_nil _ _)]
      split
      · rename_i hnone
        rw [hnone]
        rfl
      · rfl
    · rw [if_neg (Ne.symm hk), ih, List.filter_cons_of_neg (by simpa using hk)]

theorem mem_groupBy {rows : List α} {k : κ} {group : List α} :
    (k, group) ∈ (groupBy key rows).rows ↔
      group ≠ [] ∧ group = rows.filter fun row => key row = k := by
  rw [← get?_eq_some_iff, get?_groupBy]
  split
  · rename_i hnone
    rw [hnone]
    exact ⟨nofun, fun h => absurd h.2 h.1⟩
  · rename_i hsome
    rw [Option.some.injEq]
    constructor
    · rintro rfl
      exact ⟨hsome, rfl⟩
    · exact fun h => h.2.symm

/-- A row goes to the front of its group, and nowhere else. -/
theorem flatten_upsertRows (row : α) (k : κ) : ∀ {l : List (κ × List α)},
    l.Pairwise (fun a b => a.1 < b.1) →
      ((upsertRows k (row :: (Dict.lookup k l).getD []) l).map Prod.snd).flatten.Perm
        (row :: (l.map Prod.snd).flatten)
  | [], _ => by simp [upsertRows, Dict.lookup]
  | e :: l, h => by
    obtain ⟨hlt, hl⟩ := List.pairwise_cons.mp h
    rw [upsertRows]
    split
    · rename_i hk
      -- a new group, in front of those with greater keys
      have hnone : Dict.lookup k (e :: l) = none := by
        rw [Option.eq_none_iff_forall_ne_some]
        intro v hv
        have hnodup : ((e :: l).map Prod.fst).Nodup :=
          (List.pairwise_map.mpr h).imp fun hlt => hlt.ne
        rcases List.mem_cons.mp ((Dict.lookup_eq_some_iff hnodup).mp hv) with rfl | hmem
        · exact lt_irrefl k hk
        · exact lt_irrefl k (hk.trans (hlt _ hmem))
      rw [hnone]
      simp
    · split
      · rename_i hek
        simp [Dict.lookup, hek]
      · rename_i hek
        rw [Dict.lookup, if_neg hek]
        simp only [List.map_cons, List.flatten_cons]
        exact ((flatten_upsertRows row k hl).append_left e.2).trans List.perm_middle

/-- **The groups together are the rows.** -/
theorem flatten_groupBy (rows : List α) : (groupBy key rows).values.flatten.Perm rows := by
  induction rows with
  | nil => rfl
  | cons row rows ih =>
    exact (flatten_upsertRows row (key row) (groupBy key rows).sorted).trans (ih.cons row)

/-- A sum over the groups is one over the rows. -/
theorem sum_groupBy {M : Type*} [AddCommMonoid M] (f : α → M) (rows : List α) :
    ((groupBy key rows).values.map fun group => (group.map f).sum).sum = (rows.map f).sum := by
  rw [← ((flatten_groupBy key rows).map f).sum_eq, List.map_flatten, List.sum_flatten, List.map_map]
  rfl

end Table
