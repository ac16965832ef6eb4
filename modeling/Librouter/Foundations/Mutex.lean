/-
# Parties around one lock

A list of parties, of which `inside` says who stands in the critical section, and one lock.
`Guarded` is what the lock is for: one party at most is inside, and the lock is held exactly while
one is.  A party that enters through the free lock, moves without crossing the border, or leaves
and frees the lock keeps it; so does a new party that comes in outside.

The second half is a measure for termination: every party has a rank, every move lowers the rank
of the mover.
-/
import Mathlib

namespace Mutex

variable {α : Type*} {inside : α → Bool} {held : Bool} {parties : List α} {i j : ℕ} {x y : α}

/-! ## 1. The critical section -/

/-- One party at most is inside, and the lock is held exactly while one is. -/
structure Guarded (inside : α → Bool) (held : Bool) (parties : List α) : Prop where
  exclusive : ∀ (i j : ℕ) (x y : α), parties[i]? = some x → parties[j]? = some y →
    inside x = true → inside y = true → i = j
  held_iff : held = true ↔ ∃ (i : ℕ) (x : α), parties[i]? = some x ∧ inside x = true

theorem guarded_nil : Guarded inside false [] :=
  ⟨by simp, by simp⟩

namespace Guarded

theorem outside_of_ne (h : Guarded inside held parties) (hx : parties[i]? = some x)
    (hin : inside x = true) (hy : parties[j]? = some y) (hne : i ≠ j) : inside y = false := by
  by_contra hout
  exact hne (h.exclusive i j x y hx hy hin (by simpa using hout))

theorem outside_of_free (h : Guarded inside false parties) (hy : parties[j]? = some y) :
    inside y = false := by
  by_contra hout
  have hheld := h.held_iff.mpr ⟨j, y, hy, by simpa using hout⟩
  cases hheld

/-- A party comes in outside. -/
theorem join (h : Guarded inside held parties) (hy : inside y = false) :
    Guarded inside held (parties ++ [y]) := by
  have hold : ∀ (k : ℕ) (z : α), (parties ++ [y])[k]? = some z → inside z = true →
      parties[k]? = some z := by
    intro k z hk hz
    rcases lt_trichotomy k parties.length with hlt | rfl | hgt
    · rwa [List.getElem?_append_left hlt] at hk
    · obtain rfl : y = z := by simpa using hk
      rw [hy] at hz
      cases hz
    · rw [List.getElem?_eq_none (by simp; omega)] at hk
      cases hk
  constructor
  · intro i j x z hx hz hinx hinz
    exact h.exclusive i j x z (hold i x hx hinx) (hold j z hz hinz) hinx hinz
  · refine h.held_iff.trans ⟨?_, ?_⟩
    · rintro ⟨k, z, hk, hz⟩
      exact ⟨k, z, by rw [List.getElem?_append_left (List.getElem?_eq_some_iff.mp hk).1, hk], hz⟩
    · rintro ⟨k, z, hk, hz⟩
      exact ⟨k, z, hold k z hk hz, hz⟩

/-- The parties change, each on its side of the border. -/
theorem map {f : α → α} (h : Guarded inside held parties) (hside : ∀ x, inside (f x) = inside x) :
    Guarded inside held (parties.map f) := by
  constructor
  · intro i j x y hx hy hinx hiny
    rw [List.getElem?_map] at hx hy
    obtain ⟨x', hx', rfl⟩ := Option.map_eq_some_iff.mp hx
    obtain ⟨y', hy', rfl⟩ := Option.map_eq_some_iff.mp hy
    rw [hside] at hinx hiny
    exact h.exclusive i j x' y' hx' hy' hinx hiny
  · refine h.held_iff.trans ⟨?_, ?_⟩
    · rintro ⟨k, z, hk, hz⟩
      exact ⟨k, f z, by rw [List.getElem?_map, hk]; rfl, (hside z).trans hz⟩
    · rintro ⟨k, z, hk, hz⟩
      rw [List.getElem?_map] at hk
      obtain ⟨z', hz', rfl⟩ := Option.map_eq_some_iff.mp hk
      exact ⟨k, z', hz', (hside z').symm.trans hz⟩

/-- A party moves, and stays on its side of the border. -/
theorem stay (h : Guarded inside held parties) (hx : parties[i]? = some x)
    (hside : inside y = inside x) : Guarded inside held (parties.set i y) := by
  have hlen := (List.getElem?_eq_some_iff.mp hx).1
  -- who is inside now was inside at the same place
  have hold : ∀ (k : ℕ) (z : α), (parties.set i y)[k]? = some z → inside z = true →
      ∃ z', parties[k]? = some z' ∧ inside z' = true := by
    intro k z hk hz
    by_cases hik : i = k
    · subst hik
      obtain rfl : y = z := by simpa [List.getElem?_set_self hlen] using hk
      exact ⟨x, hx, hside ▸ hz⟩
    · rw [List.getElem?_set_ne hik] at hk
      exact ⟨z, hk, hz⟩
  constructor
  · intro j k z w hz hw hinz hinw
    obtain ⟨z', hz', hinz'⟩ := hold j z hz hinz
    obtain ⟨w', hw', hinw'⟩ := hold k w hw hinw
    exact h.exclusive j k z' w' hz' hw' hinz' hinw'
  · refine h.held_iff.trans ⟨?_, ?_⟩
    · rintro ⟨k, z, hk, hz⟩
      by_cases hik : i = k
      · subst hik
        obtain rfl := Option.some.inj (hx.symm.trans hk)
        exact ⟨i, y, List.getElem?_set_self hlen, hside.trans hz⟩
      · exact ⟨k, z, (List.getElem?_set_ne hik).trans hk, hz⟩
    · rintro ⟨k, z, hk, hz⟩
      obtain ⟨z', hz', hinz'⟩ := hold k z hk hz
      exact ⟨k, z', hz', hinz'⟩

/-- A party enters through the free lock. -/
theorem enter (h : Guarded inside false parties) (hx : parties[i]? = some x)
    (hy : inside y = true) : Guarded inside true (parties.set i y) := by
  have hlen := (List.getElem?_eq_some_iff.mp hx).1
  have honly : ∀ (k : ℕ) (z : α), (parties.set i y)[k]? = some z → inside z = true → i = k := by
    intro k z hk hz
    by_contra hik
    rw [List.getElem?_set_ne hik] at hk
    rw [h.outside_of_free hk] at hz
    cases hz
  constructor
  · intro j k z w hz hw hinz hinw
    exact (honly j z hz hinz).symm.trans (honly k w hw hinw)
  · exact iff_of_true rfl ⟨i, y, List.getElem?_set_self hlen, hy⟩

/-- The party inside leaves and frees the lock. -/
theorem leave (h : Guarded inside held parties) (hx : parties[i]? = some x)
    (hin : inside x = true) (hy : inside y = false) : Guarded inside false (parties.set i y) := by
  have hlen := (List.getElem?_eq_some_iff.mp hx).1
  have hout : ∀ (k : ℕ) (z : α), (parties.set i y)[k]? = some z → inside z = false := by
    intro k z hk
    by_cases hik : i = k
    · subst hik
      obtain rfl : y = z := by simpa [List.getElem?_set_self hlen] using hk
      exact hy
    · rw [List.getElem?_set_ne hik] at hk
      exact h.outside_of_ne hx hin hk hik
  constructor
  · intro j k z w hz _ hinz _
    rw [hout j z hz] at hinz
    cases hinz
  · refine iff_of_false Bool.false_ne_true ?_
    rintro ⟨k, z, hk, hz⟩
    rw [hout k z hk] at hz
    cases hz

end Guarded

/-! ## 2. The measure -/

/-- The ranks of the parties together. -/
def totalRank (rank : α → ℕ) (parties : List α) : ℕ := (parties.map rank).sum

theorem totalRank_concat (rank : α → ℕ) :
    totalRank rank (parties ++ [x]) = totalRank rank parties + rank x := by
  simp [totalRank]

/-- A move lowers the total by what it lowers the rank of the mover. -/
theorem totalRank_set (rank : α → ℕ) (hx : parties[i]? = some x) :
    totalRank rank (parties.set i y) + rank x = totalRank rank parties + rank y := by
  induction parties generalizing i with
  | nil => simp at hx
  | cons z parties ih =>
    cases i with
    | zero =>
      obtain rfl : z = x := by simpa using hx
      simp [totalRank]
      omega
    | succ i =>
      have hrest := ih (i := i) (by simpa using hx)
      simp only [totalRank, List.set_cons_succ, List.map_cons, List.sum_cons] at hrest ⊢
      omega

end Mutex
