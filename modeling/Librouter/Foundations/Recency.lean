/-
# Least recently used

Elements are touched one after another.  `List.dedup` keeps the last of several occurrences, so
`touches.dedup` lists what was touched in the order of the last touches (`pairwise_before`).

A holder of at most `n` elements that moves what is touched to the end, and lets the first one go if
there are too many, holds the last `n` of that list (`touch_recent`): it lets the least recently
touched one go.
-/
import Mathlib

namespace Recency

variable {α : Type*} [DecidableEq α]

/-! ## 1. The order of the last touches -/

/-- `b` was touched after `a` was touched for the last time. -/
def Before (touches : List α) (a b : α) : Prop :=
  a ∈ touches ∧ ∃ past since, touches = past ++ b :: since ∧ a ∉ b :: since

omit [DecidableEq α] in
theorem Before.concat {touches : List α} {a b c : α} (h : Before touches a b) (hac : a ≠ c) :
    Before (touches ++ [c]) a b := by
  obtain ⟨ha, past, since, rfl, hnot⟩ := h
  refine ⟨List.mem_append_left _ ha, past, since ++ [c], by simp, ?_⟩
  simpa [hac] using hnot

omit [DecidableEq α] in
theorem before_last {touches : List α} {a c : α} (h : a ∈ touches) (hac : a ≠ c) :
    Before (touches ++ [c]) a c :=
  ⟨List.mem_append_left _ h, touches, [], rfl, by simpa using hac⟩

/-- What is touched goes to the end. -/
theorem dedup_concat (touches : List α) (a : α) :
    (touches ++ [a]).dedup = touches.dedup.filter (· ≠ a) ++ [a] := by
  induction touches with
  | nil => simp
  | cons b touches ih =>
    rw [List.cons_append, List.dedup_cons, ih, List.dedup_cons]
    by_cases hba : b = a
    · subst hba
      by_cases hmem : b ∈ touches
      · simp [hmem]
      · simp [hmem]
    · by_cases hmem : b ∈ touches
      · simp [hmem]
      · simp [hmem, hba]

/-- **The list is in the order of the last touches.** -/
theorem pairwise_before (touches : List α) : touches.dedup.Pairwise (Before touches) := by
  induction touches using List.reverseRecOn with
  | nil => simp
  | append_singleton touches a ih =>
    rw [dedup_concat]
    refine List.pairwise_append.mpr ⟨?_, List.pairwise_singleton _ _, fun b hb c hc => ?_⟩
    · refine (ih.sublist List.filter_sublist).imp_of_mem fun {b c} hb _ h => h.concat ?_
      exact of_decide_eq_true (List.mem_filter.mp hb).2
    · obtain ⟨hmem, hne⟩ := List.mem_filter.mp hb
      rw [List.mem_singleton.mp hc]
      exact before_last (List.mem_dedup.mp hmem) (of_decide_eq_true hne)

/-! ## 2. Holding the last ones -/

omit [DecidableEq α] in
theorem rtake_append_of_le {n : ℕ} {l' : List α} (l : List α) (h : n ≤ l'.length) :
    (l ++ l').rtake n = l'.rtake n := by
  have hlen : (l ++ l').length - n = l.length + (l'.length - n) := by
    rw [List.length_append]
    omega
  rw [List.rtake, List.rtake, hlen, List.drop_length_add_append]

omit [DecidableEq α] in
theorem rtake_of_length_le {n : ℕ} {l : List α} (h : l.length ≤ n) : l.rtake n = l := by
  rw [List.rtake, Nat.sub_eq_zero_of_le h, List.drop_zero]

omit [DecidableEq α] in
theorem length_rtake (l : List α) (n : ℕ) : (l.rtake n).length = min n l.length := by
  rw [List.rtake, List.length_drop]
  omega

/-- `a` is touched: it goes to the end, and the first one goes if there are more than `n`. -/
def touch (n : ℕ) (held : List α) (a : α) : List α := (held.filter (· ≠ a) ++ [a]).rtake n

/-- **Touching the last `n` gives the last `n`.** -/
theorem touch_rtake (n : ℕ) {l : List α} (hl : l.Nodup) (a : α) :
    touch n (l.rtake n) a = (l.filter (· ≠ a) ++ [a]).rtake n := by
  by_cases hshort : l.length ≤ n
  · rw [rtake_of_length_le hshort, touch]
  have hsplit : l.take (l.length - n) ++ l.rtake n = l := List.take_append_drop _ _
  have hlen : (l.rtake n).length = n := by
    rw [length_rtake]
    omega
  have hfilter : l.filter (· ≠ a) =
      (l.take (l.length - n)).filter (· ≠ a) ++ (l.rtake n).filter (· ≠ a) := by
    rw [← List.filter_append, hsplit]
  -- at most `a` itself has left the last `n`
  have hnodup : (l.rtake n).Nodup := hl.sublist (List.drop_sublist _ _)
  have hfew : n ≤ ((l.rtake n).filter (· ≠ a)).length + 1 := by
    have hone : (l.rtake n).count a ≤ 1 := List.nodup_iff_count_le_one.mp hnodup a
    have hsum := List.length_eq_countP_add_countP (fun b => decide (b ≠ a)) (l := l.rtake n)
    have hrest : (l.rtake n).countP (fun b => decide (¬ decide (b ≠ a) = true)) =
        (l.rtake n).count a := List.countP_congr fun b _ => by simp
    rw [hlen, hrest, List.countP_eq_length_filter] at hsum
    omega
  rw [touch, hfilter, List.append_assoc]
  refine (rtake_append_of_le _ ?_).symm
  rwa [List.length_append, List.length_singleton]

theorem touch_recent (n : ℕ) (touches : List α) (a : α) :
    touch n (touches.dedup.rtake n) a = (touches ++ [a]).dedup.rtake n := by
  rw [touch_rtake n touches.nodup_dedup, dedup_concat]

/-- What is touched is held, if anything is. -/
theorem mem_touch {n : ℕ} (hn : 1 ≤ n) (held : List α) (a : α) : a ∈ touch n held a := by
  obtain ⟨m, rfl⟩ := Nat.exists_eq_add_of_le' hn
  rw [touch, List.rtake_concat_succ]
  simp

/-- **The one that goes** was the first, and nothing else goes. -/
theorem touch_evicts {n : ℕ} {held : List α} {a b : α} (hn : 1 ≤ n) (hheld : held.length ≤ n)
    (hb : b ∈ held) (hgone : b ∉ touch n held a) :
    held.filter (· ≠ a) ++ [a] = b :: touch n held a := by
  have hba : b ≠ a := by
    rintro rfl
    exact hgone (mem_touch hn held b)
  have hmem : b ∈ held.filter (· ≠ a) := List.mem_filter.mpr ⟨hb, decide_eq_true hba⟩
  have hfilter : (held.filter (· ≠ a)).length ≤ n := List.length_filter_le _ _ |>.trans hheld
  have hlong : (held.filter (· ≠ a) ++ [a]).length = n + 1 := by
    by_contra hne
    rw [List.length_append, List.length_singleton] at hne
    refine hgone ?_
    rw [touch, rtake_of_length_le]
    · exact List.mem_append_left _ hmem
    · rw [List.length_append, List.length_singleton]
      omega
  cases hl : held.filter (· ≠ a) ++ [a] with
  | nil => simp at hl
  | cons c rest =>
    have htouch : touch n held a = rest := by
      rw [hl, List.length_cons, Nat.add_right_cancel_iff] at hlong
      rw [touch, hl, ← List.singleton_append, rtake_append_of_le _ hlong.ge,
        rtake_of_length_le hlong.le]
    rw [htouch] at hgone ⊢
    have hmem' : b ∈ c :: rest := hl ▸ List.mem_append_left _ hmem
    rcases List.mem_cons.mp hmem' with rfl | hrest
    · rfl
    · exact absurd hrest hgone

end Recency
