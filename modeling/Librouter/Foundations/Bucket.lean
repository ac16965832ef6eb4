/-
# Lazily refilled buckets: what a run can withdraw

A bucket holds a level that never exceeds its capacity, gains at a bounded rate as time passes,
and is drawn down by withdrawals.  This module knows nothing about who withdraws or where the
level is stored: a run is the list of its withdrawals, each with the time it happened, the
amount it took and the level it left behind (`Draw`).

The one fact a bucket owes us is local: between two neighbouring draws the level plus what was
taken grows by at most `rate` per unit of time (`Funded`).  From it follows, for EVERY window of
the run, that the window withdrew at most a full bucket plus what was refilled during it
(`window_spent_le`).  "Time" is whatever clock the caller charges the refill to; nothing here
asks it to be the wall clock, nor even to be monotone.

The argument asks for less than a clock: it is enough that each draw is paid for by what the one
before it left and some credit for the two of them (`Paid`).  Then a run takes at most a full bucket
plus what it was credited altogether (`sum_le_of_paid`).
-/
import Mathlib

namespace TokenBucket

/-! ## 1. Refilling -/

section Refill

variable {K : Type*} [CommRing K] [LinearOrder K]

/-- The level after `elapsed` units of time at `rate`, never above `cap`. -/
def refill (cap rate level elapsed : K) : K := min cap (level + elapsed * rate)

theorem refill_le_cap (cap rate level elapsed : K) : refill cap rate level elapsed ≤ cap :=
  min_le_left _ _

theorem refill_le_add (cap rate level elapsed : K) :
    refill cap rate level elapsed ≤ level + elapsed * rate :=
  min_le_right _ _

/-- Refilling for no time only clips the level to the capacity. -/
@[simp] theorem refill_zero (cap rate level : K) : refill cap rate level 0 = min cap level := by
  simp [refill]

variable [IsStrictOrderedRing K]

theorem refill_nonneg {cap rate level elapsed : K} (hc : 0 ≤ cap) (hl : 0 ≤ level)
    (hr : 0 ≤ rate) (he : 0 ≤ elapsed) : 0 ≤ refill cap rate level elapsed :=
  le_min hc (add_nonneg hl (mul_nonneg he hr))

/-- **Refills compose**: a bucket that is looked at in between holds the same in the end. -/
theorem refill_refill {cap rate elapsed : K} (level elapsed' : K) (hr : 0 ≤ rate)
    (he : 0 ≤ elapsed') : refill cap rate (refill cap rate level elapsed) elapsed'
      = refill cap rate level (elapsed + elapsed') := by
  have hgain : 0 ≤ elapsed' * rate := mul_nonneg he hr
  have hsum : level + elapsed * rate + elapsed' * rate = level + (elapsed + elapsed') * rate := by
    ring
  rw [refill, refill, refill, ← min_add_add_right, hsum, ← min_assoc,
    min_eq_left (le_add_of_nonneg_right hgain)]

/-- A refill adds no more than a whole bucket, however long it took. -/
theorem refill_le_add_cap {cap rate level elapsed : K} (hl : 0 ≤ level) :
    refill cap rate level elapsed ≤ level + min cap (elapsed * rate) := by
  rw [refill, ← min_add_add_left]
  exact min_le_min_right _ (le_add_of_nonneg_left hl)

end Refill

/-! ## 2. Runs on credit -/

section Credit

variable {α K : Type*} [CommRing K]

/-- What a run is credited: from each of its elements to the next. -/
def credited (credit : α → α → K) : List α → K
  | [] => 0
  | [_] => 0
  | a :: b :: l => credit a b + credited credit (b :: l)

/-- A credit by the clock adds up to the time from the first to the last. -/
theorem credited_sub (time : α → K) : ∀ (l : List α) (a : α),
    credited (fun a b => time b - time a) (a :: l) =
      time ((a :: l).getLast (List.cons_ne_nil a l)) - time a
  | [], a => (sub_self _).symm
  | b :: l, a => by
    rw [credited, credited_sub time l b, List.getLast_cons (List.cons_ne_nil b l)]
    ring

variable [LinearOrder K] [IsStrictOrderedRing K] {credit : α → α → K} {spent level : α → K}
  {cap rate : K}

/-- A credit of at most the time in between adds up to at most the time of the run. -/
theorem credited_le_of_chain (time : α → K) : ∀ {l : List α} {a : α},
    List.IsChain (fun a b => credit a b ≤ time b - time a) (a :: l) →
      credited credit (a :: l) ≤ time ((a :: l).getLast (List.cons_ne_nil a l)) - time a
  | [], a, _ => (sub_self _).ge
  | b :: l, a, h => by
    obtain ⟨hab, hrest⟩ := List.isChain_cons_cons.mp h
    have ih := credited_le_of_chain time hrest
    rw [credited, List.getLast_cons (List.cons_ne_nil b l)]
    linarith

/-- `b` leaves and takes at most what `a` left and the credit in between. -/
def Paid (spent level : α → K) (credit : α → α → K) (rate : K) (a b : α) : Prop :=
  level b + spent b ≤ level a + rate * credit a b

/-- **The potential argument.**  Along a run that is paid for, what has been taken plus what is left
is at most what was there before the first draw plus the credit since. -/
theorem sum_add_level_le : ∀ (l : List α) (a : α),
    List.IsChain (Paid spent level credit rate) (a :: l) →
    ((a :: l).map spent).sum + level ((a :: l).getLast (List.cons_ne_nil a l))
      ≤ level a + spent a + rate * credited credit (a :: l)
  | [], a, _ => by simp [credited, add_comm]
  | b :: l, a, h => by
    obtain ⟨hab, hrest⟩ := List.isChain_cons_cons.mp h
    have ih := sum_add_level_le l b hrest
    simp only [List.getLast_cons (List.cons_ne_nil b l), List.map_cons, List.sum_cons,
      credited] at ih ⊢
    rw [Paid] at hab
    linarith

/-- **The bound on credit.**  If every draw fits a bucket of capacity `cap` and leaves a
non-negative level, a run takes at most a full bucket plus its credit. -/
theorem sum_le_of_paid {l : List α} (hl : List.IsChain (Paid spent level credit rate) l)
    (hcap : ∀ a ∈ l, level a + spent a ≤ cap) (hlevel : ∀ a ∈ l, 0 ≤ level a) (hzero : 0 ≤ cap) :
    (l.map spent).sum ≤ cap + rate * credited credit l := by
  rcases l with _ | ⟨a, l⟩
  · simpa [credited] using hzero
  · have hpot := sum_add_level_le l a hl
    have hfirst := hcap a List.mem_cons_self
    have hlast := hlevel _ (List.getLast_mem (List.cons_ne_nil a l))
    linarith

end Credit

/-! ## 3. Runs of draws -/

section Runs

variable {K : Type*} [CommRing K]

/-- One withdrawal: when it happened, what it took, and the level it left. -/
structure Draw (K : Type*) where
  time : K
  spent : K
  level : K

/-- Everything a list of draws took. -/
def spent (l : List (Draw K)) : K := (l.map Draw.spent).sum

@[simp] theorem spent_nil : spent ([] : List (Draw K)) = 0 := rfl

@[simp] theorem spent_cons (d : Draw K) (l : List (Draw K)) :
    spent (d :: l) = d.spent + spent l := by
  simp [spent]

/-- The draws at the positions `i, …, j` of a run. -/
def window {α : Type*} (l : List α) (i j : ℕ) : List α := (l.take (j + 1)).drop i

variable [LinearOrder K] [IsStrictOrderedRing K]

/-- The bucket gained at most `rate` per unit of time from the draw `d` to the draw `e`. -/
def Funded (rate : K) (d e : Draw K) : Prop :=
  e.level + e.spent ≤ d.level + rate * (e.time - d.time)

/-- A funded run is one that is credited the time. -/
theorem spent_add_level_le {rate : K} (l : List (Draw K)) (d : Draw K)
    (h : List.IsChain (Funded rate) (d :: l)) :
    spent (d :: l) + ((d :: l).getLast (List.cons_ne_nil d l)).level
      ≤ d.level + d.spent + rate * (((d :: l).getLast (List.cons_ne_nil d l)).time - d.time) := by
  have hpaid : List.IsChain
      (Paid Draw.spent Draw.level (fun d e : Draw K => e.time - d.time) rate) (d :: l) := h
  have hpot := sum_add_level_le l d hpaid
  rwa [credited_sub] at hpot

/-- Two neighbouring positions of a window of a chain are related: a window is a chain. -/
theorem isChain_window {α : Type*} {R : α → α → Prop} {l : List α} (h : List.IsChain R l)
    (i j : ℕ) : List.IsChain R (window l i j) :=
  (h.take (j + 1)).drop i

theorem window_map {α β : Type*} (f : α → β) (l : List α) (i j : ℕ) :
    window (l.map f) i j = (window l i j).map f := by
  rw [window, window, List.map_drop, List.map_take]

/-- A nonempty window starts at its first position... -/
theorem head_window {α : Type*} (l : List α) {i j : ℕ} (hij : i ≤ j) (hj : j < l.length) :
    ∃ w, window l i j = l[i] :: w := by
  have hlen : i < (l.take (j + 1)).length := by rw [List.length_take]; omega
  refine ⟨(l.take (j + 1)).drop (i + 1), ?_⟩
  rw [window, List.drop_eq_getElem_cons hlen, List.getElem_take]

/-- ...and ends at its last. -/
theorem getLast_window {α : Type*} (l : List α) {i j : ℕ} (hij : i ≤ j) (hj : j < l.length)
    (hne : window l i j ≠ []) : (window l i j).getLast hne = l[j] := by
  have hlen : (window l i j).length - 1 + i = j := by
    simp only [window, List.length_drop, List.length_take]
    omega
  rw [List.getLast_eq_getElem]
  simp only [window, List.getElem_drop, List.getElem_take]
  simp only [window] at hlen
  congr 1
  omega

/-- **The window bound.**  If every draw fits a bucket of capacity `cap` and leaves a
non-negative level, a window takes at most a full bucket plus the refill during it. -/
theorem window_spent_le {cap rate : K} {l : List (Draw K)} (hl : List.IsChain (Funded rate) l)
    (hcap : ∀ d ∈ l, d.level + d.spent ≤ cap) (hlevel : ∀ d ∈ l, 0 ≤ d.level)
    {i j : ℕ} (hij : i ≤ j) (hj : j < l.length) :
    spent (window l i j) ≤ cap + rate * (l[j].time - l[i].time) := by
  obtain ⟨w, hw⟩ := head_window l hij hj
  have hchain := isChain_window hl i j
  have hlast := getLast_window l hij hj (by rw [hw]; exact List.cons_ne_nil _ _)
  simp only [hw] at hchain hlast ⊢
  have hpot := spent_add_level_le w l[i] hchain
  rw [hlast] at hpot
  have hi := hcap l[i] (List.getElem_mem _)
  have hlev := hlevel l[j] (List.getElem_mem _)
  linarith

end Runs

end TokenBucket
