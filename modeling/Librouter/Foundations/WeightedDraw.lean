/-
# Drawing from a list of weights

A number `u` between zero and one is scaled by the total weight, and the draw is the first position
at which the accumulated weight reaches it.  Nothing here knows what is drawn.

With positive weights every position is drawn by an interval of its own, from the weight before it
to the weight up to it, both as parts of the total (`draw_eq_some_iff`); the intervals cover
everything (`exists_draw`), and the length of one is the part its weight has in the total
(`volume_draw`).
-/
import Mathlib

namespace WeightedDraw

/-! ## 1. The search -/

section Search

variable {K : Type*} [AddCommMonoid K]

/-- The weight of the first `i` positions. -/
def upTo (ws : List K) (i : ℕ) : K := (ws.take i).sum

@[simp] theorem upTo_zero (ws : List K) : upTo ws 0 = 0 := rfl

@[simp] theorem upTo_cons (w : K) (ws : List K) (i : ℕ) :
    upTo (w :: ws) (i + 1) = w + upTo ws i := by
  simp [upTo]

theorem upTo_succ {ws : List K} {i : ℕ} (hi : i < ws.length) :
    upTo ws (i + 1) = upTo ws i + ws[i] := by
  rw [upTo, upTo, List.sum_take_succ ws i hi]

variable [LinearOrder K]

/-- The first position at which the weight accumulated since `acc` reaches `r`. -/
def reach (r : K) : K → List K → Option ℕ
  | _, [] => none
  | acc, w :: ws => if r ≤ acc + w then some 0 else (reach r (acc + w) ws).map (· + 1)

/-- The search depends on the order and the sums only. -/
theorem reach_map {L : Type*} [AddCommMonoid L] [LinearOrder L] (f : K →+ L)
    (hf : ∀ a b, f a ≤ f b ↔ a ≤ b) (r : K) :
    ∀ (acc : K) (ws : List K), reach (f r) (f acc) (ws.map f) = reach r acc ws
  | _, [] => rfl
  | acc, w :: ws => by
    have ih := reach_map f hf r (acc + w) ws
    simp only [List.map_cons, reach, ← map_add, hf, ih]

/-- A search for no more than the total ends inside the list. -/
theorem exists_reach {r : K} : ∀ {acc : K} {ws : List K}, ws ≠ [] → r ≤ acc + ws.sum →
    ∃ i, reach r acc ws = some i
  | acc, [w], _, h => ⟨0, if_pos (by simpa using h)⟩
  | acc, w :: w' :: ws, _, h => by
    rw [List.sum_cons, ← add_assoc] at h
    obtain ⟨i, hi⟩ := exists_reach (List.cons_ne_nil w' ws) h
    rw [reach]
    split
    · exact ⟨0, rfl⟩
    · exact ⟨i + 1, by rw [hi]; rfl⟩

end Search

section Group

variable {K : Type*} [AddCommGroup K] [LinearOrder K] [IsOrderedAddMonoid K]

theorem upTo_nonneg {ws : List K} (hpos : ∀ w ∈ ws, 0 < w) (i : ℕ) : 0 ≤ upTo ws i :=
  List.sum_nonneg fun w hw => (hpos w (List.mem_of_mem_take hw)).le

/-- **The search stops at `i`** exactly when the weight up to `i` reaches `r`, and the weight before
it does not. -/
theorem reach_eq_some_iff {r : K} {ws : List K} (hpos : ∀ w ∈ ws, 0 < w) :
    ∀ {acc : K} {i : ℕ}, reach r acc ws = some i ↔
      i < ws.length ∧ r ≤ acc + upTo ws (i + 1) ∧ (i = 0 ∨ acc + upTo ws i < r) := by
  induction ws with
  | nil => simp [reach]
  | cons w ws ih =>
    intro acc i
    have hrest : ∀ x ∈ ws, 0 < x := fun x hx => hpos x (List.mem_cons_of_mem w hx)
    rw [reach]
    by_cases hstop : r ≤ acc + w
    · rw [if_pos hstop]
      cases i with
      | zero => simpa using hstop
      | succ j =>
        have hlate : ¬ acc + (w + upTo ws j) < r := by
          rw [← add_assoc]
          exact not_lt.mpr (hstop.trans (le_add_of_nonneg_right (upTo_nonneg hrest j)))
        simp [hlate]
    · rw [if_neg hstop]
      cases i with
      | zero => simp [hstop]
      | succ j =>
        have hmap : (reach r (acc + w) ws).map (· + 1) = some (j + 1) ↔
            reach r (acc + w) ws = some j := by
          simp [Option.map_eq_some_iff]
        rw [hmap, ih hrest, upTo_cons, upTo_cons, List.length_cons, Nat.add_lt_add_iff_right,
          add_assoc, add_assoc]
        refine and_congr_right fun _ => and_congr_right fun _ => ?_
        constructor
        · rintro (rfl | hbefore)
          · rw [upTo_zero, add_zero]
            exact Or.inr (not_le.mp hstop)
          · exact Or.inr hbefore
        · rintro (hzero | hbefore)
          · exact absurd hzero (Nat.succ_ne_zero j)
          · exact Or.inr hbefore

end Group

/-! ## 2. The draw -/

section Draw

variable {K : Type*} [Field K] [LinearOrder K]

/-- The position that `u` draws. -/
def draw (u : K) (ws : List K) : Option ℕ := reach (u * ws.sum) 0 ws

theorem draw_map {L : Type*} [Field L] [LinearOrder L] (f : K →+* L)
    (hf : ∀ a b, f a ≤ f b ↔ a ≤ b) (u : K) (ws : List K) : draw (f u) (ws.map f) = draw u ws := by
  have hmap := reach_map f.toAddMonoidHom hf (u * ws.sum) 0 ws
  have hsum : (ws.map f).sum = f ws.sum := (map_list_sum f ws).symm
  rw [draw, draw, hsum, ← map_mul]
  simpa using hmap

variable [IsStrictOrderedRing K] {u : K} {ws : List K}

theorem sum_pos (hpos : ∀ w ∈ ws, 0 < w) (hne : ws ≠ []) : 0 < ws.sum :=
  List.sum_pos ws hpos hne

/-- **Something is drawn.** -/
theorem exists_draw (hpos : ∀ w ∈ ws, 0 < w) (hne : ws ≠ []) (hu : u ≤ 1) :
    ∃ i, draw u ws = some i := by
  refine exists_reach hne ?_
  rw [zero_add]
  exact mul_le_of_le_one_left (sum_pos hpos hne).le hu

/-- **Position `i` is drawn** by the numbers above the weight before it, up to the weight up to it,
as parts of the total; zero draws the first position. -/
theorem draw_eq_some_iff (hpos : ∀ w ∈ ws, 0 < w) (hu : 0 ≤ u) {i : ℕ} (hi : i < ws.length) :
    draw u ws = some i ↔
      u ∈ Set.Ioc (upTo ws i / ws.sum) (upTo ws (i + 1) / ws.sum) ∨ i = 0 ∧ u = 0 := by
  have htotal : 0 < ws.sum := sum_pos hpos (List.ne_nil_of_length_pos (Nat.zero_lt_of_lt hi))
  rw [draw, reach_eq_some_iff hpos, zero_add, zero_add, Set.mem_Ioc, div_lt_iff₀ htotal,
    le_div_iff₀ htotal]
  constructor
  · rintro ⟨-, hreached, rfl | hbefore⟩
    · rcases hu.eq_or_lt with rfl | hgt
      · exact Or.inr ⟨rfl, rfl⟩
      · exact Or.inl ⟨by simpa using mul_pos hgt htotal, hreached⟩
    · exact Or.inl ⟨hbefore, hreached⟩
  · rintro (⟨hbefore, hreached⟩ | ⟨rfl, rfl⟩)
    · exact ⟨hi, hreached, Or.inr hbefore⟩
    · refine ⟨hi, ?_, Or.inl rfl⟩
      rw [zero_mul]
      exact upTo_nonneg hpos 1

theorem upTo_le_sum (hpos : ∀ w ∈ ws, 0 < w) (i : ℕ) : upTo ws i ≤ ws.sum := by
  have hsplit : (ws.take i).sum + (ws.drop i).sum = ws.sum := by
    rw [← List.sum_append, List.take_append_drop]
  have hrest : 0 ≤ (ws.drop i).sum :=
    List.sum_nonneg fun w hw => (hpos w (List.mem_of_mem_drop hw)).le
  rw [← hsplit]
  exact le_add_of_nonneg_right hrest

end Draw

/-! ## 3. How often -/

open MeasureTheory in
/-- **The numbers that draw `i`** are as many as its weight is of the total. -/
theorem volume_draw {ws : List ℝ} (hpos : ∀ w ∈ ws, 0 < w) {i : ℕ} (hi : i < ws.length) :
    volume {u : ℝ | u ∈ Set.Ico 0 1 ∧ draw u ws = some i} = ENNReal.ofReal (ws[i] / ws.sum) := by
  have htotal : 0 < ws.sum := sum_pos hpos (List.ne_nil_of_length_pos (Nat.zero_lt_of_lt hi))
  have hwidth : upTo ws (i + 1) / ws.sum - upTo ws i / ws.sum = ws[i] / ws.sum := by
    rw [upTo_succ hi, ← sub_div, add_sub_cancel_left]
  have hstart : 0 ≤ upTo ws i / ws.sum := div_nonneg (upTo_nonneg hpos i) htotal.le
  have hstop : upTo ws (i + 1) / ws.sum ≤ 1 := (div_le_one htotal).mpr (upTo_le_sum hpos (i + 1))
  -- between the open interval and the closed one, which have the same length
  have hinner : Set.Ioo (upTo ws i / ws.sum) (upTo ws (i + 1) / ws.sum) ⊆
      {u : ℝ | u ∈ Set.Ico 0 1 ∧ draw u ws = some i} := by
    intro u hu
    have hnonneg : 0 ≤ u := hstart.trans hu.1.le
    exact ⟨⟨hnonneg, hu.2.trans_le hstop⟩,
      (draw_eq_some_iff hpos hnonneg hi).mpr (Or.inl ⟨hu.1, hu.2.le⟩)⟩
  have houter : {u : ℝ | u ∈ Set.Ico 0 1 ∧ draw u ws = some i} ⊆
      Set.Icc (upTo ws i / ws.sum) (upTo ws (i + 1) / ws.sum) := by
    rintro u ⟨hunit, hdraw⟩
    rcases (draw_eq_some_iff hpos hunit.1 hi).mp hdraw with hinside | ⟨rfl, rfl⟩
    · exact ⟨hinside.1.le, hinside.2⟩
    · rw [upTo_zero, zero_div]
      exact ⟨le_refl 0, div_nonneg (upTo_nonneg hpos 1) htotal.le⟩
  refine le_antisymm ((measure_mono houter).trans_eq ?_) (Eq.trans_le ?_ (measure_mono hinner))
  · rw [Real.volume_Icc, hwidth]
  · rw [Real.volume_Ioo, hwidth]

/-! ## 4. Labels

Several positions may have one label; it is drawn by all of them together. -/

section Labels

variable {α : Type*}

/-- The weight of the positions with label `a`. -/
def mass {K : Type*} [AddCommMonoid K] [DecidableEq α] (l : List (α × K)) (a : α) : K :=
  (l.map fun e => if e.1 = a then e.2 else 0).sum

theorem mass_map {K L : Type*} [AddCommMonoid K] [AddCommMonoid L] [DecidableEq α] (f : K →+ L)
    (l : List (α × K)) (a : α) : mass (l.map fun e => (e.1, f e.2)) a = f (mass l a) := by
  rw [mass, mass, map_list_sum, List.map_map, List.map_map]
  congr 1
  refine List.map_congr_left fun e _ => ?_
  show (if e.1 = a then f e.2 else 0) = f (if e.1 = a then e.2 else 0)
  rw [apply_ite f, map_zero]

/-- The labels share the whole weight. -/
theorem sum_mass {K : Type*} [AddCommMonoid K] [DecidableEq α] {l : List (α × K)}
    {labels : Finset α} (h : ∀ e ∈ l, e.1 ∈ labels) : ∑ a ∈ labels, mass l a = (l.map Prod.snd).sum := by
  induction l with
  | nil => simp [mass]
  | cons e l ih =>
    have hrest : ∀ e ∈ l, e.1 ∈ labels := fun e he => h e (List.mem_cons_of_mem _ he)
    have hcons : ∀ a, mass (e :: l) a = (if e.1 = a then e.2 else 0) + mass l a := fun a => by
      simp [mass]
    simp only [hcons, Finset.sum_add_distrib, ih hrest, Finset.sum_ite_eq, List.map_cons,
      List.sum_cons, h e List.mem_cons_self, if_true]

/-- The label at the position that `u` draws. -/
def drawLabel {K : Type*} [Field K] [LinearOrder K] (u : K) (l : List (α × K)) : Option α :=
  (draw u (l.map Prod.snd)).bind fun i => l[i]?.map Prod.fst

/-- Position `i` is drawn, and has label `a`. -/
theorem drawLabel_eq_some_iff {K : Type*} [Field K] [LinearOrder K] {u : K} {l : List (α × K)}
    {a : α} : drawLabel u l = some a ↔
      ∃ i : Fin l.length, l[i].1 = a ∧ draw u (l.map Prod.snd) = some i.val := by
  rw [drawLabel, Option.bind_eq_some_iff]
  constructor
  · rintro ⟨i, hdraw, hlabel⟩
    obtain ⟨e, he, rfl⟩ := Option.map_eq_some_iff.mp hlabel
    obtain ⟨hi, rfl⟩ := List.getElem?_eq_some_iff.mp he
    exact ⟨⟨i, hi⟩, rfl, hdraw⟩
  · rintro ⟨i, rfl, hdraw⟩
    exact ⟨i, hdraw, by simp⟩

open MeasureTheory

theorem measurableSet_draw {ws : List ℝ} (hpos : ∀ w ∈ ws, 0 < w) {i : ℕ} (hi : i < ws.length) :
    MeasurableSet {u : ℝ | u ∈ Set.Ico 0 1 ∧ draw u ws = some i} := by
  have hset : {u : ℝ | u ∈ Set.Ico 0 1 ∧ draw u ws = some i} =
      Set.Ico 0 1 ∩ (Set.Ioc (upTo ws i / ws.sum) (upTo ws (i + 1) / ws.sum) ∪
        {u | i = 0 ∧ u = 0}) := by
    ext u
    refine and_congr_right fun hunit => ?_
    exact draw_eq_some_iff hpos hunit.1 hi
  rw [hset]
  refine measurableSet_Ico.inter (measurableSet_Ioc.union ?_)
  exact (MeasurableSet.const (i = 0)).inter (measurableSet_singleton (0 : ℝ))

/-- **The numbers that draw `a`** are as many as the weight of its positions is of the total. -/
theorem volume_drawLabel [DecidableEq α] {l : List (α × ℝ)} (hpos : ∀ e ∈ l, 0 < e.2) (a : α) :
    volume {u : ℝ | u ∈ Set.Ico 0 1 ∧ drawLabel u l = some a} =
      ENNReal.ofReal (mass l a / (l.map Prod.snd).sum) := by
  have hweights : ∀ w ∈ l.map Prod.snd, 0 < w := List.forall_mem_map.mpr hpos
  have hlen : ∀ i : Fin l.length, i.val < (l.map Prod.snd).length := fun i => by simp
  have hset : {u : ℝ | u ∈ Set.Ico 0 1 ∧ drawLabel u l = some a} =
      ⋃ i ∈ Finset.univ.filter fun i : Fin l.length => l[i].1 = a,
        {u : ℝ | u ∈ Set.Ico 0 1 ∧ draw u (l.map Prod.snd) = some i.val} := by
    ext u
    simp only [Set.mem_ofPred_eq, drawLabel_eq_some_iff, Finset.mem_filter, Finset.mem_univ,
      true_and, Set.mem_iUnion, exists_prop]
    constructor
    · rintro ⟨hunit, i, hlabel, hdraw⟩
      exact ⟨i, hlabel, hunit, hdraw⟩
    · rintro ⟨i, hlabel, hunit, hdraw⟩
      exact ⟨hunit, i, hlabel, hdraw⟩
  have hterm : ∀ i : Fin l.length,
      volume {u : ℝ | u ∈ Set.Ico 0 1 ∧ draw u (l.map Prod.snd) = some i.val} =
        ENNReal.ofReal (l[i].2 / (l.map Prod.snd).sum) := fun i => by
    rw [volume_draw hweights (hlen i), List.getElem_map]
    rfl
  have htotal : 0 ≤ (l.map Prod.snd).sum := List.sum_nonneg fun w hw => (hweights w hw).le
  rw [hset, measure_biUnion_finset ?_ fun i _ => measurableSet_draw hweights (hlen i)]
  · rw [Finset.sum_congr rfl fun i _ => hterm i, ← ENNReal.ofReal_sum_of_nonneg
      fun i _ => div_nonneg (hpos _ (List.getElem_mem i.isLt)).le htotal, Finset.sum_filter]
    congr 1
    have hsum := Fin.sum_univ_fun_getElem l
      fun e => (if e.1 = a then e.2 else 0) * (l.map Prod.snd).sum⁻¹
    rw [List.sum_map_mul_right] at hsum
    rw [mass, div_eq_mul_inv, ← hsum]
    refine Finset.sum_congr rfl fun i _ => ?_
    rw [ite_mul, zero_mul, div_eq_mul_inv]
    rfl
  · intro i _ j _ hne
    refine Set.disjoint_left.mpr fun u hi hj => hne ?_
    exact Fin.val_injective (Option.some.inj (hi.2.symm.trans hj.2))

end Labels

/-! ## 5. Shares of a total -/

section Shares

variable {K : Type*} [Field K] [LinearOrder K] [IsStrictOrderedRing K] {m m' r x : K}

/-- Less weight, less of the total. -/
theorem share_le_share (hm' : 0 ≤ m') (hle : m' ≤ m) (hr : 0 ≤ r) :
    m' / (m' + r) ≤ m / (m + r) := by
  rcases hm'.eq_or_lt with rfl | hpos
  · rw [zero_div]
    exact div_nonneg hle (add_nonneg hle hr)
  · rw [div_le_div_iff₀ (add_pos_of_pos_of_nonneg hpos hr)
      (add_pos_of_pos_of_nonneg (hpos.trans_le hle) hr), mul_add, mul_add, mul_comm m' m]
    exact add_le_add_right (mul_le_mul_of_nonneg_right hle hr) _

/-- What one weight loses, the shares of the others gain. -/
theorem share_of_rest_le (hm' : 0 ≤ m') (hle : m' ≤ m) (hx : 0 ≤ x) (hxr : x ≤ r) :
    x / (m + r) ≤ x / (m' + r) := by
  rcases hx.eq_or_lt with rfl | hpos
  · rw [zero_div, zero_div]
  · exact div_le_div_of_nonneg_left hpos.le
      (add_pos_of_nonneg_of_pos hm' (hpos.trans_le hxr)) (by gcongr)

end Shares

end WeightedDraw
