/-
# The names of the sample hashes

A sample hash is named `gw:brk:{provider}:{model}:samples:{epoch_sec}`, and `refresh_snapshot` takes
such names apart again to find the candidates.  The two fit together for a candidate that is
`Addressable`: read back, its names give the candidate itself.  Two hashes have one name only if
the candidates have one stem and the seconds are the same (`sampleKey_inj`), and addressable
candidates with one stem are one.

A provider without `:` and a model such that `:{model}` has no `:samples` in it are addressable
(`PlainName.addressable`).  Whether a candidate is does not depend on the second.
-/
import Librouter.Breaker

namespace Librouter

/-! ## 1. Splitting at a separator that begins and ends in one character -/

section Split

variable {c : Char} {w d s t : List Char}

/-- The separator cannot begin inside what stands before it and reach over its own beginning. -/
theorem prefix_of_overlap (hw : c ∉ w) (h : w ++ [c] <+: s ++ c :: t) : w <+: s := by
  induction w generalizing s with
  | nil => exact List.nil_prefix
  | cons a w ih =>
    obtain ⟨hne, hw⟩ := not_or.mp (List.mem_cons.not.mp hw)
    cases s with
    | nil => exact absurd (List.cons_prefix_cons.mp h).1.symm hne
    | cons b s =>
      obtain ⟨hab, h⟩ := List.cons_prefix_cons.mp h
      exact List.cons_prefix_cons.mpr ⟨hab, ih hw h⟩

/-- It cannot end in what has not got its last character. -/
theorem prefix_of_append (hd : c ∉ d) (h : w ++ [c] <+: s ++ d) : w ++ [c] <+: s := by
  rcases List.prefix_or_prefix_of_prefix h (List.prefix_append s d) with h' | ⟨r, hr⟩
  · exact h'
  · rw [← hr, List.prefix_append_right_inj] at h
    rcases List.eq_nil_or_concat r with rfl | ⟨r', x, rfl⟩
    · exact ⟨[], by rw [List.append_nil, ← hr, List.append_nil]⟩
    · rw [List.concat_eq_append] at hr h
      rw [← List.append_assoc] at hr
      have hx : x = c := by simpa using (List.append_inj_right' hr rfl)
      have hmem : c ∈ d := h.subset (by simp [hx])
      exact absurd hmem hd

theorem splitAux_skip (sep piece : List Char) : ∀ s : List Char,
    splitAux sep s.length piece s = [piece.reverse]
  | [] => rfl
  | _ :: s => splitAux_skip sep piece s

/-- Without the first character of the separator nothing is split. -/
theorem splitAux_of_not_mem (hd : c ∉ d) (piece : List Char) :
    splitAux (c :: w) 0 piece d = [piece.reverse ++ d] := by
  induction d generalizing piece with
  | nil => simp [splitAux]
  | cons a d ih =>
    obtain ⟨hne, hd⟩ := not_or.mp (List.mem_cons.not.mp hd)
    have hnot : List.isPrefixOf (c :: w) (a :: d) = false := by simp [List.isPrefixOf, hne]
    simp [splitAux, hnot, ih hd]

/-- What is appended without the separator's border goes to the last piece. -/
theorem splitAux_append (hw : c ∉ w) : ∀ (y : List Char) (k : ℕ) (piece : List Char),
    k ≤ y.length → ∃ init last, ∀ d, c ∉ d →
      splitAux (c :: (w ++ [c])) k piece (y ++ d) = init ++ [last ++ d]
  | [], 0, piece, _ => ⟨[], piece.reverse, fun d hd => splitAux_of_not_mem hd piece⟩
  | a :: y, k + 1, piece, hk => by
    obtain ⟨init, last, h⟩ := splitAux_append hw y k piece (Nat.le_of_succ_le_succ hk)
    exact ⟨init, last, h⟩
  | a :: y, 0, piece, _ => by
    by_cases hpre : (c :: (w ++ [c])) <+: a :: y
    · have hlen : (w ++ [c]).length ≤ y.length := (List.cons_prefix_cons.mp hpre).2.length_le
      obtain ⟨init, last, h⟩ := splitAux_append hw y (w ++ [c]).length [] hlen
      refine ⟨piece.reverse :: init, last, fun d hd => ?_⟩
      have hpre' := hpre.trans (List.prefix_append (a :: y) d)
      rw [List.cons_append] at hpre' ⊢
      rw [splitAux, if_pos (List.isPrefixOf_iff_prefix.mpr hpre')]
      exact congrArg (piece.reverse :: ·) (h d hd)
    · obtain ⟨init, last, h⟩ := splitAux_append hw y 0 (a :: piece) (Nat.zero_le _)
      refine ⟨init, last, fun d hd => ?_⟩
      have hpre' : ¬ (c :: (w ++ [c])) <+: a :: (y ++ d) := by
        rw [← List.cons_append, ← List.cons_append]
        exact fun h => hpre (prefix_of_append hd h)
      rw [List.cons_append, splitAux, if_neg fun h => hpre' (List.isPrefixOf_iff_prefix.mp h)]
      exact h d hd

/-- The first occurrence is where it was put, if nothing before it can begin one. -/
theorem splitAux_first (hw : c ∉ w) : ∀ (x : List Char) (piece : List Char),
    ¬ (c :: w) <:+: x →
      splitAux (c :: (w ++ [c])) 0 piece (x ++ c :: (w ++ [c])) = [piece.reverse ++ x, []]
  | [], piece, _ => by
    have hskip := splitAux_skip (c :: (w ++ [c])) [] (w ++ [c])
    have hself : List.isPrefixOf (c :: (w ++ [c])) (c :: (w ++ [c])) = true :=
      List.isPrefixOf_iff_prefix.mpr (List.prefix_refl _)
    rw [List.nil_append, splitAux, if_pos hself]
    simpa using hskip
  | a :: x, piece, hx => by
    have hrest : ¬ (c :: w) <:+: x := fun h => hx (h.trans (List.infix_cons List.infix_rfl))
    have hnot : ¬ (c :: (w ++ [c])) <+: a :: (x ++ c :: (w ++ [c])) := by
      intro h
      obtain ⟨hca, htail⟩ := List.cons_prefix_cons.mp h
      exact hx (List.cons_prefix_cons.mpr ⟨hca, prefix_of_overlap hw htail⟩).isInfix
    rw [List.cons_append, splitAux, if_neg fun h => hnot (List.isPrefixOf_iff_prefix.mp h),
      splitAux_first hw x (a :: piece) hrest]
    simp

/-- What begins with `c` does not begin in what is without it. -/
theorem infix_of_not_mem (hs : c ∉ s) (h : (c :: w) <:+: s ++ t) : (c :: w) <:+: t := by
  induction s with
  | nil => exact h
  | cons a s ih =>
    obtain ⟨hne, hs⟩ := not_or.mp (List.mem_cons.not.mp hs)
    rcases List.infix_cons_iff.mp h with hpre | hin
    · exact absurd (List.cons_prefix_cons.mp hpre).1 hne
    · exact ih hs hin

/-- Two lists with one last `c` agree before it and after it. -/
theorem append_cons_inj_of_not_mem {s' d' : List Char} (hd : c ∉ d) (hd' : c ∉ d')
    (h : s ++ c :: d = s' ++ c :: d') : s = s' ∧ d = d' := by
  rcases List.append_eq_append_iff.mp h with ⟨r, hs, hr⟩ | ⟨r, hs, hr⟩
  · cases r with
    | nil => exact ⟨by simpa using hs.symm, (List.cons.inj hr).2⟩
    | cons a r =>
      rw [List.cons_append] at hr
      exact absurd ((List.cons.inj hr).2 ▸ by simp) hd
  · cases r with
    | nil => exact ⟨by simpa using hs, (List.cons.inj hr).2.symm⟩
    | cons a r =>
      rw [List.cons_append] at hr
      exact absurd ((List.cons.inj hr).2 ▸ by simp) hd'

theorem splitFirst_append (hs : c ∉ s) : splitFirst c (s ++ c :: t) = some (s, t) := by
  induction s with
  | nil => simp [splitFirst]
  | cons a s ih =>
    obtain ⟨hne, hs⟩ := not_or.mp (List.mem_cons.not.mp hs)
    simp [splitFirst, Ne.symm hne, ih hs]

theorem splitFirst_eq_none (hs : c ∉ s) : splitFirst c s = none := by
  induction s with
  | nil => rfl
  | cons a s ih =>
    obtain ⟨hne, hs⟩ := not_or.mp (List.mem_cons.not.mp hs)
    simp [splitFirst, Ne.symm hne, ih hs]

theorem occursIn_append (sub s t : List Char) : occursIn sub (s ++ (sub ++ t)) = true := by
  induction s with
  | nil =>
    cases h : sub ++ t with
    | nil => simp [occursIn, List.append_eq_nil_iff.mp h]
    | cons a l =>
      have hpre : sub <+: a :: l := h ▸ List.prefix_append sub t
      simp [occursIn, List.isPrefixOf_iff_prefix.mpr hpre]
  | cons a s ih => simp [occursIn, ih]

end Split

/-! ## 2. Names that are read back -/

/-- A second is written with digits, and a minus sign if it is negative. -/
theorem mem_toString {n : ℤ} {c : Char} (h : c ∈ (toString n).toList) :
    c = '-' ∨ c.isDigit = true := by
  cases n with
  | ofNat n =>
    have hrepr : (toString (Int.ofNat n)).toList = Nat.toDigits 10 n := Nat.toList_repr
    rw [hrepr] at h
    exact Or.inr (Nat.isDigit_of_mem_toDigits (by decide) (by decide) h)
  | negSucc n =>
    have hrepr : (toString (Int.negSucc n)).toList = '-' :: Nat.toDigits 10 (n + 1) := by
      have hcat : toString (Int.negSucc n) = "-" ++ (n + 1).repr := rfl
      rw [hcat, String.toList_append, Nat.toList_repr]
      rfl
    rw [hrepr] at h
    rcases List.mem_cons.mp h with hminus | hdigit
    · exact Or.inl hminus
    · exact Or.inr (Nat.isDigit_of_mem_toDigits (by decide) (by decide) hdigit)

/-- It is written without a colon. -/
theorem not_mem_toString (n : ℤ) : ':' ∉ (toString n).toList := fun h => by
  rcases mem_toString h with hminus | hdigit
  · cases hminus
  · cases hdigit

theorem toString_inj {m n : ℤ} (h : toString m = toString n) : m = n :=
  Int.repr_inj.mp h

/-- The name without `gw:brk:` and the second. -/
def sampleStem (cand : String × String) : List Char :=
  (cand.1.toList ++ ':' :: cand.2.toList) ++ ":samples:".toList

theorem toList_sampleKey (cand : String × String) (n : ℤ) :
    (sampleKey cand.1 cand.2 n).toList =
      "gw:brk:".toList ++ (sampleStem cand ++ (toString n).toList) := by
  simp [sampleKey, sampleStem, String.toList_append]

theorem drop_sampleKey (cand : String × String) (n : ℤ) :
    (sampleKey cand.1 cand.2 n).toList.drop 7 = sampleStem cand ++ (toString n).toList := by
  rw [toList_sampleKey]
  rfl

/-- **The `SCAN` finds every sample hash.** -/
theorem isSampleKey_sampleKey (cand : String × String) (n : ℤ) :
    isSampleKey (sampleKey cand.1 cand.2 n) = true := by
  rw [isSampleKey, drop_sampleKey, toList_sampleKey, sampleStem, List.append_assoc,
    occursIn_append, Bool.and_true]
  exact List.isPrefixOf_iff_prefix.mpr (List.prefix_append _ _)

/-- The names of the candidate's hashes are read back as the candidate. -/
def Addressable (cand : String × String) : Prop :=
  ∀ n : ℤ, sampleKeyCandidate (sampleKey cand.1 cand.2 n) = some cand

/-- The second does not matter. -/
theorem addressable_of {cand : String × String} {n : ℤ}
    (h : sampleKeyCandidate (sampleKey cand.1 cand.2 n) = some cand) : Addressable cand := by
  obtain ⟨init, last, hsplit⟩ := splitAux_append (c := ':') (w := "samples".toList) (by decide)
    (sampleStem cand) 0 [] (Nat.zero_le _)
  intro m
  have hm := hsplit _ (not_mem_toString m)
  have hn := hsplit _ (not_mem_toString n)
  rw [sampleKeyCandidate, splitStr, drop_sampleKey] at h ⊢
  rw [show ":samples:".toList = ':' :: ("samples".toList ++ [':']) from rfl] at h ⊢
  rw [hm]
  rw [hn] at h
  match init, h with
  | [], h => exact h
  | [pm], h => exact h
  | _ :: _ :: _, h => simp at h

/-- No `:` in the provider, and no `:samples` in `:{model}`. -/
structure PlainName (cand : String × String) : Prop where
  provider : ':' ∉ cand.1.toList
  model : ¬ ":samples".toList <:+: ':' :: cand.2.toList

/-- **Plain names are addressable.** -/
theorem PlainName.addressable {cand : String × String} (h : PlainName cand) : Addressable cand := by
  have hno : ¬ (':' :: "samples".toList) <:+: cand.1.toList ++ ':' :: cand.2.toList :=
    fun hin => h.model (infix_of_not_mem h.provider hin)
  have hfirst := splitAux_first (w := "samples".toList) (by decide) _ [] hno
  obtain ⟨init, last, hsplit⟩ := splitAux_append (c := ':') (w := "samples".toList) (by decide)
    (sampleStem cand) 0 [] (Nat.zero_le _)
  have hstem : init ++ [last] = [cand.1.toList ++ ':' :: cand.2.toList] ++ [[]] := by
    have hnil := hsplit [] List.not_mem_nil
    rw [List.append_nil, List.append_nil] at hnil
    exact hnil.symm.trans hfirst
  obtain ⟨rfl, rfl⟩ : init = [cand.1.toList ++ ':' :: cand.2.toList] ∧ last = [] := by
    simpa using List.append_inj' hstem rfl
  intro n
  have hn := hsplit _ (not_mem_toString n)
  rw [sampleKeyCandidate, splitStr, drop_sampleKey,
    show ":samples:".toList = ':' :: ("samples".toList ++ [':']) from rfl, hn]
  simp [splitFirst_append h.provider]

/-- No `:` in the provider, and no `:samples` in the model. -/
structure MarkerFree (cand : String × String) : Prop where
  provider : ':' ∉ cand.1.toList
  model : ¬ ":samples".toList <:+: cand.2.toList

/-- What is in front of the first possible beginning of a separator goes to the first piece. -/
theorem splitAux_append_of_not_mem {c : Char} {w s : List Char} (hs : c ∉ s)
    (piece t : List Char) :
    splitAux (c :: w) 0 piece (s ++ t) = splitAux (c :: w) 0 (s.reverse ++ piece) t := by
  induction s generalizing piece with
  | nil => rfl
  | cons a s ih =>
    obtain ⟨hne, hs⟩ := not_or.mp (List.mem_cons.not.mp hs)
    have hnot : List.isPrefixOf (c :: w) (a :: (s ++ t)) = false := by simp [List.isPrefixOf, hne]
    simp [splitAux, hnot, ih hs]

/-- **Without the marker a name is read back, or not at all.**  It is not if the model begins with
`samples:` or is `samples`. -/
theorem MarkerFree.read {cand : String × String} (h : MarkerFree cand) (n : ℤ) :
    sampleKeyCandidate (sampleKey cand.1 cand.2 n) = none ∨
      sampleKeyCandidate (sampleKey cand.1 cand.2 n) = some cand := by
  have hmarker : ":samples:".toList = ':' :: ("samples".toList ++ [':']) := rfl
  have hkey : sampleStem cand ++ (toString n).toList = cand.1.toList ++
      ':' :: (cand.2.toList ++ ":samples:".toList ++ (toString n).toList) := by
    simp [sampleStem]
  rw [sampleKeyCandidate, splitStr, drop_sampleKey, hkey, hmarker,
    splitAux_append_of_not_mem h.provider, List.append_nil]
  by_cases hpre : (':' :: ("samples".toList ++ [':'])) <+:
      ':' :: (cand.2.toList ++ (':' :: ("samples".toList ++ [':'])) ++ (toString n).toList)
  · -- the marker is taken where the model begins, and no colon is left in front of it
    left
    have hnone : splitFirst ':' cand.1.toList = none := splitFirst_eq_none h.provider
    rw [splitAux, if_pos (List.isPrefixOf_iff_prefix.mpr hpre), List.reverse_reverse]
    split
    · rename_i heq
      rw [(List.cons.inj heq).1] at hnone
      rw [hnone, Option.map_none]
    · rfl
  · right
    obtain ⟨init, last, hsplit⟩ := splitAux_append (c := ':') (w := "samples".toList) (by decide)
      (cand.2.toList ++ (':' :: ("samples".toList ++ [':']))) 0 (':' :: cand.1.toList.reverse)
      (Nat.zero_le _)
    have hfirst := splitAux_first (c := ':') (w := "samples".toList) (by decide) cand.2.toList
      (':' :: cand.1.toList.reverse) h.model
    have hstem : init ++ [last] = [cand.1.toList ++ ':' :: cand.2.toList] ++ [[]] := by
      have hnil := hsplit [] List.not_mem_nil
      rw [List.append_nil, List.append_nil] at hnil
      rw [← hnil, hfirst]
      simp
    obtain ⟨rfl, rfl⟩ : init = [cand.1.toList ++ ':' :: cand.2.toList] ∧ last = [] := by
      simpa using List.append_inj' hstem rfl
    rw [splitAux, if_neg fun hp => hpre (List.isPrefixOf_iff_prefix.mp hp),
      hsplit _ (not_mem_toString n)]
    simp [splitFirst_append h.provider]

/-- Two hashes have one name only if the stems and the seconds are the same. -/
theorem sampleKey_inj {c c' : String × String} {m n : ℤ}
    (h : sampleKey c.1 c.2 m = sampleKey c'.1 c'.2 n) : sampleStem c = sampleStem c' ∧ m = n := by
  have hlist := congrArg String.toList h
  rw [toList_sampleKey, toList_sampleKey] at hlist
  have htail := List.append_cancel_left hlist
  have hstem : ∀ (cand : String × String) (d : List Char), sampleStem cand ++ d =
      (cand.1.toList ++ ':' :: cand.2.toList ++ ":samples".toList) ++ ':' :: d := by
    intro cand d
    rw [sampleStem, show ":samples:".toList = ":samples".toList ++ [':'] from rfl]
    simp
  rw [hstem, hstem] at htail
  obtain ⟨hs, hd⟩ :=
    append_cons_inj_of_not_mem (not_mem_toString m) (not_mem_toString n) htail
  have hs' : sampleStem c = sampleStem c' := by
    have hnil := hstem c []
    rw [hs, ← hstem c' []] at hnil
    simpa using hnil
  exact ⟨hs', toString_inj (String.toList_inj.mp hd)⟩

/-- Addressable candidates with one stem are one. -/
theorem Addressable.eq_of_stem {c c' : String × String} (hc : Addressable c) (hc' : Addressable c')
    (h : sampleStem c = sampleStem c') : c = c' := by
  have hkey : sampleKey c.1 c.2 0 = sampleKey c'.1 c'.2 0 := by
    rw [← String.toList_inj, toList_sampleKey, toList_sampleKey, h]
  have hread := hc 0
  rw [hkey, hc' 0] at hread
  exact (Option.some.inj hread).symm

end Librouter
