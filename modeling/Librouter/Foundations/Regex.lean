/-
# Sequences of character classes, and replacing what they match

A pattern is a sequence of items: one character of a class, or as many characters of a class as
there are.  It begins with one character of a class, so it does not match the empty word.

`matchAt` is the backtracking matcher, which tries the longest repetition first, and `sub` replaces
the matches from left to right.  Which words a pattern matches is `Matches`; `matchAt_isSome_iff`
connects the two.  If the replacement cannot be touched by a match (`Foreign`), no match is left
after `sub`, and no other pattern gets one that it did not have before (`not_occurs_sub_self`,
`not_occurs_sub`).
-/
import Mathlib

namespace Regex

variable {σ : Type*}

/-! ## 1. Patterns -/

/-- An item of a pattern. -/
inductive Item (σ : Type*)
  /-- one character of a class -/
  | one (accepts : σ → Bool)
  /-- `*`: any number of them, the more the better -/
  | many (accepts : σ → Bool)

/-- The class of an item. -/
def Item.accepts : Item σ → σ → Bool
  | one p => p
  | many p => p

/-- A character of the class has to be there. -/
def Item.mandatory : Item σ → Bool
  | one _ => true
  | many _ => false

/-- A pattern. -/
structure Pattern (σ : Type*) where
  first : σ → Bool
  rest : List (Item σ)

/-- Its items. -/
def Pattern.items (P : Pattern σ) : List (Item σ) := .one P.first :: P.rest

/-- `p{n,}`. -/
def atLeast (n : ℕ) (p : σ → Bool) : List (Item σ) := List.replicate n (.one p) ++ [.many p]

/-! ## 2. Matching -/

/-- As many characters as possible, so that what follows matches. -/
def manyThen (p : σ → Bool) (next : List σ → Option ℕ) : List σ → Option ℕ
  | [] => next []
  | c :: s => if p c then ((manyThen p next s).map (· + 1)).or (next (c :: s)) else next (c :: s)

/-- The length of the match at the beginning of the string. -/
def matchAt : List (Item σ) → List σ → Option ℕ
  | [], _ => some 0
  | .one _ :: _, [] => none
  | .one p :: items, c :: s => if p c then (matchAt items s).map (· + 1) else none
  | .many p :: items, s => manyThen p (matchAt items) s

/-- The matches are replaced; `skip` characters of one are still to be passed over. -/
def subAux (P : Pattern σ) (repl : List σ) : ℕ → List σ → List σ
  | _, [] => []
  | skip + 1, _ :: s => subAux P repl skip s
  | 0, c :: s =>
    match matchAt P.items (c :: s) with
    | some n => repl ++ subAux P repl (n - 1) s
    | none => c :: subAux P repl 0 s

/-- `P.sub(repl, s)`. -/
def sub (P : Pattern σ) (repl s : List σ) : List σ := subAux P repl 0 s

/-! ## 3. Words -/

/-- The items match the word. -/
inductive Matches : List (Item σ) → List σ → Prop
  | nil : Matches [] []
  | one {p : σ → Bool} {items : List (Item σ)} {c : σ} {w : List σ} (hc : p c = true)
      (h : Matches items w) : Matches (.one p :: items) (c :: w)
  | stop {p : σ → Bool} {items : List (Item σ)} {w : List σ} (h : Matches items w) :
      Matches (.many p :: items) w
  | more {p : σ → Bool} {items : List (Item σ)} {c : σ} {w : List σ} (hc : p c = true)
      (h : Matches (.many p :: items) w) : Matches (.many p :: items) (c :: w)

/-- A match begins here. -/
def Starts (items : List (Item σ)) (s : List σ) : Prop := ∃ w, Matches items w ∧ w <+: s

theorem starts_nil (s : List σ) : Starts [] s := ⟨[], .nil, List.nil_prefix⟩

theorem starts_one_cons_iff {p : σ → Bool} {items : List (Item σ)} {c : σ} {s : List σ} :
    Starts (.one p :: items) (c :: s) ↔ p c = true ∧ Starts items s := by
  constructor
  · rintro ⟨w, hw, hpre⟩
    cases hw with
    | one hc h =>
      obtain ⟨rfl, htail⟩ := List.cons_prefix_cons.mp hpre
      exact ⟨hc, _, h, htail⟩
  · rintro ⟨hc, w, hw, hpre⟩
    exact ⟨c :: w, .one hc hw, List.cons_prefix_cons.mpr ⟨rfl, hpre⟩⟩

theorem not_starts_one_nil {p : σ → Bool} {items : List (Item σ)} :
    ¬ Starts (.one p :: items) [] := by
  rintro ⟨w, hw, hpre⟩
  cases hw with
  | one hc h => exact absurd (List.prefix_nil.mp hpre) (List.cons_ne_nil _ _)

theorem starts_many_nil_iff {p : σ → Bool} {items : List (Item σ)} :
    Starts (.many p :: items) [] ↔ Starts items [] := by
  constructor
  · rintro ⟨w, hw, hpre⟩
    cases hw with
    | stop h => exact ⟨w, h, hpre⟩
    | more hc h => exact absurd (List.prefix_nil.mp hpre) (List.cons_ne_nil _ _)
  · rintro ⟨w, hw, hpre⟩
    exact ⟨w, .stop hw, hpre⟩

theorem starts_many_cons_iff {p : σ → Bool} {items : List (Item σ)} {c : σ} {s : List σ} :
    Starts (.many p :: items) (c :: s) ↔
      p c = true ∧ Starts (.many p :: items) s ∨ Starts items (c :: s) := by
  constructor
  · rintro ⟨w, hw, hpre⟩
    cases hw with
    | stop h => exact Or.inr ⟨w, h, hpre⟩
    | more hc h =>
      obtain ⟨rfl, htail⟩ := List.cons_prefix_cons.mp hpre
      exact Or.inl ⟨hc, _, h, htail⟩
  · rintro (⟨hc, w, hw, hpre⟩ | ⟨w, hw, hpre⟩)
    · exact ⟨c :: w, .more hc hw, List.cons_prefix_cons.mpr ⟨rfl, hpre⟩⟩
    · exact ⟨w, .stop hw, hpre⟩

theorem manyThen_isSome_iff {p : σ → Bool} {items : List (Item σ)} {next : List σ → Option ℕ}
    (hnext : ∀ s, (next s).isSome = true ↔ Starts items s) (s : List σ) :
    (manyThen p next s).isSome = true ↔ Starts (.many p :: items) s := by
  induction s with
  | nil => exact (hnext []).trans starts_many_nil_iff.symm
  | cons c s ih =>
    rw [starts_many_cons_iff, manyThen, ← ih, ← hnext]
    by_cases hc : p c = true
    · simp [hc]
    · simp [hc]

/-- **The matcher finds a match if there is one.** -/
theorem matchAt_isSome_iff (items : List (Item σ)) (s : List σ) :
    (matchAt items s).isSome = true ↔ Starts items s := by
  induction items generalizing s with
  | nil => exact ⟨fun _ => starts_nil s, fun _ => rfl⟩
  | cons item items ih =>
    cases item with
    | one p =>
      cases s with
      | nil => exact ⟨nofun, fun h => absurd h not_starts_one_nil⟩
      | cons c s =>
        rw [starts_one_cons_iff, matchAt, ← ih s]
        by_cases hc : p c = true
        · simp [hc]
        · simp [hc]
    | many p => exact manyThen_isSome_iff ih s

/-- `P.search(s)` finds a match. -/
def Occurs (P : Pattern σ) (s : List σ) : Prop := ∃ w, Matches P.items w ∧ w <:+: s

/-- Without a match nothing is replaced. -/
theorem sub_of_not_occurs {P : Pattern σ} {s : List σ} (repl : List σ) (h : ¬ Occurs P s) :
    sub P repl s = s := by
  induction s with
  | nil => rfl
  | cons c s ih =>
    have hnone : matchAt P.items (c :: s) = none := by
      rw [← Option.not_isSome_iff_eq_none, matchAt_isSome_iff]
      rintro ⟨w, hw, hpre⟩
      exact h ⟨w, hw, hpre.isInfix⟩
    have hrest : ¬ Occurs P s := fun ⟨w, hw, hin⟩ =>
      h ⟨w, hw, hin.trans (List.suffix_cons c s).isInfix⟩
    rw [sub, subAux, hnone]
    exact congrArg (c :: ·) (ih hrest)

/-! ## 4. Replacements that a match cannot touch -/

/-- No match begins, ends or lies in the replacement. -/
structure Foreign (P : Pattern σ) (repl : List σ) : Prop where
  nonempty : repl ≠ []
  head : ∀ c ∈ repl.head?, ∀ i ∈ P.items, i.accepts c = false
  last : ∀ c ∈ repl.getLast?, ∀ i ∈ P.items, i.accepts c = false
  inside : ∃ i ∈ P.items, i.mandatory = true ∧ ∀ c ∈ repl, i.accepts c = false

instance (P : Pattern σ) (repl : List σ) : Decidable (Foreign P repl) :=
  have : Decidable (repl ≠ []) := decidable_of_iff (repl.isEmpty = false) (by simp)
  decidable_of_iff (repl ≠ [] ∧ (∀ c ∈ repl.head?, ∀ i ∈ P.items, i.accepts c = false) ∧
      (∀ c ∈ repl.getLast?, ∀ i ∈ P.items, i.accepts c = false) ∧
      ∃ i ∈ P.items, i.mandatory = true ∧ ∀ c ∈ repl, i.accepts c = false)
    ⟨fun ⟨hne, hhead, hlast, hinside⟩ => ⟨hne, hhead, hlast, hinside⟩,
      fun h => ⟨h.nonempty, h.head, h.last, h.inside⟩⟩

/-- A word like the matches of a foreign pattern. -/
structure Apart (repl w : List σ) : Prop where
  nonempty : w ≠ []
  repl_nonempty : repl ≠ []
  head : ∀ c ∈ repl.head?, c ∉ w
  last : ∀ c ∈ repl.getLast?, c ∉ w
  inside : ¬ w <:+: repl

theorem Matches.accepted {items : List (Item σ)} {w : List σ} (h : Matches items w) :
    ∀ c ∈ w, ∃ i ∈ items, i.accepts c = true := by
  induction h with
  | nil => exact fun c hc => absurd hc List.not_mem_nil
  | one hc h ih =>
    intro d hd
    rcases List.mem_cons.mp hd with rfl | hd
    · exact ⟨_, List.mem_cons_self, hc⟩
    · obtain ⟨i, hi, hacc⟩ := ih d hd
      exact ⟨i, List.mem_cons_of_mem _ hi, hacc⟩
  | stop h ih =>
    intro d hd
    obtain ⟨i, hi, hacc⟩ := ih d hd
    exact ⟨i, List.mem_cons_of_mem _ hi, hacc⟩
  | more hc h ih =>
    intro d hd
    rcases List.mem_cons.mp hd with rfl | hd
    · exact ⟨_, List.mem_cons_self, hc⟩
    · exact ih d hd

theorem Matches.mandatory {items : List (Item σ)} {w : List σ} (h : Matches items w) :
    ∀ i ∈ items, i.mandatory = true → ∃ c ∈ w, i.accepts c = true := by
  induction h with
  | nil => exact fun i hi => absurd hi List.not_mem_nil
  | one hc h ih =>
    intro i hi hm
    rcases List.mem_cons.mp hi with rfl | hi
    · exact ⟨_, List.mem_cons_self, hc⟩
    · obtain ⟨c, hmem, hacc⟩ := ih i hi hm
      exact ⟨c, List.mem_cons_of_mem _ hmem, hacc⟩
  | stop h ih =>
    intro i hi hm
    rcases List.mem_cons.mp hi with rfl | hi
    · cases hm
    · exact ih i hi hm
  | more hc h ih =>
    intro i hi hm
    obtain ⟨c, hmem, hacc⟩ := ih i hi hm
    exact ⟨c, List.mem_cons_of_mem _ hmem, hacc⟩

theorem Foreign.apart {P : Pattern σ} {repl w : List σ} (h : Foreign P repl)
    (hw : Matches P.items w) : Apart repl w := by
  have hends : ∀ c, (∀ i ∈ P.items, i.accepts c = false) → c ∉ w := by
    intro c hc hmem
    obtain ⟨i, hi, hacc⟩ := hw.accepted c hmem
    rw [hc i hi] at hacc
    cases hacc
  obtain ⟨i, hi, hm, hrepl⟩ := h.inside
  obtain ⟨c, hc, hacc⟩ := hw.mandatory i hi hm
  refine ⟨List.ne_nil_of_mem hc, h.nonempty, fun c hc => hends c (h.head c hc),
    fun c hc => hends c (h.last c hc), fun hin => ?_⟩
  rw [hrepl c (hin.subset hc)] at hacc
  cases hacc

/-- Such a pattern does not match in the replacement. -/
theorem Foreign.not_occurs {P : Pattern σ} {repl : List σ} (h : Foreign P repl) :
    ¬ Occurs P repl := fun ⟨_, hw, hin⟩ => (h.apart hw).inside hin

/-! ## 5. What is left after a replacement -/

theorem prefix_of_not_mem {w a y : List σ} {r : σ} (hr : r ∉ w) (h : w <+: a ++ r :: y) :
    w <+: a := by
  induction a generalizing w with
  | nil =>
    cases w with
    | nil => exact List.prefix_rfl
    | cons c w =>
      obtain ⟨rfl, -⟩ := List.cons_prefix_cons.mp h
      exact absurd List.mem_cons_self hr
  | cons x a ih =>
    cases w with
    | nil => exact List.nil_prefix
    | cons c w =>
      obtain ⟨rfl, htail⟩ := List.cons_prefix_cons.mp h
      exact List.cons_prefix_cons.mpr
        ⟨rfl, ih (fun hmem => hr (List.mem_cons_of_mem _ hmem)) htail⟩

theorem infix_of_not_mem {w a y : List σ} {r : σ} (hr : r ∉ w) (h : w <:+: a ++ r :: y) :
    w <:+: a ∨ w <:+: y := by
  induction a with
  | nil =>
    rcases List.infix_cons_iff.mp h with hpre | hin
    · exact Or.inl (prefix_of_not_mem (a := []) hr hpre).isInfix
    · exact Or.inr hin
  | cons x a ih =>
    rcases List.infix_cons_iff.mp h with hpre | hin
    · exact Or.inl (prefix_of_not_mem (a := x :: a) hr hpre).isInfix
    · rcases ih hin with hin | hin
      · exact Or.inl (hin.trans (List.suffix_cons x a).isInfix)
      · exact Or.inr hin

variable {P : Pattern σ} {repl w : List σ}

/-- What begins in the result begins in the string. -/
theorem prefix_of_subAux (h : Apart repl w) {v s : List σ} (hv : v ⊆ w)
    (hpre : v <+: subAux P repl 0 s) : v <+: s := by
  induction s generalizing v with
  | nil => exact hpre
  | cons c s ih =>
    cases v with
    | nil => exact List.nil_prefix
    | cons d v =>
      rw [subAux] at hpre
      split at hpre
      · -- it would begin with the replacement
        obtain ⟨l, body, rfl⟩ := List.exists_cons_of_ne_nil h.repl_nonempty
        obtain ⟨rfl, -⟩ := List.cons_prefix_cons.mp hpre
        exact absurd (hv List.mem_cons_self) (h.head d rfl)
      · obtain ⟨rfl, htail⟩ := List.cons_prefix_cons.mp hpre
        exact List.cons_prefix_cons.mpr
          ⟨rfl, ih (fun x hx => hv (List.mem_cons_of_mem _ hx)) htail⟩

/-- **A word in the result was in the string, where the pattern does not match.** -/
theorem exists_of_infix_subAux (h : Apart repl w) {skip : ℕ} {s : List σ}
    (hin : w <:+: subAux P repl skip s) :
    ∃ t, t <:+ s ∧ w <+: t ∧ matchAt P.items t = none := by
  induction s generalizing skip with
  | nil =>
    rw [subAux] at hin
    exact absurd (List.eq_nil_of_infix_nil hin) h.nonempty
  | cons c s ih =>
    cases skip with
    | succ skip =>
      obtain ⟨t, ht, hrest⟩ := ih hin
      exact ⟨t, ht.trans (List.suffix_cons c s), hrest⟩
    | zero =>
      rw [subAux] at hin
      split at hin
      · obtain ⟨body, r, hrepl⟩ : ∃ body r, repl = body ++ [r] :=
          (List.eq_nil_or_concat' repl).resolve_left h.repl_nonempty
        have hlast : r ∉ w := h.last r (by rw [hrepl, List.getLast?_concat]; rfl)
        rw [hrepl, List.append_assoc, List.singleton_append] at hin
        rcases infix_of_not_mem hlast hin with hin | hin
        · refine absurd (hin.trans ?_) h.inside
          rw [hrepl]
          exact (List.prefix_append _ _).isInfix
        · rw [← hrepl] at hin
          obtain ⟨t, ht, hrest⟩ := ih hin
          exact ⟨t, ht.trans (List.suffix_cons c s), hrest⟩
      · rename_i hnone
        rcases List.infix_cons_iff.mp hin with hpre | hin
        · refine ⟨c :: s, List.suffix_rfl, ?_, hnone⟩
          cases w with
          | nil => exact List.nil_prefix
          | cons d v =>
            obtain ⟨rfl, htail⟩ := List.cons_prefix_cons.mp hpre
            exact List.cons_prefix_cons.mpr
              ⟨rfl, prefix_of_subAux h (List.subset_cons_self _ _) htail⟩
        · obtain ⟨t, ht, hrest⟩ := ih hin
          exact ⟨t, ht.trans (List.suffix_cons c s), hrest⟩

/-- **No match is left.** -/
theorem not_occurs_sub_self (h : Foreign P repl) (s : List σ) : ¬ Occurs P (sub P repl s) := by
  rintro ⟨w, hw, hin⟩
  obtain ⟨t, -, hpre, hnone⟩ := exists_of_infix_subAux (h.apart hw) hin
  have hsome := (matchAt_isSome_iff P.items t).mpr ⟨w, hw, hpre⟩
  rw [hnone] at hsome
  cases hsome

/-- **No match of another pattern is made.** -/
theorem not_occurs_sub {Q : Pattern σ} (h : Foreign Q repl) {s : List σ} (hs : ¬ Occurs Q s) :
    ¬ Occurs Q (sub P repl s) := by
  rintro ⟨w, hw, hin⟩
  obtain ⟨t, ht, hpre, -⟩ := exists_of_infix_subAux (h.apart hw) hin
  exact hs ⟨w, hw, hpre.isInfix.trans ht.isInfix⟩

/-! ## 6. Several patterns -/

/-- One pattern after another. -/
def subAll (Ps : List (Pattern σ)) (repl s : List σ) : List σ :=
  Ps.foldl (fun s P => sub P repl s) s

theorem subAll_of_not_occurs {Ps : List (Pattern σ)} {s : List σ} (repl : List σ)
    (h : ∀ P ∈ Ps, ¬ Occurs P s) : subAll Ps repl s = s := by
  induction Ps with
  | nil => rfl
  | cons P Ps ih =>
    rw [subAll, List.foldl_cons, sub_of_not_occurs repl (h P List.mem_cons_self)]
    exact ih fun Q hQ => h Q (List.mem_cons_of_mem _ hQ)

theorem not_occurs_subAll_of (Ps : List (Pattern σ)) {Q : Pattern σ} (h : Foreign Q repl)
    {s : List σ} (hs : ¬ Occurs Q s) : ¬ Occurs Q (subAll Ps repl s) := by
  induction Ps generalizing s with
  | nil => exact hs
  | cons P Ps ih => exact ih (not_occurs_sub h hs)

/-- **After all of them no match of any of them is left.** -/
theorem not_occurs_subAll {Ps : List (Pattern σ)} (h : ∀ P ∈ Ps, Foreign P repl) (s : List σ) :
    ∀ P ∈ Ps, ¬ Occurs P (subAll Ps repl s) := by
  induction Ps generalizing s with
  | nil => exact fun P hP => absurd hP List.not_mem_nil
  | cons Q Ps ih =>
    intro P hP
    rcases List.mem_cons.mp hP with rfl | hP
    · have hforeign := h P List.mem_cons_self
      exact not_occurs_subAll_of Ps hforeign (not_occurs_sub_self hforeign s)
    · exact ih (fun R hR => h R (List.mem_cons_of_mem _ hR)) _ P hP

end Regex
