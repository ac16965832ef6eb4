/-
# What the gateway uses of Python

Integers that must fit a float, `int()` of a number, ranges, `random.random()`, `str.split` and
`str.strip`.
Strings are taken apart as lists of characters, by functions that recurse on the list.

A `str` may hold surrogates on their own, which no encoding takes.  A `PyStr` is such a string: what
callers and vendors send as JSON.  Where the source is given the string by something that does not
produce them, or checks it, it is a `String`.
-/
import Mathlib

namespace Librouter

/-! ## 1. Numbers -/

/-- What the arithmetic of the gateway can raise. -/
inductive PyError
  | overflowError
deriving DecidableEq

/-- The least natural number that does not convert to a binary float of this precision with exponents
up to `exponent`: halfway from the greatest float to the next power of two. -/
def floatLimit (precision exponent : ℕ) : ℕ := 2 ^ exponent - 2 ^ (exponent - precision - 1)

/-- The least natural number that does not convert to a `float`. -/
@[irreducible] def floatOverflow : ℕ := floatLimit 53 1024

/-- Which powers of two convert: those up to the greatest exponent. -/
theorem two_pow_lt_floatLimit_iff {precision exponent n : ℕ} (hprecision : 0 < precision)
    (hexponent : precision ≤ exponent) :
    2 ^ n < floatLimit precision (exponent + 1) ↔ n < exponent + 1 := by
  have hmargin : 2 ^ (exponent + 1 - precision - 1) < 2 ^ exponent :=
    Nat.pow_lt_pow_right one_lt_two (by omega)
  rw [floatLimit]
  constructor
  · intro hlt
    exact (Nat.pow_lt_pow_iff_right one_lt_two).mp (hlt.trans_le (Nat.sub_le _ _))
  · intro hn
    have hpow : 2 ^ n ≤ 2 ^ exponent := Nat.pow_le_pow_right two_pos (Nat.le_of_lt_succ hn)
    rw [pow_succ]
    omega

theorem two_pow_lt_floatOverflow_iff {n : ℕ} : 2 ^ n < floatOverflow ↔ n < 1024 := by
  unfold floatOverflow
  exact two_pow_lt_floatLimit_iff (by norm_num) (by norm_num)

/-- `float(n)`: an int converts unless it is too large for a float. -/
def floatOfInt (n : ℕ) : Except PyError ℚ :=
  if floatOverflow ≤ n then .error .overflowError else .ok n

/-- `random.random()`. -/
structure UnitDraw where
  val : ℚ
  nonneg : 0 ≤ val
  lt_one : val < 1

/-- `random.random()` returning 0. -/
def zeroDraw : UnitDraw := ⟨0, le_refl 0, one_pos⟩

theorem floatOfInt_ok_iff {n : ℕ} {x : ℚ} : floatOfInt n = .ok x ↔ n < floatOverflow ∧ x = n := by
  unfold floatOfInt
  split
  · rename_i h
    exact ⟨nofun, fun h' => absurd h'.1 h.not_gt⟩
  · rename_i h
    rw [Except.ok.injEq, eq_comm]
    exact ⟨fun h' => ⟨not_le.mp h, h'⟩, And.right⟩

theorem floatOfInt_error_iff {n : ℕ} {e : PyError} :
    floatOfInt n = .error e ↔ floatOverflow ≤ n := by
  unfold floatOfInt
  split
  · rename_i h
    exact ⟨fun _ => h, fun _ => by cases e; rfl⟩
  · rename_i h
    exact ⟨nofun, fun h' => absurd h' h⟩

/-- `int(x)`: towards zero. -/
def toInt (x : ℚ) : ℤ := if 0 ≤ x then ⌊x⌋ else ⌈x⌉

@[simp] theorem toInt_intCast (n : ℤ) : toInt n = n := by
  rw [toInt, Int.floor_intCast, Int.ceil_intCast, ite_self]

section Numbers

variable {x y : ℚ}

theorem toInt_of_nonneg (h : 0 ≤ x) : toInt x = ⌊x⌋ := if_pos h

theorem toInt_of_neg (h : x < 0) : toInt x = ⌈x⌉ := if_neg h.not_ge

theorem toInt_mono (h : x ≤ y) : toInt x ≤ toInt y := by
  rcases le_or_gt 0 x with hx | hx
  · rw [toInt_of_nonneg hx, toInt_of_nonneg (hx.trans h)]
    exact Int.floor_le_floor h
  · rw [toInt_of_neg hx]
    rcases le_or_gt 0 y with hy | hy
    · rw [toInt_of_nonneg hy]
      exact (Int.ceil_le.mpr (by exact_mod_cast hx.le)).trans (Int.floor_nonneg.mpr hy)
    · rw [toInt_of_neg hy]
      exact Int.ceil_le_ceil h

/-- `int()` moves a number by less than one. -/
theorem sub_one_lt_toInt (x : ℚ) : x - 1 < toInt x := by
  rcases le_or_gt 0 x with hx | hx
  · rw [toInt_of_nonneg hx]
    exact Int.sub_one_lt_floor x
  · rw [toInt_of_neg hx]
    exact lt_of_lt_of_le (sub_one_lt x) (Int.le_ceil x)

theorem toInt_lt_add_one (x : ℚ) : (toInt x : ℚ) < x + 1 := by
  rcases le_or_gt 0 x with hx | hx
  · rw [toInt_of_nonneg hx]
    exact lt_of_le_of_lt (Int.floor_le x) (lt_add_one x)
  · rw [toInt_of_neg hx]
    exact Int.ceil_lt_add_one x

/-- A second is less than two long; the second 0 is, as `int()` cuts towards it. -/
theorem lt_add_two_of_toInt_le (h : toInt x ≤ toInt y) : x < y + 2 := by
  have hx := sub_one_lt_toInt x
  have hy := toInt_lt_add_one y
  have hxy : (toInt x : ℚ) ≤ toInt y := by exact_mod_cast h
  linarith

end Numbers

/-- `range(a, b)`. -/
def intRange (a b : ℤ) : List ℤ := (List.range (b - a).toNat).map fun i => a + (i : ℤ)

theorem intRange_eq (a b : ℤ) :
    intRange a b = (List.range (b - a).toNat).map fun i : ℕ => a + (i : ℤ) := by
  simp [intRange, ← List.map_eq_flatMap]

theorem mem_intRange {a b n : ℤ} : n ∈ intRange a b ↔ a ≤ n ∧ n < b := by
  simp only [intRange_eq, List.mem_map, List.mem_range]
  constructor
  · rintro ⟨i, hi, rfl⟩
    omega
  · rintro ⟨ha, hb⟩
    exact ⟨(n - a).toNat, by omega, by omega⟩

theorem nodup_intRange (a b : ℤ) : (intRange a b).Nodup := by
  rw [intRange_eq]
  refine List.Nodup.map (fun i j hij => ?_) List.nodup_range
  have hcast : a + (i : ℤ) = a + (j : ℤ) := hij
  omega

theorem sum_ite_eq (m : ℤ) : ∀ l : List ℤ,
    (l.map fun n => if m = n then (1 : ℤ) else 0).sum = l.count m
  | [] => rfl
  | n :: l => by
    rw [List.map_cons, List.sum_cons, sum_ite_eq m l, List.count_cons]
    by_cases h : m = n
    · subst h
      simp [add_comm]
    · simp [h, Ne.symm h]

/-- Summing range by range is summing. -/
theorem sum_map_intRange {α : Type} (f g : α → ℤ) (lo hi : ℤ) (l : List α) :
    ((intRange lo (hi + 1)).map fun n => ((l.filter fun x => f x = n).map g).sum).sum =
      ((l.filter fun x => lo ≤ f x ∧ f x ≤ hi).map g).sum := by
  induction l with
  | nil => simp
  | cons x l ih =>
    have hsplit : ∀ n, (((x :: l).filter fun x => f x = n).map g).sum =
        (if f x = n then (1 : ℤ) else 0) * g x + ((l.filter fun x => f x = n).map g).sum := by
      intro n
      by_cases hn : f x = n <;> simp [hn]
    have hcount : ((intRange lo (hi + 1)).count (f x) : ℤ) =
        if lo ≤ f x ∧ f x ≤ hi then 1 else 0 := by
      rw [List.Nodup.count (nodup_intRange _ _)]
      simp only [mem_intRange, Int.lt_add_one_iff]
      split <;> rfl
    simp only [hsplit]
    rw [List.sum_map_add, ih, List.sum_map_mul_right, sum_ite_eq, hcount]
    by_cases hx : lo ≤ f x ∧ f x ≤ hi <;> simp [hx]

theorem countP_eq_sum {α : Type} (p : α → Bool) (l : List α) :
    (l.countP p : ℤ) = (l.map fun x => if p x then (1 : ℤ) else 0).sum := by
  induction l with
  | nil => rfl
  | cons x l ih =>
    rw [List.countP_cons, List.map_cons, List.sum_cons, ← ih]
    cases p x <;> simp [add_comm]

/-- Counting range by range is counting. -/
theorem sum_countP_intRange {α : Type} (f : α → ℤ) (p : α → Bool) (lo hi : ℤ) (l : List α) :
    ((intRange lo (hi + 1)).map fun n => ((l.filter fun x => f x = n).countP p : ℤ)).sum =
      ((l.filter fun x => lo ≤ f x ∧ f x ≤ hi).countP p : ℤ) := by
  simp only [countP_eq_sum]
  exact sum_map_intRange f _ lo hi l

/-! ## 2. Strings -/

/-- `s.split(sep)` for a `sep` that is not empty; `skip` characters of a separator are still to be
passed over, `piece` is the piece so far, reversed. -/
def splitAux (sep : List Char) : ℕ → List Char → List Char → List (List Char)
  | _, piece, [] => [piece.reverse]
  | skip + 1, piece, _ :: s => splitAux sep skip piece s
  | 0, piece, c :: s =>
    if sep.isPrefixOf (c :: s) then piece.reverse :: splitAux sep (sep.length - 1) [] s
    else splitAux sep 0 (c :: piece) s

/-- `s.split(sep)`. -/
def splitStr (sep s : List Char) : List (List Char) := splitAux sep 0 [] s

/-- `s.split(c, 1)`, when `c` occurs in `s`. -/
def splitFirst (c : Char) : List Char → Option (List Char × List Char)
  | [] => none
  | d :: s => if d = c then some ([], s) else (splitFirst c s).map fun p => (d :: p.1, p.2)

/-- The characters that `s.strip()` takes for white space. -/
def isSpace (c : Char) : Bool :=
  9 ≤ c.toNat ∧ c.toNat ≤ 13 ∨ 28 ≤ c.toNat ∧ c.toNat ≤ 32 ∨ 8192 ≤ c.toNat ∧ c.toNat ≤ 8202 ∨
    c.toNat ∈ [133, 160, 5760, 8232, 8233, 8239, 8287, 12288]

/-- `s.strip()`. -/
def strip (s : String) : String :=
  String.ofList ((s.toList.dropWhile isSpace).rdropWhile isSpace)

/-- Only white space. -/
def Blank (s : List Char) : Prop := ∀ c ∈ s, isSpace c = true

theorem strip_eq_strip {pre post : List Char} (hpre : Blank pre) (hpost : Blank post)
    (s : List Char) :
    strip (String.ofList (pre ++ (s ++ post))) = strip (String.ofList s) := by
  have hright : ∀ l : List Char, (l ++ post).rdropWhile isSpace = l.rdropWhile isSpace := by
    intro l
    have hreverse : ∀ c ∈ post.reverse, isSpace c = true := fun c hc =>
      hpost c (List.mem_reverse.mp hc)
    rw [List.rdropWhile, List.rdropWhile, List.reverse_append,
      List.dropWhile_append_of_pos hreverse]
  have hblank : post.dropWhile isSpace = [] := List.dropWhile_eq_nil_iff.mpr hpost
  rw [strip, strip, String.toList_ofList, String.toList_ofList,
    List.dropWhile_append_of_pos hpre, List.dropWhile_append]
  split
  · rename_i hempty
    rw [List.isEmpty_iff.mp hempty, hblank]
  · rw [hright]

/-- What is stripped off is white space. -/
theorem exists_of_strip (s : String) : ∃ pre post, Blank pre ∧ Blank post ∧
    s.toList = pre ++ ((strip s).toList ++ post) := by
  refine ⟨s.toList.takeWhile isSpace, (s.toList.dropWhile isSpace).rtakeWhile isSpace,
    fun c hc => List.mem_takeWhile_imp hc, fun c hc => List.mem_rtakeWhile_imp hc, ?_⟩
  rw [strip, String.toList_ofList, List.rdropWhile_append_rtakeWhile,
    List.takeWhile_append_dropWhile]

/-- Whether `sub` occurs in `s`. -/
def occursIn {α : Type} [BEq α] (sub : List α) : List α → Bool
  | [] => sub.isEmpty
  | c :: s => sub.isPrefixOf (c :: s) || occursIn sub s

/-! ## 3. Strings with lone surrogates -/

/-- A code point of a `str`. -/
inductive CodePoint
  | char (c : Char)
  /-- from U+D800 on, without the other one of its pair -/
  | surrogate (n : Fin 2048)
deriving DecidableEq

/-- The characters, if there are no others. -/
def CodePoint.chars? : List CodePoint → Option (List Char)
  | [] => some []
  | char c :: points => (chars? points).map (c :: ·)
  | surrogate _ :: _ => none

/-- A `str`. -/
structure PyStr where
  points : List CodePoint
deriving DecidableEq

namespace PyStr

/-- A text. -/
def of (text : String) : PyStr := ⟨text.toList.map .char⟩

instance : Coe String PyStr := ⟨of⟩

/-- `len(s)`. -/
def length (s : PyStr) : ℕ := s.points.length

/-- `s[:n]`. -/
def take (n : ℕ) (s : PyStr) : PyStr := ⟨s.points.take n⟩

/-- `"".join(parts)`. -/
def join (parts : List PyStr) : PyStr := ⟨parts.flatMap points⟩

/-- The text, if there is no lone surrogate in it: what `s.encode()` can encode. -/
def text? (s : PyStr) : Option String := (CodePoint.chars? s.points).map String.ofList

/-- It has no lone surrogate. -/
def isText (s : PyStr) : Bool := s.text?.isSome

theorem chars?_eq_some_iff : ∀ {points : List CodePoint} {chars : List Char},
    CodePoint.chars? points = some chars ↔ points = chars.map .char
  | [], chars => by
    rw [CodePoint.chars?, Option.some.injEq, eq_comm, eq_comm (a := []), List.map_eq_nil_iff]
  | .surrogate n :: points, chars => by
    refine ⟨nofun, fun h => ?_⟩
    obtain ⟨c, rest, -, hchar, -⟩ := List.map_eq_cons_iff.mp h.symm
    cases hchar
  | .char c :: points, chars => by
    rw [CodePoint.chars?, Option.map_eq_some_iff]
    constructor
    · rintro ⟨rest, hrest, rfl⟩
      rw [chars?_eq_some_iff.mp hrest, List.map_cons]
    · intro h
      obtain ⟨d, rest, rfl, hchar, hrest⟩ := List.map_eq_cons_iff.mp h.symm
      obtain rfl := CodePoint.char.inj hchar
      exact ⟨rest, chars?_eq_some_iff.mpr hrest.symm, rfl⟩

/-- Only a text has itself as text. -/
theorem text?_eq_some_iff {s : PyStr} {text : String} : s.text? = some text ↔ s = of text := by
  obtain ⟨points⟩ := s
  rw [text?, Option.map_eq_some_iff, of, PyStr.mk.injEq]
  constructor
  · rintro ⟨chars, hchars, rfl⟩
    rw [String.toList_ofList]
    exact chars?_eq_some_iff.mp hchars
  · rintro rfl
    exact ⟨text.toList, chars?_eq_some_iff.mpr rfl, String.ofList_toList⟩

@[simp] theorem text?_of (text : String) : (of text).text? = some text := text?_eq_some_iff.mpr rfl

@[simp] theorem length_of (text : String) : (of text).length = text.length := by
  rw [length, of, List.length_map, String.length_toList]

end PyStr

end Librouter
