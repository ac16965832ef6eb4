/-
# `logging.py`: redaction

`RedactProcessor` replaces the values of fields with telling names, and in all other strings what
its patterns match, in nested dictionaries as well.  The patterns are applied one after another, and
the replacement begins with `<` and ends with `>`, which none of them accepts; so the library's
`Foreign` holds of each of them, and what one has replaced no other one brings back
(`redaction_sound`).

The patterns, the field names and the replacement are those of `logger.json`.
-/
import Librouter.Foundations.Regex
import Librouter.Python

namespace Librouter

open Regex

/-! ## 1. `logger.json` -/

/-- A letter that has only one other form, with `(?i)`. -/
def letter (c : Char) : Char → Bool := fun d => d = c || d = c.toUpper

/-- `[A-Za-z0-9._\-]`; with `(?i)`, which the dotted and the dotless i, the long s and the Kelvin
sign join. -/
def bearerChar (c : Char) : Bool :=
  c.isAlphanum || c = '.' || c = '_' || c = '-' || c.toNat ∈ [0x130, 0x131, 0x17f, 0x212a]

/-- A string of characters. -/
def literal (s : String) : List (Item Char) := s.toList.map fun c => .one (· = c)

/-- `(?i)bearer\s+[A-Za-z0-9._\-]+`. -/
def bearerPattern : Pattern Char where
  first := letter 'b'
  rest := "earer".toList.map (fun c => .one (letter c)) ++ atLeast 1 isSpace ++
    atLeast 1 bearerChar

/-- `sk-[A-Za-z0-9]{16,}`. -/
def skPattern : Pattern Char := ⟨(· = 's'), literal "k-" ++ atLeast 16 Char.isAlphanum⟩

/-- `ant-[A-Za-z0-9]{16,}`. -/
def antPattern : Pattern Char := ⟨(· = 'a'), literal "nt-" ++ atLeast 16 Char.isAlphanum⟩

/-- `gsk-[A-Za-z0-9]{16,}`. -/
def gskPattern : Pattern Char := ⟨(· = 'g'), literal "sk-" ++ atLeast 16 Char.isAlphanum⟩

/-- `AIza[A-Za-z0-9_\-]{20,}`. -/
def aizaPattern : Pattern Char :=
  ⟨(· = 'A'), literal "Iza" ++ atLeast 20 fun c => c.isAlphanum || c = '_' || c = '-'⟩

/-- `redact.patterns`. -/
def redactPatterns : List (Pattern Char) :=
  [bearerPattern, skPattern, antPattern, gskPattern, aizaPattern]

/-- `redact.field_names`. -/
def redactFieldNames : List String :=
  ["authorization", "api_key", "api-key", "token", "secret", "password", "key_hash"]

/-- `redact.replacement`. -/
def redactReplacement : String := "<redacted>"

/-! ## 2. `RedactProcessor` -/

/-- A value in an event dictionary: a string, a dictionary, or something else. -/
inductive LogValue (α : Type)
  | str (s : String)
  | dict (items : List (String × LogValue α))
  | other (a : α)

/-- `RedactProcessor`. -/
structure RedactProcessor where
  /-- `str.lower` -/
  lower : String → String
  fieldNames : List String
  patterns : List (Pattern Char)
  replacement : String

/-- `RedactProcessor(...)`, as `configure_logging` builds it. -/
def RedactProcessor.shipped (lower : String → String) : RedactProcessor where
  lower := lower
  fieldNames := redactFieldNames.map lower
  patterns := redactPatterns
  replacement := redactReplacement

namespace RedactProcessor

variable {α : Type} (r : RedactProcessor)

/-- `key.lower() in self._field_names`. -/
def isField (key : String) : Bool := r.lower key ∈ r.fieldNames

/-- `_scrub_string`. -/
def scrubString (value : String) : String :=
  String.ofList (subAll r.patterns r.replacement.toList value.toList)

mutual

/-- `_scrub_value`. -/
def scrubValue (key : String) : LogValue α → LogValue α
  | .str s => if r.isField key then .str r.replacement else .str (r.scrubString s)
  | .dict items => if r.isField key then .str r.replacement else .dict (scrubItems items)
  | .other a => if r.isField key then .str r.replacement else .other a

/-- `{k: self._scrub_value(k, v) for k, v in items}`. -/
def scrubItems : List (String × LogValue α) → List (String × LogValue α)
  | [] => []
  | (key, value) :: items => (key, scrubValue key value) :: scrubItems items

end

/-! ## 3. What it is for -/

/-- There is a pattern that matches. -/
def Leaks (s : String) : Prop := ∃ P ∈ r.patterns, Occurs P s.toList

end RedactProcessor

/-- The dictionary has this entry, at some depth. -/
inductive EntryIn {α : Type} : List (String × LogValue α) → String → LogValue α → Prop
  | here {items : List (String × LogValue α)} {key : String} {value : LogValue α}
      (h : (key, value) ∈ items) : EntryIn items key value
  | deeper {items inner : List (String × LogValue α)} {outer key : String} {value : LogValue α}
      (houter : (outer, .dict inner) ∈ items) (h : EntryIn inner key value) :
      EntryIn items key value

namespace RedactProcessor

mutual

/-- What becomes of the value of a key: it is replaced, or it keeps its structure, and its strings
if they are clean. -/
inductive Redacts {α : Type} (r : RedactProcessor) : String → LogValue α → LogValue α → Prop
  | field {key : String} {value : LogValue α} (hkey : r.isField key = true) :
      Redacts r key value (.str r.replacement)
  | clean {key s : String} (hkey : r.isField key = false) (hs : ¬ r.Leaks s) :
      Redacts r key (.str s) (.str s)
  | scrubbed {key s s' : String} (hkey : r.isField key = false) (hs : r.Leaks s) :
      Redacts r key (.str s) (.str s')
  | other {key : String} {a : α} (hkey : r.isField key = false) :
      Redacts r key (.other a) (.other a)
  | dict {key : String} {items items' : List (String × LogValue α)}
      (hkey : r.isField key = false) (hitems : RedactsItems r items items') :
      Redacts r key (.dict items) (.dict items')

/-- The keys stay, in their order. -/
inductive RedactsItems {α : Type} (r : RedactProcessor) :
    List (String × LogValue α) → List (String × LogValue α) → Prop
  | nil : RedactsItems r [] []
  | cons {key : String} {value value' : LogValue α} {items items' : List (String × LogValue α)}
      (hvalue : Redacts r key value value') (hitems : RedactsItems r items items') :
      RedactsItems r ((key, value) :: items) ((key, value') :: items')

end

/-- What redaction is for: `event'` is what becomes of `event`. -/
structure Redaction {α : Type} (r : RedactProcessor) (event event' : List (String × LogValue α)) :
    Prop where
  complete : ∀ key s, EntryIn event' key (.str s) → ¬ r.Leaks s
  fields : ∀ key value, EntryIn event' key value → r.isField key = true →
    value = .str r.replacement
  exact : RedactsItems r event event'
  stable : r.scrubItems event' = event'

/-! ## 4. Strings -/

section Strings

variable {r : RedactProcessor}

/-- A clean string stays. -/
theorem scrubString_of_not_leaks {s : String} (h : ¬ r.Leaks s) : r.scrubString s = s := by
  have hclean : ∀ P ∈ r.patterns, ¬ Occurs P s.toList := fun P hP hs => h ⟨P, hP, hs⟩
  rw [scrubString, subAll_of_not_occurs _ hclean, String.ofList_toList]

variable (hforeign : ∀ P ∈ r.patterns, Foreign P r.replacement.toList)
include hforeign

/-- **What is scrubbed is clean.** -/
theorem not_leaks_scrubString (s : String) : ¬ r.Leaks (r.scrubString s) := by
  rintro ⟨P, hP, hs⟩
  rw [scrubString, String.toList_ofList] at hs
  exact not_occurs_subAll hforeign s.toList P hP hs

/-- And so is the replacement. -/
theorem not_leaks_replacement : ¬ r.Leaks r.replacement := fun ⟨P, hP, hs⟩ =>
  (hforeign P hP).not_occurs hs

end Strings

/-! ## 5. Events -/

section Events

variable {α : Type} {r : RedactProcessor}

theorem scrubItems_eq_map (items : List (String × LogValue α)) :
    r.scrubItems items = items.map fun e => (e.1, r.scrubValue e.1 e.2) := by
  induction items with
  | nil => rfl
  | cons e items ih => rw [scrubItems, ih, List.map_cons]

/-- An entry of the result, at some depth, is the scrubbed value of its key. -/
theorem eq_scrubValue_of_entryIn {items' : List (String × LogValue α)} {key : String}
    {value : LogValue α} (h : EntryIn items' key value) :
    ∀ items, items' = r.scrubItems items → ∃ value₀, value = r.scrubValue key value₀ := by
  induction h with
  | here hmem =>
    rintro items rfl
    rw [scrubItems_eq_map] at hmem
    obtain ⟨e, -, heq⟩ := List.mem_map.mp hmem
    obtain ⟨rfl, rfl⟩ := Prod.mk.inj heq
    exact ⟨e.2, rfl⟩
  | deeper houter _ ih =>
    rintro items rfl
    rw [scrubItems_eq_map] at houter
    obtain ⟨⟨outer, value₀⟩, -, heq⟩ := List.mem_map.mp houter
    obtain ⟨rfl, hvalue⟩ := Prod.mk.inj heq
    -- only a dictionary becomes a dictionary
    cases value₀ with
    | str s =>
      simp only [scrubValue] at hvalue
      split at hvalue <;> cases hvalue
    | other a =>
      simp only [scrubValue] at hvalue
      split at hvalue <;> cases hvalue
    | dict inner₀ =>
      simp only [scrubValue] at hvalue
      split at hvalue
      · cases hvalue
      · cases hvalue
        exact ih inner₀ rfl

theorem scrubValue_of_field {key : String} (hkey : r.isField key = true) (value : LogValue α) :
    r.scrubValue key value = .str r.replacement := by
  cases value <;> exact if_pos hkey

/-- A string of the result is clean. -/
theorem not_leaks_of_scrubValue (hforeign : ∀ P ∈ r.patterns, Foreign P r.replacement.toList)
    {key s : String} {value : LogValue α} (h : r.scrubValue key value = .str s) :
    ¬ r.Leaks s := by
  by_cases hkey : r.isField key = true
  · rw [scrubValue_of_field hkey] at h
    cases h
    exact not_leaks_replacement hforeign
  · cases value with
    | str s₀ =>
      rw [scrubValue, if_neg hkey] at h
      cases h
      exact not_leaks_scrubString hforeign s₀
    | dict items =>
      rw [scrubValue, if_neg hkey] at h
      cases h
    | other a =>
      rw [scrubValue, if_neg hkey] at h
      cases h

mutual

theorem redacts_scrubValue (r : RedactProcessor) (key : String) :
    ∀ value : LogValue α, Redacts r key value (r.scrubValue key value)
  | .str s => by
    by_cases hkey : r.isField key = true
    · rw [scrubValue_of_field hkey]
      exact .field hkey
    · rw [scrubValue, if_neg hkey]
      by_cases hs : r.Leaks s
      · exact .scrubbed (Bool.eq_false_iff.mpr hkey) hs
      · rw [scrubString_of_not_leaks hs]
        exact .clean (Bool.eq_false_iff.mpr hkey) hs
  | .dict items => by
    by_cases hkey : r.isField key = true
    · rw [scrubValue_of_field hkey]
      exact .field hkey
    · rw [scrubValue, if_neg hkey]
      exact .dict (Bool.eq_false_iff.mpr hkey) (redactsItems_scrubItems r items)
  | .other a => by
    by_cases hkey : r.isField key = true
    · rw [scrubValue_of_field hkey]
      exact .field hkey
    · rw [scrubValue, if_neg hkey]
      exact .other (Bool.eq_false_iff.mpr hkey)

/-- **The structure stays.** -/
theorem redactsItems_scrubItems (r : RedactProcessor) :
    ∀ items : List (String × LogValue α), RedactsItems r items (r.scrubItems items)
  | [] => .nil
  | (key, value) :: items =>
    .cons (redacts_scrubValue r key value) (redactsItems_scrubItems r items)

end

mutual

theorem scrubValue_scrubValue
    (hforeign : ∀ P ∈ r.patterns, Foreign P r.replacement.toList) (key : String) :
    ∀ value : LogValue α, r.scrubValue key (r.scrubValue key value) = r.scrubValue key value
  | .str s => by
    by_cases hkey : r.isField key = true
    · rw [scrubValue_of_field hkey, scrubValue_of_field hkey]
    · rw [scrubValue, if_neg hkey, scrubValue, if_neg hkey,
        scrubString_of_not_leaks (not_leaks_scrubString hforeign s)]
  | .dict items => by
    by_cases hkey : r.isField key = true
    · rw [scrubValue_of_field hkey, scrubValue_of_field hkey]
    · rw [scrubValue, if_neg hkey, scrubValue, if_neg hkey, scrubItems_scrubItems hforeign items]
  | .other a => by
    by_cases hkey : r.isField key = true
    · rw [scrubValue_of_field hkey, scrubValue_of_field hkey]
    · rw [scrubValue, if_neg hkey, scrubValue, if_neg hkey]

/-- **A second time changes nothing.** -/
theorem scrubItems_scrubItems (hforeign : ∀ P ∈ r.patterns, Foreign P r.replacement.toList) :
    ∀ items : List (String × LogValue α), r.scrubItems (r.scrubItems items) = r.scrubItems items
  | [] => rfl
  | (key, value) :: items => by
    rw [scrubItems, scrubItems, scrubValue_scrubValue hforeign key value,
      scrubItems_scrubItems hforeign items]

end

theorem redaction_of_foreign (hforeign : ∀ P ∈ r.patterns, Foreign P r.replacement.toList)
    (event : List (String × LogValue α)) : Redaction r event (r.scrubItems event) := by
  refine ⟨fun key s h => ?_, fun key value h hkey => ?_, redactsItems_scrubItems r event,
    scrubItems_scrubItems hforeign event⟩
  · obtain ⟨value₀, hvalue⟩ := eq_scrubValue_of_entryIn h event rfl
    exact not_leaks_of_scrubValue hforeign hvalue.symm
  · obtain ⟨value₀, rfl⟩ := eq_scrubValue_of_entryIn h event rfl
    exact scrubValue_of_field hkey value₀

end Events

/-- No pattern of `logger.json` can touch the replacement. -/
theorem foreign_redactPatterns : ∀ P ∈ redactPatterns, Foreign P redactReplacement.toList := by
  decide

/-- **The redaction is complete, exact and stable**, for every event. -/
theorem redaction_sound {α : Type} (lower : String → String)
    (event : List (String × LogValue α)) :
    Redaction (.shipped lower) event ((RedactProcessor.shipped lower).scrubItems event) :=
  redaction_of_foreign foreign_redactPatterns event

/-- A token may look like the word before it. -/
example : (RedactProcessor.shipped id).scrubString "Bearer bearer x" = "<redacted> x" := rfl

end RedactProcessor

end Librouter
