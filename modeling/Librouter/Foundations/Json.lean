/-
# JSON documents

The values a JSON parser of a scripting language produces (integers and floats are told apart),
and the pieces a validation library is made of: fields that are required, optional or nullable,
lists and dictionaries of validated values.  `none` is a validation error.

How such a library converts scalars (numeric strings, booleans as numbers) is its own affair:
`Scalars` is any conversion that keeps a scalar which already has the right type.
-/
import Librouter.Foundations.Dict

/-- A parsed JSON document.  The keys of an object that was parsed are distinct. -/
inductive Json
  | null
  | bool (b : Bool)
  | int (n : ℤ)
  | float (x : ℚ)
  | str (s : String)
  | arr (elems : List Json)
  | obj (fields : List (String × Json))

namespace Json

variable {α β : Type*}

/-! ## Reading -/

/-- `j[key]`, where `j` is an object that has the key. -/
def field? (j : Json) (key : String) : Option Json :=
  match j with
  | .obj fields => Dict.lookup key fields
  | _ => none

/-- The document is this very string. -/
def isStr (s : String) : Json → Bool
  | .str s' => s == s'
  | _ => false

/-- `key in j`: a key of an object, an element of an array, a substring of a string; `none` if
`j` contains nothing at all. -/
def contains? (key : String) : Json → Option Bool
  | .obj fields => some (Dict.lookup key fields).isSome
  | .arr elems => some (elems.any (isStr key))
  | .str s => some (decide (key.toList <:+: s.toList))
  | _ => none

/-! ## Validation -/

/-- What a validation library makes of scalars. -/
structure Scalars where
  str : Json → Option String
  int : Json → Option ℤ
  float : Json → Option ℚ
  bool : Json → Option Bool
  str_str : ∀ s, str (.str s) = some s
  int_int : ∀ n, int (.int n) = some n
  float_float : ∀ x, float (.float x) = some x
  bool_bool : ∀ b, bool (.bool b) = some b

attribute [simp] Scalars.str_str Scalars.int_int Scalars.float_float Scalars.bool_bool

/-- The library that converts nothing, except integers to floats. -/
def Scalars.strict : Scalars where
  str | .str s => some s | _ => none
  int | .int n => some n | _ => none
  float | .float x => some x | .int n => some n | _ => none
  bool | .bool b => some b | _ => none
  str_str _ := rfl
  int_int _ := rfl
  float_float _ := rfl
  bool_bool _ := rfl

/-- A field that has to be there. -/
def required (f : Json → Option α) (key : String) (j : Json) : Option α := (j.field? key).bind f

/-- A field with a default. -/
def withDefault (f : Json → Option α) (default : α) (key : String) (j : Json) : Option α :=
  ((j.field? key).map f).getD (some default)

/-- A value or `null`. -/
def nullable (f : Json → Option α) : Json → Option (Option α)
  | .null => some none
  | j => (f j).map some

/-- A list of validated values. -/
def listOf (f : Json → Option α) : Json → Option (List α)
  | .arr elems => elems.mapM f
  | _ => none

/-- A dictionary of validated values. -/
def dictOf (f : Json → Option α) : Json → Option (Dict String α)
  | .obj fields => (fields.mapM fun e => (f e.2).map fun v => (e.1, v)).map Dict.ofList
  | _ => none

/-- An object without any other keys. -/
def onlyKeys (keys : List String) : Json → Bool
  | .obj fields => fields.all fun e => keys.contains e.1
  | _ => false

/-! ## Round trips -/

/-- Writing a dictionary as an object. -/
def ofDict (g : α → Json) (d : Dict String α) : Json := .obj (d.items.map fun e => (e.1, g e.2))

theorem field?_ofDict (g : α → Json) (d : Dict String α) (key : String) :
    (ofDict g d).field? key = (d.get? key).map g :=
  Dict.lookup_map g key d.items

theorem contains?_ofDict (g : α → Json) (d : Dict String α) (key : String) :
    contains? key (ofDict g d) = some (d.get? key).isSome := by
  rw [ofDict, contains?, Dict.lookup_map, Option.isSome_map, Dict.get?]

/-- Writing an optional value. -/
def ofOption (g : α → Json) : Option α → Json
  | some x => g x
  | none => .null

theorem mapM_map {f : β → Option α} {g : α → β} (h : ∀ x, f (g x) = some x) :
    ∀ l : List α, (l.map g).mapM f = some l
  | [] => rfl
  | x :: l => by simp [h x, mapM_map h l]

theorem listOf_arr {f : Json → Option α} {g : α → Json} (h : ∀ x, f (g x) = some x)
    (l : List α) : listOf f (.arr (l.map g)) = some l :=
  mapM_map h l

theorem dictOf_ofDict {f : Json → Option α} {g : α → Json} (h : ∀ x, f (g x) = some x)
    (d : Dict String α) : dictOf f (ofDict g d) = some d := by
  have hitems : (d.items.map fun e => (e.1, g e.2)).mapM
      (fun e => (f e.2).map fun v => (e.1, v)) = some d.items :=
    mapM_map (fun e => by rw [h]; rfl) d.items
  rw [ofDict, dictOf, hitems, Option.map_some, Dict.ofList_items]

theorem nullable_of_ne_null {f : Json → Option α} {j : Json} (h : j ≠ .null) :
    nullable f j = (f j).map some := by
  cases j with
  | null => exact absurd rfl h
  | _ => rfl

theorem nullable_ofOption {f : Json → Option α} {g : α → Json} (h : ∀ x, f (g x) = some x)
    (hnull : ∀ x, g x ≠ .null) : ∀ o, nullable f (ofOption g o) = some o
  | none => rfl
  | some x => by rw [ofOption, nullable_of_ne_null (hnull x), h, Option.map_some]

end Json
