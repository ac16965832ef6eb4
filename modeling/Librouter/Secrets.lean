/-
# `secrets.py`: where the gateway has its secrets from

In both modes they come from the environment: `EnvSecretsManager` reads it, and in mock mode
`lifespan` copies a few variables into the `MockSecretsManager`.
-/
import Librouter.Models

namespace Librouter

/-- An environment. -/
abbrev Env := String → Option String

/-- The name of the secret that callers' keys are hashed with. -/
def pepperKey : String := "GATEWAY_KEY_HASH_PEPPER"

/-- The variables that `lifespan` copies in mock mode. -/
def mockSecretKeys : List String :=
  ["OPENAI_API_KEY", "ANTHROPIC_API_KEY", "GOOGLE_API_KEY", "GATEWAY_METRICS_TOKEN", pepperKey]

/-- The value of a variable, if it is not empty. -/
def nonEmpty (env : Env) (key : String) : Option String :=
  match env key with
  | some val => if val = "" then none else some val
  | none => none

/-- One variable is copied. -/
def copySecret (env : Env) (store : Dict String String) (key : String) : Dict String String :=
  match nonEmpty env key with
  | some val => store.set key val
  | none => store

/-- The store of the `MockSecretsManager` that `lifespan` has filled. -/
def mockStore (env : Env) : Dict String String := mockSecretKeys.foldl (copySecret env) Dict.empty

/-- `secrets.get(key)`: `none` for a `KeyError`. -/
def secretsGet (mode : SecretsMode) (env : Env) (key : String) : Option String :=
  match mode with
  | .mock => (mockStore env).get? key
  | .env => nonEmpty env key

theorem get?_copySecret (env : Env) (store : Dict String String) (key copied : String) :
    (copySecret env store copied).get? key =
      if key = copied then (nonEmpty env key).or (store.get? key) else store.get? key := by
  unfold copySecret
  by_cases h : key = copied
  · subst h
    cases nonEmpty env key <;> simp
  · cases nonEmpty env copied <;> simp [h, Dict.get?_set_ne]

theorem get?_foldl_copySecret (env : Env) (key : String) : ∀ (keys : List String)
    (store : Dict String String), (keys.foldl (copySecret env) store).get? key =
      if key ∈ keys then (nonEmpty env key).or (store.get? key) else store.get? key
  | [], store => by simp
  | copied :: keys, store => by
    rw [List.foldl_cons, get?_foldl_copySecret env key keys, get?_copySecret]
    by_cases h : key = copied
    · cases nonEmpty env key <;> simp [h]
    · simp [h]

/-- **In both modes** a secret that `lifespan` copies is what the environment has. -/
theorem secretsGet_of_copied (mode : SecretsMode) (env : Env) {key : String}
    (h : key ∈ mockSecretKeys) : secretsGet mode env key = nonEmpty env key := by
  cases mode with
  | env => rfl
  | mock =>
    show (mockStore env).get? key = nonEmpty env key
    rw [mockStore, get?_foldl_copySecret, if_pos h, Dict.get?_empty, Option.or_none]

end Librouter
