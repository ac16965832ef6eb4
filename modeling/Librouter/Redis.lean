/-
# Redis, as the gateway uses it

Every value the gateway keeps in Redis besides the config cache is a hash from field names to
numbers with an optional time to live.  A key that was never written, or that has expired, reads
as the hash with no fields.  Commands and Lua scripts are atomic; the numbers are exact
rationals, so the decimal text Redis stores is not modelled.
-/
import Librouter.Foundations.Dict
import Librouter.Python

namespace Librouter

/-- A Redis hash: field name to number, `none` for a field that is not there. -/
abbrev RedisHash := String → Option ℚ

/-- What Redis holds under one key: the fields, and the instant at which the key is due to be
dropped (`PEXPIRE`, `EXPIRE`), if it has a time to live at all. -/
structure RedisEntry where
  fields : RedisHash := fun _ => none
  expireAtMs : Option ℚ := none

namespace RedisEntry

/-- A key that does not exist. -/
def missing : RedisEntry := {}

/-- `HSET` of one field; the time to live is left alone. -/
def hset (e : RedisEntry) (field : String) (v : ℚ) : RedisEntry :=
  { e with fields := Function.update e.fields field (some v) }

/-- `PEXPIRE key ttl`, executed at `nowMs`. -/
def pexpire (e : RedisEntry) (nowMs ttlMs : ℚ) : RedisEntry :=
  { e with expireAtMs := some (nowMs + ttlMs) }

/-- Redis drops a key once its time to live has run out, and only then. -/
def expire (e : RedisEntry) (nowMs : ℚ) : RedisEntry :=
  match e.expireAtMs with
  | some due => if due ≤ nowMs then missing else e
  | none => e

@[simp] theorem missing_fields (f : String) : missing.fields f = none := rfl

@[simp] theorem missing_expireAtMs : missing.expireAtMs = none := rfl

@[simp] theorem hset_fields_self (e : RedisEntry) (f : String) (v : ℚ) :
    (e.hset f v).fields f = some v := by
  simp [hset]

theorem hset_fields_ne (e : RedisEntry) {f g : String} (v : ℚ) (h : g ≠ f) :
    (e.hset f v).fields g = e.fields g := by
  simp [hset, h]

@[simp] theorem hset_expireAtMs (e : RedisEntry) (f : String) (v : ℚ) :
    (e.hset f v).expireAtMs = e.expireAtMs := rfl

@[simp] theorem pexpire_fields (e : RedisEntry) (t ttl : ℚ) :
    (e.pexpire t ttl).fields = e.fields := rfl

@[simp] theorem pexpire_expireAtMs (e : RedisEntry) (t ttl : ℚ) :
    (e.pexpire t ttl).expireAtMs = some (t + ttl) := rfl

/-- An expiry step either drops the key, which was due, or changes nothing. -/
theorem expire_cases (e : RedisEntry) (nowMs : ℚ) :
    (∃ due, e.expireAtMs = some due ∧ due ≤ nowMs ∧ e.expire nowMs = missing) ∨
      e.expire nowMs = e := by
  unfold expire
  cases h : e.expireAtMs with
  | none => exact Or.inr rfl
  | some due =>
    by_cases hd : due ≤ nowMs
    · exact Or.inl ⟨due, rfl, hd, if_pos hd⟩
    · exact Or.inr (if_neg hd)

/-- `HGET` of a counter: `int(row[i] or 0)`. -/
def count (e : RedisEntry) (field : String) : ℤ := toInt ((e.fields field).getD 0)

/-- `HINCRBY`. -/
def hincrby (e : RedisEntry) (field : String) (n : ℤ) : RedisEntry :=
  e.hset field (e.count field + n)

theorem count_hincrby_self (e : RedisEntry) (field : String) (n : ℤ) :
    (e.hincrby field n).count field = e.count field + n := by
  have hcast : ((e.count field : ℚ) + n) = ((e.count field + n : ℤ) : ℚ) := by push_cast; rfl
  rw [hincrby, hcast, count, hset_fields_self, Option.getD_some, toInt_intCast]

theorem count_hincrby_ne (e : RedisEntry) {field f : String} (n : ℤ) (h : f ≠ field) :
    (e.hincrby field n).count f = e.count f := by
  rw [hincrby, count, hset_fields_ne e _ h, count]

@[simp] theorem count_pexpire (e : RedisEntry) (t ttl : ℚ) (f : String) :
    (e.pexpire t ttl).count f = e.count f := rfl

@[simp] theorem count_missing (f : String) : missing.count f = 0 := by
  rw [count, missing_fields, Option.getD_none]
  exact toInt_intCast 0

/-- A key that is due is gone, whether Redis has swept it yet or not. -/
def live (e : RedisEntry) (nowMs : ℚ) : Bool := e.expireAtMs.all fun due => decide (nowMs < due)

end RedisEntry

/-! ## The keyspace -/

/-- What Redis holds under every key. -/
abbrev Redis := Dict String RedisEntry

namespace Redis

/-- What a command that runs at `nowMs` finds under `key`. -/
def read (r : Redis) (nowMs : ℚ) (key : String) : RedisEntry :=
  ((r.get? key).getD .missing).expire nowMs

/-- A command that runs at `nowMs` changes what is under `key`. -/
def write (r : Redis) (nowMs : ℚ) (key : String) (f : RedisEntry → RedisEntry) : Redis :=
  r.set key (f (r.read nowMs key))

/-- `SCAN`: the keys that match. -/
def scan (r : Redis) (nowMs : ℚ) (isMatch : String → Bool) : List String :=
  (r.items.filter fun e => e.2.live nowMs && isMatch e.1).map Prod.fst

theorem mem_keys_of_mem_scan {r : Redis} {nowMs : ℚ} {isMatch : String → Bool} {k : String}
    (h : k ∈ r.scan nowMs isMatch) : k ∈ r.keys ∧ isMatch k = true := by
  obtain ⟨e, he, rfl⟩ := List.mem_map.mp h
  obtain ⟨hmem, hok⟩ := List.mem_filter.mp he
  exact ⟨Dict.mem_keys_of_mem hmem, (Bool.and_eq_true_iff.mp hok).2⟩

/-- What a command finds under a key that is due at `due`. -/
theorem read_present {r : Redis} {key : String} {e : RedisEntry} {due t : ℚ}
    (he : r.get? key = some e) (hdue : e.expireAtMs = some (due * 1000)) :
    r.read (t * 1000) key = if t < due then e else .missing := by
  rw [Redis.read, he, Option.getD_some, RedisEntry.expire, hdue]
  by_cases h : t < due
  · have hlt : ¬ due * 1000 ≤ t * 1000 := by linarith
    rw [if_pos h]
    exact if_neg hlt
  · have hle : due * 1000 ≤ t * 1000 := by linarith
    rw [if_neg h]
    exact if_pos hle

end Redis

end Librouter
