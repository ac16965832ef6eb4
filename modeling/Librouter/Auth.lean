/-
# `auth.py`: from bearer keys to callers

`resolve_bearer` hashes the key, looks into its cache, and otherwise asks the database.  It has one
await, the query, so any number of calls can be in flight at once: `CallerResolver.step` runs them
side by side, and lets the callers table change in between.

There is one clock, which does not go backwards.
-/
import Librouter.Models
import Librouter.Python
import Librouter.Foundations.Dict
import Librouter.Foundations.Runs

namespace Librouter

/-! ## 1. The callers table -/

/-- A row of the callers table. -/
structure CallerRow where
  name : String
  keyHash : String
  dailyTokenCap : Option ℤ
  enabled : Bool
deriving DecidableEq

/-- `Caller(name=row[0], daily_token_cap=row[1], enabled=row[2])`, if it validates. -/
def CallerRow.caller (row : CallerRow) : Option Caller :=
  if h : isCallerName row.name = true then
    match row.dailyTokenCap with
    | none => some ⟨row.name, none, row.enabled, h⟩
    | some cap => if 0 ≤ cap then some ⟨row.name, some cap.toNat, row.enabled, h⟩ else none
  else none

theorem CallerRow.caller_eq_some {row : CallerRow} {caller : Caller}
    (h : row.caller = some caller) : caller.name = row.name ∧ caller.enabled = row.enabled ∧
      ∀ cap ∈ row.dailyTokenCap, 0 ≤ cap := by
  unfold CallerRow.caller at h
  split at h
  · split at h
    · rename_i hnone
      cases h
      simp [hnone]
    · rename_i cap hcap
      obtain ⟨hnonneg, h⟩ := Option.ite_none_right_eq_some.mp h
      cases h
      simp [hcap, hnonneg]
  · cases h

theorem CallerRow.exists_caller {row : CallerRow} (hname : isCallerName row.name = true)
    (hcap : ∀ cap ∈ row.dailyTokenCap, 0 ≤ cap) : ∃ caller, row.caller = some caller := by
  unfold CallerRow.caller
  rw [dif_pos hname]
  split
  · exact ⟨_, rfl⟩
  · rename_i cap hsome
    exact ⟨_, if_pos (hcap cap hsome)⟩

/-- What `fetchrow` may answer: a row for the hash, or that there is none. -/
def Fetches (rows : List CallerRow) (keyHash : String) : Option CallerRow → Prop
  | some row => row ∈ rows ∧ row.keyHash = keyHash
  | none => ∀ row ∈ rows, row.keyHash ≠ keyHash

instance (rows : List CallerRow) (keyHash : String) (answer : Option CallerRow) :
    Decidable (Fetches rows keyHash answer) := by
  cases answer <;> unfold Fetches <;> infer_instance

/-- The end of `caller_by_key_hash`: `none` if `Caller` raises. -/
def callerByKeyHash : Option CallerRow → Option (Option Caller)
  | none => some none
  | some row => row.caller.map some

/-! ## 2. Keys -/

/-- `hash_api_key(raw, pepper=pepper)`, for a pepper that is not empty; `hexdigest key msg` is the
HMAC-SHA256 of `msg` in hexadecimal digits. -/
def hashApiKey (hexdigest : String → String → String) (raw pepper : String) : String :=
  "v2:hmac-sha256:" ++ hexdigest pepper raw

/-- The token of an `Authorization` header. -/
def bearerToken : Option String → Option String
  | none => none
  | some header =>
    if "Bearer ".toList.isPrefixOf header.toList then
      let token := strip (String.ofList (header.toList.drop "Bearer ".length))
      if token = "" then none else some token
    else none

/-- What the cache holds for a hash. -/
structure CacheEntry where
  stamp : ℚ
  caller : Option Caller
  /-- history: the number of the query it comes from -/
  read : ℕ

/-- `CallerResolver`, with its defaults. -/
structure CallerResolver where
  hexdigest : String → String → String
  pepper : String
  cacheTtlS : ℚ := 60
  cacheMaxsize : ℕ := 10000
  /-- a falsy pepper is rejected at construction -/
  pepper_nonempty : pepper ≠ ""

/-- The hash that is looked up for a header, if it has a token. -/
def CallerResolver.keyHash? (r : CallerResolver) (header : Option String) : Option String :=
  (bearerToken header).map fun token => hashApiKey r.hexdigest token r.pepper

/-- A disabled caller is none. -/
def active (caller : Option Caller) : Option Caller := caller.filter Caller.enabled

/-- A caller that passes is the one of the row, and enabled. -/
theorem row_of_active {answer : Option CallerRow} {result : Option Caller} {caller : Caller}
    (h : callerByKeyHash answer = some result) (hactive : active result = some caller) :
    ∃ row, answer = some row ∧ row.caller = some caller ∧ caller.enabled = true := by
  obtain ⟨rfl, henabled⟩ := Option.filter_eq_some_iff.mp hactive
  cases answer with
  | none => cases h
  | some row =>
    obtain ⟨found, hrow, hfound⟩ := Option.map_eq_some_iff.mp h
    obtain rfl := Option.some.inj hfound
    exact ⟨row, rfl, hrow, henabled⟩

/-- The new entry goes to the end, and the oldest one goes if there are too many. -/
def CallerResolver.store (r : CallerResolver) (cache : Dict String CacheEntry) (keyHash : String)
    (entry : CacheEntry) : Dict String CacheEntry :=
  let cache := (cache.set keyHash entry).moveToEnd keyHash
  if r.cacheMaxsize < cache.items.length then cache.popFirst else cache

/-! ## 3. Calls -/

/-- Where a call of `resolve_bearer` stands. -/
inductive AuthPc
  /-- in `caller_by_key_hash(...)`, before the query is executed -/
  | looking (keyHash : String)
  /-- the same, after it; `read` is the number of the query -/
  | fetched (keyHash : String) (answer : Option CallerRow) (read : ℕ)
  /-- `read` is the query the result comes from, if it comes from one -/
  | returned (caller : Option Caller) (read : Option ℕ)
  | raised

/-- A call of `resolve_bearer`; `reading` is what the clock read when it began. -/
structure AuthCall where
  header : Option String
  reading : ℚ
  pc : AuthPc

/-- The caller that was returned. -/
def AuthCall.caller? (call : AuthCall) : Option Caller :=
  match call.pc with
  | .returned caller _ => caller
  | _ => none

/-- The number of the query whose result was returned. -/
def AuthCall.read? (call : AuthCall) : Option ℕ :=
  match call.pc with
  | .returned _ read => read
  | _ => none

theorem AuthCall.returned_of_caller? {call : AuthCall} {caller : Caller}
    (h : call.caller? = some caller) : ∃ read, call.pc = .returned (some caller) read := by
  unfold AuthCall.caller? at h
  split at h
  · rename_i found read hpc
    subst h
    exact ⟨read, hpc⟩
  · cases h

/-- The resolver's cache, its calls, and the callers table. -/
structure AuthState where
  clock : ℚ
  callers : List CallerRow
  cache : Dict String CacheEntry := Dict.empty
  /-- in the order in which they began -/
  calls : List AuthCall := []
  /-- history: how many queries were executed -/
  reads : ℕ := 0

/-- What happens next. -/
inductive AuthAction
  /-- `resolve_bearer(header)` is called -/
  | call (header : Option String)
  /-- the database executes the query of call `i` -/
  | read (i : ℕ) (answer : Option CallerRow)
  /-- call `i` goes on -/
  | resume (i : ℕ)
  /-- the await of call `i` raises -/
  | fail (i : ℕ)
  /-- the callers table changes -/
  | change (rows : List CallerRow)

/-- What happens next, and when. -/
structure AuthEvent where
  now : ℚ
  action : AuthAction

/-- Call `i` comes to stand at `pc`. -/
def AuthState.goto (s : AuthState) (i : ℕ) (call : AuthCall) (pc : AuthPc) : AuthState :=
  { s with calls := s.calls.set i { call with pc := pc } }

namespace CallerResolver

variable (r : CallerResolver)

/-- `resolve_bearer`, up to its await. -/
def begin (s : AuthState) (now : ℚ) (header : Option String) : AuthState :=
  match r.keyHash? header with
  | none => { s with calls := s.calls ++ [⟨header, now, .returned none none⟩] }
  | some keyHash =>
    match s.cache.get? keyHash with
    | some entry =>
      if now - entry.stamp < r.cacheTtlS then
        { s with
          cache := s.cache.moveToEnd keyHash
          calls := s.calls ++ [⟨header, now, .returned entry.caller (some entry.read)⟩] }
      else { s with calls := s.calls ++ [⟨header, now, .looking keyHash⟩] }
    | none => { s with calls := s.calls ++ [⟨header, now, .looking keyHash⟩] }

/-- `resolve_bearer`, from its await on. -/
def finish (s : AuthState) (i : ℕ) (call : AuthCall) (keyHash : String)
    (answer : Option CallerRow) (read : ℕ) : AuthState :=
  match callerByKeyHash answer with
  | none => s.goto i call .raised
  | some caller =>
    { s.goto i call (.returned (active caller) (some read)) with
      cache := r.store s.cache keyHash ⟨call.reading, active caller, read⟩ }

/-- What an event does, apart from the time it takes. -/
def act (s : AuthState) (e : AuthEvent) : Option AuthState :=
  match e.action with
  | .call header => some (r.begin s e.now header)
  | .read i answer => (s.calls[i]?).bind fun call =>
    match call.pc with
    | .looking keyHash =>
      if Fetches s.callers keyHash answer then
        some { s.goto i call (.fetched keyHash answer s.reads) with reads := s.reads + 1 }
      else none
    | _ => none
  | .resume i => (s.calls[i]?).bind fun call =>
    match call.pc with
    | .fetched keyHash answer read => some (r.finish s i call keyHash answer read)
    | _ => none
  | .fail i => (s.calls[i]?).bind fun call =>
    match call.pc with
    | .looking _ => some (s.goto i call .raised)
    | .fetched _ _ _ => some (s.goto i call .raised)
    | _ => none
  | .change rows => some { s with callers := rows }

/-- One event. -/
def step (s : AuthState) (e : AuthEvent) : Option AuthState :=
  if s.clock ≤ e.now then (r.act s e).map fun s' => { s' with clock := e.now } else none

end CallerResolver

/-- A new resolver. -/
def AuthState.init (clock : ℚ) (callers : List CallerRow) : AuthState :=
  { clock := clock, callers := callers }

/-! ## 4. The transitions -/

namespace CallerResolver

variable {r : CallerResolver} {s s' : AuthState} {es : List AuthEvent} {keyHash : String}

/-- What an event at `now` does. -/
inductive Moves (r : CallerResolver) (s : AuthState) (now : ℚ) : AuthAction → AuthState → Prop
  | rejected {header : Option String} (hkey : r.keyHash? header = none) :
      Moves r s now (.call header)
        { s with clock := now, calls := s.calls ++ [⟨header, now, .returned none none⟩] }
  | hit {header : Option String} {keyHash : String} {entry : CacheEntry}
      (hkey : r.keyHash? header = some keyHash) (hentry : (keyHash, entry) ∈ s.cache.items)
      (hfresh : now - entry.stamp < r.cacheTtlS) :
      Moves r s now (.call header)
        { s with
          clock := now
          cache := s.cache.moveToEnd keyHash
          calls := s.calls ++ [⟨header, now, .returned entry.caller (some entry.read)⟩] }
  | miss {header : Option String} {keyHash : String} (hkey : r.keyHash? header = some keyHash) :
      Moves r s now (.call header)
        { s with clock := now, calls := s.calls ++ [⟨header, now, .looking keyHash⟩] }
  | read {i : ℕ} {call : AuthCall} {keyHash : String} {answer : Option CallerRow}
      (hcall : s.calls[i]? = some call) (hpc : call.pc = .looking keyHash)
      (hanswer : Fetches s.callers keyHash answer) :
      Moves r s now (.read i answer)
        { s.goto i call (.fetched keyHash answer s.reads) with
          clock := now, reads := s.reads + 1 }
  | answered {i : ℕ} {call : AuthCall} {keyHash : String} {answer : Option CallerRow} {read : ℕ}
      {caller : Option Caller} (hcall : s.calls[i]? = some call)
      (hpc : call.pc = .fetched keyHash answer read)
      (hcaller : callerByKeyHash answer = some caller) :
      Moves r s now (.resume i)
        { s.goto i call (.returned (active caller) (some read)) with
          clock := now
          cache := r.store s.cache keyHash ⟨call.reading, active caller, read⟩ }
  | invalid {i : ℕ} {call : AuthCall} {keyHash : String} {answer : Option CallerRow} {read : ℕ}
      (hcall : s.calls[i]? = some call) (hpc : call.pc = .fetched keyHash answer read)
      (hcaller : callerByKeyHash answer = none) :
      Moves r s now (.resume i) { s.goto i call .raised with clock := now }
  | failed {i : ℕ} {call : AuthCall} (hcall : s.calls[i]? = some call)
      (hpc : ∀ caller read, call.pc ≠ .returned caller read) :
      Moves r s now (.fail i) { s.goto i call .raised with clock := now }
  | change {rows : List CallerRow} :
      Moves r s now (.change rows) { s with clock := now, callers := rows }

/-- A step is one of the transitions, and time does not go backwards in it. -/
theorem moves_of_step {e : AuthEvent} (h : r.step s e = some s') :
    s.clock ≤ e.now ∧ r.Moves s e.now e.action s' := by
  obtain ⟨hnow, h⟩ := Option.ite_none_right_eq_some.mp h
  refine ⟨hnow, ?_⟩
  obtain ⟨m, hact, rfl⟩ := Option.map_eq_some_iff.mp h
  obtain ⟨now, action⟩ := e
  cases action with
  | call header =>
    obtain rfl := Option.some.inj hact
    unfold begin
    split
    · exact .rejected ‹_›
    · split
      · split
        · exact .hit ‹_› (Dict.get?_eq_some_iff.mp ‹_›) ‹_›
        · exact .miss ‹_›
      · exact .miss ‹_›
  | read i answer =>
    obtain ⟨call, hcall, h⟩ := Option.bind_eq_some_iff.mp hact
    split at h
    · obtain ⟨hanswer, h⟩ := Option.ite_none_right_eq_some.mp h
      cases h
      exact .read hcall ‹_› hanswer
    · cases h
  | resume i =>
    obtain ⟨call, hcall, h⟩ := Option.bind_eq_some_iff.mp hact
    split at h <;> cases h
    unfold finish
    split
    · exact .invalid hcall ‹_› ‹_›
    · exact .answered hcall ‹_› ‹_›
  | fail i =>
    obtain ⟨call, hcall, h⟩ := Option.bind_eq_some_iff.mp hact
    split at h
    · rename_i hpc
      cases h
      exact .failed hcall (by simp [hpc])
    · rename_i hpc
      cases h
      exact .failed hcall (by simp [hpc])
    · cases h
  | change rows =>
    obtain rfl := Option.some.inj hact
    exact .change

/-! ## 5. What a step leaves as it was -/

/-- What is stored is all there is besides what was there. -/
theorem mem_store {cache : Dict String CacheEntry} {entry : CacheEntry} {e : String × CacheEntry}
    (h : e ∈ (r.store cache keyHash entry).items) :
    e = (keyHash, entry) ∨ e.1 ≠ keyHash ∧ e ∈ cache.items := by
  unfold store at h
  rw [← Dict.mem_items_set, ← Dict.mem_items_moveToEnd]
  dsimp only at h
  split at h
  · exact Dict.mem_items_of_mem_popFirst h
  · exact h

/-- A call more. -/
theorem forall_append {P : AuthCall → Prop} {call : AuthCall} (h : ∀ other ∈ s.calls, P other)
    (hcall : P call) : ∀ other ∈ s.calls ++ [call], P other :=
  List.forall_mem_append.mpr ⟨h, List.forall_mem_singleton.mpr hcall⟩

/-- A call that has gone on. -/
theorem forall_goto {P : AuthCall → Prop} {i : ℕ} {call : AuthCall} {pc : AuthPc}
    (h : ∀ other ∈ s.calls, P other) (hcall : P { call with pc := pc }) :
    ∀ other ∈ (s.goto i call pc).calls, P other := by
  intro other hother
  rcases List.mem_or_eq_of_mem_set hother with hother | rfl
  · exact h other hother
  · exact hcall

/-- A call that has returned is over. -/
theorem returned_step {e : AuthEvent} (hstep : r.step s e = some s') {i : ℕ} {call : AuthCall}
    {result : Option Caller} {read : Option ℕ} (hcall : s.calls[i]? = some call)
    (hpc : call.pc = .returned result read) : s'.calls[i]? = some call := by
  have hlt : i < s.calls.length := (List.getElem?_eq_some_iff.mp hcall).1
  have goto : ∀ (j : ℕ) (other : AuthCall) (pc : AuthPc), s.calls[j]? = some other →
      (∀ result read, other.pc ≠ .returned result read) →
      (s.goto j other pc).calls[i]? = some call := by
    intro j other pc hother hne
    have hij : j ≠ i := by
      rintro rfl
      rw [hcall] at hother
      cases hother
      exact hne result read hpc
    rw [AuthState.goto, List.getElem?_set_ne hij, hcall]
  have append : ∀ other, (s.calls ++ [other])[i]? = some call := fun other => by
    rw [List.getElem?_append_left hlt, hcall]
  obtain ⟨-, hmoves⟩ := moves_of_step hstep
  generalize e.action = action at hmoves
  cases hmoves with
  | rejected | hit | miss => exact append _
  | read hother hother_pc | answered hother hother_pc | invalid hother hother_pc =>
    exact goto _ _ _ hother (by simp [hother_pc])
  | failed hother hother_pc => exact goto _ _ _ hother hother_pc
  | change => exact hcall

theorem returned_of_run (hrun : Runs.run r.step s es = some s') {i : ℕ} {call : AuthCall}
    {result : Option Caller} {read : Option ℕ} (hcall : s.calls[i]? = some call)
    (hpc : call.pc = .returned result read) : s'.calls[i]? = some call :=
  Runs.invariant_along _ (fun _ s => s.calls[i]? = some call) hcall
    (fun _ _ _ _ h _ hstep => returned_step hstep h hpc) hrun (Runs.along_true es s)

end CallerResolver

/-! ## 6. Samples -/

/-- A resolver with the default settings. -/
def sampleResolver : CallerResolver where
  hexdigest := fun key msg => key ++ "/" ++ msg
  pepper := "pepper"
  pepper_nonempty := by decide

/-- The row of the key `k`. -/
def sampleRow (enabled : Bool) : CallerRow where
  name := "web"
  keyHash := hashApiKey sampleResolver.hexdigest "k" sampleResolver.pepper
  dailyTokenCap := none
  enabled := enabled

end Librouter
