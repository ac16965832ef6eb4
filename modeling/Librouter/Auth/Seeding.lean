/-
# From seeded keys to callers

`seed_callers.py` hashes the keys it finds in the environment; the gateway hashes the key it finds
in a header.  Both read the pepper from the same variable, and each tidies up its input on its own:
the script strips the pepper, the gateway strips the key.  `roundTrips_iff` says for which
environments the two meet.
-/
import Librouter.Auth
import Librouter.Secrets

namespace Librouter

/-! ## 1. `scripts/seed_callers.py` -/

/-- An entry of the seeding JSON. -/
structure SeedEntry where
  name : String
  dailyTokenCap : Option ℤ := none
  enabled : Bool := true
  name_ok : isCallerName name = true

/-- `_env_key_name`. -/
def envKeyName (callerName : String) : String :=
  "GATEWAY_SEED_KEY_" ++
    String.ofList (callerName.toList.map fun c => (if c = '-' then '_' else c).toUpper)

/-- The row of an entry. -/
def SeedEntry.row (entry : SeedEntry) (keyHash : String) : CallerRow :=
  ⟨entry.name, keyHash, entry.dailyTokenCap, entry.enabled⟩

/-- What a `BIGINT` column takes. -/
def isInt8 (n : ℤ) : Bool := -2 ^ 63 ≤ n ∧ n < 2 ^ 63

/-- `upsert_caller`: `none` if it raises. -/
def upsertCaller (rows : List CallerRow) (row : CallerRow) : Option (List CallerRow) :=
  if row.dailyTokenCap.all isInt8 = true then
    some (if rows.any fun r => r.name = row.name then
        rows.map fun r => if r.name = row.name then row else r
      else rows ++ [row])
  else none

/-- The callers table, and the entries reported as seeded. -/
structure Seeded where
  rows : List CallerRow := []
  reported : List SeedEntry := []

/-- The loop of `seed_from_json`. -/
def seedFromJson (hexdigest : String → String → String) (env : Env) (pepper : String) :
    List SeedEntry → Seeded → Option Seeded
  | [], seeded => some seeded
  | entry :: rest, seeded =>
    match env (envKeyName entry.name) with
    | none => seedFromJson hexdigest env pepper rest seeded
    | some plaintext =>
      (upsertCaller seeded.rows (entry.row (hashApiKey hexdigest plaintext pepper))).bind fun rows =>
        seedFromJson hexdigest env pepper rest ⟨rows, seeded.reported ++ [entry]⟩

/-- `main()`, on an empty table: `none` if it does not come to its end. -/
def seedMain (hexdigest : String → String → String) (env : Env) (entries : List SeedEntry) :
    Option Seeded :=
  let pepper := strip ((env pepperKey).getD "")
  if pepper = "" then none else seedFromJson hexdigest env pepper entries {}

/-! ## 2. The gateway -/

/-- The resolver that `lifespan` builds, unless it fails to. -/
def CallerResolver.ofEnv (hexdigest : String → String → String) (mode : SecretsMode) (env : Env) :
    Option CallerResolver :=
  (secretsGet mode env pepperKey).bind fun pepper =>
    if h : pepper ≠ "" then
      some { hexdigest := hexdigest, pepper := pepper, pepper_nonempty := h }
    else none

/-- `resolve_bearer` with nothing in the cache; `answer` is what the database answers if it is
asked, and `none` is an exception. -/
def CallerResolver.resolveAlone (r : CallerResolver) (header : Option String)
    (answer : Option CallerRow) : Option (Option Caller) :=
  match r.keyHash? header with
  | none => some none
  | some _ => (callerByKeyHash answer).map active

/-- Where a call of `resolve_bearer` has got to with a result. -/
def AuthPc.result? : AuthPc → Option (Option (Option Caller))
  | .returned caller _ => some (some caller)
  | .raised => some none
  | _ => none

/-- **The call on its own** is the run of the resolver with one call. -/
theorem CallerResolver.resolveAlone_run (r : CallerResolver) (rows : List CallerRow) (now : ℚ)
    (header : Option String) {answer : Option CallerRow}
    (hanswer : ∀ keyHash ∈ r.keyHash? header, Fetches rows keyHash answer) :
    ∃ es s call, Runs.run r.step (AuthState.init now rows) (⟨now, .call header⟩ :: es) = some s ∧
      s.calls = [call] ∧ call.pc.result? = some (r.resolveAlone header answer) := by
  unfold resolveAlone
  cases hkey : r.keyHash? header with
  | none =>
    refine ⟨[], ?_⟩
    simp [Runs.run, step, act, begin, hkey, AuthState.init, AuthPc.result?]
  | some keyHash =>
    have hfetch := hanswer keyHash hkey
    refine ⟨[⟨now, .read 0 answer⟩, ⟨now, .resume 0⟩], ?_⟩
    cases hresult : callerByKeyHash answer <;>
      simp [Runs.run, step, act, begin, finish, AuthState.goto, hkey, hfetch, hresult,
        AuthState.init, AuthPc.result?]

/-! ## 3. What is seeded -/

section Loop

variable {hexdigest : String → String → String} {env : Env} {pepper : String}

/-- The row that is seeded for an entry, if its key is there. -/
def seededRow (hexdigest : String → String → String) (env : Env) (pepper : String)
    (entry : SeedEntry) : Option CallerRow :=
  (env (envKeyName entry.name)).map fun plaintext =>
    entry.row (hashApiKey hexdigest plaintext pepper)

/-- A row for a new name is added. -/
theorem upsertCaller_of_new {rows rows' : List CallerRow} {row : CallerRow}
    (h : upsertCaller rows row = some rows') (hnew : ∀ r ∈ rows, r.name ≠ row.name) :
    rows' = rows ++ [row] := by
  obtain ⟨-, h⟩ := Option.ite_none_right_eq_some.mp h
  rw [if_neg (by simpa using hnew)] at h
  exact (Option.some.inj h).symm

/-- **With distinct names** the loop adds a row for each entry whose key is there, and reports
it. -/
theorem seedFromJson_eq_some : ∀ {entries : List SeedEntry} {seeded seeded' : Seeded},
    seedFromJson hexdigest env pepper entries seeded = some seeded' →
    (entries.map SeedEntry.name).Nodup →
    (∀ row ∈ seeded.rows, row.name ∉ entries.map SeedEntry.name) →
      seeded'.rows = seeded.rows ++ entries.filterMap (seededRow hexdigest env pepper) ∧
      seeded'.reported = seeded.reported ++
        entries.filter fun entry => (env (envKeyName entry.name)).isSome
  | [], seeded, seeded', h, _, _ => by
    obtain rfl := Option.some.inj h
    simp
  | entry :: rest, seeded, seeded', h, hnames, hnew => by
    rw [List.map_cons, List.nodup_cons] at hnames
    simp only [List.map_cons, List.mem_cons, not_or] at hnew
    rw [seedFromJson] at h
    split at h
    · rename_i hunset
      have hrest := seedFromJson_eq_some h hnames.2 fun row hrow => (hnew row hrow).2
      simpa [seededRow, hunset] using hrest
    · rename_i plaintext hset
      obtain ⟨rows, hupsert, h⟩ := Option.bind_eq_some_iff.mp h
      obtain rfl := upsertCaller_of_new hupsert fun row hrow => (hnew row hrow).1
      have hdisjoint : ∀ row ∈ seeded.rows ++
          [entry.row (hashApiKey hexdigest plaintext pepper)],
          row.name ∉ rest.map SeedEntry.name := by
        intro row hrow
        rcases List.mem_append.mp hrow with hrow | hrow
        · exact (hnew row hrow).2
        · rw [List.mem_singleton.mp hrow]
          exact hnames.1
      have hrest := seedFromJson_eq_some h hnames.2 hdisjoint
      simpa [seededRow, hset] using hrest

/-- `main()`, on its way to the end, has found a pepper. -/
theorem seedMain_eq_some {entries : List SeedEntry} {seeded : Seeded}
    (h : seedMain hexdigest env entries = some seeded)
    (hnames : (entries.map SeedEntry.name).Nodup) :
    ∃ pepper, env pepperKey = some pepper ∧ pepper ≠ "" ∧
      (∀ row, row ∈ seeded.rows ↔ ∃ entry ∈ entries, ∃ plaintext,
        env (envKeyName entry.name) = some plaintext ∧
          row = entry.row (hashApiKey hexdigest plaintext (strip pepper))) ∧
      ∀ entry, entry ∈ seeded.reported ↔
        entry ∈ entries ∧ ∃ plaintext, env (envKeyName entry.name) = some plaintext := by
  unfold seedMain at h
  cases hpepper : env pepperKey with
  | none =>
    rw [hpepper, Option.getD_none, if_pos (by decide)] at h
    cases h
  | some pepper =>
    rw [hpepper, Option.getD_some] at h
    obtain ⟨hne, h⟩ := Option.ite_none_left_eq_some.mp h
    obtain ⟨hrows, hreported⟩ := seedFromJson_eq_some h hnames (by simp)
    refine ⟨pepper, rfl, ?_, fun row => ?_, fun entry => ?_⟩
    · rintro rfl
      exact hne (by decide)
    · rw [hrows]
      simp [seededRow, eq_comm]
    · rw [hreported]
      simp [Option.isSome_iff_exists]

end Loop

/-! ## 4. The round trip -/

/-- With the table `rows` and an empty cache, whichever row the database answers with, the caller
of the header is `name`. -/
def ResolvesTo (r : CallerResolver) (rows : List CallerRow) (header name : String) : Prop :=
  ∀ answer, (∀ keyHash ∈ r.keyHash? (some header), Fetches rows keyHash answer) →
    ∃ caller, r.resolveAlone (some header) answer = some (some caller) ∧ caller.name = name

/-- Every entry that was reported and is enabled is the caller of its key. -/
def RoundTrips (r : CallerResolver) (env : Env) (seeded : Seeded) : Prop :=
  ∀ entry ∈ seeded.reported, entry.enabled = true →
    ∃ plaintext, env (envKeyName entry.name) = some plaintext ∧
      ResolvesTo r seeded.rows ("Bearer " ++ plaintext) entry.name

/-- The key of an entry is one that both sides hash alike, and that no other entry has. -/
structure CleanKey (env : Env) (entries : List SeedEntry) (entry : SeedEntry)
    (plaintext : String) : Prop where
  pepper : ∀ pepper ∈ env pepperKey, strip pepper = pepper
  stripped : strip plaintext = plaintext
  nonempty : plaintext ≠ ""
  cap : ∀ cap ∈ entry.dailyTokenCap, 0 ≤ cap
  unique : ∀ other ∈ entries, other.name ≠ entry.name →
    env (envKeyName other.name) ≠ some plaintext

/-- What either side hashes: the pepper and the keys, stripped or not. -/
def hashed (env : Env) (entries : List SeedEntry) : Set (String × String) :=
  { q | (∃ pepper, env pepperKey = some pepper ∧ (q.1 = pepper ∨ q.1 = strip pepper)) ∧
    ∃ entry ∈ entries, ∃ plaintext, env (envKeyName entry.name) = some plaintext ∧
      (q.2 = plaintext ∨ q.2 = strip plaintext) }

/-- The token of a header that has a key is the key, stripped. -/
theorem bearerToken_bearer (plaintext : String) :
    bearerToken (some ("Bearer " ++ plaintext)) =
      if strip plaintext = "" then none else some (strip plaintext) := by
  have hdrop : ("Bearer ".toList ++ plaintext.toList).drop "Bearer ".length = plaintext.toList :=
    List.drop_left' rfl
  unfold bearerToken
  simp only [String.toList_append, List.isPrefixOf_iff_prefix, List.prefix_append, if_true, hdrop,
    String.ofList_toList]

theorem hashApiKey_inj {hexdigest : String → String → String} {S : Set (String × String)}
    (hinj : S.InjOn fun q => hexdigest q.1 q.2) {raw raw' pepper pepper' : String}
    (h : (pepper, raw) ∈ S) (h' : (pepper', raw') ∈ S)
    (heq : hashApiKey hexdigest raw pepper = hashApiKey hexdigest raw' pepper') :
    pepper = pepper' ∧ raw = raw' := by
  have hdigest : hexdigest pepper raw = hexdigest pepper' raw' := (String.append_right_inj _).mp heq
  exact Prod.mk.inj (hinj h h' hdigest)

/-- The gateway has the pepper of the environment. -/
theorem CallerResolver.ofEnv_eq_some {hexdigest : String → String → String} {mode : SecretsMode}
    {env : Env} {r : CallerResolver} (h : ofEnv hexdigest mode env = some r) :
    r.hexdigest = hexdigest ∧ env pepperKey = some r.pepper := by
  obtain ⟨pepper, hpepper, h⟩ := Option.bind_eq_some_iff.mp h
  rw [secretsGet_of_copied mode env (by decide)] at hpepper
  obtain ⟨hne, h⟩ := Option.dite_none_right_eq_some.mp h
  obtain rfl := Option.some.inj h
  refine ⟨rfl, ?_⟩
  unfold nonEmpty at hpepper
  split at hpepper
  · rename_i hset
    obtain ⟨-, hsame⟩ := Option.ite_none_left_eq_some.mp hpepper
    exact hset.trans hsame
  · cases hpepper

/-- What the database may always answer. -/
theorem exists_fetches (rows : List CallerRow) (keyHash : String) :
    ∃ answer, Fetches rows keyHash answer := by
  by_cases h : ∃ row ∈ rows, row.keyHash = keyHash
  · obtain ⟨row, hrow, hhash⟩ := h
    exact ⟨some row, hrow, hhash⟩
  · push Not at h
    exact ⟨none, h⟩

/-- A caller is resolved from a row. -/
theorem CallerResolver.row_of_resolveAlone {r : CallerResolver} {header : Option String}
    {answer : Option CallerRow} {caller : Caller}
    (h : r.resolveAlone header answer = some (some caller)) :
    ∃ keyHash row, r.keyHash? header = some keyHash ∧ answer = some row ∧
      row.caller = some caller := by
  unfold resolveAlone at h
  split at h
  · cases h
  · rename_i keyHash hkey
    obtain ⟨result, hresult, hactive⟩ := Option.map_eq_some_iff.mp h
    obtain ⟨row, hrow, hcaller, -⟩ := row_of_active hresult hactive
    exact ⟨keyHash, row, hkey, hrow, hcaller⟩

/-- A seeded table, and the resolver of a gateway with the same environment. -/
structure SeededFor (hexdigest : String → String → String) (env : Env) (entries : List SeedEntry)
    (rows : List CallerRow) (r : CallerResolver) : Prop where
  names : (entries.map SeedEntry.name).Nodup
  inj : (hashed env entries).InjOn fun q => hexdigest q.1 q.2
  hexdigest_eq : r.hexdigest = hexdigest
  pepper : env pepperKey = some r.pepper
  rows : ∀ row, row ∈ rows ↔ ∃ entry ∈ entries, ∃ plaintext,
    env (envKeyName entry.name) = some plaintext ∧
      row = entry.row (hashApiKey hexdigest plaintext (strip r.pepper))

namespace SeededFor

variable {hexdigest : String → String → String} {env : Env} {entries : List SeedEntry}
  {rows : List CallerRow} {r : CallerResolver} {entry : SeedEntry} {plaintext : String}

/-- The row of another key is found only if both sides hash alike. -/
theorem row_matches (h : SeededFor hexdigest env entries rows r) (hentry : entry ∈ entries)
    (hset : env (envKeyName entry.name) = some plaintext) {row : CallerRow} (hrow : row ∈ rows)
    (hhash : row.keyHash = hashApiKey hexdigest (strip plaintext) r.pepper) :
    ∃ other ∈ entries, env (envKeyName other.name) = some (strip plaintext) ∧
      strip r.pepper = r.pepper ∧ row = other.row row.keyHash := by
  obtain ⟨other, hother, text, htext, rfl⟩ := (h.rows row).mp hrow
  obtain ⟨hpepper, rfl⟩ := hashApiKey_inj h.inj
    ⟨⟨r.pepper, h.pepper, Or.inr rfl⟩, other, hother, text, htext, Or.inl rfl⟩
    ⟨⟨r.pepper, h.pepper, Or.inl rfl⟩, entry, hentry, plaintext, hset, Or.inr rfl⟩ hhash
  exact ⟨other, hother, htext, hpepper, rfl⟩

theorem entry_eq (h : SeededFor hexdigest env entries rows r) (hentry : entry ∈ entries)
    {other : SeedEntry} (hother : other ∈ entries) (hname : other.name = entry.name) :
    other = entry :=
  List.inj_on_of_nodup_map h.names hother hentry hname

theorem keyHash?_bearer (h : SeededFor hexdigest env entries rows r) (plaintext : String) :
    r.keyHash? (some ("Bearer " ++ plaintext)) = if strip plaintext = "" then none
      else some (hashApiKey hexdigest (strip plaintext) r.pepper) := by
  rw [CallerResolver.keyHash?, bearerToken_bearer, h.hexdigest_eq]
  split <;> rfl

/-- A clean key finds its row, and no other. -/
theorem resolvesTo_of_clean (h : SeededFor hexdigest env entries rows r) (hentry : entry ∈ entries)
    (henabled : entry.enabled = true) (hset : env (envKeyName entry.name) = some plaintext)
    (hclean : CleanKey env entries entry plaintext) :
    ResolvesTo r rows ("Bearer " ++ plaintext) entry.name := by
  intro answer hanswer
  have hkey := h.keyHash?_bearer plaintext
  rw [hclean.stripped, if_neg hclean.nonempty] at hkey
  have hfetch := hanswer _ hkey
  have hpepper := hclean.pepper r.pepper h.pepper
  have hown : entry.row (hashApiKey hexdigest plaintext r.pepper) ∈ rows :=
    (h.rows _).mpr ⟨entry, hentry, plaintext, hset, by rw [hpepper]⟩
  cases answer with
  | none => exact absurd rfl (hfetch _ hown)
  | some row =>
    have hhash : row.keyHash = hashApiKey hexdigest (strip plaintext) r.pepper := by
      rw [hclean.stripped]
      exact hfetch.2
    obtain ⟨other, hother, htext, -, hrow⟩ := h.row_matches hentry hset hfetch.1 hhash
    rw [hclean.stripped] at htext
    have hname : other.name = entry.name := by
      by_contra hne
      exact hclean.unique other hother hne htext
    obtain rfl := h.entry_eq hentry hother hname
    obtain ⟨caller, hcaller⟩ : ∃ caller, row.caller = some caller := by
      rw [hrow]
      exact CallerRow.exists_caller other.name_ok hclean.cap
    obtain ⟨hname, hcallerEnabled, -⟩ := CallerRow.caller_eq_some hcaller
    rw [hrow] at hname hcallerEnabled
    refine ⟨caller, ?_, hname⟩
    have hactive : active (some caller) = some caller :=
      Option.filter_eq_some_iff.mpr ⟨rfl, hcallerEnabled.trans henabled⟩
    simp only [CallerResolver.resolveAlone, hkey, callerByKeyHash, hcaller, Option.map_some, hactive]

/-- A key that finds its row, whichever row is found, is clean. -/
theorem clean_of_resolvesTo (h : SeededFor hexdigest env entries rows r) (hentry : entry ∈ entries)
    (hset : env (envKeyName entry.name) = some plaintext)
    (hresolves : ResolvesTo r rows ("Bearer " ++ plaintext) entry.name) :
    CleanKey env entries entry plaintext := by
  have hkey := h.keyHash?_bearer plaintext
  obtain ⟨answer, hanswer⟩ :=
    exists_fetches rows (hashApiKey hexdigest (strip plaintext) r.pepper)
  have hvalid : ∀ answer, Fetches rows (hashApiKey hexdigest (strip plaintext) r.pepper) answer →
      ∀ keyHash ∈ r.keyHash? (some ("Bearer " ++ plaintext)), Fetches rows keyHash answer := by
    intro answer hfetch keyHash hmem
    rw [hkey] at hmem
    obtain ⟨-, hsome⟩ := Option.ite_none_left_eq_some.mp hmem
    rwa [← Option.some.inj hsome]
  obtain ⟨caller, hresult, hname⟩ := hresolves answer (hvalid answer hanswer)
  obtain ⟨keyHash, row, hlooked, rfl, hcaller⟩ := CallerResolver.row_of_resolveAlone hresult
  -- there is a token, and the row is that of the entry itself
  rw [hkey] at hlooked
  obtain ⟨hne, -⟩ := Option.ite_none_left_eq_some.mp hlooked
  obtain ⟨other, hother, htext, hpepper, hrow⟩ := h.row_matches hentry hset hanswer.1 hanswer.2
  obtain ⟨hrowName, -, hcap⟩ := CallerRow.caller_eq_some hcaller
  rw [hrow] at hrowName hcap
  obtain rfl := h.entry_eq hentry hother (hrowName.symm.trans hname)
  have hstripped : strip plaintext = plaintext := Option.some.inj (htext.symm.trans hset)
  rw [hstripped] at hne hvalid
  refine ⟨fun pepper hmem => ?_, hstripped, hne, hcap, fun rival hrival hother hsame => ?_⟩
  · rw [Option.some.inj (hmem.symm.trans h.pepper), hpepper]
  · -- the database could answer with the row of the other entry
    have hrivalRow : rival.row (hashApiKey hexdigest plaintext r.pepper) ∈ rows :=
      (h.rows _).mpr ⟨rival, hrival, plaintext, hsame, by rw [hpepper]⟩
    obtain ⟨found, hresult, hname⟩ := hresolves _ (hvalid (some _) ⟨hrivalRow, rfl⟩)
    obtain ⟨-, row, -, hrow, hcaller⟩ := CallerResolver.row_of_resolveAlone hresult
    obtain rfl := Option.some.inj hrow
    obtain ⟨hfound, -, -⟩ := CallerRow.caller_eq_some hcaller
    exact hother (hfound.symm.trans hname)

end SeededFor

/-- **The keys that are seeded are those of the callers they are seeded for, if and only if** each
of them is clean. -/
theorem roundTrips_iff {hexdigest : String → String → String} (mode : SecretsMode) {env : Env}
    {entries : List SeedEntry} (hnames : (entries.map SeedEntry.name).Nodup)
    (hinj : (hashed env entries).InjOn fun q => hexdigest q.1 q.2) {seeded : Seeded}
    (hseeded : seedMain hexdigest env entries = some seeded) {r : CallerResolver}
    (hboot : CallerResolver.ofEnv hexdigest mode env = some r) :
    RoundTrips r env seeded ↔ ∀ entry ∈ entries, entry.enabled = true →
      ∀ plaintext, env (envKeyName entry.name) = some plaintext →
        CleanKey env entries entry plaintext := by
  obtain ⟨pepper, hpepper, -, hrows, hreported⟩ := seedMain_eq_some hseeded hnames
  obtain ⟨hhex, hpepper'⟩ := CallerResolver.ofEnv_eq_some hboot
  obtain rfl : pepper = r.pepper := Option.some.inj (hpepper.symm.trans hpepper')
  have h : SeededFor hexdigest env entries seeded.rows r := ⟨hnames, hinj, hhex, hpepper, hrows⟩
  constructor
  · intro hround entry hentry henabled plaintext hset
    obtain ⟨text, htext, hresolves⟩ :=
      hround entry ((hreported entry).mpr ⟨hentry, plaintext, hset⟩) henabled
    obtain rfl := Option.some.inj (hset.symm.trans htext)
    exact h.clean_of_resolvesTo hentry hset hresolves
  · intro hclean entry hmem henabled
    obtain ⟨hentry, plaintext, hset⟩ := (hreported entry).mp hmem
    exact ⟨plaintext, hset,
      h.resolvesTo_of_clean hentry henabled hset (hclean entry hentry henabled plaintext hset)⟩

/-! ## 5. A pepper with white space -/

/-- An environment with one key to seed. -/
def seedingEnv (pepper plaintext : String) : Env := fun key =>
  if key = pepperKey then some pepper
  else if key = "GATEWAY_SEED_KEY_WEB" then some plaintext
  else none

/-- The entry of that key. -/
def webEntry : SeedEntry := { name := "web", name_ok := isCallerName_web }

theorem seedingEnv_web (pepper plaintext : String) :
    seedingEnv pepper plaintext (envKeyName webEntry.name) = some plaintext := by
  have hname : envKeyName webEntry.name = "GATEWAY_SEED_KEY_WEB" := by decide
  rw [hname, seedingEnv, if_neg (by decide), if_pos rfl]

theorem nodup_webEntry : ([webEntry].map SeedEntry.name).Nodup := List.nodup_singleton _

/-- The sample digests are distinct where only the pepper differs. -/
theorem hashed_injOn (pepper : String) :
    (hashed (seedingEnv pepper "k") [webEntry]).InjOn
      fun q => sampleResolver.hexdigest q.1 q.2 := by
  have hkey : ∀ q ∈ hashed (seedingEnv pepper "k") [webEntry], q.2 = "k" := by
    rintro q ⟨-, entry, hentry, plaintext, hset, hq⟩
    obtain rfl := List.mem_singleton.mp hentry
    obtain rfl := Option.some.inj (hset.symm.trans (seedingEnv_web pepper "k"))
    have hstrip : strip "k" = "k" := by decide
    rwa [hstrip, or_self] at hq
  intro q hq q' hq' heq
  have hsecond : q.2 = q'.2 := (hkey q hq).trans (hkey q' hq').symm
  have hdigest : q.1 ++ "/" ++ q.2 = q'.1 ++ "/" ++ q'.2 := heq
  rw [hsecond, String.append_left_inj, String.append_left_inj] at hdigest
  exact Prod.ext hdigest hsecond

theorem roundTrips_iff_web : ∃ seeded r,
    seedMain sampleResolver.hexdigest (seedingEnv "pepper" "k") [webEntry] = some seeded ∧
    CallerResolver.ofEnv sampleResolver.hexdigest .env (seedingEnv "pepper" "k") = some r ∧
    RoundTrips r (seedingEnv "pepper" "k") seeded := by
  have hseeded : (seedMain sampleResolver.hexdigest (seedingEnv "pepper" "k") [webEntry]).isSome =
      true := by
    decide +kernel
  have hboot : (CallerResolver.ofEnv sampleResolver.hexdigest .env
      (seedingEnv "pepper" "k")).isSome = true := by
    decide +kernel
  obtain ⟨seeded, hseeded⟩ := Option.isSome_iff_exists.mp hseeded
  obtain ⟨r, hboot⟩ := Option.isSome_iff_exists.mp hboot
  refine ⟨seeded, r, hseeded, hboot, (roundTrips_iff .env nodup_webEntry (hashed_injOn _) hseeded
    hboot).mpr fun entry hentry _ plaintext hset => ?_⟩
  obtain rfl := List.mem_singleton.mp hentry
  obtain rfl := Option.some.inj (hset.symm.trans (seedingEnv_web "pepper" "k"))
  refine ⟨?_, by decide, by decide, nofun, fun other hother hne => ?_⟩
  · decide +kernel
  · rw [List.mem_singleton.mp hother] at hne
    exact absurd rfl hne

/-- The script strips the pepper and the gateway does not. -/
theorem pepper_not_stripped : ¬ ∀ (hexdigest : String → String → String) (mode : SecretsMode)
    (env : Env) (entries : List SeedEntry), (entries.map SeedEntry.name).Nodup →
    (hashed env entries).InjOn (fun q => hexdigest q.1 q.2) → ∀ seeded,
      seedMain hexdigest env entries = some seeded → ∀ r,
        CallerResolver.ofEnv hexdigest mode env = some r → RoundTrips r env seeded := by
  intro h
  have hend : (seedMain sampleResolver.hexdigest (seedingEnv "pepper\n" "k") [webEntry]).any
      (fun seeded => (CallerResolver.ofEnv sampleResolver.hexdigest .env
        (seedingEnv "pepper\n" "k")).any fun r =>
        (seeded.reported.any fun entry => entry.enabled ∧ entry.name = "web") ∧
          (r.keyHash? (some "Bearer k")).all fun keyHash => Fetches seeded.rows keyHash none) =
      true := by
    decide +kernel
  obtain ⟨seeded, hseeded, hend⟩ := (Option.any_eq_true _ _).mp hend
  obtain ⟨r, hboot, hend⟩ := (Option.any_eq_true _ _).mp hend
  obtain ⟨hreported, hnone⟩ := of_decide_eq_true hend
  obtain ⟨entry, hmem, hentry⟩ := List.any_eq_true.mp hreported
  obtain ⟨henabled, hname⟩ := of_decide_eq_true hentry
  obtain ⟨plaintext, hset, hresolves⟩ := h _ .env _ _ nodup_webEntry (hashed_injOn _) seeded hseeded r
    hboot entry hmem henabled
  rw [hname] at hset
  obtain rfl := Option.some.inj (hset.symm.trans (seedingEnv_web "pepper\n" "k"))
  obtain ⟨caller, hresult, -⟩ := hresolves none fun keyHash hkey => by
    have hall := Option.all_eq_true _ _ |>.mp hnone keyHash hkey
    exact of_decide_eq_true hall
  obtain ⟨-, row, -, hrow, -⟩ := CallerResolver.row_of_resolveAlone hresult
  cases hrow

end Librouter
