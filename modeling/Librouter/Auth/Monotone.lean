/-
# Whether later calls return later results

Queries are numbered in the order in which the database executes them.  Two calls for one key can
both find the cache stale, and the one whose query came first may be the last to store its result:
a call that begins after the newer result was returned then hits the older one
(`revocation_undone`).

If no call stores its result after the result of a later query for the same key was returned
(`InOrder`), the entry of a key is at least as new as every result returned for it, and results are
monotone (`monotone_of_inOrder`).
-/
import Librouter.Auth

namespace Librouter

namespace CallerResolver

variable {r : CallerResolver} {s₀ s s' : AuthState} {es : List AuthEvent}

/-! ## 1. The property and the condition -/

/-- Once the result of query `n` was returned, no call for the same key that begins afterwards
returns the result of an earlier query. -/
def Monotone (r : CallerResolver) (s₀ : AuthState) (es : List AuthEvent) : Prop :=
  ∀ before after m s, es = before ++ after → Runs.run r.step s₀ before = some m →
    Runs.run r.step m after = some s → ∀ a ∈ m.calls, ∀ b ∈ s.calls.drop m.calls.length,
      r.keyHash? a.header = r.keyHash? b.header → ∀ n ∈ a.read?, ∀ n' ∈ b.read?, n ≤ n'

/-- A call whose query gave a result is not behind: no result of a later query for the same key has
been returned. -/
def UpToDate (r : CallerResolver) (s : AuthState) (call : AuthCall) : Prop :=
  match call.pc with
  | .fetched keyHash answer n => (callerByKeyHash answer).isSome = true →
      ∀ a ∈ s.calls, r.keyHash? a.header = some keyHash → ∀ n' ∈ a.read?, n' ≤ n
  | _ => True

/-- If a call goes on from its await, it is not behind. -/
def InOrder (r : CallerResolver) (s : AuthState) (e : AuthEvent) : Prop :=
  match e.action with
  | .resume i => ∀ call ∈ s.calls[i]?, UpToDate r s call
  | _ => True

instance (r : CallerResolver) (s : AuthState) (call : AuthCall) :
    Decidable (UpToDate r s call) := by
  unfold UpToDate
  split <;> infer_instance

instance (r : CallerResolver) (s : AuthState) (e : AuthEvent) : Decidable (InOrder r s e) := by
  unfold InOrder
  split <;> infer_instance

/-! ## 2. The newest result -/

/-- The queries of a call are among those executed. -/
def CallNumbered (r : CallerResolver) (reads : ℕ) (call : AuthCall) : Prop :=
  match call.pc with
  | .looking keyHash => r.keyHash? call.header = some keyHash
  | .fetched keyHash _ n => r.keyHash? call.header = some keyHash ∧ n < reads
  | .returned _ (some n) => n < reads
  | .returned _ none => True
  | .raised => True

theorem CallNumbered.mono {call : AuthCall} {reads reads' : ℕ} (h : CallNumbered r reads call)
    (hle : reads ≤ reads') : CallNumbered r reads' call := by
  unfold CallNumbered at h ⊢
  split <;> rename_i hpc <;> rw [hpc] at h
  · exact h
  · exact ⟨h.1, h.2.trans_le hle⟩
  · exact Nat.lt_of_lt_of_le h hle
  · trivial
  · trivial

/-- The entry of a key is as new as every result returned for it. -/
structure Newest (r : CallerResolver) (s : AuthState) : Prop where
  calls : ∀ call ∈ s.calls, CallNumbered r s.reads call
  cache : ∀ e ∈ s.cache.items, e.2.read < s.reads
  newest : ∀ e ∈ s.cache.items, ∀ a ∈ s.calls, r.keyHash? a.header = some e.1 →
    ∀ n ∈ a.read?, n ≤ e.2.read

/-- **A step in order keeps the entries newest.** -/
theorem Newest.step (h : Newest r s) {e : AuthEvent} (horder : InOrder r s e)
    (hstep : r.step s e = some s') : Newest r s' := by
  obtain ⟨-, hmoves⟩ := moves_of_step hstep
  obtain ⟨now, action⟩ := e
  cases hmoves with
  | rejected hkey =>
    refine ⟨forall_append h.calls trivial, h.cache, fun e he => ?_⟩
    exact forall_append (h.newest e he) nofun
  | @hit header keyHash entry hkey hentry hfresh =>
    refine ⟨forall_append h.calls (h.cache _ hentry), fun e he =>
      h.cache e (Dict.mem_items_moveToEnd.mp he), fun e he => ?_⟩
    have hmem : e ∈ s.cache.items := Dict.mem_items_moveToEnd.mp he
    refine forall_append (h.newest e hmem) fun hkey' n hn => ?_
    -- the entry that was hit is the only one for the key
    obtain ⟨keyHash', other⟩ := e
    obtain rfl : entry.read = n := Option.some.inj hn
    obtain rfl : keyHash = keyHash' := Option.some.inj (hkey.symm.trans hkey')
    have hfirst : s.cache.get? keyHash = some entry := Dict.get?_of_mem hentry
    have hsecond : s.cache.get? keyHash = some other := Dict.get?_of_mem hmem
    rw [hfirst] at hsecond
    obtain rfl := Option.some.inj hsecond
    exact le_rfl
  | miss hkey =>
    refine ⟨forall_append h.calls hkey, h.cache, fun e he => ?_⟩
    exact forall_append (h.newest e he) nofun
  | @read i call keyHash answer hcall hpc hanswer =>
    have hkey := h.calls call (List.mem_of_getElem? hcall)
    simp only [CallNumbered, hpc] at hkey
    have hnumbered : ∀ call ∈ s.calls, CallNumbered r (s.reads + 1) call :=
      fun call hcall => (h.calls call hcall).mono (Nat.le_succ _)
    refine ⟨forall_goto hnumbered ⟨hkey, Nat.lt_succ_self _⟩, fun e he =>
      Nat.lt_succ_of_lt (h.cache e he), fun e he => ?_⟩
    exact forall_goto (h.newest e he) nofun
  | @answered i call keyHash answer n caller hcall hpc hcaller =>
    have hnumbered := h.calls call (List.mem_of_getElem? hcall)
    simp only [CallNumbered, hpc] at hnumbered
    obtain ⟨hkey, hn⟩ := hnumbered
    have hcurrent := horder call hcall
    simp only [UpToDate, hpc, hcaller, Option.isSome_some, true_imp_iff] at hcurrent
    refine ⟨forall_goto h.calls hn, fun e he => ?_, fun e he => ?_⟩
    · rcases mem_store he with rfl | ⟨-, he⟩
      · exact hn
      · exact h.cache e he
    · rcases mem_store he with rfl | ⟨hne, he⟩
      · refine forall_goto hcurrent fun _ n' hn' => ?_
        exact (Option.some.inj hn').ge
      · refine forall_goto (h.newest e he) fun hkey' => ?_
        exact absurd (Option.some.inj (hkey'.symm.trans hkey)) hne
  | invalid | failed =>
    refine ⟨forall_goto h.calls trivial, h.cache, fun e he => ?_⟩
    exact forall_goto (h.newest e he) nofun
  | change => exact ⟨h.calls, h.cache, h.newest⟩

/-! ## 3. After a result -/

/-- The call has no result of a query before `n`. -/
def NotBefore (n : ℕ) (call : AuthCall) : Prop :=
  match call.pc with
  | .fetched _ _ n' => n ≤ n'
  | .returned _ (some n') => n ≤ n'
  | _ => True

/-- Since `a` returned the result of query `n`, when there were `begun` calls. -/
structure Since (r : CallerResolver) (a : AuthCall) (n begun : ℕ) (s : AuthState) : Prop where
  returned : a ∈ s.calls
  reads : n < s.reads
  length : begun ≤ s.calls.length
  later : ∀ b ∈ s.calls.drop begun, r.keyHash? a.header = r.keyHash? b.header → NotBefore n b

/-- The calls from the one numbered `begun` on, after one of the calls has gone on. -/
theorem forall_drop_goto {P : AuthCall → Prop} {i begun : ℕ} {call : AuthCall} {pc : AuthPc}
    (h : ∀ other ∈ s.calls.drop begun, P other) (hcall : s.calls[i]? = some call)
    (hnext : P call → P { call with pc := pc }) :
    ∀ other ∈ (s.goto i call pc).calls.drop begun, P other := by
  unfold AuthState.goto
  intro other hother
  rw [List.drop_set] at hother
  split at hother
  · exact h other hother
  · rename_i hle
    rcases List.mem_or_eq_of_mem_set hother with hother | rfl
    · exact h other hother
    · refine hnext (h call (List.mem_of_getElem? (i := i - begun) ?_))
      rw [List.getElem?_drop, Nat.add_sub_cancel' (not_lt.mp hle), hcall]

/-- And after one more has begun. -/
theorem forall_drop_append {P : AuthCall → Prop} {begun : ℕ} {call : AuthCall}
    (h : ∀ other ∈ s.calls.drop begun, P other) (hbegun : begun ≤ s.calls.length) (hcall : P call) :
    ∀ other ∈ (s.calls ++ [call]).drop begun, P other := by
  rw [List.drop_append_of_le_length hbegun]
  exact List.forall_mem_append.mpr ⟨h, List.forall_mem_singleton.mpr hcall⟩

theorem returned_of_read? {call : AuthCall} {n : ℕ} (h : call.read? = some n) :
    ∃ result, call.pc = .returned result (some n) := by
  unfold AuthCall.read? at h
  split at h
  · rename_i result read hpc
    subst h
    exact ⟨result, hpc⟩
  · cases h

/-- **From then on** no later call is left with an earlier query. -/
theorem Since.step {a : AuthCall} {n begun : ℕ} (ha : a.read? = some n) (hnew : Newest r s)
    (h : Since r a n begun s) {e : AuthEvent} (hstep : r.step s e = some s') :
    Since r a n begun s' := by
  have hreturned : a ∈ s'.calls := by
    obtain ⟨i, hi⟩ := List.mem_iff_getElem?.mp h.returned
    obtain ⟨result, hpc⟩ := returned_of_read? ha
    exact List.mem_of_getElem? (returned_step hstep hi hpc)
  obtain ⟨hreads, hlength, hlater⟩ : n < s'.reads ∧ begun ≤ s'.calls.length ∧
      ∀ b ∈ s'.calls.drop begun, r.keyHash? a.header = r.keyHash? b.header → NotBefore n b := by
    obtain ⟨-, hmoves⟩ := moves_of_step hstep
    generalize e.action = action at hmoves
    have hgoto : ∀ i call pc, begun ≤ (s.goto i call pc).calls.length := fun i call pc => by
      rw [AuthState.goto, List.length_set]
      exact h.length
    have happend : ∀ call, begun ≤ (s.calls ++ [call]).length := fun call => by
      rw [List.length_append]
      exact Nat.le_add_right_of_le h.length
    cases hmoves with
    | rejected | miss =>
      exact ⟨h.reads, happend _, forall_drop_append h.later h.length fun _ => trivial⟩
    | @hit header keyHash entry hkey hentry hfresh =>
      refine ⟨h.reads, happend _, forall_drop_append h.later h.length fun hsame => ?_⟩
      exact hnew.newest _ hentry a h.returned (hsame.trans hkey) n ha
    | read hcall hpc hanswer =>
      refine ⟨Nat.lt_succ_of_lt h.reads, hgoto _ _ _, ?_⟩
      exact forall_drop_goto h.later hcall fun _ _ => h.reads.le
    | answered hcall hpc hcaller =>
      refine ⟨h.reads, hgoto _ _ _, forall_drop_goto h.later hcall fun hold hsame => ?_⟩
      have hle := hold hsame
      simpa only [NotBefore, hpc] using hle
    | invalid hcall | failed hcall =>
      exact ⟨h.reads, hgoto _ _ _, forall_drop_goto h.later hcall fun _ _ => trivial⟩
    | change => exact ⟨h.reads, h.length, h.later⟩
  exact ⟨hreturned, hreads, hlength, hlater⟩

/-! ## 4. Runs in order -/

theorem newest_of_run {clock : ℚ} {rows : List CallerRow}
    (hrun : Runs.run r.step (AuthState.init clock rows) es = some s)
    (horder : Runs.Along r.step (InOrder r) (AuthState.init clock rows) es) : Newest r s :=
  Runs.invariant_along _ (fun _ s => Newest r s)
    ⟨by simp [AuthState.init], by simp [AuthState.init], by simp [AuthState.init]⟩
    (fun _ _ _ _ h he hstep => h.step he hstep) hrun horder

/-- **If no call ever stores a result that is behind**, no later call returns an earlier result. -/
theorem monotone_of_inOrder (r : CallerResolver) {clock : ℚ} {rows : List CallerRow}
    {es : List AuthEvent} {s : AuthState}
    (hrun : Runs.run r.step (AuthState.init clock rows) es = some s)
    (horder : Runs.Along r.step (InOrder r) (AuthState.init clock rows) es) :
    Monotone r (AuthState.init clock rows) es := by
  rintro before after m s' rfl hm hs' a ha b hb hsame n hn n' hn'
  obtain ⟨hbefore, hafter⟩ := horder.append hm
  have hnew := newest_of_run hm hbefore
  have hstart : Since r a n m.calls.length m := by
    refine ⟨ha, ?_, le_rfl, by simp⟩
    obtain ⟨result, hpc⟩ := returned_of_read? hn
    have hnumbered := hnew.calls a ha
    simpa only [CallNumbered, hpc] using hnumbered
  have hend := Runs.invariant_along _ (fun _ s => Newest r s ∧ Since r a n m.calls.length s)
    ⟨hnew, hstart⟩ (fun _ _ _ _ h he hstep => ⟨h.1.step he hstep, h.2.step hn h.1 hstep⟩) hs' hafter
  obtain ⟨result, hpc⟩ := returned_of_read? hn'
  have hle := hend.2.later b hb hsame
  simpa only [NotBefore, hpc] using hle

/-- A call is answered, and a second one half a minute later from the cache. -/
def calmEvents : List AuthEvent :=
  [⟨0, .call (some "Bearer k")⟩, ⟨1, .read 0 (some (sampleRow true))⟩, ⟨2, .resume 0⟩,
    ⟨30, .call (some "Bearer k")⟩]

theorem monotone_of_inOrder_calm :
    Monotone sampleResolver (AuthState.init 0 [sampleRow true]) calmEvents := by
  have hend : (Runs.run sampleResolver.step (AuthState.init 0 [sampleRow true]) calmEvents).isSome =
      true := by
    decide +kernel
  obtain ⟨s, hrun⟩ := Option.isSome_iff_exists.mp hend
  exact monotone_of_inOrder sampleResolver hrun (by decide +kernel)

/-! ## 5. A revocation that is undone -/

/-- Two calls for one key; the key is disabled between their queries; the second call returns
first. -/
def revokedEvents : List AuthEvent :=
  [⟨0, .call (some "Bearer k")⟩, ⟨1, .read 0 (some (sampleRow true))⟩,
    ⟨2, .change [sampleRow false]⟩, ⟨3, .call (some "Bearer k")⟩,
    ⟨4, .read 1 (some (sampleRow false))⟩, ⟨5, .resume 1⟩]

/-- The first call returns after it, and a third one begins. -/
def undoneEvents : List AuthEvent := [⟨6, .resume 0⟩, ⟨7, .call (some "Bearer k")⟩]

/-- The third call returns the row of before the revocation. -/
theorem revocation_undone : ¬ ∀ (r : CallerResolver) (clock : ℚ) (rows : List CallerRow)
    (es : List AuthEvent) (s : AuthState), Runs.run r.step (AuthState.init clock rows) es = some s →
      Monotone r (AuthState.init clock rows) es := by
  intro h
  have hend : (Runs.run sampleResolver.step (AuthState.init 0 [sampleRow true]) revokedEvents).any
      (fun m => (Runs.run sampleResolver.step m undoneEvents).any fun s =>
        (m.calls.any fun a => a.header = some "Bearer k" ∧ a.read? = some 1) ∧
        (s.calls.drop m.calls.length).any fun b =>
          b.header = some "Bearer k" ∧ b.read? = some 0) = true := by
    decide +kernel
  obtain ⟨m, hm, hend⟩ := (Option.any_eq_true _ _).mp hend
  obtain ⟨s, hs, hend⟩ := (Option.any_eq_true _ _).mp hend
  obtain ⟨ha, hb⟩ := of_decide_eq_true hend
  obtain ⟨a, ha, ha'⟩ := List.any_eq_true.mp ha
  obtain ⟨b, hb, hb'⟩ := List.any_eq_true.mp hb
  obtain ⟨haheader, hn⟩ := of_decide_eq_true ha'
  obtain ⟨hbheader, hn'⟩ := of_decide_eq_true hb'
  have hrun := Runs.run_append_iff.mpr ⟨m, hm, hs⟩
  have hle := h _ _ _ _ s hrun revokedEvents undoneEvents m s rfl hm hs a ha b hb
    (by rw [haheader, hbheader]) 1 hn 0 hn'
  omega

end CallerResolver

end Librouter
