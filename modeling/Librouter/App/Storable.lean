/-
# Records that cannot be stored

A batch is inserted as a whole or not at all, and not every record can be inserted: no text may have
U+0000 in it or be impossible to encode, and the numbers must fit their columns.  The validators of
a request bound its metadata in length only, and the first characters of one of them go into the
records: so a caller can take the records of others out of the table with it (`nul_erases`).  What a
vendor replies goes into them as well, and nothing bounds that either.

A trace id that cannot be encoded does no harm to others, but no record is made of the attempt, and
its request ends in a 500.

The records of all requests get into the table exactly when those of the ones that are answered fit
(`rows_inserted_iff`).  And as long as they do, and as long as all records can be made, nothing else
in the table depends on the metadata.
-/
import Librouter.App.Untraced
import Librouter.App.Requests
import Librouter.Router.Attempts

namespace Librouter

/-! ## 1. What can be stored -/

/-- The text has no U+0000. -/
def storableText (s : String) : Bool := s.toList.all fun c => c ≠ Char.ofNat 0

/-- It is one, and has none. -/
def PyStr.storable (s : PyStr) : Bool := s.text?.any storableText

/-- `SMALLINT`. -/
def fitsSmallint (n : ℕ) : Bool := n < 2 ^ 15

/-- `INTEGER`. -/
def fitsInteger (n : ℕ) : Bool := n < 2 ^ 31

/-- `NUMERIC`, with so many digits, of which so many after the point. -/
def fitsNumeric (precision scale : ℕ) (x : ℚ) : Bool :=
  |roundNumeric scale x| < 10 ^ (precision - scale)

/-- The parameters of the `INSERT` that were constrained, or come from the gateway. -/
def AttemptRecord.texts (rec : AttemptRecord) : List String :=
  [rec.requestId, rec.caller, rec.tier, rec.provider, rec.model, rec.status] ++
    rec.clientTraceId.toList

/-- The numbers fit, and so does what the vendor calls the reply. -/
def AttemptRecord.fits (rec : AttemptRecord) : Bool :=
  fitsSmallint rec.attemptIdx && fitsInteger rec.inputTokens && fitsInteger rec.outputTokens &&
    fitsNumeric 12 6 rec.costUsd && fitsInteger rec.latencyMs && rec.vendorReqId.all PyStr.storable

/-- The database takes the row. -/
def AttemptRecord.storable (rec : AttemptRecord) : Bool := rec.texts.all storableText && rec.fits

/-- The gateway on a database that is well. -/
def Ledger.postgres (router : Router) (caps : String → Option ℕ) : Ledger where
  router := router
  caps := caps
  accepts := AttemptRecord.storable

/-- What `route` has from a call fits into the columns, if the call is the one with this index. -/
def VendorCall.fits (router : Router) (i : ℕ) (c : VendorCall) : Bool :=
  fitsSmallint i && fitsInteger c.inputTokens && fitsInteger c.outputTokens &&
    fitsNumeric 12 6 (router.costUsd c.cand.provider c.cand.model c.inputTokens c.outputTokens) &&
    fitsInteger ⌊(c.endedAt - c.startedAt) * 1000⌋.toNat && c.vendorReqId.all PyStr.storable

/-- So does the trace id of its request. -/
def ChatCompletionRequest.traceFits (req : ChatCompletionRequest) : Bool :=
  req.recordedTraceId.all storableText

theorem storableText_of_isCallerName {name : String} (h : isCallerName name = true) :
    storableText name = true := by
  obtain ⟨-, hchars⟩ := Bool.and_eq_true_iff.mp h
  refine List.all_eq_true.mpr fun c hc => decide_eq_true ?_
  rintro rfl
  have hzero := List.all_eq_true.mp hchars _ hc
  exact absurd hzero (by decide)

theorem ProviderError.storable_status (e : ProviderError) : storableText e.status = true := by
  unfold status
  split
  · cases e.cls <;> decide
  · decide

theorem VendorCall.storable_status (c : VendorCall) : storableText c.status = true := by
  unfold status
  split
  · decide
  · exact ProviderError.storable_status _

/-! ## 2. What comes from elsewhere -/

/-- The config was in the database, whose texts have no U+0000. -/
def Config.Storable (cfg : Config) : Prop :=
  ∀ tier ∈ cfg.tiers.items, storableText tier.1 = true ∧
    ∀ t ∈ tier.2.candidates, storableText t.provider = true ∧ storableText t.model = true

/-- The weight engine picks candidates of the tier. -/
def LoopInput.Clean (input : LoopInput) : Prop :=
  ∀ tierCandidates exclude, ∀ cand ∈ input.pick tierCandidates exclude,
    cand ∈ tierCandidates.map TierEntry.ref

/-- The id of the request is one of `uuid4().hex`. -/
structure RouteInput.Clean (input : RouteInput) : Prop where
  requestId : storableText input.requestId = true
  next : input.next.Clean

def RouteEvent.Clean : RouteEvent → Prop
  | .acquired _ _ next => next.Clean
  | .recorded next => next.Clean
  | .replied _ _ => True
  | .failed => True

def ChatEvent.Clean : ChatEvent → Prop
  | .resolved _ input => input.Clean
  | .tokensUsed _ input => input.Clean
  | .route event => event.Clean
  | .failed => True

/-- What `route` does not get from the caller or from a vendor is as it should be. -/
def LedgerEvent.Clean (e : LedgerEvent) : Prop :=
  match e.action with
  | .chat _ event => event.Clean
  | _ => True

theorem LedgerEvent.clean_untraced (e : LedgerEvent) : e.untraced.Clean ↔ e.Clean := by
  obtain ⟨now, action⟩ := e
  cases action <;> rfl

/-! ## 3. The records of a request -/

def CandidateRef.Storable (cand : CandidateRef) : Prop :=
  storableText cand.provider = true ∧ storableText cand.model = true

/-- The candidate that is tried. -/
def RoutePc.Storable : RoutePc → Prop
  | .acquiring _ cand => cand.Storable
  | .chatting cand _ _ => cand.Storable
  | .recordingFailure _ _ => True
  | .recordingSuccess _ _ _ => True
  | .finished _ => True

/-- The records of the call have nothing to be refused for but the trace id and what came from the
vendors. -/
structure RouteTask.Storable (t : RouteTask) : Prop where
  requestId : storableText t.requestId = true
  /-- an unknown tier is not called -/
  tier : (∀ outcome, t.pc ≠ .finished outcome) ∨ t.calls ≠ [] → storableText t.req.model = true
  pc : t.pc.Storable
  calls : ∀ c ∈ t.calls, c.cand.Storable

theorem Router.storable_tierCandidates {router : Router} (hcfg : router.cfg.Storable)
    {tier : String} {cand : CandidateRef}
    (h : cand ∈ (router.tierCandidates tier).map TierEntry.ref) : cand.Storable := by
  obtain ⟨t, ht, rfl⟩ := List.mem_map.mp h
  unfold tierCandidates at ht
  cases hget : router.cfg.tiers.get? tier with
  | none =>
    rw [hget] at ht
    cases ht
  | some tierCfg =>
    rw [hget] at ht
    exact (hcfg _ (Dict.get?_eq_some_iff.mp hget)).2 t ht

namespace RouteTask.Storable

variable {router : Router} {t t' : RouteTask}

/-- The top of the loop picks a candidate of the config. -/
theorem loopTop (hcfg : router.cfg.Storable) {input : LoopInput} (hinput : input.Clean)
    (hrequestId : storableText t.requestId = true) (htier : storableText t.req.model = true)
    (hcalls : ∀ c ∈ t.calls, c.cand.Storable) : (router.loopTop t input).Storable := by
  rcases router.loopTop_cases t input with ⟨error, -, heq⟩ | ⟨cand, hpick, -, heq⟩
  · rw [heq]
    exact ⟨hrequestId, fun _ => htier, trivial, hcalls⟩
  · rw [heq]
    refine ⟨hrequestId, fun _ => htier, ?_, hcalls⟩
    exact Router.storable_tierCandidates hcfg (hinput _ _ cand hpick)

theorem begin (hcfg : router.cfg.Storable) (req : ChatCompletionRequest) (caller : Caller)
    {input : RouteInput} (hinput : input.Clean) :
    (router.begin req caller input.requestId input.now input.next).Storable := by
  unfold Router.begin
  dsimp only
  split
  · rename_i hcontains
    refine loopTop hcfg hinput.next hinput.requestId ?_ (List.forall_mem_nil _)
    obtain ⟨e, he, hname⟩ := List.mem_map.mp (Dict.contains_iff.mp hcontains)
    exact hname ▸ (hcfg e he).1
  · refine ⟨hinput.requestId, fun hcalled => ?_, trivial, List.forall_mem_nil _⟩
    exact hcalled.elim (fun hpc => absurd rfl (hpc _)) (absurd rfl)

theorem step (h : t.Storable) (hcfg : router.cfg.Storable) {event : RouteEvent}
    (hclean : event.Clean) (hstep : t.step router event = some t') : t'.Storable := by
  have hrunning : ∀ outcome, t.pc ≠ .finished outcome := by
    intro outcome hpc
    simp [RouteTask.step, hpc] at hstep
  have htier := h.tier (Or.inl hrunning)
  have hpcStorable := h.pc
  cases moves_of_step hstep with
  | crash | giveUp | recordFails | answer | noMessage =>
    exact ⟨h.requestId, fun _ => htier, trivial, h.calls⟩
  | bucketEmpty | vendorMissing | retry => exact loopTop hcfg hclean h.requestId htier h.calls
  | call hpc =>
    rw [hpc] at hpcStorable
    exact ⟨h.requestId, fun _ => htier, hpcStorable, h.calls⟩
  | callFailed hpc | callUnrecorded hpc | callOk hpc =>
    rw [hpc] at hpcStorable
    exact ⟨h.requestId, fun _ => htier, trivial,
      List.forall_mem_append.mpr ⟨h.calls, List.forall_mem_singleton.mpr hpcStorable⟩⟩

/-- **What a record is refused for**: the trace id, or what came of the call. -/
theorem recordOf (h : t.Storable) (i : ℕ) {c : VendorCall} (hc : c ∈ t.calls) :
    (router.recordOf t i c).storable = (t.req.traceFits && c.fits router i) := by
  have hcaller := storableText_of_isCallerName t.caller.name_ok
  have htier := h.tier (Or.inr (List.ne_nil_of_mem hc))
  obtain ⟨hprovider, hmodel⟩ := h.calls c hc
  have htexts : (router.recordOf t i c).texts.all storableText = t.req.traceFits := by
    simp only [AttemptRecord.texts, Router.recordOf, Router.record, List.cons_append,
      List.nil_append, List.all_cons, h.requestId, hcaller, htier, hprovider, hmodel,
      c.storable_status, Bool.true_and]
    rw [ChatCompletionRequest.traceFits]
    cases t.req.recordedTraceId <;> simp
  rw [AttemptRecord.storable, htexts]
  rfl

end RouteTask.Storable

/-- The records of a request that was answered are refused for its trace id, or what came of a
call. -/
structure ChatTask.Storable (router : Router) (c : ChatTask) : Prop where
  routing : ∀ t, c.pc = .routing t → t.Storable ∧ t.Documented router
  answered : ∀ response, c.pc = .done (.ok response) → c.enqueued.map AttemptRecord.storable =
    c.calls.mapIdx fun i call => c.body.traceFits && call.fits router i

namespace ChatTask

variable {router : Router} {c d : ChatTask} {event : ChatEvent}

theorem storable_proceed {task : RouteTask} (hnone : c.enqueued = []) (hreq : task.req = c.body)
    (h : task.Storable) (hdocumented : task.Documented router) :
    (c.proceed task).Storable router := by
  unfold proceed
  split
  · rename_i outcome hpc
    refine ⟨fun _ ht => ChatPc.noConfusion ht, fun response hanswered => ?_⟩
    cases outcome with
    | returned response attempts =>
      simp only [RouteTask.Documented, hpc] at hdocumented
      dsimp only [RouteOutcome.enqueues]
      rw [hnone, List.nil_append, hdocumented, ← hreq]
      refine List.ext_getElem? fun i => ?_
      rw [List.getElem?_map, List.getElem?_mapIdx, List.getElem?_mapIdx, Option.map_map]
      exact Option.map_congr fun call hcall => h.recordOf i (List.mem_of_getElem? hcall)
    | raised | crashed => cases hanswered
  · refine ⟨fun t ht => ?_, fun response hanswered => ChatPc.noConfusion hanswered⟩
    obtain rfl := ChatPc.routing.inj ht
    exact ⟨h, hdocumented⟩

theorem Storable.step (h : c.Storable router) (hattributed : c.Attributed)
    (hcfg : router.cfg.Storable) (hclean : event.Clean) (hstep : c.step router event = some d) :
    d.Storable router := by
  unfold Attributed at hattributed
  cases moves_of_step hstep with
  | noCaller | capped | exhausted | resolveFails | usageFails =>
    exact ⟨fun _ ht => ChatPc.noConfusion ht, fun _ hanswered => by cases hanswered⟩
  | @uncapped caller input hpc | @underCap caller cap used input hpc =>
    rw [hpc] at hattributed
    exact storable_proceed hattributed (RouteTask.attributed_begin _ _ _ _ _ _).2.1
      (RouteTask.Storable.begin hcfg _ _ hclean) (router.documented_begin _ _ _ _ _)
  | @route task task' event hpc htask =>
    rw [hpc] at hattributed
    obtain ⟨hstorable, hdocumented⟩ := h.routing task hpc
    exact storable_proceed hattributed.1
      ((RouteTask.frame_step htask).1.trans hattributed.2.1)
      (hstorable.step hcfg hclean htask) (hdocumented.step htask)

theorem body_step (hstep : c.step router event = some d) : d.body = c.body := by
  have hproceed : ∀ task, (c.proceed task).body = c.body := fun task => by
    unfold proceed
    split <;> rfl
  cases moves_of_step hstep with
  | noCaller | capped | exhausted | resolveFails | usageFails => rfl
  | uncapped | underCap | route => exact hproceed _

end ChatTask

/-! ## 4. The table -/

/-- The requests that arrive, in order. -/
def arrivals (es : List LedgerEvent) : List ChatCompletionRequest :=
  es.filterMap fun e => match e.action with
    | .arrive body => some body
    | _ => none

/-- The request has its response. -/
def LedgerRequest.Answered (r : LedgerRequest) : Prop :=
  ∃ response, r.chat.pc = .done (.ok response)

/-- The records of the requests that are answered fit, if the requests are these: there is no U+0000
in the trace ids, and what came of the calls fits into the columns. -/
def LedgerState.RecordsFit (router : Router) (s : LedgerState)
    (arrived : List ChatCompletionRequest) : Prop :=
  ∀ (i : ℕ) (r : LedgerRequest) (body : ChatCompletionRequest), s.requests[i]? = some r →
    arrived[i]? = some body → r.Answered → body.traceFits = true ∧
      ∀ (k : ℕ) (call : VendorCall), r.chat.calls[k]? = some call → call.fits router k = true

/-- What holds of the table and the queue after the events `es`, on a table that held `rows`. -/
structure LedgerState.Kept (router : Router) (rows : List RequestRow) (es : List LedgerEvent)
    (s : LedgerState) : Prop where
  attributed : s.Attributed
  storable : ∀ r ∈ s.requests, r.chat.Storable router
  bodies : s.requests.map (fun r => r.chat.body) = arrivals es
  queue : s.queue.Sound 10000
  enqueued : s.queue.enqueued.Perm (s.requests.flatMap fun r => r.chat.enqueued)
  rows : s.rows.map RequestRow.record = rows.map RequestRow.record ++ s.queue.written
  written : ∀ rec ∈ s.queue.written, rec.storable = true
  /-- nothing is lost but with a record that cannot be stored -/
  lost : (∀ rec ∈ s.queue.lost, rec.storable = true) → s.queue.lost = []

namespace LedgerState.Kept

variable {router : Router} {caps : String → Option ℕ} {rows : List RequestRow}
  {es : List LedgerEvent} {s s' : LedgerState}

theorem boot (start : ℚ) : (Ledger.boot start rows).Kept router rows [] where
  attributed r hr := absurd hr List.not_mem_nil
  storable r hr := absurd hr List.not_mem_nil
  bodies := rfl
  queue := DrainState.sound_of_run (by norm_num) (Runs.run_nil (DrainState.init 10000 200))
  enqueued := List.Perm.nil
  rows := (List.append_nil _).symm
  written rec hrec := absurd hrec List.not_mem_nil
  lost _ := rfl

theorem step (h : s.Kept router rows es) (hcfg : router.cfg.Storable) {e : LedgerEvent}
    (hclean : e.Clean) (hstep : (Ledger.postgres router caps).step s e = some s') :
    s'.Kept router rows (es ++ [e]) := by
  have hattributed := h.attributed.step hstep
  obtain ⟨-, hmoves⟩ := Ledger.moves_of_step hstep
  have hqueue := hmoves.queue h.queue
  obtain ⟨now, action⟩ := e
  have hbodies : arrivals (es ++ [⟨now, action⟩]) = arrivals es ++
      arrivals [⟨now, action⟩] := List.filterMap_append
  dsimp only at hmoves
  cases hmoves with
  | arrive body =>
    refine ⟨hattributed, ?_, ?_, hqueue, ?_, h.rows, h.written, h.lost⟩
    · rw [List.forall_mem_append, List.forall_mem_singleton]
      exact ⟨h.storable, fun _ ht => ChatPc.noConfusion ht, fun _ ht => ChatPc.noConfusion ht⟩
    · rw [hbodies, List.map_append, h.bodies]
      rfl
    · rw [List.flatMap_append]
      exact h.enqueued.trans (by simp [ChatTask.start])
  | @sum i r caller cap hr hpc hnone =>
    have hsame : ∀ {β : Type} (f : ChatTask → β) (answer : Option ℕ),
        (s.requests.set i { r with answer := answer }).map (fun r => f r.chat)
          = s.requests.map fun r => f r.chat :=
      fun f answer => map_set_of_eq (f := fun r : LedgerRequest => f r.chat) hr rfl
    refine ⟨hattributed, fun r' hr' => ?_, ?_, hqueue, ?_, h.rows, h.written, h.lost⟩
    · rcases List.mem_or_eq_of_mem_set hr' with hr' | rfl
      · exact h.storable r' hr'
      · exact h.storable r (List.mem_of_getElem? hr)
    · rw [hbodies, hsame ChatTask.body, h.bodies]
      exact (List.append_nil _).symm
    · rw [List.flatMap_def, hsame ChatTask.enqueued, ← List.flatMap_def]
      exact h.enqueued
  | @chat i r event chat hr hpermits hchat =>
    have hmem := List.mem_of_getElem? hr
    obtain ⟨henqueued, hwritten, hlost⟩ :=
      s.queue.enqueueAll_history (chat.enqueued.drop r.chat.enqueued.length)
    refine ⟨hattributed, fun r' hr' => ?_, ?_, hqueue, ?_, ?_, hwritten ▸ h.written,
      hlost ▸ h.lost⟩
    · rcases List.mem_or_eq_of_mem_set hr' with hr' | rfl
      · exact h.storable r' hr'
      · exact (h.storable r hmem).step (h.attributed r hmem) hcfg hclean hchat
    · have hbody : chat.body = r.chat.body := ChatTask.body_step hchat
      have hsame : (s.requests.set i ⟨chat, todayStart now, none⟩).map (fun r => r.chat.body)
          = s.requests.map fun r => r.chat.body :=
        map_set_of_eq (f := fun r : LedgerRequest => r.chat.body) hr hbody
      rw [hbodies, hsame, h.bodies]
      exact (List.append_nil _).symm
    · have hgrown : ((s.requests.set i ⟨chat, todayStart now, none⟩).flatMap fun r =>
          r.chat.enqueued).Perm _ :=
        flatMap_set_perm (f := fun r : LedgerRequest => r.chat.enqueued)
          (ChatTask.enqueued_step hchat) hr
      rw [henqueued]
      exact (h.enqueued.append_right _).trans hgrown.symm
    · rw [hwritten]
      exact h.rows
  | @drain event queue henqueue hsettled hnext =>
    obtain ⟨henqueued, hwritten, hlost⟩ := DrainState.history_step henqueue hsettled hnext
    refine ⟨hattributed, h.storable, ?_, hqueue, henqueued ▸ h.enqueued, hwritten ▸ h.rows,
      hwritten ▸ h.written, hlost ▸ h.lost⟩
    rw [hbodies]
    exact h.bodies.trans (List.append_nil _).symm
  | @write who queue hall hnext =>
    obtain ⟨henqueued, hwritten, hlost⟩ := DrainState.history_written hnext
    refine ⟨hattributed, h.storable, ?_, hqueue, henqueued ▸ h.enqueued, ?_, ?_, hlost ▸ h.lost⟩
    · rw [hbodies]
      exact h.bodies.trans (List.append_nil _).symm
    · have hbatch : ((s.queue.batch who).map fun rec => RequestRow.mk now rec).map RequestRow.record
          = s.queue.batch who := by
        rw [List.map_map]
        exact List.map_id _
      rw [List.map_append, hbatch, h.rows, hwritten, List.append_assoc]
    · rw [hwritten, List.forall_mem_append]
      exact ⟨h.written, List.all_eq_true.mp hall⟩
  | @refuse who queue hall hnext =>
    obtain ⟨henqueued, hwritten, hlost⟩ := DrainState.history_refused hnext
    refine ⟨hattributed, h.storable, ?_, hqueue, henqueued ▸ h.enqueued, hwritten ▸ h.rows,
      hwritten ▸ h.written, fun hstorable => ?_⟩
    · rw [hbodies]
      exact h.bodies.trans (List.append_nil _).symm
    · -- the batch that was refused has such a record
      rw [hlost, List.forall_mem_append] at hstorable
      have hfine : (s.queue.batch who).all (Ledger.postgres router caps).accepts = true :=
        List.all_eq_true.mpr hstorable.2
      rw [hfine] at hall
      cases hall

theorem of_run (hcfg : router.cfg.Storable) {start : ℚ} (hclean : ∀ e ∈ es, e.Clean)
    (hrun : Runs.run (Ledger.postgres router caps).step (Ledger.boot start rows) es = some s) :
    s.Kept router rows es :=
  Runs.invariant_along (fun _ e => e.Clean) (fun es s => s.Kept router rows es) (boot start)
    (fun _ _ _ _ h hclean hstep => h.step hcfg hclean hstep) hrun (Runs.along_of_forall es _ hclean)

/-- A request that has enqueued something was answered. -/
theorem answered (h : s.Kept router rows es) {r : LedgerRequest} (hr : r ∈ s.requests)
    {rec : AttemptRecord} (hrec : rec ∈ r.chat.enqueued) : r.Answered := by
  have hattributed := h.attributed r hr
  unfold ChatTask.Attributed at hattributed
  split at hattributed
  · rw [hattributed.1] at hrec
    cases hrec
  · exact ⟨_, ‹_›⟩
  · rw [hattributed] at hrec
    cases hrec

/-- **If the records fit, they can be stored.** -/
theorem storable_enqueued (h : s.Kept router rows es) (hfit : s.RecordsFit router (arrivals es)) :
    ∀ rec ∈ s.queue.enqueued, rec.storable = true := by
  intro rec hrec
  obtain ⟨r, hr, hrec⟩ := List.mem_flatMap.mp (h.enqueued.mem_iff.mp hrec)
  have hanswered := h.answered hr hrec
  obtain ⟨response, hpc⟩ := hanswered
  obtain ⟨i, hi⟩ := List.getElem?_of_mem hr
  have hbody : (arrivals es)[i]? = some r.chat.body := by
    rw [← h.bodies, List.getElem?_map, hi]
    rfl
  obtain ⟨htrace, hcalls⟩ := hfit i r _ hi hbody ⟨response, hpc⟩
  have hmem : rec.storable ∈ r.chat.enqueued.map AttemptRecord.storable := List.mem_map_of_mem hrec
  rw [(h.storable r hr).answered response hpc] at hmem
  obtain ⟨k, hk, heq⟩ := List.mem_mapIdx.mp hmem
  rw [← heq, htrace, hcalls k _ (List.getElem?_eq_getElem hk)]
  rfl

/-- ...and the other way round. -/
theorem fit_of_enqueued (h : s.Kept router rows es)
    (hstorable : ∀ rec ∈ s.queue.enqueued, rec.storable = true) :
    s.RecordsFit router (arrivals es) := by
  intro i r body hi hbody hanswered
  have hr := List.mem_of_getElem? hi
  rw [← h.bodies, List.getElem?_map, hi] at hbody
  obtain rfl := Option.some.inj hbody
  obtain ⟨response, hpc⟩ := hanswered
  have hrecords := (h.storable r hr).answered response hpc
  have hfits : ∀ (k : ℕ) (call : VendorCall), r.chat.calls[k]? = some call →
      r.chat.body.traceFits = true ∧ call.fits router k = true := by
    intro k call hcall
    have hat := congrArg (fun l => l[k]?) hrecords
    simp only [List.getElem?_map, List.getElem?_mapIdx, hcall, Option.map_some] at hat
    obtain ⟨rec, hrec, heq⟩ := Option.map_eq_some_iff.mp hat
    have hmem := h.enqueued.mem_iff.mpr
      (List.mem_flatMap.mpr ⟨r, hr, List.mem_of_getElem? hrec⟩)
    rw [hstorable rec hmem] at heq
    exact Bool.and_eq_true_iff.mp heq.symm
  -- there was a call, as there are records
  have hattributed := h.attributed r hr
  unfold ChatTask.Attributed at hattributed
  rw [hpc] at hattributed
  obtain ⟨call, hcall⟩ : ∃ call, r.chat.calls[0]? = some call := by
    have hlength := congrArg List.length hrecords
    rw [List.length_map, List.length_mapIdx] at hlength
    exact ⟨_, List.getElem?_eq_getElem (hlength ▸ List.length_pos_of_ne_nil hattributed.1)⟩
  exact ⟨(hfits 0 call hcall).1, fun k call hcall => (hfits k call hcall).2⟩

/-- What is being written was enqueued. -/
theorem batch_accepted (h : s.Kept router rows es) (hfit : s.RecordsFit router (arrivals es))
    (who : Flusher) : (s.queue.batch who).all (Ledger.postgres router caps).accepts = true := by
  refine List.all_eq_true.mpr fun rec hrec => h.storable_enqueued hfit rec ?_
  have hflight : rec ∈ s.queue.inFlight := by
    cases who with
    | loop => exact List.mem_append_left _ hrec
    | owner => exact List.mem_append_right _ hrec
  refine h.queue.conserved.perm.mem_iff.mpr (List.mem_append_right _ ?_)
  unfold DrainState.unwritten
  exact List.mem_append_left _ (List.mem_append_right _ hflight)

/-- When everything is flushed and nothing was evicted, what is not written is lost. -/
theorem perm_of_flushed (h : s.Kept router rows es) (hroom : s.queue.evicted = [])
    (hflushed : s.queue.queue.buffer = [] ∧ s.queue.inFlight = []) :
    s.queue.enqueued.Perm (s.queue.written ++ s.queue.lost) := by
  have hperm := h.queue.conserved.perm
  rw [DrainState.unwritten, hroom, hflushed.1, hflushed.2] at hperm
  simpa using hperm

end LedgerState.Kept

/-- Every enqueued record is in the table, on top of what it held. -/
def LedgerState.AllInserted (rows : List RequestRow) (s : LedgerState) : Prop :=
  (s.rows.map RequestRow.record).Perm (rows.map RequestRow.record ++ s.queue.enqueued)

theorem LedgerState.Kept.allInserted_iff {router : Router} {rows : List RequestRow}
    {es : List LedgerEvent} {s : LedgerState} (h : s.Kept router rows es)
    (hroom : s.queue.evicted = []) (hflushed : s.queue.queue.buffer = [] ∧ s.queue.inFlight = []) :
    s.AllInserted rows ↔ s.RecordsFit router (arrivals es) := by
  unfold AllInserted
  rw [h.rows, List.perm_append_left_iff]
  constructor
  · intro hperm
    exact h.fit_of_enqueued fun rec hrec => h.written rec (hperm.mem_iff.mpr hrec)
  · intro hfit
    have hperm := h.perm_of_flushed hroom hflushed
    have hlost : s.queue.lost = [] := h.lost fun rec hrec =>
      h.storable_enqueued hfit rec (hperm.mem_iff.mpr (List.mem_append_right _ hrec))
    rw [hlost, List.append_nil] at hperm
    exact hperm.symm

/-! ## 5. Two runs -/

/-- A request that has its response keeps it, and makes no more calls. -/
theorem Ledger.answered_step {ledger : Ledger} {s s' : LedgerState} {e : LedgerEvent}
    (hstep : ledger.step s e = some s') {i : ℕ} {r : LedgerRequest} (hr : s.requests[i]? = some r)
    (hanswered : r.Answered) :
    ∃ r', s'.requests[i]? = some r' ∧ r'.Answered ∧ r'.chat.calls = r.chat.calls := by
  obtain ⟨response, hpc⟩ := hanswered
  obtain ⟨-, hmoves⟩ := Ledger.moves_of_step hstep
  generalize e.action = action at hmoves
  cases hmoves with
  | arrive body =>
    exact ⟨r, List.getElem?_append_left (List.getElem?_eq_some_iff.mp hr).1 ▸ hr, ⟨response, hpc⟩,
      rfl⟩
  | @sum j r₁ caller cap hr₁ hpc₁ =>
    have hne : j ≠ i := by
      rintro rfl
      rw [hr] at hr₁
      cases hr₁
      rw [hpc] at hpc₁
      cases hpc₁
    exact ⟨r, (List.getElem?_set_ne hne).trans hr, ⟨response, hpc⟩, rfl⟩
  | @chat j r₁ event chat hr₁ hpermits hchat =>
    have hne : j ≠ i := by
      rintro rfl
      rw [hr] at hr₁
      cases hr₁
      unfold ChatTask.step at hchat
      rw [hpc] at hchat
      cases hchat
    exact ⟨r, (List.getElem?_set_ne hne).trans hr, ⟨response, hpc⟩, rfl⟩
  | drain | write | refuse => exact ⟨r, hr, ⟨response, hpc⟩, rfl⟩

/-- What holds at the end of a run holds before its last step. -/
theorem LedgerState.RecordsFit.of_step {router : Router} {ledger : Ledger} {s s' : LedgerState}
    {e : LedgerEvent} {arrived more : List ChatCompletionRequest}
    (h : s'.RecordsFit router (arrived ++ more)) (hstep : ledger.step s e = some s') :
    s.RecordsFit router arrived := by
  intro i r body hr hbody hanswered
  obtain ⟨r', hr', hanswered', hcalls⟩ := Ledger.answered_step hstep hr hanswered
  rw [← hcalls]
  refine h i r' body hr' ?_ hanswered'
  rw [List.getElem?_append_left (List.getElem?_eq_some_iff.mp hbody).1]
  exact hbody

/-- Requests that are the same without their metadata are answered together, after the same
calls. -/
theorem LedgerState.Alike.recordsFit {router : Router} {keep : String → Bool} {s s₂ : LedgerState}
    (h : s.Alike keep s₂) {arrived : List ChatCompletionRequest}
    (hfit : s.RecordsFit router arrived) : s₂.RecordsFit router arrived := by
  intro i r₂ body hr₂ hbody ⟨response, hpc₂⟩
  obtain ⟨r, hr, hchat⟩ := h.request_left hr₂
  have hcalls : r₂.chat.untraced.calls = r.chat.untraced.calls := congrArg ChatTask.calls hchat
  obtain ⟨htrace, hfits⟩ := hfit i r body hr hbody <| by
    rcases ChatPc.cases_of_untraced_eq (congrArg ChatTask.pc hchat) with hsame | ⟨t, t₂, -, ht, -⟩
    · exact ⟨response, hsame.symm.trans hpc₂⟩
    · rw [hpc₂] at ht
      cases ht
  exact ⟨htrace, fun k call hcall => hfits k call (hcalls ▸ hcall)⟩

/-- The records that the step makes take the trace ids, if the requests are these. -/
def LedgerState.MakesRecords (arrived : List ChatCompletionRequest) (s : LedgerState)
    (e : LedgerEvent) : Prop :=
  ∀ i event, e.action = .chat i event → ∀ r ∈ s.requests[i]?, r.chat.makesRecord event = true →
    ∀ body ∈ arrived[i]?, body.traceRaises = false

theorem LedgerState.MakesRecords.of_append {arrived more : List ChatCompletionRequest}
    {s : LedgerState} {e : LedgerEvent} (h : s.MakesRecords (arrived ++ more) e) :
    s.MakesRecords arrived e := by
  intro i event haction r hr hmakes body hbody
  refine h i event haction r hr hmakes body ?_
  rw [List.getElem?_append_left (List.getElem?_eq_some_iff.mp hbody).1]
  exact hbody

/-- A request of a state that is like this one can be recorded. -/
theorem LedgerState.Alike.canRecord {router : Router} {keep : String → Bool} {s s₂ : LedgerState}
    {rows : List RequestRow} {es₂ : List LedgerEvent} {more : List ChatCompletionRequest}
    {e : LedgerEvent} (h : s.Alike keep s₂) (hkept₂ : s₂.Kept router rows es₂)
    (hmakes : s.MakesRecords (arrivals es₂ ++ more) e) {i : ℕ} {event : ChatEvent}
    (haction : e.action = .chat i event) {r₂ : LedgerRequest} (hr₂ : s₂.requests[i]? = some r₂) :
    r₂.chat.CanRecord event := by
  refine (hkept₂.attributed r₂ (List.mem_of_getElem? hr₂)).canRecord fun hrecords => ?_
  obtain ⟨r, hr, hchat⟩ := h.request_left hr₂
  refine hmakes.of_append i event haction r hr ?_ r₂.chat.body ?_
  · rwa [← r.chat.makesRecord_untraced, ← hchat, r₂.chat.makesRecord_untraced]
  · rw [← hkept₂.bodies, List.getElem?_map, hr₂]
    rfl

/-- In the first run, request `i` turns out to be of a caller that is watched. -/
def ResolvedTo (es : List LedgerEvent) (keep : String → Bool) (i : ℕ) : Prop :=
  ∃ e ∈ es, ∃ caller input, e.action = .chat i (.resolved (some caller) input) ∧
    keep caller.name = true

theorem arrivals_append (es es' : List LedgerEvent) :
    arrivals (es ++ es') = arrivals es ++ arrivals es' := List.filterMap_append

theorem length_arrivals_untraced (es : List LedgerEvent) :
    (arrivals (es.map LedgerEvent.untraced)).length = (arrivals es).length := by
  induction es with
  | nil => rfl
  | cons e es ih =>
    have hfirst : (arrivals [e.untraced]).length = (arrivals [e]).length := by
      obtain ⟨now, action⟩ := e
      cases action <;> rfl
    show (arrivals ([e.untraced] ++ es.map LedgerEvent.untraced)).length
      = (arrivals ([e] ++ es)).length
    rw [arrivals_append, arrivals_append, List.length_append, List.length_append, ih, hfirst]

/-- In no step of the run a record is refused for its trace id, if the requests are these. -/
def RecordsMade (ledger : Ledger) (start : ℚ) (rows : List RequestRow) (es : List LedgerEvent)
    (arrived : List ChatCompletionRequest) : Prop :=
  Runs.Along ledger.step (LedgerState.MakesRecords arrived) (Ledger.boot start rows) es

/-- **A run with other metadata.**  If the events are the same but for the metadata, the records can
be made and fit in both, and the requests of the watched callers are the same, there is such a run,
and its states are alike. -/
theorem alike_of_run {router : Router} (hcfg : router.cfg.Storable) {caps : String → Option ℕ}
    (keep : String → Bool) {start : ℚ} {rows : List RequestRow} (es : List LedgerEvent) :
    ∀ {es₂ : List LedgerEvent} {s : LedgerState}, (∀ e ∈ es, e.Clean) →
      Runs.run (Ledger.postgres router caps).step (Ledger.boot start rows) es = some s →
      es₂.map LedgerEvent.untraced = es.map LedgerEvent.untraced →
      RecordsMade (Ledger.postgres router caps) start rows es (arrivals es) →
      RecordsMade (Ledger.postgres router caps) start rows es (arrivals es₂) →
      s.RecordsFit router (arrivals es) → s.RecordsFit router (arrivals es₂) →
      (∀ i, ResolvedTo es keep i → (arrivals es₂)[i]? = (arrivals es)[i]?) →
      ∃ s₂, Runs.run (Ledger.postgres router caps).step (Ledger.boot start rows) es₂ = some s₂ ∧
        s.Alike keep s₂ := by
  induction es using List.reverseRecOn with
  | nil =>
    intro es₂ s hclean hrun huntraced hmade hmade₂ hfit hfit₂ hsame
    obtain rfl := List.map_eq_nil_iff.mp huntraced
    cases hrun
    refine ⟨_, rfl, rfl, rfl, fun i r r₂ hr hr₂ _ => ?_, rfl, rfl⟩
    cases hr
  | append_singleton es e ih =>
    intro es₂' s hclean hrun huntraced hmade hmade₂ hfit hfit₂ hsame
    obtain ⟨m, hm, hstep⟩ := Runs.run_concat_iff.mp hrun
    rw [List.map_append] at huntraced
    obtain ⟨es₂, last, rfl, hbefore, hlast⟩ := List.map_eq_append_iff.mp huntraced
    obtain ⟨e₂, rfl, hevent⟩ := List.map_eq_singleton_iff.mp hlast
    rw [arrivals_append] at hmade hmade₂ hfit hfit₂
    rw [List.forall_mem_append] at hclean
    have hmfit := hfit.of_step hstep
    have hmfit₂ := hfit₂.of_step hstep
    obtain ⟨hbeforeMade, hlastMade⟩ := hmade.append hm
    obtain ⟨hbeforeMade₂, hlastMade₂⟩ := hmade₂.append hm
    have hkept := LedgerState.Kept.of_run hcfg hclean.1 hm
    have hclean₂ : ∀ e₂ ∈ es₂, e₂.Clean := by
      intro e' he'
      obtain ⟨e'', he'', heq⟩ := List.mem_map.mp (hbefore ▸ List.mem_map_of_mem he')
      rw [← e'.clean_untraced, ← heq, e''.clean_untraced]
      exact hclean.1 e'' he''
    have hbodies : ∀ i, ResolvedTo (es ++ [e]) keep i → (arrivals es₂)[i]? = (arrivals es)[i]? := by
      intro i hi
      have hall := hsame i hi
      have hlength : (arrivals es₂).length = (arrivals es).length := by
        rw [← length_arrivals_untraced, hbefore, length_arrivals_untraced]
      rw [arrivals_append, arrivals_append] at hall
      by_cases hlt : i < (arrivals es).length
      · rwa [List.getElem?_append_left hlt, List.getElem?_append_left (hlength ▸ hlt)] at hall
      · have hge := not_lt.mp hlt
        rw [List.getElem?_eq_none hge, List.getElem?_eq_none (hlength ▸ hge)]
    obtain ⟨m₂, hm₂, halike⟩ := ih hclean.1 hm hbefore
      (hbeforeMade.imp fun _ _ => .of_append) (hbeforeMade₂.imp fun _ _ => .of_append) hmfit hmfit₂
      fun i hi => hbodies i <| by
      obtain ⟨e', he', hresolved⟩ := hi
      exact ⟨e', List.mem_append_left _ he', hresolved⟩
    have hkept₂ := LedgerState.Kept.of_run hcfg hclean₂ hm₂
    obtain ⟨s₂, hs₂, hend⟩ := halike.step hkept.attributed hkept₂.attributed
      (hkept.batch_accepted hmfit) (hkept₂.batch_accepted (halike.recordsFit hmfit₂)) hevent
      (fun i caller input haction hkeep r r₂ hr hr₂ => by
        have hi := hbodies i ⟨e, List.mem_append_right _ List.mem_cons_self, caller, input, haction,
          hkeep⟩
        rw [← hkept.bodies, ← hkept₂.bodies, List.getElem?_map, List.getElem?_map, hr, hr₂] at hi
        exact Option.some.inj hi)
      (fun i event haction r hr =>
        (LedgerState.Alike.refl keep m).canRecord hkept hlastMade.1 haction hr)
      (fun i event haction r₂ hr₂ => halike.canRecord hkept₂ hlastMade₂.1 haction hr₂) hstep
    exact ⟨s₂, Runs.run_concat_iff.mpr ⟨m₂, hm₂, hs₂⟩, hend⟩

/-- The metadata does not matter: if the requests have other metadata, and the records can still be
made and fit, the run goes the same way, every caller has used the same tokens, and a caller whose
own requests are the same has the same rows. -/
def MetadataIndependent (ledger : Ledger) (start : ℚ) (rows : List RequestRow)
    (es : List LedgerEvent) (s : LedgerState) : Prop :=
  ∀ es₂, es₂.map LedgerEvent.untraced = es.map LedgerEvent.untraced →
    RecordsMade ledger start rows es (arrivals es₂) → s.RecordsFit ledger.router (arrivals es₂) →
    ∃ s₂, Runs.run ledger.step (Ledger.boot start rows) es₂ = some s₂ ∧
      (∀ name since, tokensSince s₂.rows name since = tokensSince s.rows name since) ∧
      ∀ name, (∀ i, ResolvedTo es (· = name) i → (arrivals es₂)[i]? = (arrivals es)[i]?) →
        s₂.rows.filter (fun row => row.record.caller = name)
          = s.rows.filter fun row => row.record.caller = name

/-- **When the request content erases nothing.**  In a run of the gateway in which everything is
flushed and the queue never overflows, every enqueued record is in the table exactly when the records
of the requests that are answered fit; and then, if no record is refused for its trace id, the table
does not depend on the metadata. -/
theorem rows_inserted_iff (router : Router) (hcfg : router.cfg.Storable)
    (caps : String → Option ℕ) {start : ℚ} {rows : List RequestRow} {es : List LedgerEvent}
    {s : LedgerState} (hclean : ∀ e ∈ es, e.Clean)
    (hrun : Runs.run (Ledger.postgres router caps).step (Ledger.boot start rows) es = some s)
    (hroom : s.queue.evicted = [])
    (hflushed : s.queue.queue.buffer = [] ∧ s.queue.inFlight = []) :
    (s.AllInserted rows ↔ s.RecordsFit router (arrivals es)) ∧
      (s.RecordsFit router (arrivals es) →
        RecordsMade (Ledger.postgres router caps) start rows es (arrivals es) →
        MetadataIndependent (Ledger.postgres router caps) start rows es s) := by
  have hkept := LedgerState.Kept.of_run hcfg hclean hrun
  refine ⟨hkept.allInserted_iff hroom hflushed, fun hfit hmade es₂ huntraced hmade₂ hfit₂ => ?_⟩
  obtain ⟨s₂, hs₂, halike⟩ := alike_of_run hcfg (fun _ => false) es hclean hrun huntraced hmade
    hmade₂ hfit hfit₂ fun i ⟨_, _, _, _, _, hkeep⟩ => Bool.noConfusion hkeep
  refine ⟨s₂, hs₂, halike.tokensSince_eq, fun name hsame => ?_⟩
  obtain ⟨s₃, hs₃, halike₃⟩ := alike_of_run hcfg (· = name) es hclean hrun huntraced hmade hmade₂
    hfit hfit₂ hsame
  obtain rfl := Option.some.inj (hs₃.symm.trans hs₂)
  exact halike₃.rows_eq (decide_eq_true rfl)

/-! ## 6. A request that erases the records of others -/

theorem firstLeft_clean (now : ℚ) : (firstLeft now).Clean :=
  fun _ _ _ hcand => List.mem_of_find?_eq_some hcand

theorem fastConfig_storable : fastConfig.Storable := by
  unfold Config.Storable
  decide

/-- The request "hi", with an id in its metadata. -/
def tracedRequest (id : PyStr) (hid : id.length ≤ 256) : ChatCompletionRequest :=
  { hiRequest with
    metadata := some ⟨[(PyStr.of "request_id", id)], List.nodup_singleton _⟩
    metadata_bounds := fun d hd => by
      obtain rfl := Option.some.inj hd
      have hkey : (PyStr.of "request_id").length ≤ 64 := by decide
      refine ⟨Nat.le_of_ble_eq_true rfl, fun e he => ?_⟩
      obtain rfl := List.mem_singleton.mp he
      exact ⟨hkey, hid⟩ }

/-- Another caller without a cap. -/
def appCaller : Caller := ⟨"app", none, true, by decide⟩

/-- The vendor answers request `i` of the caller with ten tokens. -/
def answerTo (i : ℕ) (caller : Caller) : List LedgerEvent :=
  [⟨1, .chat i (.resolved (some caller) ⟨"r", 1, firstLeft 1⟩)⟩,
    ⟨1, .chat i (.route (.acquired true 1 (firstLeft 1)))⟩,
    ⟨1, .chat i (.route (.replied (.ok ⟨"hello", some "stop", 4, 6, none⟩) 1))⟩,
    ⟨1, .chat i (.route (.recorded (firstLeft 1)))⟩]

/-- Two requests, of which the first has metadata, and the flush of their records. -/
def twoRequests (body : ChatCompletionRequest) : List LedgerEvent :=
  [⟨0, .drain .start⟩, ⟨0, .drain .check⟩, ⟨0, .arrive body⟩, ⟨0, .arrive hiRequest⟩] ++
    answerTo 0 webCaller ++ answerTo 1 appCaller ++ [⟨2, .drain .wake⟩, ⟨2, .write .loop⟩]

theorem twoRequests_clean (body : ChatCompletionRequest) : ∀ e ∈ twoRequests body, e.Clean := by
  have hanswer : ∀ i caller, ∀ e ∈ answerTo i caller, e.Clean := by
    intro i caller e he
    simp only [answerTo, List.mem_cons, List.not_mem_nil, or_false] at he
    rcases he with rfl | rfl | rfl | rfl
    · exact ⟨by decide, firstLeft_clean 1⟩
    · exact firstLeft_clean 1
    · trivial
    · exact firstLeft_clean 1
  intro e he
  simp only [twoRequests, List.mem_append, List.mem_cons, List.not_mem_nil, or_false] at he
  rcases he with (((rfl | rfl | rfl | rfl) | he) | he) | rfl | rfl
  · trivial
  · trivial
  · trivial
  · trivial
  · exact hanswer 0 webCaller e he
  · exact hanswer 1 appCaller e he
  · trivial
  · trivial

/-- `rows_inserted_iff` on two requests whose records are inserted. -/
theorem rows_inserted_iff_hi : ∃ s,
    Runs.run (Ledger.postgres soleRouter fun _ => none).step (Ledger.boot 0 [])
      (twoRequests hiRequest) = some s ∧
    (s.AllInserted [] ↔ s.RecordsFit soleRouter (arrivals (twoRequests hiRequest))) ∧
      (s.RecordsFit soleRouter (arrivals (twoRequests hiRequest)) →
        RecordsMade (Ledger.postgres soleRouter fun _ => none) 0 [] (twoRequests hiRequest)
          (arrivals (twoRequests hiRequest)) →
        MetadataIndependent (Ledger.postgres soleRouter fun _ => none) 0 []
          (twoRequests hiRequest) s) := by
  have hrun : (Runs.run (Ledger.postgres soleRouter fun _ => none).step (Ledger.boot 0 [])
      (twoRequests hiRequest)).any (fun s => s.queue.evicted.isEmpty ∧
        s.queue.queue.buffer.isEmpty ∧ s.queue.inFlight.isEmpty) = true := by
    decide +kernel
  obtain ⟨s, hs, hdecided⟩ := (Option.any_eq_true _ _).mp hrun
  obtain ⟨hroom, hbuffer, hflight⟩ := of_decide_eq_true hdecided
  exact ⟨s, hs, rows_inserted_iff soleRouter fastConfig_storable _ (twoRequests_clean _) hs
    (List.isEmpty_iff.mp hroom) ⟨List.isEmpty_iff.mp hbuffer, List.isEmpty_iff.mp hflight⟩⟩

/-- The metadata is U+0000 and nothing else. -/
def nulRequest : ChatCompletionRequest := tracedRequest ⟨[.char (Char.ofNat 0)]⟩ (by decide)

/-- **With U+0000 in its metadata, `web` takes the record of `app` out of the table**: both records
are enqueued, and lost with their batch.  Without the metadata both are inserted. -/
theorem nul_erases : ∃ s s₂,
    Runs.run (Ledger.postgres soleRouter fun _ => none).step (Ledger.boot 0 [])
      (twoRequests nulRequest) = some s ∧
    Runs.run (Ledger.postgres soleRouter fun _ => none).step (Ledger.boot 0 [])
      (twoRequests hiRequest) = some s₂ ∧
    (twoRequests hiRequest).map LedgerEvent.untraced
      = (twoRequests nulRequest).map LedgerEvent.untraced ∧
    s.queue.enqueued.map AttemptRecord.caller = ["web", "app"] ∧
    (s.queue.evicted = [] ∧ s.queue.queue.buffer = [] ∧ s.queue.inFlight = []) ∧
    ¬ s.AllInserted [] ∧
    tokensSince s.rows "app" 0 = 0 ∧ tokensSince s₂.rows "app" 0 = 10 := by
  have hrun : (Runs.run (Ledger.postgres soleRouter fun _ => none).step (Ledger.boot 0 [])
      (twoRequests nulRequest)).any (fun s =>
        s.queue.enqueued.map AttemptRecord.caller = ["web", "app"] ∧ s.queue.evicted.isEmpty ∧
          s.queue.queue.buffer.isEmpty ∧ s.queue.inFlight.isEmpty ∧ s.rows.isEmpty) = true := by
    decide +kernel
  have hrun₂ : (Runs.run (Ledger.postgres soleRouter fun _ => none).step (Ledger.boot 0 [])
      (twoRequests hiRequest)).any (fun s => tokensSince s.rows "app" 0 = 10) = true := by
    decide +kernel
  obtain ⟨s, hs, hdecided⟩ := (Option.any_eq_true _ _).mp hrun
  obtain ⟨s₂, hs₂, htokens⟩ := (Option.any_eq_true _ _).mp hrun₂
  obtain ⟨hcallers, hroom, hbuffer, hflight, hrows⟩ := of_decide_eq_true hdecided
  have hnone := List.isEmpty_iff.mp hrows
  refine ⟨s, s₂, hs, hs₂, rfl, hcallers, ⟨List.isEmpty_iff.mp hroom, List.isEmpty_iff.mp hbuffer,
    List.isEmpty_iff.mp hflight⟩, fun hall => ?_, by rw [hnone]; rfl, of_decide_eq_true htokens⟩
  -- the table is empty, the two records are not there
  have hlength := hall.length_eq
  have htwo : s.queue.enqueued.length = 2 := by
    simpa using congrArg List.length hcallers
  rw [hnone] at hlength
  simp [htwo] at hlength

/-- With a lone surrogate there, it is the request of `web` that ends in a 500, without a record. -/
example : (Runs.run (Ledger.postgres soleRouter fun _ => none).step (Ledger.boot 0 [])
    (twoRequests (tracedRequest ⟨[.surrogate 0]⟩ (by decide)))).map (fun s =>
      (s.requests.map fun r => r.chat.statusCode?, s.rows.map fun row => row.record.caller)) =
    some ([some 500, some 200], ["app"]) := by
  decide +kernel

end Librouter
