/-
# `/v1/usage`: what a caller is told of its own use

`usage_summary` counts and sums the rows of the `requests` table by caller, provider and model, and
`v1_usage` asks it for the caller the API key belongs to, whatever the query parameter says.
Between the requests and the rows lie the queue, which may drop records, and a database that may
refuse batches, so the answer is not always what the vendors were paid for.

`usage_reconciles` says what it is in every run of the ledger: the rows the table began with and
the records that have been written, to half a millionth of a dollar for each of them; with the
records that are not written it makes up everything that was enqueued; it agrees with the query of
the daily cap; and it only grows.

The two counts of a row are integers of four bytes, and so is their sum: a query over a row whose
counts make up 2^31 tokens raises, and there is no report.  `usageSummary` is the report of a query
that does not raise.
-/
import Librouter.App.DailyCap
import Librouter.Foundations.Grouping

namespace Librouter

/-! ## 1. The query -/

/-- An item of the summary. -/
structure UsageItem where
  caller : String
  provider : String
  model : String
  attempts : ℕ
  tokens : ℕ
  costUsd : ℚ
deriving DecidableEq

/-- The order of texts in the database, a matter of its collation. -/
structure Collation where
  le : String → String → Bool
  total : ∀ a b, (le a b || le b a) = true
  trans : ∀ a b c, le a b = true → le b c = true → le a c = true
  antisymm : ∀ a b, le a b = true → le b a = true → a = b

/-- By code points. -/
def Collation.codePoints : Collation where
  le a b := decide (a ≤ b)
  total a b := by simpa using le_total a b
  trans a b c hab hbc := by
    rw [decide_eq_true_eq] at hab hbc ⊢
    exact hab.trans hbc
  antisymm a b hab hba := le_antisymm (of_decide_eq_true hab) (of_decide_eq_true hba)

/-- Two texts, and what decides if they are equal. -/
def Collation.lex (collation : Collation) (a b : String) (rest : Bool) : Bool :=
  if a = b then rest else collation.le a b

/-- `ORDER BY caller, provider, model`. -/
def Collation.itemLe (collation : Collation) (a b : UsageItem) : Bool :=
  collation.lex a.caller b.caller <| collation.lex a.provider b.provider <|
    collation.le a.model b.model

/-- `GROUP BY caller, provider, model`. -/
def RequestRow.usageKey (row : RequestRow) : String ×ₗ String ×ₗ String :=
  toLex (row.record.caller, toLex (row.record.provider, row.record.model))

/-- The selected columns of a group. -/
def usageItem (e : (String ×ₗ String ×ₗ String) × List RequestRow) : UsageItem where
  caller := (ofLex e.1).1
  provider := (ofLex (ofLex e.1).2).1
  model := (ofLex (ofLex e.1).2).2
  attempts := e.2.length
  tokens := (e.2.map fun row => row.record.tokens).sum
  costUsd := (e.2.map RequestRow.costUsd).sum

/-- The `WHERE` clause. -/
def RequestRow.selected (caller : Option String) (since : Option ℚ) (row : RequestRow) : Bool :=
  caller.all (fun name => row.record.caller = name) && since.all (fun t => t ≤ row.ts)

/-- The rows of the answer, in whatever order the groups come. -/
def usageItems (rows : List RequestRow) (caller : Option String) (since : Option ℚ) :
    List UsageItem :=
  (Table.groupBy RequestRow.usageKey (rows.filter (RequestRow.selected caller since))).rows.map
    usageItem

/-- `usage_summary`. -/
def usageSummary (collation : Collation) (rows : List RequestRow) (caller : Option String)
    (since : Option ℚ) : List UsageItem :=
  (usageItems rows caller since).mergeSort collation.itemLe

/-- What `v1_usage` replies. -/
inductive UsageReply
  | items (summary : List UsageItem)
  | httpException (statusCode : ℕ) (detail : Json)

/-- `v1_usage`: the caller that was resolved, and the query parameter. -/
def v1Usage (collation : Collation) (resolved : Option Caller) (_caller : Option String)
    (rows : List RequestRow) : UsageReply :=
  match resolved with
  | none =>
    .httpException 401
      (.obj [("type", .str "auth"), ("message", .str "invalid or missing API key")])
  | some caller => .items (usageSummary collation rows (some caller.name) none)

/-! ## 2. What an item is -/

theorem abs_roundNumeric_sub_le (places : ℕ) (x : ℚ) :
    |roundNumeric places x - x| ≤ 1 / (2 * 10 ^ places) := by
  have hpos : (0 : ℚ) < 10 ^ places := by positivity
  have hscale : ∀ n : ℤ, |(n : ℚ) - x * 10 ^ places| ≤ 1 / 2 →
      |(n : ℚ) / 10 ^ places - x| ≤ 1 / (2 * 10 ^ places) := by
    intro n hn
    have heq : (n : ℚ) / 10 ^ places - x = ((n : ℚ) - x * 10 ^ places) / 10 ^ places := by
      field_simp
    rw [heq, abs_div, abs_of_pos hpos, div_le_div_iff₀ hpos (by positivity)]
    calc |(n : ℚ) - x * 10 ^ places| * (2 * 10 ^ places)
        ≤ 1 / 2 * (2 * 10 ^ places) := by gcongr
      _ = 1 * 10 ^ places := by ring
  unfold roundNumeric
  split
  · refine hscale _ (abs_le.mpr ⟨?_, ?_⟩)
    · have hlt := Int.lt_floor_add_one (x * 10 ^ places + 1 / 2)
      linarith
    · have hle := Int.floor_le (x * 10 ^ places + 1 / 2)
      linarith
  · refine hscale _ (abs_le.mpr ⟨?_, ?_⟩)
    · have hle := Int.le_ceil (x * 10 ^ places - 1 / 2)
      linarith
    · have hlt := Int.ceil_lt_add_one (x * 10 ^ places - 1 / 2)
      linarith

/-- The costs in the table differ from those of the records by half a millionth each. -/
theorem abs_sum_costUsd_sub_le (rows : List RequestRow) :
    |(rows.map RequestRow.costUsd).sum - (rows.map fun row => row.record.costUsd).sum| ≤
      rows.length / 2000000 := by
  induction rows with
  | nil => simp
  | cons row rows ih =>
    have hrow := abs_roundNumeric_sub_le 6 row.record.costUsd
    have hsplit : ((row :: rows).map RequestRow.costUsd).sum
          - ((row :: rows).map fun row => row.record.costUsd).sum
        = (roundNumeric 6 row.record.costUsd - row.record.costUsd)
          + ((rows.map RequestRow.costUsd).sum
            - (rows.map fun row => row.record.costUsd).sum) := by
      simp only [List.map_cons, List.sum_cons, RequestRow.costUsd]
      ring
    rw [hsplit, List.length_cons]
    refine (abs_add_le _ _).trans ?_
    push_cast
    linarith

/-- The records of a caller that went to this model. -/
def usageRecords (recs : List AttemptRecord) (name provider model : String) : List AttemptRecord :=
  recs.filter fun rec => rec.caller = name ∧ rec.provider = provider ∧ rec.model = model

/-- The rows of a group. -/
def usageRows (rows : List RequestRow) (name provider model : String) : List RequestRow :=
  rows.filter fun row =>
    row.record.caller = name ∧ row.record.provider = provider ∧ row.record.model = model

theorem map_record_usageRows (rows : List RequestRow) (name provider model : String) :
    (usageRows rows name provider model).map RequestRow.record =
      usageRecords (rows.map RequestRow.record) name provider model := by
  rw [usageRows, usageRecords, List.filter_map]
  rfl

theorem usageKey_eq_iff {row : RequestRow} {k : String ×ₗ String ×ₗ String} : row.usageKey = k ↔
    row.record.caller = (ofLex k).1 ∧ row.record.provider = (ofLex (ofLex k).2).1 ∧
      row.record.model = (ofLex (ofLex k).2).2 := by
  constructor
  · rintro rfl
    exact ⟨rfl, rfl, rfl⟩
  · rintro ⟨hcaller, hprovider, hmodel⟩
    rw [RequestRow.usageKey, hcaller, hprovider, hmodel]
    rfl

/-- The rows of a group of one caller's. -/
theorem filter_usageKey (rows : List RequestRow) (name : String) {k : String ×ₗ String ×ₗ String}
    (hname : (ofLex k).1 = name) :
    (rows.filter (RequestRow.selected (some name) none)).filter (fun row => row.usageKey = k) =
      usageRows rows name (ofLex (ofLex k).2).1 (ofLex (ofLex k).2).2 := by
  rw [List.filter_filter, usageRows]
  refine List.filter_congr fun row _ => ?_
  simp only [RequestRow.selected, usageKey_eq_iff, hname, Option.all_some, Option.all_none,
    Bool.and_true, ← Bool.decide_and, decide_eq_decide]
  tauto

/-- **An item is its group**: the caller's rows for the provider and the model. -/
theorem mem_usageItems {rows : List RequestRow} {name : String} {item : UsageItem}
    (h : item ∈ usageItems rows (some name) none) :
    item.caller = name ∧ usageRows rows name item.provider item.model ≠ [] ∧
      item.attempts = (usageRows rows name item.provider item.model).length ∧
      item.tokens =
        ((usageRows rows name item.provider item.model).map fun row => row.record.tokens).sum ∧
      item.costUsd =
        ((usageRows rows name item.provider item.model).map RequestRow.costUsd).sum := by
  obtain ⟨⟨k, group⟩, hmem, rfl⟩ := List.mem_map.mp h
  obtain ⟨hne, hgroup⟩ := (Table.mem_groupBy _).mp hmem
  have hname : (ofLex k).1 = name := by
    obtain ⟨row, hrow⟩ := List.exists_mem_of_ne_nil group hne
    rw [hgroup] at hrow
    obtain ⟨hselected, hkey⟩ := List.mem_filter.mp hrow
    have hcaller := (usageKey_eq_iff.mp (of_decide_eq_true hkey)).1
    have hsame := (List.mem_filter.mp hselected).2
    simp only [RequestRow.selected, Option.all_some, Option.all_none, Bool.and_true,
      decide_eq_true_eq] at hsame
    exact hcaller.symm.trans hsame
  rw [filter_usageKey rows name hname] at hgroup
  subst hgroup
  exact ⟨hname, hne, rfl, rfl, rfl⟩

theorem mem_usageSummary {collation : Collation} {rows : List RequestRow} {name : String}
    {item : UsageItem} (h : item ∈ usageSummary collation rows (some name) none) :
    item.caller = name ∧ usageRows rows name item.provider item.model ≠ [] ∧
      item.attempts = (usageRows rows name item.provider item.model).length ∧
      item.tokens =
        ((usageRows rows name item.provider item.model).map fun row => row.record.tokens).sum ∧
      item.costUsd =
        ((usageRows rows name item.provider item.model).map RequestRow.costUsd).sum :=
  mem_usageItems (List.mem_mergeSort.mp h)

/-- There is an item for each provider and model with a row. -/
theorem exists_mem_usageSummary (collation : Collation) {rows : List RequestRow}
    {name provider model : String} (h : usageRows rows name provider model ≠ []) :
    ∃ item ∈ usageSummary collation rows (some name) none,
      item.provider = provider ∧ item.model = model := by
  have hgroup := filter_usageKey rows name (k := toLex (name, toLex (provider, model))) rfl
  refine ⟨_, List.mem_mergeSort.mpr
    (List.mem_map_of_mem ((Table.mem_groupBy _).mpr ⟨?_, hgroup.symm⟩)), rfl, rfl⟩
  exact h

/-- No two items are of the same model. -/
theorem pairwise_usageItems (rows : List RequestRow) (name : String) :
    (usageItems rows (some name) none).Pairwise fun a b =>
      (a.provider, a.model) ≠ (b.provider, b.model) := by
  refine List.pairwise_map.mpr ((Table.sorted _).imp_of_mem fun {e e'} he he' hlt hsame => ?_)
  have hitem : ∀ e ∈ (Table.groupBy RequestRow.usageKey
      (rows.filter (RequestRow.selected (some name) none))).rows, (ofLex e.1).1 = name :=
    fun e he => (mem_usageItems (List.mem_map_of_mem he)).1
  obtain ⟨hprovider, hmodel⟩ := Prod.mk.inj hsame
  have hkey : e.1 = e'.1 := by
    refine Prod.ext ((hitem e he).trans (hitem e' he').symm) (Prod.ext hprovider hmodel)
  exact absurd (hkey ▸ hlt) (lt_irrefl _)

namespace Collation

variable (collation : Collation)

theorem lex_total (a b : String) {p q : Bool} (h : (p || q) = true) :
    (collation.lex a b p || collation.lex b a q) = true := by
  unfold lex
  by_cases hab : a = b
  · rwa [if_pos hab, if_pos hab.symm]
  · rw [if_neg hab, if_neg (Ne.symm hab)]
    exact collation.total a b

theorem lex_trans {a b c : String} {p q r : Bool} (h : p = true → q = true → r = true)
    (hab : collation.lex a b p = true) (hbc : collation.lex b c q = true) :
    collation.lex a c r = true := by
  unfold lex at hab hbc ⊢
  by_cases hsame : a = b
  · subst hsame
    rw [if_pos rfl] at hab
    by_cases hac : a = c
    · rw [if_pos hac] at hbc ⊢
      exact h hab hbc
    · rwa [if_neg hac] at hbc ⊢
  · rw [if_neg hsame] at hab
    by_cases hbc' : b = c
    · subst hbc'
      rwa [if_neg hsame]
    · rw [if_neg hbc'] at hbc
      by_cases hac : a = c
      · subst hac
        exact absurd (collation.antisymm a b hab hbc) hsame
      · rw [if_neg hac]
        exact collation.trans a b c hab hbc

theorem itemLe_total (a b : UsageItem) : (collation.itemLe a b || collation.itemLe b a) = true :=
  collation.lex_total _ _ (collation.lex_total _ _ (collation.total _ _))

theorem itemLe_trans (a b c : UsageItem) (hab : collation.itemLe a b = true)
    (hbc : collation.itemLe b c = true) : collation.itemLe a c = true :=
  collation.lex_trans (collation.lex_trans (collation.trans _ _ _)) hab hbc

end Collation

/-- The items come in the order of provider and model, each once. -/
theorem pairwise_usageSummary (collation : Collation) (rows : List RequestRow) (name : String) :
    (usageSummary collation rows (some name) none).Pairwise fun a b =>
      collation.itemLe a b = true ∧ (a.provider, a.model) ≠ (b.provider, b.model) := by
  have hordered := List.pairwise_mergeSort collation.itemLe_trans collation.itemLe_total
    (usageItems rows (some name) none)
  have hdistinct := ((List.mergeSort_perm _ collation.itemLe).pairwise_iff
    fun {a b} (h : (a.provider, a.model) ≠ (b.provider, b.model)) => h.symm).mpr
      (pairwise_usageItems rows name)
  exact hordered.and hdistinct

/-- The tokens of the items together. -/
theorem sum_tokens_usageSummary (collation : Collation) (rows : List RequestRow) (name : String)
    (since : Option ℚ) :
    ((usageSummary collation rows (some name) since).map UsageItem.tokens).sum =
      callerTokens name
        ((rows.filter fun row => since.all fun t => t ≤ row.ts).map RequestRow.record) := by
  have hsum := Table.sum_groupBy RequestRow.usageKey (fun row => row.record.tokens)
    (rows.filter (RequestRow.selected (some name) since))
  rw [usageSummary, ((List.mergeSort_perm _ _).map UsageItem.tokens).sum_eq, usageItems,
    List.map_map]
  rw [Table.values, List.map_map] at hsum
  refine Eq.trans hsum ?_
  rw [callerTokens, List.filter_map, List.map_map, List.filter_filter]
  refine congrArg List.sum (congrArg (List.map _) (List.filter_congr fun row _ => ?_))
  rfl

/-! ## 3. Rows and records -/

/-- What the table has is what it began with and what the queue has written; and what has been
served is charged. -/
structure LedgerState.Filed (rows₀ : List RequestRow) (s : LedgerState) : Prop where
  queue : s.queue.Sound 10000
  rows : ∃ new, s.rows = rows₀ ++ new ∧ new.map RequestRow.record = s.queue.written
  served : ∀ name, ((s.served.filter fun x => x.caller = name).map ServedResponse.tokens).sum ≤
    callerTokens name s.queue.enqueued

theorem Ledger.filed_boot (start : ℚ) (rows : List RequestRow) :
    (Ledger.boot start rows).Filed rows where
  queue := DrainState.sound_of_run (by norm_num) (Runs.run_nil (DrainState.init 10000 200))
  rows := ⟨[], (List.append_nil _).symm, rfl⟩
  served _ := Nat.zero_le _

theorem LedgerState.Filed.step {ledger : Ledger} {rows₀ : List RequestRow} {s s' : LedgerState}
    {now : ℚ} {action : LedgerAction} (h : s.Filed rows₀) (hmoves : s.Moves ledger now action s') :
    s'.Filed rows₀ := by
  have hqueue := hmoves.queue h.queue
  obtain ⟨new, hrows, hnew⟩ := h.rows
  cases hmoves with
  | arrive | sum => exact ⟨hqueue, ⟨new, hrows, hnew⟩, h.served⟩
  | @chat i r event chat hr hpermits hchat =>
    obtain ⟨henqueued, hwritten, -⟩ :=
      s.queue.enqueueAll_history (chat.enqueued.drop r.chat.enqueued.length)
    refine ⟨hqueue, ⟨new, hrows, hnew.trans hwritten.symm⟩, fun name => ?_⟩
    have hserved := h.served name
    have hcharged : (((newServed now r.chat chat).filter fun x => x.caller = name).map
        ServedResponse.tokens).sum ≤
          callerTokens name (chat.enqueued.drop r.chat.enqueued.length) := by
      rcases newServed_cases now hchat with hnone | ⟨t, x, -, -, -, hx, -, hcaller, htokens⟩
      · rw [hnone]
        exact Nat.zero_le _
      · rw [hx]
        by_cases hname : x.caller = name
        · rw [← hcaller, hname] at htokens
          simpa [hname] using htokens
        · simp [hname]
    rw [henqueued, callerTokens_append, List.filter_append, List.map_append, List.sum_append]
    omega
  | @drain event queue henqueue hsettled hstep =>
    obtain ⟨henqueued, hwritten, -⟩ := DrainState.history_step henqueue hsettled hstep
    exact ⟨hqueue, ⟨new, hrows, hnew.trans hwritten.symm⟩, fun name => henqueued ▸ h.served name⟩
  | @write who queue hall hstep =>
    obtain ⟨henqueued, hwritten, -⟩ := DrainState.history_written hstep
    refine ⟨hqueue, ⟨new ++ (s.queue.batch who).map fun rec => ⟨now, rec⟩, ?_, ?_⟩,
      fun name => henqueued ▸ h.served name⟩
    · rw [hrows, List.append_assoc]
    · rw [List.map_append, List.map_map, hnew, hwritten]
      exact congrArg _ (List.map_id _)
  | @refuse who queue hall hstep =>
    obtain ⟨henqueued, hwritten, -⟩ := DrainState.history_refused hstep
    exact ⟨hqueue, ⟨new, hrows, hnew.trans hwritten.symm⟩, fun name => henqueued ▸ h.served name⟩

theorem LedgerState.Filed.run {ledger : Ledger} {rows₀ : List RequestRow} {s s' : LedgerState}
    {es : List LedgerEvent} (h : s.Filed rows₀) (hrun : Runs.run ledger.step s es = some s') :
    s'.Filed rows₀ :=
  Runs.invariant (fun _ s => s.Filed rows₀) h
    (fun _ _ _ _ hi hstep => hi.step (Ledger.moves_of_step hstep).2) hrun

/-! ## 4. What a caller is told -/

/-- The summary of a caller, against the history: `rows₀` is what the table began with. -/
structure UsageTruth (collation : Collation) (rows₀ : List RequestRow) (s : LedgerState)
    (name : String) (summary : List UsageItem) : Prop where
  own : ∀ item ∈ summary, item.caller = name
  ordered : summary.Pairwise fun a b =>
    collation.itemLe a b = true ∧ (a.provider, a.model) ≠ (b.provider, b.model)
  /-- an item for every model that has been charged for, and for no other -/
  listed : ∀ provider model, (∃ item ∈ summary, item.provider = provider ∧ item.model = model) ↔
    usageRecords (rows₀.map RequestRow.record ++ s.queue.written) name provider model ≠ []
  attempts : ∀ item ∈ summary, item.attempts = (usageRecords
    (rows₀.map RequestRow.record ++ s.queue.written) name item.provider item.model).length
  tokens : ∀ item ∈ summary, item.tokens = ((usageRecords
    (rows₀.map RequestRow.record ++ s.queue.written) name item.provider item.model).map
      AttemptRecord.tokens).sum
  cost : ∀ item ∈ summary, |item.costUsd - ((usageRecords
    (rows₀.map RequestRow.record ++ s.queue.written) name item.provider item.model).map
      AttemptRecord.costUsd).sum| ≤ item.attempts / 2000000
  /-- what is missing of the enqueued records is in the queue, or was dropped -/
  complete : (summary.map UsageItem.tokens).sum + callerTokens name s.queue.unwritten =
    callerTokens name (rows₀.map RequestRow.record) + callerTokens name s.queue.enqueued

theorem LedgerState.Filed.map_record {rows₀ : List RequestRow} {s : LedgerState}
    (h : s.Filed rows₀) : s.rows.map RequestRow.record =
      rows₀.map RequestRow.record ++ s.queue.written := by
  obtain ⟨new, hrows, hnew⟩ := h.rows
  rw [hrows, List.map_append, hnew]

theorem LedgerState.Filed.usageTruth {rows₀ : List RequestRow} {s : LedgerState}
    (h : s.Filed rows₀) (collation : Collation) (name : String) :
    UsageTruth collation rows₀ s name (usageSummary collation s.rows (some name) none) where
  own item hitem := (mem_usageSummary hitem).1
  ordered := pairwise_usageSummary collation s.rows name
  listed provider model := by
    rw [← h.map_record, ← map_record_usageRows, Ne, List.map_eq_nil_iff]
    constructor
    · rintro ⟨item, hitem, rfl, rfl⟩
      exact (mem_usageSummary hitem).2.1
    · exact exists_mem_usageSummary collation
  attempts item hitem := by
    rw [← h.map_record, ← map_record_usageRows, List.length_map]
    exact (mem_usageSummary hitem).2.2.1
  tokens item hitem := by
    rw [← h.map_record, ← map_record_usageRows, List.map_map]
    exact (mem_usageSummary hitem).2.2.2.1
  cost item hitem := by
    obtain ⟨-, -, hattempts, -, hcost⟩ := mem_usageSummary hitem
    rw [← h.map_record, ← map_record_usageRows, List.map_map, hcost, hattempts]
    exact abs_sum_costUsd_sub_le _
  complete := by
    have hperm := callerTokens_perm name h.queue.conserved.perm
    have hall : (s.rows.filter fun row => (none : Option ℚ).all fun t => t ≤ row.ts) = s.rows :=
      List.filter_eq_self.mpr fun _ _ => rfl
    rw [sum_tokens_usageSummary, hall, h.map_record, callerTokens_append, hperm,
      callerTokens_append]
    omega

/-- The items only grow. -/
theorem usageSummary_mono {collation : Collation} {rows new : List RequestRow} {name : String}
    {item : UsageItem} (h : item ∈ usageSummary collation rows (some name) none) :
    ∃ item' ∈ usageSummary collation (rows ++ new) (some name) none,
      item'.provider = item.provider ∧ item'.model = item.model ∧
        item.attempts ≤ item'.attempts ∧ item.tokens ≤ item'.tokens := by
  obtain ⟨-, hne, hattempts, htokens, -⟩ := mem_usageSummary h
  have happend : usageRows (rows ++ new) name item.provider item.model =
      usageRows rows name item.provider item.model ++
        usageRows new name item.provider item.model := List.filter_append _ _
  have hne' : usageRows (rows ++ new) name item.provider item.model ≠ [] := by
    rw [happend]
    exact fun hnil => hne (List.append_eq_nil_iff.mp hnil).1
  obtain ⟨item', hitem', hprovider, hmodel⟩ := exists_mem_usageSummary collation hne'
  obtain ⟨-, -, hattempts', htokens', -⟩ := mem_usageSummary hitem'
  refine ⟨item', hitem', hprovider, hmodel, ?_, ?_⟩
  · rw [hattempts, hattempts', hprovider, hmodel, happend, List.length_append]
    omega
  · rw [htokens, htokens', hprovider, hmodel, happend, List.map_append, List.sum_append]
    omega

/-- Rows are never changed or deleted. -/
theorem Ledger.rows_of_run {ledger : Ledger} {s s' : LedgerState} {es : List LedgerEvent}
    (hrun : Runs.run ledger.step s es = some s') : ∃ new, s'.rows = s.rows ++ new := by
  refine Runs.invariant (fun _ x => ∃ new, x.rows = s.rows ++ new) ⟨[], (List.append_nil _).symm⟩
    (fun _ x e x' hx hstep => ?_) hrun
  obtain ⟨new, hnew⟩ := hx
  obtain ⟨now, action⟩ := e
  obtain ⟨-, hmoves⟩ := Ledger.moves_of_step hstep
  cases hmoves with
  | arrive | sum | chat | drain | refuse => exact ⟨new, hnew⟩
  | @write who =>
    refine ⟨new ++ (x.queue.batch who).map fun rec => ⟨now, rec⟩, ?_⟩
    rw [← List.append_assoc, ← hnew]

/-- **The usage report reconciles.**  In every run of any number of requests, the queue and the
database, `/v1/usage` lists for the caller of the API key, whatever the query parameter: each of its
models once, in the order of the database, with the attempts and tokens of the records in the table
and their cost to half a millionth each.  With the records that are not in the table these are all
the records of the caller, and at least what its responses reported to it.  The query of the daily
cap sees the same tokens, and an item only grows in what follows. -/
theorem usage_reconciles (ledger : Ledger) (collation : Collation) {start : ℚ}
    {rows₀ : List RequestRow} {es : List LedgerEvent} {s : LedgerState}
    (hrun : Runs.run ledger.step (Ledger.boot start rows₀) es = some s) (caller : Caller)
    (param : Option String) :
    ∃ summary, v1Usage collation (some caller) param s.rows = .items summary ∧
      UsageTruth collation rows₀ s caller.name summary ∧
      ((s.served.filter fun x => x.caller = caller.name).map ServedResponse.tokens).sum +
          callerTokens caller.name (rows₀.map RequestRow.record) ≤
        (summary.map UsageItem.tokens).sum + callerTokens caller.name s.queue.unwritten ∧
      (∀ since, ((usageSummary collation s.rows (some caller.name) (some since)).map
        UsageItem.tokens).sum = tokensSince s.rows caller.name since) ∧
      ∀ es' s', Runs.run ledger.step s es' = some s' →
        ∃ summary', v1Usage collation (some caller) param s'.rows = .items summary' ∧
          ∀ item ∈ summary, ∃ item' ∈ summary', item'.provider = item.provider ∧
            item'.model = item.model ∧ item.attempts ≤ item'.attempts ∧
            item.tokens ≤ item'.tokens := by
  have hfiled := (Ledger.filed_boot start rows₀).run hrun
  have htruth := hfiled.usageTruth collation caller.name
  refine ⟨_, rfl, htruth, ?_, fun since => ?_, fun es' s' hrun' => ?_⟩
  · have hserved := hfiled.served caller.name
    have hcomplete := htruth.complete
    omega
  · exact sum_tokens_usageSummary collation s.rows caller.name (some since)
  · obtain ⟨new, hnew⟩ := Ledger.rows_of_run hrun'
    refine ⟨_, rfl, fun item hitem => ?_⟩
    rw [hnew]
    exact usageSummary_mono hitem

/-- A request is answered, and its record is written. -/
def filedEvents : List LedgerEvent :=
  soleEvents ++ [⟨1, .drain .start⟩, ⟨1, .drain .check⟩, ⟨2, .drain .wake⟩, ⟨2, .write .loop⟩]

/-- The law, on that run: one attempt with ten tokens, and nothing is missing. -/
theorem usage_reconciles_filedEvents :
    ∃ s, Runs.run cappedLedger.step (Ledger.boot 0 []) filedEvents = some s ∧
      v1Usage .codePoints (some cappedCaller) (some "batch") s.rows =
        .items [⟨"web", "openai", "gpt-4o-mini", 1, 10, 0⟩] ∧
      UsageTruth .codePoints [] s "web" [⟨"web", "openai", "gpt-4o-mini", 1, 10, 0⟩] := by
  have hrun : (Runs.run cappedLedger.step (Ledger.boot 0 []) filedEvents).any (fun s =>
      usageSummary .codePoints s.rows (some "web") none =
        [⟨"web", "openai", "gpt-4o-mini", 1, 10, 0⟩]) = true := by
    decide +kernel
  obtain ⟨s, hs, hsummary⟩ := (Option.any_eq_true _ _).mp hrun
  obtain ⟨summary, hitems, htruth, -⟩ :=
    usage_reconciles cappedLedger .codePoints hs cappedCaller (some "batch")
  have heq : v1Usage .codePoints (some cappedCaller) (some "batch") s.rows =
      .items [⟨"web", "openai", "gpt-4o-mini", 1, 10, 0⟩] :=
    congrArg UsageReply.items (of_decide_eq_true hsummary)
  obtain rfl := UsageReply.items.inj (hitems.symm.trans heq)
  exact ⟨s, hs, heq, htruth⟩

end Librouter
