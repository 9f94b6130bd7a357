import Mathlib
import AiosDeck.Telemetry.Queries

/-!
# Totals of the recorded usage

The report of the usage adds the same rows up three times: in all, by agent and by
model. A total that a row lacks is made up for twice, by the recorder when both parts
are nonzero, and by the report when no total is recorded at all; between the two lie
the rows that no sum of totals counts.
-/

namespace AiosDeck.Telemetry

open Python Storage

/-- The record of a usage, with this total. -/
def persistedUsage (env : StoreEnv) (usage payload : Record) (total : PyVal) : Record :=
  [("execution_id", (payload.lookup "execution_id").getD (.str [])),
    ("agent", (payload.lookup "agent").getD (.str [])),
    ("model", (usage.lookup "model").getD (.str [])),
    ("provider", (usage.lookup "provider").getD (.str [])),
    ("input_tokens", usage.get "input_tokens"), ("output_tokens", usage.get "output_tokens"),
    ("total_tokens", total), ("cached_tokens", usage.get "cached_tokens"),
    ("reasoning_tokens", usage.get "reasoning_tokens"),
    ("context_tokens", usage.get "context_tokens"), ("provider_raw", usage.get "provider_raw"),
    ("timestamp", (usage.lookup "timestamp").getD (.str env.now))]

/-- `_persist_usage`, without the writer. -/
def persistUsage (env : StoreEnv) (usage payload : Record) : Except PyExc Record := do
  let total := usage.get "total_tokens"
  let input := usage.get "input_tokens"
  let output := usage.get "output_tokens"
  if ← total.truth then
    return persistedUsage env usage payload total
  else if ← input.truth then
    if ← output.truth then
      return persistedUsage env usage payload (← addNum input output)
    else return persistedUsage env usage payload total
  else return persistedUsage env usage payload total

/-- The three quantities that are added up. -/
inductive Quantity where
  | input
  | output
  | total
  deriving DecidableEq, Repr

namespace Quantity

/-- The column of a row. -/
def column : Quantity → String
  | input => "input_tokens"
  | output => "output_tokens"
  | total => "total_tokens"

/-- The field of an entry. -/
def ofBucket : Quantity → Bucket → PyVal
  | input => Bucket.inputTokens
  | output => Bucket.outputTokens
  | total => Bucket.totalTokens

/-- The field of `totals`. -/
def ofReport : Quantity → UsageReport → PyVal
  | input => UsageReport.inputTokens
  | output => UsageReport.outputTokens
  | total => UsageReport.totalTokens

end Quantity

/-- The count of a row, zero where it lacks one. -/
def tokens (q : Quantity) (row : Row) : ℤ :=
  match row.get q.column with
  | .integer n => n
  | _ => 0

/-- Each count of the row is an integer or lacking. -/
def Counted (row : Row) : Prop :=
  ∀ q : Quantity, row.get q.column = .null ∨ ∃ n, row.get q.column = .integer n

/-- A row without a total whose parts are known. -/
def Untotalled (row : Row) : Prop :=
  tokens .total row = 0 ∧ row.get "input_tokens" ≠ .null ∧ row.get "output_tokens" ≠ .null

instance (row : Row) : Decidable (Untotalled row) := inferInstanceAs (Decidable (_ ∧ _ ∧ _))

/-- What a row counts: its total, or else the sum of its parts when both are known. -/
def contribution (row : Row) : ℤ :=
  if Untotalled row then tokens .input row + tokens .output row else tokens .total row

/-- The sum over entries. -/
def entriesSum (q : Quantity) (entries : List (SqlValue × Bucket)) : Except PyExc PyVal :=
  entries.foldlM (fun total entry => addNum total (q.ofBucket entry.2)) (.int 0)

/-- The totals are the sums over both lists of entries, and the total of the tokens
counts every row whose parts are known. -/
structure Faithful (rows : List Row) (report : UsageReport) : Prop where
  byAgent : ∀ q, entriesSum q report.byAgent = .ok (q.ofReport report)
  byModel : ∀ q, entriesSum q report.byModel = .ok (q.ofReport report)
  known : report.totalTokens = .int (rows.map contribution).sum

/-- The sum of a count over rows. -/
def sumTokens (q : Quantity) (rows : List Row) : ℤ := (rows.map (tokens q)).sum

/-- Some total is recorded unless there are no tokens at all, and the rows without a
total, whose parts are known, have no tokens. -/
structure Totalled (rows : List Row) : Prop where
  recorded : sumTokens .total rows = 0 → sumTokens .input rows + sumTokens .output rows = 0
  complete : ((rows.filter (Untotalled ·)).map fun row =>
    tokens .input row + tokens .output row).sum = 0

variable {rows : List Row} {row : Row} {q : Quantity}

section Counts

theorem orElse_int (m n : ℤ) : orElse (.int m) (.int n) = .ok (.int (if m = 0 then n else m)) := by
  change Except.ok (if decide (m ≠ 0) = true then PyVal.int m else .int n) = _
  by_cases hzero : m = 0
  · rw [if_pos hzero, if_neg (by simp [hzero])]
  · rw [if_neg hzero, if_pos (decide_eq_true hzero)]

theorem orElse_tokens (h : Counted row) :
    orElse (ofSql (row.get q.column)) (.int 0) = .ok (.int (tokens q row)) := by
  unfold tokens
  rcases h q with hnull | ⟨n, hn⟩
  · rw [hnull]
    rfl
  · rw [hn]
    change orElse (.int n) (.int 0) = .ok (.int n)
    rw [orElse_int]
    by_cases hzero : n = 0
    · rw [if_pos hzero, hzero]
    · rw [if_neg hzero]

theorem addNum_int (m n : ℤ) : addNum (.int m) (.int n) = .ok (.int (m + n)) := rfl

/-- The sum of a column of counts. -/
theorem sumColumn_counted (h : ∀ row ∈ rows, Counted row) :
    sumColumn q.column (.int 0) rows = .ok (.int (sumTokens q rows)) := by
  have hfold : ∀ total : ℤ, rows.foldlM (fun total row => do
      addNum total (← orElse (ofSql (row.get q.column)) (.int 0))) (PyVal.int total) =
        .ok (.int (total + sumTokens q rows)) := by
    induction rows with
    | nil =>
      intro total
      simp [sumTokens, pure, Except.pure]
    | cons row rows ih =>
      intro total
      have hrow := @orElse_tokens row q (h row List.mem_cons_self)
      have hrest := ih (fun row hrow => h row (List.mem_cons_of_mem _ hrow)) (total + tokens q row)
      rw [List.foldlM_cons, hrow]
      change rows.foldlM _ (PyVal.int (total + tokens q row)) = _
      rw [hrest]
      simp [sumTokens, add_assoc]
  have hzero := hfold 0
  rw [zero_add] at hzero
  exact hzero

end Counts

section Entries

variable {bucket : Bucket} {entries : List (SqlValue × Bucket)} {column : String}

/-- The value of a quantity in an entry. -/
def Bucket.value (bucket : Bucket) (q : Quantity) : ℤ :=
  match q.ofBucket bucket with
  | .int n => n
  | _ => 0

/-- Every quantity of the entry is an integer. -/
def Bucket.Whole (bucket : Bucket) : Prop :=
  ∀ q : Quantity, q.ofBucket bucket = .int (bucket.value q)

theorem Bucket.empty_whole : Bucket.Whole {} := by
  intro q
  cases q with
  | input => rfl
  | output => rfl
  | total => rfl

/-- One row more adds its counts to an entry. -/
theorem Bucket.add_counted (hbucket : bucket.Whole) (h : Counted row) :
    ∃ next, bucket.add row = .ok next ∧ next.Whole ∧
      ∀ q, next.value q = bucket.value q + tokens q row := by
  refine ⟨{ inputTokens := .int (bucket.value .input + tokens .input row)
            outputTokens := .int (bucket.value .output + tokens .output row)
            totalTokens := .int (bucket.value .total + tokens .total row)
            count := bucket.count + 1 }, ?_, fun q => ?_, fun q => ?_⟩
  · have hinput : bucket.inputTokens = .int (bucket.value .input) := hbucket .input
    have houtput : bucket.outputTokens = .int (bucket.value .output) := hbucket .output
    have htotal : bucket.totalTokens = .int (bucket.value .total) := hbucket .total
    unfold Bucket.add
    rw [hinput, houtput, htotal, show "input_tokens" = Quantity.column .input from rfl,
      show "output_tokens" = Quantity.column .output from rfl,
      show "total_tokens" = Quantity.column .total from rfl, orElse_tokens h, orElse_tokens h,
      orElse_tokens h]
    rfl
  · cases q with
    | input => rfl
    | output => rfl
    | total => rfl
  · cases q with
    | input => rfl
    | output => rfl
    | total => rfl

theorem bucketKey_ok (column : String) (row : Row) : ∃ key, bucketKey column row = .ok key := by
  unfold bucketKey
  cases hvalue : row.get column with
  | null => exact ⟨_, rfl⟩
  | integer n => exact ⟨_, rfl⟩
  | real x => exact ⟨_, rfl⟩
  | text content => exact ⟨_, rfl⟩
  | blob content => exact ⟨_, rfl⟩

/-- The sum of a quantity over the entries. -/
def sumValues (q : Quantity) (entries : List (SqlValue × Bucket)) : ℤ :=
  (entries.map fun entry => entry.2.value q).sum

theorem entriesSum_whole (h : ∀ entry ∈ entries, entry.2.Whole) :
    entriesSum q entries = .ok (.int (sumValues q entries)) := by
  have hfold : ∀ total : ℤ, entries.foldlM (fun total entry => addNum total (q.ofBucket entry.2))
      (PyVal.int total) = .ok (.int (total + sumValues q entries)) := by
    induction entries with
    | nil =>
      intro total
      simp [sumValues, pure, Except.pure]
    | cons entry entries ih =>
      intro total
      have hrest := ih (fun entry hentry => h entry (List.mem_cons_of_mem _ hentry))
        (total + entry.2.value q)
      rw [List.foldlM_cons, h entry List.mem_cons_self q, addNum_int]
      change entries.foldlM _ (PyVal.int (total + entry.2.value q)) = _
      rw [hrest]
      simp [sumValues, add_assoc]
  have hzero := hfold 0
  rw [zero_add] at hzero
  exact hzero

/-- The entries hold integers, which add up to the counts of the rows so far. -/
structure Sorted (rows : List Row) (entries : List (SqlValue × Bucket)) : Prop where
  whole : ∀ entry ∈ entries, entry.2.Whole
  sums : ∀ q, sumValues q entries = sumTokens q rows

/-- One row more under its key. -/
def placeRow (key : SqlValue) (entries : List (SqlValue × Bucket)) (row : Row) :
    Except PyExc (List (SqlValue × Bucket)) := do
  match entries.findIdx? fun entry => decide (entry.1 = key) with
  | some i =>
    match entries[i]? with
    | some entry => return entries.set i (key, ← entry.2.add row)
    | none => return entries
  | none => return entries ++ [(key, ← Bucket.add {} row)]

theorem buckets_eq (column : String) (rows : List Row) :
    buckets column rows = rows.foldlM (fun entries row => do
      placeRow (← bucketKey column row) entries row) [] := rfl

/-- A row goes into one entry. -/
theorem placeRow_sorted (key : SqlValue) (h : Sorted rows entries) (hrow : Counted row) :
    ∃ next, placeRow key entries row = .ok next ∧ Sorted (rows ++ [row]) next := by
  have hsum : ∀ q, sumTokens q (rows ++ [row]) = sumTokens q rows + tokens q row := by
    intro q
    simp [sumTokens]
  unfold placeRow
  cases hfound : entries.findIdx? fun entry => decide (entry.1 = key) with
  | none =>
    obtain ⟨bucket, hadd, hwhole, hvalue⟩ := Bucket.add_counted Bucket.empty_whole hrow
    refine ⟨entries ++ [(key, bucket)], ?_, fun entry hentry => ?_, fun q => ?_⟩
    · dsimp only
      rw [hadd]
      rfl
    · rcases List.mem_append.mp hentry with hold | hnew
      · exact h.whole entry hold
      · rw [List.mem_singleton.mp hnew]
        exact hwhole
    · have hzero : Bucket.value {} q = 0 := by
        cases q with
        | input => rfl
        | output => rfl
        | total => rfl
      have hsums := h.sums q
      unfold sumValues at hsums ⊢
      rw [List.map_append, List.sum_append, hsums, hsum]
      simp [hvalue q, hzero]
  | some i =>
    have hlt : i < entries.length := List.findIdx?_eq_some_iff_getElem.mp hfound |>.1
    obtain ⟨bucket, hadd, hwhole, hvalue⟩ :=
      Bucket.add_counted (h.whole entries[i] (List.getElem_mem hlt)) hrow
    refine ⟨entries.set i (key, bucket), ?_, fun entry hentry => ?_, fun q => ?_⟩
    · dsimp only
      rw [List.getElem?_eq_getElem hlt]
      dsimp only
      rw [hadd]
      rfl
    · rcases List.mem_or_eq_of_mem_set hentry with hold | hnew
      · exact h.whole entry hold
      · rw [hnew]
        exact hwhole
    · have hsums := h.sums q
      unfold sumValues at hsums ⊢
      rw [List.map_set, List.sum_set', hsums, hsum]
      simp [hlt, hvalue q]

/-- The entries of counted rows add up to the sums over the rows. -/
theorem buckets_sorted (column : String) (h : ∀ row ∈ rows, Counted row) :
    ∃ entries, buckets column rows = .ok entries ∧ Sorted rows entries := by
  have hfold : ∀ (rest done : List Row) (entries : List (SqlValue × Bucket)),
      (∀ row ∈ rest, Counted row) → Sorted done entries →
      ∃ next, rest.foldlM (fun entries row => do
        placeRow (← bucketKey column row) entries row) entries = .ok next ∧
          Sorted (done ++ rest) next := by
    intro rest
    induction rest with
    | nil =>
      intro done entries _ hsorted
      rw [List.append_nil]
      exact ⟨entries, rfl, hsorted⟩
    | cons row rest ih =>
      intro done entries hrest hsorted
      obtain ⟨key, hkey⟩ := bucketKey_ok column row
      obtain ⟨next, hnext, hstep⟩ := placeRow_sorted key hsorted (hrest row List.mem_cons_self)
      obtain ⟨last, hlast, hall⟩ :=
        ih (done ++ [row]) next (fun row hrow => hrest row (List.mem_cons_of_mem _ hrow)) hstep
      refine ⟨last, ?_, ?_⟩
      · rw [List.foldlM_cons, hkey]
        change (placeRow key entries row >>= fun next => _) = _
        rw [hnext]
        exact hlast
      · rw [List.append_assoc] at hall
        exact hall
  rw [buckets_eq]
  exact hfold rows [] [] h ⟨fun entry hentry => absurd hentry List.not_mem_nil, fun _ => rfl⟩

end Entries

section Report

variable {numerics : Numerics} {projectId : Points} {db : Tables} {f : Filters} {limit : ℤ}
  {report : UsageReport}

theorem mem_of_newest {table stamp : String} {conditions : List Condition}
    (h : row ∈ newest projectId db table conditions stamp limit) : row ∈ db table := by
  have hselected : row ∈ select db table (ownedBy projectId :: conditions) := by
    unfold newest limited at h
    rw [← List.mem_mergeSort]
    split at h
    · exact h
    · exact List.mem_of_mem_take h
  exact List.mem_of_mem_filter hselected

/-- What a report says of counted rows. -/
structure Reports (rows : List Row) (report : UsageReport) : Prop where
  input : report.inputTokens = .int (sumTokens .input rows)
  output : report.outputTokens = .int (sumTokens .output rows)
  total : report.totalTokens = .int (if sumTokens .total rows = 0 then
    sumTokens .input rows + sumTokens .output rows else sumTokens .total rows)
  byAgent : Sorted rows report.byAgent
  byModel : Sorted rows report.byModel

/-- Of counted rows the report is made up but for the cost. -/
theorem aggregateUsage_eq (numerics : Numerics) (hused : usageRows projectId db f limit = rows)
    (hrows : ∀ row ∈ rows, Counted row) :
    ∃ byAgent byModel, Sorted rows byAgent ∧ Sorted rows byModel ∧
      aggregateUsage numerics projectId db f limit = (do
        let totalCost ← sumColumn "total_cost" (.float (.finite 0)) (costRows projectId db f limit)
        let totalCost ← roundFour numerics totalCost
        return { inputTokens := .int (sumTokens .input rows)
                 outputTokens := .int (sumTokens .output rows)
                 totalTokens := .int (if sumTokens .total rows = 0 then
                   sumTokens .input rows + sumTokens .output rows else sumTokens .total rows)
                 totalCost, byAgent, byModel
                 records := rows.map (toRecord USAGE_KEYS)
                 costRecords := (costRows projectId db f limit).map (toRecord COST_KEYS)
                 executions := queryExecutions projectId db f limit
                 totalRecords := countRows projectId db "telemetry_usage" (filterConditions f true)
                 totalExecutions :=
                   countRows projectId db "telemetry_executions" (filterConditions f false) }) := by
  obtain ⟨byAgent, hagent, hbyAgent⟩ := buckets_sorted "agent" hrows
  obtain ⟨byModel, hmodel, hbyModel⟩ := buckets_sorted "model" hrows
  refine ⟨byAgent, byModel, hbyAgent, hbyModel, ?_⟩
  unfold aggregateUsage
  dsimp only
  rw [hused, show "input_tokens" = Quantity.column .input from rfl,
    show "output_tokens" = Quantity.column .output from rfl,
    show "total_tokens" = Quantity.column .total from rfl, sumColumn_counted hrows,
    sumColumn_counted hrows, sumColumn_counted hrows, hagent, hmodel]
  simp only [bind, Except.bind, addNum_int, orElse_int]

theorem aggregateUsage_reports (hused : usageRows projectId db f limit = rows)
    (hrows : ∀ row ∈ rows, Counted row)
    (h : aggregateUsage numerics projectId db f limit = .ok report) : Reports rows report := by
  obtain ⟨byAgent, byModel, hbyAgent, hbyModel, hreport⟩ := aggregateUsage_eq numerics hused hrows
  rw [hreport] at h
  cases hcost : sumColumn "total_cost" (.float (.finite 0)) (costRows projectId db f limit) with
  | error exc =>
    rw [hcost] at h
    cases h
  | ok cost =>
    rw [hcost] at h
    cases hround : roundFour numerics cost with
    | error exc =>
      simp only [bind, Except.bind, hround] at h
      cases h
    | ok rounded =>
      simp only [bind, Except.bind, hround] at h
      cases h
      exact ⟨rfl, rfl, rfl, hbyAgent, hbyModel⟩

/-- What the rows count is their totals and the parts of the rows without one. -/
theorem sum_contribution (rows : List Row) :
    (rows.map contribution).sum = sumTokens .total rows +
      ((rows.filter (Untotalled ·)).map fun row => tokens .input row + tokens .output row).sum := by
  unfold sumTokens
  induction rows with
  | nil => rfl
  | cons row rows ih =>
    rw [List.map_cons, List.sum_cons, ih, List.map_cons, List.sum_cons]
    unfold contribution
    by_cases hrow : Untotalled row
    · have hzero : tokens .total row = 0 := hrow.1
      rw [if_pos hrow, List.filter_cons, if_pos (decide_eq_true hrow), List.map_cons, List.sum_cons,
        hzero]
      omega
    · rw [if_neg hrow, List.filter_cons, if_neg (by simpa using hrow)]
      omega

/-- The totals are faithful to the rows that they are computed from exactly when some
total is recorded, unless there are no tokens at all, and the rows without a total,
whose parts are known, have no tokens. -/
theorem aggregateUsage_faithful_iff (hcounted : ∀ row ∈ db "telemetry_usage", Counted row)
    (h : aggregateUsage numerics projectId db f limit = .ok report) :
    Faithful (usageRows projectId db f limit) report ↔
      Totalled (usageRows projectId db f limit) := by
  generalize hused : usageRows projectId db f limit = rows
  have hrows : ∀ row ∈ rows, Counted row :=
    fun row hrow => hcounted row (mem_of_newest (hused ▸ hrow))
  have hreports := aggregateUsage_reports hused hrows h
  have hsum : ∀ (q : Quantity) {entries}, Sorted rows entries →
      (entriesSum q entries = .ok (q.ofReport report) ↔
        q.ofReport report = .int (sumTokens q rows)) := by
    intro q entries hsorted
    rw [entriesSum_whole hsorted.whole, hsorted.sums]
    exact ⟨fun hsame => (Except.ok.inj hsame).symm, fun hsame => congrArg _ hsame.symm⟩
  constructor
  · intro hfaithful
    have hall := (hsum .total hreports.byAgent).mp (hfaithful.byAgent .total)
    have htotal := PyVal.int.inj (hreports.total.symm.trans hall)
    have hknown := PyVal.int.inj (hall.symm.trans hfaithful.known)
    rw [sum_contribution] at hknown
    refine ⟨fun hzero => ?_, by omega⟩
    rw [if_pos hzero, hzero] at htotal
    exact htotal
  · intro htotalled
    have htotal : report.totalTokens = .int (sumTokens .total rows) := by
      rw [hreports.total]
      by_cases hzero : sumTokens .total rows = 0
      · rw [if_pos hzero, htotalled.recorded hzero, hzero]
      · rw [if_neg hzero]
    have hfield : ∀ q : Quantity, q.ofReport report = .int (sumTokens q rows) := by
      intro q
      cases q with
      | input => exact hreports.input
      | output => exact hreports.output
      | total => exact htotal
    refine ⟨fun q => (hsum q hreports.byAgent).mpr (hfield q),
      fun q => (hsum q hreports.byModel).mpr (hfield q), ?_⟩
    rw [htotal, sum_contribution, htotalled.complete, add_zero]

/-- The sum of the costs of rows whose cost is a float or lacking. -/
theorem sumColumn_priced {rows : List Row}
    (h : ∀ row ∈ rows, row.get "total_cost" = .null ∨ ∃ x, row.get "total_cost" = .real x) :
    ∃ total, sumColumn "total_cost" (.float (.finite 0)) rows = .ok total ∧
      (total = .int 0 ∨ ∃ x, total = .float x) := by
  have hfold : ∀ start : PyVal, (start = .int 0 ∨ ∃ x, start = .float x) →
      ∃ total, rows.foldlM (fun total row => do
        addNum total (← orElse (ofSql (row.get "total_cost")) (.float (.finite 0)))) start =
          .ok total ∧ (total = .int 0 ∨ ∃ x, total = .float x) := by
    induction rows with
    | nil => exact fun start hstart => ⟨start, rfl, hstart⟩
    | cons row rows ih =>
      intro start hstart
      have hcost : ∃ x, orElse (ofSql (row.get "total_cost")) (.float (.finite 0)) = .ok (.float x) := by
        rcases h row List.mem_cons_self with hnull | ⟨x, hx⟩
        · exact ⟨.finite 0, by rw [hnull]; rfl⟩
        · refine ⟨if !(PyNum.float x).isZero then x else .finite 0, ?_⟩
          rw [hx]
          change Except.ok (if (!(PyNum.float x).isZero) = true then PyVal.float x else _) = _
          split <;> rfl
      obtain ⟨x, hx⟩ := hcost
      have hsum : ∃ y, addNum start (.float x) = .ok (.float y) := by
        have hzero : ofInt 0 = .ok (.finite 0) := by decide +kernel
        rcases hstart with rfl | ⟨y, rfl⟩
        · refine ⟨(PyFloat.finite 0).add x, ?_⟩
          change (ofInt 0).map _ = _
          rw [hzero]
          rfl
        · exact ⟨_, rfl⟩
      obtain ⟨y, hy⟩ := hsum
      obtain ⟨total, hrest, htotal⟩ :=
        ih (fun row hrow => h row (List.mem_cons_of_mem _ hrow)) (.float y) (Or.inr ⟨y, rfl⟩)
      refine ⟨total, ?_, htotal⟩
      rw [List.foldlM_cons, hx]
      change (addNum start (.float x) >>= fun next => _) = _
      rw [hy]
      exact hrest
  exact hfold (.int 0) (Or.inl rfl)

/-- Counted rows and costs have a report. -/
theorem aggregateUsage_returns (numerics : Numerics) (projectId : Points) (f : Filters) (limit : ℤ)
    (hcounted : ∀ row ∈ db "telemetry_usage", Counted row)
    (hpriced : ∀ row ∈ db "telemetry_costs",
      row.get "total_cost" = .null ∨ ∃ x, row.get "total_cost" = .real x) :
    ∃ report, aggregateUsage numerics projectId db f limit = .ok report := by
  obtain ⟨byAgent, byModel, -, -, hreport⟩ :=
    @aggregateUsage_eq _ projectId db f limit numerics rfl fun row hrow => hcounted row (mem_of_newest hrow)
  have hcosts : ∀ row ∈ costRows projectId db f limit,
      row.get "total_cost" = .null ∨ ∃ x, row.get "total_cost" = .real x :=
    fun row hrow => hpriced row (mem_of_newest hrow)
  obtain ⟨total, hsum, htotal⟩ := sumColumn_priced hcosts
  have hround : ∃ rounded, roundFour numerics total = .ok rounded := by
    rcases htotal with rfl | ⟨x, rfl⟩
    · exact ⟨_, rfl⟩
    · exact ⟨_, rfl⟩
  obtain ⟨rounded, hrounded⟩ := hround
  rw [hreport, hsum]
  simp only [bind, Except.bind, hrounded]
  exact ⟨_, rfl⟩

/-- A row whose total was recorded. -/
def totalledRow : Row :=
  [("agent", textOf "planner"), ("model", textOf "m"), ("input_tokens", .integer 2),
    ("output_tokens", .integer 3), ("total_tokens", .integer 5), ("project_id", textOf "")]

/-- The report of that row alone is faithful. -/
theorem totalledRow_faithful :
    ∃ report, aggregateUsage
        { sum := fun _ => .null, avg := fun _ => .null, round := fun x _ => x
          roundFloat := fun x _ => x, parseFloat := fun _ => .ok (.finite 0)
          loads := fun _ => .ok .none }
        [] (fun table => if table = "telemetry_usage" then [totalledRow] else []) {} 100 = .ok report ∧
      Faithful [totalledRow] report := by
  have hcounted : ∀ row ∈ [totalledRow], Counted row := by
    intro row hrow q
    rw [List.mem_singleton.mp hrow]
    cases q with
    | input => exact Or.inr ⟨2, rfl⟩
    | output => exact Or.inr ⟨3, rfl⟩
    | total => exact Or.inr ⟨5, rfl⟩
  have hused : usageRows [] (fun table => if table = "telemetry_usage" then [totalledRow] else [])
      {} 100 = [totalledRow] := by
    change limited 100 (orderDesc ["timestamp"] [totalledRow]) = _
    rw [orderDesc_singleton, limited_singleton (by decide)]
  obtain ⟨report, hreport⟩ := @aggregateUsage_returns
    (fun table => if table = "telemetry_usage" then [totalledRow] else [])
    { sum := fun _ => .null, avg := fun _ => .null, round := fun x _ => x
      roundFloat := fun x _ => x, parseFloat := fun _ => .ok (.finite 0)
      loads := fun _ => .ok .none } [] {} 100 hcounted fun row hrow => absurd hrow List.not_mem_nil
  have hiff := aggregateUsage_faithful_iff hcounted hreport
  rw [hused] at hiff
  exact ⟨report, hreport, hiff.mpr ⟨fun hzero => absurd hzero (by decide), by decide⟩⟩

theorem sum_map_eq_zero_iff {α : Type} {f : α → ℤ} {xs : List α} (h : ∀ x ∈ xs, 0 ≤ f x) :
    (xs.map f).sum = 0 ↔ ∀ x ∈ xs, f x = 0 := by
  constructor
  · intro hsum x hx
    have hnonneg : ∀ y ∈ xs.map f, 0 ≤ y := by
      intro y hy
      obtain ⟨z, hz, rfl⟩ := List.mem_map.mp hy
      exact h z hz
    exact List.all_zero_of_le_zero_le_of_sum_eq_zero hnonneg hsum (List.mem_map_of_mem hx)
  · intro hall
    rw [List.map_congr_left hall]
    simp

/-- Natural counts are totalled when some row has a total, or there are no tokens, and
no row that has both parts, with tokens among them, lacks its total. -/
theorem totalled_iff_of_nonneg (h : ∀ row ∈ rows, ∀ q, 0 ≤ tokens q row) :
    Totalled rows ↔
      ((∃ row ∈ rows, tokens .total row ≠ 0) ∨
        ∀ row ∈ rows, tokens .input row = 0 ∧ tokens .output row = 0) ∧
      ∀ row ∈ rows, Untotalled row → tokens .input row = 0 ∧ tokens .output row = 0 := by
  have hcomplete : ((rows.filter (Untotalled ·)).map fun row =>
      tokens .input row + tokens .output row).sum = 0 ↔
        ∀ row ∈ rows, Untotalled row → tokens .input row = 0 ∧ tokens .output row = 0 := by
    rw [sum_map_eq_zero_iff fun row hrow => ?_]
    · constructor
      · intro hall row hrow hmissing
        have hzero := hall row (List.mem_filter.mpr ⟨hrow, decide_eq_true hmissing⟩)
        have hinput := h row hrow .input
        have houtput := h row hrow .output
        omega
      · intro hall row hrow
        obtain ⟨hmem, hmissing⟩ := List.mem_filter.mp hrow
        obtain ⟨hinput, houtput⟩ := hall row hmem (of_decide_eq_true hmissing)
        omega
    · have hmem := List.mem_of_mem_filter hrow
      have hinput := h row hmem .input
      have houtput := h row hmem .output
      omega
  have hrecorded : (sumTokens .total rows = 0 → sumTokens .input rows + sumTokens .output rows = 0) ↔
      ((∃ row ∈ rows, tokens .total row ≠ 0) ∨
        ∀ row ∈ rows, tokens .input row = 0 ∧ tokens .output row = 0) := by
    have hsum : ∀ q, 0 ≤ sumTokens q rows := fun q =>
      List.sum_nonneg (by simpa using fun row hrow => h row hrow q)
    have hzero : ∀ q, sumTokens q rows = 0 ↔ ∀ row ∈ rows, tokens q row = 0 :=
      fun q => sum_map_eq_zero_iff fun row hrow => h row hrow q
    constructor
    · intro himp
      by_cases hnone : sumTokens .total rows = 0
      · have hparts := himp hnone
        have hinput := hsum .input
        have houtput := hsum .output
        exact Or.inr fun row hrow => ⟨(hzero .input).mp (by omega) row hrow,
          (hzero .output).mp (by omega) row hrow⟩
      · rw [hzero] at hnone
        push Not at hnone
        exact Or.inl hnone
    · rintro (⟨row, hrow, htotal⟩ | hall) hnone
      · exact absurd ((hzero .total).mp hnone row hrow) htotal
      · rw [(hzero .input).mpr fun row hrow => (hall row hrow).1,
          (hzero .output).mpr fun row hrow => (hall row hrow).2, add_zero]
  constructor
  · exact fun htotalled => ⟨hrecorded.mp htotalled.recorded, hcomplete.mp htotalled.complete⟩
  · exact fun hboth => ⟨hrecorded.mpr hboth.1, hcomplete.mpr hboth.2⟩

end Report

section Recording

variable {env : StoreEnv} {db : Tables}

/-- Each count of a record is an integer or lacking. -/
def CountedRecord (record : Record) : Prop :=
  ∀ q : Quantity, record.get q.column = .none ∨ ∃ n, record.get q.column = .int n

/-- The recorder makes up for a missing total when both parts are nonzero. -/
theorem persistUsage_fills {usage : Record} (payload : Record) {m n : ℤ}
    (hmissing : (usage.get "total_tokens").truth = .ok false)
    (hinput : usage.get "input_tokens" = .int m) (houtput : usage.get "output_tokens" = .int n)
    (hm : m ≠ 0) (hn : n ≠ 0) :
    persistUsage env usage payload = .ok (persistedUsage env usage payload (.int (m + n))) := by
  have hleft : (PyVal.int m).truth = .ok true := congrArg Except.ok (decide_eq_true hm)
  have hright : (PyVal.int n).truth = .ok true := congrArg Except.ok (decide_eq_true hn)
  unfold persistUsage
  dsimp only
  rw [hmissing, hinput, houtput, hleft, hright]
  rfl

theorem persistedUsage_counted {usage : Record} {total : PyVal} (payload : Record)
    (h : CountedRecord usage) (htotal : total = .none ∨ ∃ n, total = PyVal.int n) :
    CountedRecord (persistedUsage env usage payload total) := by
  intro q
  cases q with
  | input => exact h .input
  | output => exact h .output
  | total => exact htotal

/-- The recorder keeps counts. -/
theorem persistUsage_counted {usage : Record} (env : StoreEnv) (payload : Record)
    (h : CountedRecord usage) :
    ∃ record, persistUsage env usage payload = .ok record ∧ CountedRecord record := by
  have htruth : ∀ q : Quantity, ∃ b, (usage.get q.column).truth = .ok b ∧
      (b = true → ∃ n, usage.get q.column = .int n ∧ n ≠ 0) := by
    intro q
    rcases h q with hnone | ⟨n, hn⟩
    · exact ⟨false, by rw [hnone]; rfl, fun hfalse => by cases hfalse⟩
    · exact ⟨decide (n ≠ 0), by rw [hn]; rfl, fun htrue => ⟨n, hn, of_decide_eq_true htrue⟩⟩
  have hkeeps := @persistedUsage_counted env usage _ payload h (h .total)
  obtain ⟨whole, hwhole, -⟩ := htruth .total
  obtain ⟨left, hleft, hm⟩ := htruth .input
  obtain ⟨right, hright, hn⟩ := htruth .output
  unfold Quantity.column at hwhole hleft hright hm hn
  cases whole with
  | true =>
    refine ⟨_, ?_, hkeeps⟩
    unfold persistUsage
    dsimp only
    rw [hwhole]
    rfl
  | false => cases left with
    | false =>
      refine ⟨_, ?_, hkeeps⟩
      unfold persistUsage
      dsimp only
      rw [hwhole, hleft]
      rfl
    | true => cases right with
      | false =>
        refine ⟨_, ?_, hkeeps⟩
        unfold persistUsage
        dsimp only
        rw [hwhole, hleft, hright]
        rfl
      | true =>
        obtain ⟨m, hinput, hm⟩ := hm rfl
        obtain ⟨n, houtput, hn⟩ := hn rfl
        exact ⟨_, persistUsage_fills payload hwhole hinput houtput hm hn,
          persistedUsage_counted payload h (Or.inr ⟨m + n, rfl⟩)⟩

/-- A database of several stores whose records of usage are counted. -/
def Recorded (db : Tables) : Prop :=
  ∃ writes : List (StoreEnv × String × Record),
    (∀ write ∈ writes, write.2.1 = "usage" → CountedRecord write.2.2) ∧
      db = writes.foldl (fun db write => insertOne write.1 write.2.1 write.2.2 db) fun _ => []

theorem name_usage {table : String} {insert : Insert} (h : inserts.lookup table = some insert)
    (hname : insert.name = "telemetry_usage") : table = "usage" := by
  have hnames : ∀ entry ∈ inserts, entry.2.name = "telemetry_usage" → entry.1 = "usage" := by decide
  obtain ⟨before, behind, hsplit, -⟩ := List.lookup_eq_some_iff.mp h
  exact hnames (table, insert) (hsplit ▸ List.mem_append_right _ List.mem_cons_self) hname

/-- What a function makes of the elements of a list, one by one. -/
theorem forall₂_of_mapM {α β : Type} {f : α → Except PyExc β} {xs : List α} :
    ∀ {ys : List β}, xs.mapM f = .ok ys → List.Forall₂ (fun x y => f x = .ok y) xs ys := by
  induction xs with
  | nil =>
    intro ys h
    cases h
    exact .nil
  | cons x xs ih =>
    intro ys h
    rw [List.mapM_cons] at h
    cases hhead : f x with
    | error exc =>
      rw [hhead] at h
      cases h
    | ok y =>
      rw [hhead] at h
      cases hrest : xs.mapM f with
      | error exc =>
        simp only [bind, Except.bind, hrest] at h
        cases h
      | ok rest =>
        simp only [bind, Except.bind, hrest] at h
        cases h
        exact .cons hhead (ih hrest)

/-- Related lists hold related values under a key. -/
theorem lookup_zip_related {α β : Type} {R : α → β → Prop} {key : String} {x : α} {xs : List α}
    {ys : List β} (h : List.Forall₂ R xs ys) :
    ∀ {keys : List String}, (keys.zip xs).lookup key = some x →
      ∃ y, (keys.zip ys).lookup key = some y ∧ R x y := by
  induction h with
  | nil =>
    intro keys hfound
    rw [List.zip_nil_right] at hfound
    cases hfound
  | cons hhead _ ih =>
    intro keys hfound
    cases keys with
    | nil => cases hfound
    | cons first keys =>
      rw [List.zip_cons_cons, List.lookup_cons] at hfound ⊢
      cases hkey : key == first with
      | true =>
        rw [hkey] at hfound
        cases hfound
        exact ⟨_, rfl, hhead⟩
      | false =>
        rw [hkey] at hfound
        exact ih hfound

/-- The stored counts are the counts of the record. -/
theorem parameters_counted {insert : Insert} {record : Record} {values : List SqlValue}
    (hinsert : inserts.lookup "usage" = some insert) (h : CountedRecord record)
    (hvalues : insert.parameters env record = .ok values) (id : SqlValue) :
    Counted (("id", id) :: insert.columns.zip values) := by
  cases hinsert
  intro q
  unfold Insert.parameters at hvalues
  dsimp only at hvalues
  cases hrow : rowUsage env record with
  | error exc =>
    rw [hrow] at hvalues
    cases hvalues
  | ok row =>
    rw [hrow] at hvalues
    have hbuilt := forall₂_of_mapM hrow
    have hbound := forall₂_of_mapM hvalues
    have hsource : ((inserts[1].2.columns).zip [Source.text "execution_id", .text "agent",
        .text "model", .text "provider", .maybe "input_tokens", .maybe "output_tokens",
        .maybe "total_tokens", .maybe "cached_tokens", .maybe "reasoning_tokens",
        .maybe "context_tokens", .json "provider_raw", .stamp "timestamp", .project]).lookup
          q.column = some (Source.maybe q.column) := by
      cases q with
      | input => rfl
      | output => rfl
      | total => rfl
    obtain ⟨value, hvalue, heval⟩ := lookup_zip_related (forall₂_of_mapM hrow) hsource
    obtain ⟨bound, hfound, hbind⟩ := lookup_zip_related (forall₂_of_mapM hvalues) hvalue
    have hget : Row.get (("id", id) :: (inserts[1].2.columns).zip values) q.column = bound := by
      have hid : (q.column == "id") = false := by
        cases q with
        | input => rfl
        | output => rfl
        | total => rfl
      unfold Row.get
      rw [List.lookup_cons, hid]
      dsimp only
      rw [hfound]
      rfl
    have hrecord : record.get q.column = value := Except.ok.inj heval
    change Row.get (("id", id) :: (inserts[1].2.columns).zip values) q.column = .null ∨
      ∃ n, Row.get (("id", id) :: (inserts[1].2.columns).zip values) q.column = .integer n
    rw [hget]
    rcases h q with hnone | ⟨n, hn⟩
    · rw [hrecord.symm.trans hnone] at hbind
      exact Or.inl (Except.ok.inj hbind).symm
    · rw [hrecord.symm.trans hn] at hbind
      unfold PyVal.bind at hbind
      dsimp only at hbind
      split at hbind
      · exact Or.inr ⟨n, (Except.ok.inj hbind).symm⟩
      · cases hbind

/-- An insertion keeps the counts of the usage. -/
theorem insertOne_counted {table : String} {record : Record}
    (hdb : ∀ row ∈ db "telemetry_usage", Counted row)
    (hrecord : table = "usage" → CountedRecord record) :
    ∀ row ∈ insertOne env table record db "telemetry_usage", Counted row := by
  intro row hrow
  unfold insertOne at hrow
  cases hinsert : inserts.lookup table with
  | none =>
    rw [hinsert] at hrow
    exact hdb row hrow
  | some insert =>
    rw [hinsert] at hrow
    dsimp only at hrow
    cases hvalues : insert.parameters env record with
    | error exc =>
      rw [hvalues] at hrow
      exact hdb row hrow
    | ok values =>
      rw [hvalues] at hrow
      dsimp only at hrow
      split at hrow
      · exact hdb row hrow
      · by_cases hname : insert.name = "telemetry_usage"
        · rw [hname, Function.update_self] at hrow
          rcases List.mem_append.mp hrow with hold | hnew
          · exact hdb row hold
          · rw [List.mem_singleton.mp hnew]
            have htable := name_usage hinsert hname
            exact parameters_counted (htable ▸ hinsert) (hrecord htable) hvalues _
        · rw [Function.update_of_ne (Ne.symm hname)] at hrow
          exact hdb row hrow

/-- Recorded rows are counted. -/
theorem Recorded.counted (h : Recorded db) : ∀ row ∈ db "telemetry_usage", Counted row := by
  obtain ⟨writes, hwrites, rfl⟩ := h
  induction writes using List.reverseRecOn with
  | nil => exact fun row hrow => absurd hrow List.not_mem_nil
  | append_singleton writes write ih =>
    rw [List.foldl_append]
    refine insertOne_counted (ih fun other hother => ?_) (hwrites write (by simp))
    exact hwrites other (List.mem_append_left _ hother)

/-- A usage whose output the provider leaves out. -/
def inputOnly : Record := [("model", .str (points "m")), ("input_tokens", .int 5)]

/-- The store writes the usage of an agent. -/
def inputOnlyWrite : StoreEnv × String × Record :=
  ({}, "usage", persistedUsage {} inputOnly [("agent", .str (points "planner"))] .none)

example : persistUsage {} inputOnly [("agent", .str (points "planner"))] = .ok inputOnlyWrite.2.2 :=
  rfl

/-- The row of the usage. -/
def inputOnlyRow : Row :=
  [("id", .integer 1), ("execution_id", textOf ""), ("agent", textOf "planner"),
    ("model", textOf "m"), ("provider", textOf ""), ("input_tokens", .integer 5),
    ("output_tokens", .null), ("total_tokens", .null), ("cached_tokens", .null),
    ("reasoning_tokens", .null), ("context_tokens", .null), ("provider_raw", .null),
    ("timestamp", textOf "2026-01-01T00:00:00+00:00"), ("project_id", textOf "")]

/-- The report of that usage counts five tokens, and its entries count none. -/
theorem inputOnly_not_faithful :
    ¬∀ (numerics : Numerics) (projectId : Points) (db : Tables) (f : Filters) (limit : ℤ)
      (report : UsageReport), Recorded db →
      aggregateUsage numerics projectId db f limit = .ok report →
      Faithful (usageRows projectId db f limit) report := by
  intro h
  let numerics : Numerics :=
    { sum := fun _ => .null, avg := fun _ => .null, round := fun x _ => x
      roundFloat := fun x _ => x, parseFloat := fun _ => .ok (.finite 0)
      loads := fun _ => .ok .none }
  let db : Tables :=
    [inputOnlyWrite].foldl (fun db write => insertOne write.1 write.2.1 write.2.2 db) fun _ => []
  have hcounts : CountedRecord inputOnly := by
    intro q
    cases q with
    | input => exact Or.inr ⟨5, rfl⟩
    | output => exact Or.inl rfl
    | total => exact Or.inl rfl
  have hrecorded : Recorded db := by
    refine ⟨[inputOnlyWrite], fun write hwrite _ => ?_, rfl⟩
    rw [List.mem_singleton.mp hwrite]
    exact persistedUsage_counted _ hcounts (Or.inl rfl)
  have hused : usageRows [] db {} 10000 = [inputOnlyRow] := by
    have hselect : select db "telemetry_usage" [ownedBy []] = [inputOnlyRow] := by decide
    change limited 10000 (orderDesc ["timestamp"] (select db "telemetry_usage" [ownedBy []])) = _
    rw [hselect, orderDesc_singleton, limited_singleton (by decide)]
  have hcosts : ∀ row ∈ db "telemetry_costs",
      row.get "total_cost" = .null ∨ ∃ x, row.get "total_cost" = .real x := by
    intro row hrow
    have hnone : db "telemetry_costs" = [] := by decide
    rw [hnone] at hrow
    exact absurd hrow List.not_mem_nil
  obtain ⟨report, hreport⟩ := aggregateUsage_returns numerics [] {} 10000 hrecorded.counted hcosts
  have hrows : ∀ row ∈ [inputOnlyRow], Counted row :=
    fun row hrow => hrecorded.counted row (mem_of_newest (hused ▸ hrow))
  have hreports := aggregateUsage_reports hused hrows hreport
  have hsame := (h numerics [] db {} 10000 report hrecorded hreport).byAgent .total
  rw [entriesSum_whole hreports.byAgent.whole, hreports.byAgent.sums] at hsame
  have htotal : PyVal.int 0 = .int 5 := (Except.ok.inj hsame).trans hreports.total
  cases htotal

end Recording

end AiosDeck.Telemetry
