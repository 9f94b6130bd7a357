import AiosDeck.Storage.Select
import AiosDeck.Telemetry.Rows

/-!
# The queries of the telemetry store

Every public read of a store, over the tables of a database that several
projects may share. A query is a selection, an order or a grouping, and a
limit; what the numbers of SQLite and the floats of Python do is a parameter.
-/

namespace AiosDeck.Telemetry

open Python Storage

/-- The aggregates of SQLite, the roundings, and the readers of texts. -/
structure Numerics where
  /-- `SUM` of a column. -/
  sum : List SqlValue → SqlValue
  /-- `AVG` of a column. -/
  avg : List SqlValue → SqlValue
  /-- `ROUND(x, n)`. -/
  round : SqlValue → ℕ → SqlValue
  /-- `round(x, n)`. -/
  roundFloat : PyFloat → ℕ → PyFloat
  /-- `float(text)`. -/
  parseFloat : Points → Except PyExc PyFloat
  loads : Points → Except PyExc PyVal

/-- A value of the database in Python. -/
def ofSql : SqlValue → PyVal
  | .null => .none
  | .integer n => .int n
  | .real x => .float x
  | .text content => .str content
  | .blob content => .bytes content

/-- The dictionary that a row is returned as. -/
def toRecord (columns : List String) (row : Row) : Record :=
  columns.map fun column => (column, ofSql (row.get column))

/-- The filters of a query; `None` and the empty text do not filter. -/
structure Filters where
  agent : Option String := none
  model : Option String := none
  workflowId : Option String := none
  dateFrom : Option String := none
  dateTo : Option String := none

/-- A filter that is set. -/
def given (filter : Option String) : Option String := filter.filter (· ≠ "")

/-- A text as a parameter. -/
def textOf (text : String) : SqlValue := .text (points text)

/-- `if x: conditions.append("column = ?")`. -/
def optional (column : String) (filter : Option String) : List Condition :=
  ((given filter).map fun text => Condition.equals column (textOf text)).toList

/-- The conditions on the date of a row. -/
def between (column : String) (dateFrom dateTo : Option String) : List Condition :=
  ((given dateFrom).map fun text => Condition.since column (textOf text)).toList ++
    ((given dateTo).map fun text => Condition.until column (textOf text)).toList

/-- `execution_id IN (SELECT execution_id FROM table WHERE column = ?)`. -/
def optionalAmong (table column : String) (filter : Option String) : List Condition :=
  ((given filter).map fun text => Condition.among "execution_id" table column (textOf text)).toList

section Store

variable (numerics : Numerics) (projectId : Points) (db : Tables)

/-- `project_id = ?`. -/
def ownedBy : Condition := .equals "project_id" (.text projectId)

/-- The newest rows under the conditions. -/
def newest (table : String) (conditions : List Condition) (stamp : String) (limit : ℤ) : List Row :=
  limited limit (orderDesc [stamp] (select db table (ownedBy projectId :: conditions)))

/-- One row for each group, by some of its columns. -/
def ranked (table : String) (conditions : List Condition) (groupBy : List String)
    (aggregate : List Row → Row) (ranking : List String) (limit : ℤ) : List Row :=
  limited limit (orderDesc ranking
    ((groupsOf groupBy (select db table (ownedBy projectId :: conditions))).map aggregate))

/-- `_count`. -/
def countRows (table : String) (conditions : List Condition) : ℕ :=
  (select db table (ownedBy projectId :: conditions)).length

/-- The rows of `query_usage`. -/
def usageRows (f : Filters) (limit : ℤ) : List Row :=
  newest projectId db "telemetry_usage"
    (optional "agent" f.agent ++ optional "model" f.model ++
      optionalAmong "telemetry_executions" "workflow_id" f.workflowId ++
      between "timestamp" f.dateFrom f.dateTo) "timestamp" limit

/-- The keys of `query_usage`. -/
def USAGE_KEYS : List String :=
  ["execution_id", "agent", "model", "provider", "input_tokens", "output_tokens", "total_tokens",
    "cached_tokens", "reasoning_tokens", "context_tokens", "provider_raw", "timestamp"]

def queryUsage (f : Filters) (limit : ℤ) : List Record :=
  (usageRows projectId db f limit).map (toRecord USAGE_KEYS)

/-- The rows of `query_costs`. -/
def costRows (f : Filters) (limit : ℤ) : List Row :=
  newest projectId db "telemetry_costs"
    (optionalAmong "telemetry_usage" "agent" f.agent ++
      optionalAmong "telemetry_usage" "model" f.model ++
      optionalAmong "telemetry_executions" "workflow_id" f.workflowId ++
      between "calculated_at" f.dateFrom f.dateTo) "calculated_at" limit

/-- The keys of `query_costs`. -/
def COST_KEYS : List String :=
  ["execution_id", "pricing_version", "pricing_source", "input_cost", "output_cost", "cached_cost",
    "reasoning_cost", "total_cost", "currency", "status", "calculated_at"]

def queryCosts (f : Filters) (limit : ℤ) : List Record :=
  (costRows projectId db f limit).map (toRecord COST_KEYS)

def queryExecutions (f : Filters) (limit : ℤ) : List Record :=
  (newest projectId db "telemetry_executions"
    (optional "agent" f.agent ++ optional "workflow_id" f.workflowId ++
      between "timestamp" f.dateFrom f.dateTo) "timestamp" limit).map
    (toRecord ["execution_id", "event_id", "correlation_id", "task_id", "workflow_id", "agent",
      "model", "provider", "runtime", "attempt", "status", "duration_ms", "timestamp"])

/-- `_filter_conditions`, behind the project. -/
def filterConditions (f : Filters) (onUsage : Bool) : List Condition :=
  optional "agent" f.agent ++ (if onUsage then optional "model" f.model else []) ++
    (if onUsage then optionalAmong "telemetry_executions" "workflow_id" f.workflowId
      else optional "workflow_id" f.workflowId) ++
    between "timestamp" f.dateFrom f.dateTo

/-- `x or default`. -/
def orElse (x default : PyVal) : Except PyExc PyVal := do
  return if ← x.truth then x else default

/-- `x + y` of two numbers. -/
def addNum : PyVal → PyVal → Except PyExc PyVal
  | .int m, .int n => .ok (.int (m + n))
  | .int m, .float y => (ofInt m).map fun x => .float (x.add y)
  | .float x, .int n => (ofInt n).map fun y => .float (x.add y)
  | .float x, .float y => .ok (.float (x.add y))
  | _, _ => .error ⟨.typeError, "unsupported operand type(s) for +"⟩

/-- `sum(r[column] or default for r in rows)`. -/
def sumColumn (column : String) (default : PyVal) (rows : List Row) : Except PyExc PyVal :=
  rows.foldlM (fun total row => do addNum total (← orElse (ofSql (row.get column)) default))
    (.int 0)

/-- `round(x, 4)`. -/
def roundFour : PyVal → Except PyExc PyVal
  | .int n => .ok (.int n)
  | .float x => .ok (.float (numerics.roundFloat x 4))
  | _ => .error ⟨.typeError, "type does not define __round__ method"⟩

/-- One entry of `by_agent` or `by_model`. -/
structure Bucket where
  inputTokens : PyVal := .int 0
  outputTokens : PyVal := .int 0
  totalTokens : PyVal := .int 0
  count : ℕ := 0

/-- One row more in an entry. -/
def Bucket.add (bucket : Bucket) (row : Row) : Except PyExc Bucket := do
  return { inputTokens := ← addNum bucket.inputTokens
             (← orElse (ofSql (row.get "input_tokens")) (.int 0))
           outputTokens := ← addNum bucket.outputTokens
             (← orElse (ofSql (row.get "output_tokens")) (.int 0))
           totalTokens := ← addNum bucket.totalTokens
             (← orElse (ofSql (row.get "total_tokens")) (.int 0))
           count := bucket.count + 1 }

/-- `r[column] or "unknown"`. -/
def bucketKey (column : String) (row : Row) : Except PyExc SqlValue := do
  return if ← (ofSql (row.get column)).truth then row.get column else textOf "unknown"

/-- The rows by the value of a column. -/
def buckets (column : String) (rows : List Row) : Except PyExc (List (SqlValue × Bucket)) :=
  rows.foldlM (fun entries row => do
    let key ← bucketKey column row
    match entries.findIdx? fun entry => decide (entry.1 = key) with
    | some i =>
      match entries[i]? with
      | some entry => return entries.set i (key, ← entry.2.add row)
      | none => return entries
    | none => return entries ++ [(key, ← Bucket.add {} row)]) []

/-- The dictionary of `aggregate_usage`. -/
structure UsageReport where
  inputTokens : PyVal
  outputTokens : PyVal
  totalTokens : PyVal
  totalCost : PyVal
  currency : String := "USD"
  byAgent : List (SqlValue × Bucket)
  byModel : List (SqlValue × Bucket)
  records : List Record
  costRecords : List Record
  executions : List Record
  totalRecords : ℕ
  totalExecutions : ℕ

/-- `aggregate_usage`. -/
def aggregateUsage (f : Filters) (limit : ℤ) : Except PyExc UsageReport := do
  let usage := usageRows projectId db f limit
  let costs := costRows projectId db f limit
  let inputTokens ← sumColumn "input_tokens" (.int 0) usage
  let outputTokens ← sumColumn "output_tokens" (.int 0) usage
  let summed ← sumColumn "total_tokens" (.int 0) usage
  let both ← addNum inputTokens outputTokens
  let totalTokens ← orElse summed both
  let totalCost ← sumColumn "total_cost" (.float (.finite 0)) costs
  let byAgent ← buckets "agent" usage
  let byModel ← buckets "model" usage
  let totalCost ← roundFour numerics totalCost
  return { inputTokens, outputTokens, totalTokens, totalCost, byAgent, byModel
           records := usage.map (toRecord USAGE_KEYS)
           costRecords := costs.map (toRecord COST_KEYS)
           executions := queryExecutions projectId db f limit
           totalRecords := countRows projectId db "telemetry_usage" (filterConditions f true)
           totalExecutions :=
             countRows projectId db "telemetry_executions" (filterConditions f false) }

def queryRetrieval (agent : Option String) (limit : ℤ) : List Record :=
  (newest projectId db "telemetry_retrieval" (optional "agent" agent) "timestamp" limit).map
    (toRecord ["id", "agent", "query", "chunks_retrieved", "chunks_selected", "tokens_before",
      "tokens_after", "compression_ratio", "retrieval_latency_ms", "retriever", "timestamp"])

/-- `COUNT(*)`. -/
def counted (group : List Row) : SqlValue := .integer group.length

/-- `SUM(column)`. -/
def summed (column : String) (group : List Row) : SqlValue :=
  numerics.sum (group.map fun row => row.get column)

/-- `COALESCE(x, 0)`. -/
def coalesce (x : SqlValue) : SqlValue := if x = .null then .integer 0 else x

/-- `SUM(CASE WHEN column = value THEN 1 ELSE 0 END)`. -/
def sumCase (column : String) (value : SqlValue) (group : List Row) : SqlValue :=
  numerics.sum (group.map fun row => .integer (if sqlEq (row.get column) value then 1 else 0))

/-- `CASE WHEN column > 0 THEN column END`. -/
def positiveOnly (column : String) (row : Row) : SqlValue :=
  if sqlLe (row.get column) (.integer 0) then .null else row.get column

/-- The bare column of a group. -/
def bare (column : String) (group : List Row) : SqlValue :=
  (group.head?.map fun row => row.get column).getD .null

def querySkillStats (skill agent dateFrom dateTo : Option String) (limit : ℤ) : List Record :=
  (ranked projectId db "telemetry_skills"
    (optional "skill_name" skill ++ optional "agent" agent ++ between "timestamp" dateFrom dateTo)
    ["skill_name"]
    (fun group =>
      [("skill_name", bare "skill_name" group), ("total_records", counted group),
        ("total_considered", summed numerics "considered" group),
        ("total_selected", summed numerics "selected" group),
        ("total_used", summed numerics "used" group),
        ("avg_relevance", numerics.avg (group.map (positiveOnly "relevance_score"))),
        ("total_tokens", summed numerics "tokens_contributed" group)])
    ["total_used", "total_selected"] limit).map
    (toRecord ["skill_name", "total_records", "total_considered", "total_selected", "total_used",
      "avg_relevance", "total_tokens"])

/-- The filters of the two gate queries. -/
def gateConditions (gate status dateFrom dateTo : Option String) : List Condition :=
  optional "gate" gate ++ optional "status" status ++ between "timestamp" dateFrom dateTo

def queryGateStats (gate status dateFrom dateTo : Option String) (limit : ℤ) : List Record :=
  (ranked projectId db "telemetry_gates" (gateConditions gate status dateFrom dateTo) ["gate"]
    (fun group =>
      [("gate", bare "gate" group), ("runs", counted group),
        ("passed", coalesce (sumCase numerics "status" (textOf "passed") group)),
        ("failed", coalesce (sumCase numerics "status" (textOf "failed") group)),
        ("skipped", coalesce (sumCase numerics "status" (textOf "skipped") group)),
        ("errored", coalesce (sumCase numerics "status" (textOf "error") group)),
        ("blocked", coalesce (summed numerics "blocked" group)),
        ("overridden", coalesce (summed numerics "overridden" group)),
        ("avg_duration_ms", numerics.avg (group.map fun row => row.get "duration_ms")),
        ("findings_low", coalesce (summed numerics "findings_low" group)),
        ("findings_medium", coalesce (summed numerics "findings_medium" group)),
        ("findings_high", coalesce (summed numerics "findings_high" group)),
        ("findings_critical", coalesce (summed numerics "findings_critical" group))])
    ["runs"] limit).map
    (toRecord ["gate", "runs", "passed", "failed", "skipped", "errored", "blocked", "overridden",
      "avg_duration_ms", "findings_low", "findings_medium", "findings_high", "findings_critical"])

def queryGateRecords (gate status dateFrom dateTo : Option String) (limit : ℤ) : List Record :=
  (newest projectId db "telemetry_gates" (gateConditions gate status dateFrom dateTo) "timestamp"
    limit).map
    (toRecord ["id", "gate", "status", "correlation_id", "duration_ms", "findings_low",
      "findings_medium", "findings_high", "findings_critical", "blocked", "overridden", "timestamp"])

def querySecurityStats (decision agent dateFrom dateTo : Option String) (limit : ℤ) : List Record :=
  (ranked projectId db "telemetry_security"
    (optional "decision" decision ++ optional "agent" agent ++ between "timestamp" dateFrom dateTo)
    ["decision"]
    (fun group =>
      [("decision", bare "decision" group), ("runs", counted group),
        ("allowed", coalesce (sumCase numerics "allowed" (.integer 1) group)),
        ("denied", coalesce (sumCase numerics "allowed" (.integer 0) group))])
    ["runs"] limit).map (toRecord ["decision", "runs", "allowed", "denied"])

/-- `json.loads(x) if x else []`. -/
def decodeList (x : SqlValue) : Except PyExc PyVal := do
  if ← (ofSql x).truth then
    match x with
    | .text content => numerics.loads content
    | _ => .error ⟨.typeError, "the JSON object must be str, bytes or bytearray"⟩
  else return .list []

def querySecurityRecords (decision agent : Option String) (allowed : Option Bool)
    (dateFrom dateTo : Option String) (limit : ℤ) : Except PyExc (List Record) :=
  (newest projectId db "telemetry_security"
    (optional "decision" decision ++ optional "agent" agent ++
      (allowed.map fun allowed => Condition.equals "allowed" (.integer (if allowed then 1 else 0))).toList ++
      between "timestamp" dateFrom dateTo) "timestamp" limit).mapM fun row => do
    let violations ← decodeList numerics (row.get "violations")
    return toRecord ["id", "decision", "agent", "action", "allowed", "reason"] row ++
      [("violations", violations)] ++ toRecord ["intent_source", "correlation_id", "timestamp"] row

/-- The filters of the two routing queries. -/
def routingConditions (agent model dateFrom dateTo : Option String) : List Condition :=
  optional "agent" agent ++ optional "model" model ++ between "timestamp" dateFrom dateTo

def queryRoutingStats (agent model dateFrom dateTo : Option String) (limit : ℤ) : List Record :=
  (ranked projectId db "telemetry_routing" (routingConditions agent model dateFrom dateTo)
    ["agent", "model"]
    (fun group =>
      [("agent", bare "agent" group), ("model", bare "model" group),
        ("provider", bare "provider" group), ("routes", counted group),
        ("fallbacks", sumCase numerics "fallback_used" (.integer 1) group),
        ("avg_estimated_cost",
          numerics.round (numerics.avg (group.map fun row => row.get "estimated_cost")) 6),
        ("avg_context_size",
          numerics.round (numerics.avg (group.map fun row => row.get "context_size")) 0)])
    ["routes"] limit).map
    (toRecord ["agent", "model", "provider", "routes", "fallbacks", "avg_estimated_cost",
      "avg_context_size"])

def queryRoutingRecords (agent model dateFrom dateTo : Option String) (limit : ℤ) :
    Except PyExc (List Record) :=
  (newest projectId db "telemetry_routing" (routingConditions agent model dateFrom dateTo) "timestamp"
    limit).mapM fun row => do
    let fallbackUsed ← (ofSql (row.get "fallback_used")).truth
    return toRecord ["agent", "task_type", "complexity", "provider", "model", "variant", "reason",
        "estimated_cost", "context_size", "source"] row ++
      [("fallback_used", .bool fallbackUsed)] ++
      toRecord ["fallback_reason", "correlation_id", "timestamp"] row

/-- `float(x or 0)`. -/
def asFloat (x : SqlValue) : Except PyExc PyFloat := do
  match ← orElse (ofSql x) (.int 0) with
  | .int n => ofInt n
  | .float y => return y
  | .str content => numerics.parseFloat content
  | _ => .error ⟨.typeError, "float() argument must be a string or a real number"⟩

/-- `telemetry_routing LEFT JOIN telemetry_executions LEFT JOIN telemetry_costs`,
where a cost was found: the rows of the query, with the costs they met. -/
def accuracyRows : List Row :=
  (db "telemetry_routing").flatMap fun routing =>
    ((db "telemetry_executions").filter fun execution =>
      sqlEq (routing.get "correlation_id") (execution.get "correlation_id") &&
        sqlEq (routing.get "model") (execution.get "model")).flatMap fun execution =>
      ((db "telemetry_costs").filter fun cost =>
        sqlEq (execution.get "execution_id") (cost.get "execution_id") &&
          decide (cost.get "total_cost" ≠ .null)).map fun cost =>
        [("agent", routing.get "agent"), ("model", routing.get "model"),
          ("estimated_cost", routing.get "estimated_cost"), ("actual_cost", cost.get "total_cost"),
          ("correlation_id", routing.get "correlation_id"), ("timestamp", routing.get "timestamp")]

/-- `query_route_accuracy`, which names no project. -/
def queryRouteAccuracy (limit : ℤ) : Except PyExc (List Record) :=
  (limited limit (orderDesc ["timestamp"] (accuracyRows db))).mapM fun row => do
    let actual ← asFloat numerics (row.get "actual_cost")
    let estimated ← asFloat numerics (row.get "estimated_cost")
    return toRecord ["agent", "model", "estimated_cost", "actual_cost"] row ++
      [("delta", .float (numerics.roundFloat (actual.sub estimated) 6))] ++
      toRecord ["correlation_id", "timestamp"] row

def queryBacklogStats (runId status dateFrom dateTo : Option String) (limit : ℤ) : List Record :=
  (newest projectId db "telemetry_backlog"
    (optional "run_id" runId ++ optional "status" status ++ between "timestamp" dateFrom dateTo)
    "timestamp" limit).map
    (toRecord ["run_id", "task_index", "task_title", "task_type", "task_scope", "status",
      "commit_sha", "duration_ms", "error", "source", "timestamp"])

end Store

/-- A call of a public query. -/
inductive Query where
  | usage (f : Filters) (limit : ℤ)
  | costs (f : Filters) (limit : ℤ)
  | executions (f : Filters) (limit : ℤ)
  | aggregateUsage (f : Filters) (limit : ℤ)
  | retrieval (agent : Option String) (limit : ℤ)
  | skillStats (skill agent dateFrom dateTo : Option String) (limit : ℤ)
  | gateStats (gate status dateFrom dateTo : Option String) (limit : ℤ)
  | gateRecords (gate status dateFrom dateTo : Option String) (limit : ℤ)
  | securityStats (decision agent dateFrom dateTo : Option String) (limit : ℤ)
  | securityRecords (decision agent : Option String) (allowed : Option Bool)
      (dateFrom dateTo : Option String) (limit : ℤ)
  | routingStats (agent model dateFrom dateTo : Option String) (limit : ℤ)
  | routingRecords (agent model dateFrom dateTo : Option String) (limit : ℤ)
  | routeAccuracy (limit : ℤ)
  | backlogStats (runId status dateFrom dateTo : Option String) (limit : ℤ)

/-- What a query returns. -/
inductive Answer where
  | records (records : List Record)
  | report (report : UsageReport)

/-- The answer of the store of a project. -/
def Query.answer (numerics : Numerics) (projectId : Points) (db : Tables) :
    Query → Except PyExc Answer
  | .usage f limit => .ok (.records (queryUsage projectId db f limit))
  | .costs f limit => .ok (.records (queryCosts projectId db f limit))
  | .executions f limit => .ok (.records (queryExecutions projectId db f limit))
  | .aggregateUsage f limit => (Telemetry.aggregateUsage numerics projectId db f limit).map Answer.report
  | .retrieval agent limit => .ok (.records (queryRetrieval projectId db agent limit))
  | .skillStats skill agent dateFrom dateTo limit =>
    .ok (.records (querySkillStats numerics projectId db skill agent dateFrom dateTo limit))
  | .gateStats gate status dateFrom dateTo limit =>
    .ok (.records (queryGateStats numerics projectId db gate status dateFrom dateTo limit))
  | .gateRecords gate status dateFrom dateTo limit =>
    .ok (.records (queryGateRecords projectId db gate status dateFrom dateTo limit))
  | .securityStats decision agent dateFrom dateTo limit =>
    .ok (.records (querySecurityStats numerics projectId db decision agent dateFrom dateTo limit))
  | .securityRecords decision agent allowed dateFrom dateTo limit =>
    (querySecurityRecords numerics projectId db decision agent allowed dateFrom dateTo limit).map
      Answer.records
  | .routingStats agent model dateFrom dateTo limit =>
    .ok (.records (queryRoutingStats numerics projectId db agent model dateFrom dateTo limit))
  | .routingRecords agent model dateFrom dateTo limit =>
    (queryRoutingRecords projectId db agent model dateFrom dateTo limit).map Answer.records
  | .routeAccuracy limit => (queryRouteAccuracy numerics db limit).map Answer.records
  | .backlogStats runId status dateFrom dateTo limit =>
    .ok (.records (queryBacklogStats projectId db runId status dateFrom dateTo limit))

/-- One `INSERT` of a store into a table that its project shares. -/
def insertOne (env : StoreEnv) (table : String) (record : Record) (db : Tables) : Tables :=
  match inserts.lookup table with
  | none => db
  | some insert =>
    match insert.parameters env record with
    | .error _ => db
    | .ok values =>
      let taken := insert.unique.any fun column => (db insert.name).any fun row =>
        decide (insert.key env values = some (Insert.asText env (row.get column)))
      if (insert.emptyColumn values).isSome || taken then db
      else Function.update db insert.name
        (db insert.name ++
          [("id", .integer ((db insert.name).length + 1)) :: insert.columns.zip values])

/-- A database that stores of any number of projects wrote. -/
def Written (db : Tables) : Prop :=
  ∃ writes : List (StoreEnv × String × Record),
    db = writes.foldl (fun db write => insertOne write.1 write.2.1 write.2.2 db) fun _ => []

end AiosDeck.Telemetry
