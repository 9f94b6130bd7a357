import AiosDeck.Python.Objects
import AiosDeck.Telemetry.Writer

/-!
# The telemetry store

Nine tables with one row builder each. A batch is one transaction: it
builds the rows of a table, binds and inserts them in order, and rolls
everything back at the first exception, whatever its class.
-/

namespace AiosDeck.Telemetry

open Python

/-- A record of the handlers: a dictionary with string keys. -/
abbrev Record := List (String × PyVal)

/-- `record.get(key)`. -/
def Record.get (record : Record) (key : String) : PyVal := (record.lookup key).getD .none

/-- What a store knows besides the record. -/
structure StoreEnv where
  /-- `_now()`. -/
  now : Points := points "2026-01-01T00:00:00+00:00"
  projectId : Points := []
  /-- Text of a number in a column of text. -/
  realText : PyFloat → Points := fun x => points (Json.numText (.float x))
  /-- Event ids in the database before the writer started. -/
  present : List SqlValue := []

/-- How a row builder fills one column. -/
inductive Source where
  /-- `record.get(key, default)`. -/
  | field (key : String) (default : PyVal)
  /-- `record.get(key, _now())`. -/
  | stamp (key : String)
  /-- `1 if record.get(key) else 0`. -/
  | flag (key : String)
  /-- `json.dumps(value, ensure_ascii=False) if value else None`. -/
  | json (key : String)
  /-- A value computed before the row. -/
  | given (value : PyVal)
  /-- `project_id`. -/
  | project

namespace Source

/-- The value of one column. -/
def eval (env : StoreEnv) (record : Record) : Source → Except PyExc PyVal
  | field key default => .ok ((record.lookup key).getD default)
  | stamp key => .ok ((record.lookup key).getD (.str env.now))
  | flag key => do
    let set ← (record.get key).truth
    return .int (if set then 1 else 0)
  | json key => do
    let set ← (record.get key).truth
    if set then
      let content ← (record.get key).dumps
      return .str content
    else return .none
  | given value => .ok value
  | project => .ok (.str env.projectId)

/-- `record.get(key, text)`. -/
def text (key : String) (default : String := "") : Source := field key (.str (points default))

/-- `record.get(key, 0)`. -/
def count (key : String) (default : ℤ := 0) : Source := field key (.int default)

/-- `record.get(key, 0.0)`. -/
def amount (key : String) : Source := field key (.float (.finite 0))

/-- `record.get(key)`. -/
def maybe (key : String) : Source := field key .none

end Source

/-- A row, column by column. -/
def buildRow (env : StoreEnv) (record : Record) (sources : List Source) :
    Except PyExc (List PyVal) :=
  sources.mapM fun source => source.eval env record

section Builders

open Source

/-- `_row_execution`. -/
def rowExecution (env : StoreEnv) (record : Record) : Except PyExc (List PyVal) :=
  buildRow env record [text "execution_id", text "event_id", text "correlation_id", text "task_id",
    maybe "workflow_id", text "agent", maybe "model", maybe "provider", maybe "runtime",
    count "attempt" 1, text "status", maybe "duration_ms", count "tool_calls", count "llm_turns",
    amount "total_cost", stamp "timestamp", project]

/-- `_row_usage`. -/
def rowUsage (env : StoreEnv) (record : Record) : Except PyExc (List PyVal) :=
  buildRow env record [text "execution_id", text "agent", text "model", text "provider",
    maybe "input_tokens", maybe "output_tokens", maybe "total_tokens", maybe "cached_tokens",
    maybe "reasoning_tokens", maybe "context_tokens", json "provider_raw", stamp "timestamp",
    project]

/-- `_row_cost`. -/
def rowCost (env : StoreEnv) (record : Record) : Except PyExc (List PyVal) :=
  buildRow env record [text "execution_id", text "pricing_version",
    text "pricing_source" "builtin", amount "input_cost", amount "output_cost",
    maybe "cached_cost", maybe "reasoning_cost", amount "total_cost", text "currency" "USD",
    text "status" "unpriced", stamp "calculated_at", project]

/-- `_row_retrieval`. -/
def rowRetrieval (env : StoreEnv) (record : Record) : Except PyExc (List PyVal) :=
  buildRow env record [text "agent", text "query", count "chunks_retrieved",
    count "chunks_selected", count "tokens_before", count "tokens_after",
    amount "compression_ratio", amount "retrieval_latency_ms", text "retriever",
    stamp "timestamp", project]

/-- `_row_skill`. -/
def rowSkill (env : StoreEnv) (record : Record) : Except PyExc (List PyVal) :=
  buildRow env record [text "execution_id", text "correlation_id", text "skill_name",
    text "skill_version" "1", text "intent", text "agent", count "considered", count "selected",
    count "used", amount "relevance_score", count "tokens_contributed",
    maybe "downstream_success", stamp "timestamp", project]

/-- `_row_gate`. -/
def rowGate (env : StoreEnv) (record : Record) : Except PyExc (List PyVal) :=
  buildRow env record [text "gate", text "status", text "correlation_id", maybe "duration_ms",
    count "findings_low", count "findings_medium", count "findings_high",
    count "findings_critical", flag "blocked", flag "overridden", stamp "timestamp", project]

/-- `_row_security`: the violations come first, as text or as a JSON list. -/
def rowSecurity (env : StoreEnv) (record : Record) : Except PyExc (List PyVal) := do
  let found ← (record.get "violations").truth
  let violations ← match if found then record.get "violations" else .list [] with
    | .str content => .ok content
    | value => value.listDumps
  buildRow env record [text "decision", text "agent", text "action", flag "allowed",
    text "reason", given (.str violations), text "intent_source", text "correlation_id",
    stamp "timestamp", project]

/-- `_row_routing`. -/
def rowRouting (env : StoreEnv) (record : Record) : Except PyExc (List PyVal) :=
  buildRow env record [text "agent", text "task_type", text "complexity", text "provider",
    text "model", text "variant", text "reason", amount "estimated_cost", count "context_size",
    text "source", flag "fallback_used", text "fallback_reason", text "correlation_id",
    stamp "timestamp", project]

/-- `_row_backlog`. -/
def rowBacklog (env : StoreEnv) (record : Record) : Except PyExc (List PyVal) :=
  buildRow env record [text "run_id", count "task_index", text "task_title", text "task_type",
    text "task_scope", text "status", text "commit_sha", maybe "duration_ms", text "error",
    text "source", stamp "timestamp", project]

end Builders

/-- One entry of `_INSERTS`, with what the schema says of its columns. -/
structure Insert where
  /-- The table in the database. -/
  name : String
  /-- `INSERT OR IGNORE`. -/
  orIgnore : Bool := false
  columns : List String
  /-- The columns declared `NOT NULL`. -/
  notNull : List String
  /-- The column declared `UNIQUE`. -/
  unique : Option String := none
  build : StoreEnv → Record → Except PyExc (List PyVal)

/-- `_INSERTS`. -/
def inserts : List (String × Insert) :=
  [("executions",
    { name := "telemetry_executions", orIgnore := true
      columns := ["execution_id", "event_id", "correlation_id", "task_id", "workflow_id", "agent",
        "model", "provider", "runtime", "attempt", "status", "duration_ms", "tool_calls",
        "llm_turns", "total_cost", "timestamp", "project_id"]
      notNull := ["execution_id", "event_id", "correlation_id", "task_id", "agent", "attempt",
        "status", "timestamp", "project_id"]
      unique := some "event_id"
      build := rowExecution }),
   ("usage",
    { name := "telemetry_usage"
      columns := ["execution_id", "agent", "model", "provider", "input_tokens", "output_tokens",
        "total_tokens", "cached_tokens", "reasoning_tokens", "context_tokens", "provider_raw",
        "timestamp", "project_id"]
      notNull := ["execution_id", "agent", "model", "provider", "timestamp", "project_id"]
      build := rowUsage }),
   ("costs",
    { name := "telemetry_costs"
      columns := ["execution_id", "pricing_version", "pricing_source", "input_cost", "output_cost",
        "cached_cost", "reasoning_cost", "total_cost", "currency", "status", "calculated_at",
        "project_id"]
      notNull := ["execution_id", "pricing_version", "pricing_source", "input_cost", "output_cost",
        "total_cost", "currency", "status", "calculated_at", "project_id"]
      build := rowCost }),
   ("retrieval",
    { name := "telemetry_retrieval"
      columns := ["agent", "query", "chunks_retrieved", "chunks_selected", "tokens_before",
        "tokens_after", "compression_ratio", "retrieval_latency_ms", "retriever", "timestamp",
        "project_id"]
      notNull := ["agent", "query", "chunks_retrieved", "chunks_selected", "tokens_before",
        "tokens_after", "compression_ratio", "retrieval_latency_ms", "retriever", "timestamp",
        "project_id"]
      build := rowRetrieval }),
   ("skills",
    { name := "telemetry_skills"
      columns := ["execution_id", "correlation_id", "skill_name", "skill_version", "intent",
        "agent", "considered", "selected", "used", "relevance_score", "tokens_contributed",
        "downstream_success", "timestamp", "project_id"]
      notNull := ["skill_name", "timestamp", "project_id"]
      build := rowSkill }),
   ("gates",
    { name := "telemetry_gates"
      columns := ["gate", "status", "correlation_id", "duration_ms", "findings_low",
        "findings_medium", "findings_high", "findings_critical", "blocked", "overridden",
        "timestamp", "project_id"]
      notNull := ["gate", "status", "correlation_id", "findings_low", "findings_medium",
        "findings_high", "findings_critical", "blocked", "overridden", "timestamp", "project_id"]
      build := rowGate }),
   ("security",
    { name := "telemetry_security"
      columns := ["decision", "agent", "action", "allowed", "reason", "violations",
        "intent_source", "correlation_id", "timestamp", "project_id"]
      notNull := ["decision", "agent", "action", "allowed", "reason", "violations",
        "intent_source", "correlation_id", "timestamp", "project_id"]
      build := rowSecurity }),
   ("routing",
    { name := "telemetry_routing"
      columns := ["agent", "task_type", "complexity", "provider", "model", "variant", "reason",
        "estimated_cost", "context_size", "source", "fallback_used", "fallback_reason",
        "correlation_id", "timestamp", "project_id"]
      notNull := ["agent", "task_type", "complexity", "provider", "model", "variant", "reason",
        "estimated_cost", "context_size", "source", "fallback_used", "fallback_reason",
        "correlation_id", "timestamp", "project_id"]
      build := rowRouting }),
   ("backlog",
    { name := "telemetry_backlog"
      columns := ["run_id", "task_index", "task_title", "task_type", "task_scope", "status",
        "commit_sha", "duration_ms", "error", "source", "timestamp", "project_id"]
      notNull := ["run_id", "task_index", "task_title", "task_type", "task_scope", "status",
        "commit_sha", "error", "source", "timestamp", "project_id"]
      build := rowBacklog })]

namespace Insert

/-- The first `NOT NULL` column that a row leaves empty. -/
def emptyColumn (insert : Insert) (values : List SqlValue) : Option String :=
  ((insert.columns.zip values).find? fun cell =>
    decide (cell.1 ∈ insert.notNull) && decide (cell.2 = .null)).map Prod.fst

/-- A value in a column of text. -/
def asText (env : StoreEnv) : SqlValue → SqlValue
  | .integer n => .text (points (toString n))
  | .real x => .text (env.realText x)
  | value => value

/-- The key of a row in the unique index, when the table has one. -/
def key (insert : Insert) (env : StoreEnv) (values : List SqlValue) : Option SqlValue := do
  let column ← insert.unique
  let value ← (insert.columns.zip values).lookup column
  return asText env value

/-- The parameters of the statement for a record, as SQLite takes them. -/
def parameters (insert : Insert) (env : StoreEnv) (record : Record) :
    Except PyExc (List SqlValue) := do
  let row ← insert.build env record
  row.mapM PyVal.bind

end Insert

/-- Faults of the database itself during one transaction. -/
inductive DbFault where
  | none
  /-- The store has been closed. -/
  | closed
  /-- `BEGIN IMMEDIATE` fails, for instance with `database is locked`. -/
  | atBegin (message : String)
  /-- A statement fails at this row of a table. -/
  | atRow (table : String) (row : ℕ) (message : String)
  /-- `COMMIT` fails. -/
  | atCommit (message : String)
  deriving DecidableEq, Repr

namespace DbFault

/-- The message with which the statement for this row fails. -/
def atRow? (fault : DbFault) (table : String) (row : ℕ) : Option String :=
  match fault with
  | .atRow t r message => if t = table ∧ r = row then some message else Option.none
  | _ => Option.none

end DbFault

/-- What a transaction has inserted so far. -/
structure Inserted where
  rows : List (Entry Record) := []
  /-- The keys in the unique index. -/
  keys : List SqlValue

/-- One statement of `executemany`. -/
def insertRow (env : StoreEnv) (insert : Insert) (entry : Entry Record) (values : List SqlValue)
    (done : Inserted) : Except PyExc Inserted :=
  match insert.emptyColumn values with
  | some column =>
    if insert.orIgnore then .ok done
    else .error ⟨.sqliteIntegrity, "NOT NULL constraint failed: " ++ insert.name ++ "." ++ column⟩
  | none =>
    match insert.key env values with
    | none => .ok { done with rows := done.rows ++ [entry] }
    | some key =>
      if key ∉ done.keys then .ok ⟨done.rows ++ [entry], done.keys ++ [key]⟩
      else if insert.orIgnore then .ok done
      else .error ⟨.sqliteIntegrity, "UNIQUE constraint failed: " ++ insert.name ++ "." ++
        insert.unique.getD ""⟩

/-- `executemany`: every row is bound when its turn comes. -/
def executemany (env : StoreEnv) (fault : DbFault) (insert : Insert) (table : String) :
    ℕ → List (Entry Record × List PyVal) → Inserted → Except PyExc Inserted
  | _, [], done => .ok done
  | row, (entry, parameters) :: rest, done => do
    let values ← parameters.mapM PyVal.bind
    match fault.atRow? table row with
    | some message => .error ⟨.sqliteOperational, message⟩
    | none =>
      let next ← insertRow env insert entry values done
      executemany env fault insert table (row + 1) rest next

/-- `insert_many`: all rows of a table are built before the first is bound. -/
def insertMany (env : StoreEnv) (fault : DbFault) (table : String) (rows : List (Entry Record))
    (done : Inserted) : Except PyExc Inserted :=
  match inserts.lookup table with
  | none => .error ⟨telemetryError, "unknown telemetry table: " ++ table⟩
  | some insert => do
    let built ← rows.mapM fun entry => do
      let row ← insert.build env entry.record
      return (entry, row)
    executemany env fault insert table 0 built done

/-- The tables of a batch, one after another. -/
def insertTables (env : StoreEnv) (fault : DbFault) :
    List (String × List (Entry Record)) → Inserted → Except PyExc Inserted
  | [], done => .ok done
  | (table, rows) :: rest, done => do
    let next ← insertMany env fault table rows done
    insertTables env fault rest next

/-- The unique key under which a record is stored. -/
def recordKey (env : StoreEnv) (table : String) (record : Record) : Option SqlValue :=
  match inserts.lookup table with
  | none => none
  | some insert =>
    match insert.parameters env record with
    | .error _ => none
    | .ok values => insert.key env values

/-- The keys of stored entries. -/
def keysOf (env : StoreEnv) (entries : List (Entry Record)) : List SqlValue :=
  entries.filterMap fun entry => recordKey env entry.table entry.record

/-- `with self._store.atomic()` around the tables of a batch. -/
def writeBatch (env : StoreEnv) (committed : List (Entry Record))
    (groups : List (String × List (Entry Record))) (fault : DbFault) :
    Except PyExc (List (Entry Record)) :=
  match fault with
  | .closed => .error ⟨telemetryError, "store is closed"⟩
  | .atBegin message => .error ⟨.sqliteOperational, message⟩
  | .atCommit message =>
    match insertTables env fault groups ⟨[], env.present ++ keysOf env committed⟩ with
    | .error exc => .error exc
    | .ok _ => .error ⟨.sqliteOperational, message⟩
  | _ =>
    (insertTables env fault groups ⟨[], env.present ++ keysOf env committed⟩).map
      Inserted.rows

/-- The store behind the writer. -/
def telemetryStore (env : StoreEnv) : Store Record DbFault where
  write := writeBatch env

end AiosDeck.Telemetry
