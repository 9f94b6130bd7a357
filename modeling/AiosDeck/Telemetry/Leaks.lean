import AiosDeck.Telemetry.Scoping

/-!
# Rows of other projects in an answer

One row in each of the tables that the queries join is enough to tell what a
query asks without its project. The queries of a project are its own exactly
under the condition of `Query.Scoped`.
-/

namespace AiosDeck.Telemetry

open Python Storage

section Leaks

@[simp] theorem bind_none : PyVal.bind .none = .ok .null := rfl

@[simp] theorem bind_int_zero : PyVal.bind (.int 0) = .ok (.integer 0) := rfl

@[simp] theorem bind_int_one : PyVal.bind (.int 1) = .ok (.integer 1) := rfl

@[simp] theorem bind_finite (q : ℚ) : PyVal.bind (.float (.finite q)) = .ok (.real (.finite q)) := rfl

/-- A text is bound as it is. -/
@[simp] theorem bind_points (content : String) : PyVal.bind (.str (points content)) = .ok (textOf content) := by
  simp [PyVal.bind, hasSurrogate_points, textOf]

theorem bind_projectId {env : StoreEnv} (h : hasSurrogate env.projectId = false) :
    PyVal.bind (.str env.projectId) = .ok (.text env.projectId) := by
  simp [PyVal.bind, h]

/-- Usage of an agent and a model. -/
def usageGiven (agent model stamp : String) : Record :=
  [("agent", .str (points agent)), ("model", .str (points model)),
    ("timestamp", .str (points stamp))]

/-- A row of usage. -/
def usageRow (agent model stamp : String) (projectId : Points) : Row :=
  [("id", .integer 1), ("execution_id", textOf ""), ("agent", textOf agent),
    ("model", textOf model), ("provider", textOf ""), ("input_tokens", .null),
    ("output_tokens", .null), ("total_tokens", .null), ("cached_tokens", .null),
    ("reasoning_tokens", .null), ("context_tokens", .null), ("provider_raw", .null),
    ("timestamp", textOf stamp), ("project_id", .text projectId)]

/-- A cost at some time. -/
def costGiven (stamp : String) : Record := [("calculated_at", .str (points stamp))]

/-- A row of costs. -/
def costRow (stamp : String) (projectId : Points) : Row :=
  [("id", .integer 1), ("execution_id", textOf ""), ("pricing_version", textOf ""),
    ("pricing_source", textOf "builtin"), ("input_cost", .real (.finite 0)),
    ("output_cost", .real (.finite 0)), ("cached_cost", .null), ("reasoning_cost", .null),
    ("total_cost", .real (.finite 0)), ("currency", textOf "USD"), ("status", textOf "unpriced"),
    ("calculated_at", textOf stamp), ("project_id", .text projectId)]

/-- An execution of a workflow. -/
def executionGiven (workflowId : String) : Record :=
  [("workflow_id", .str (points workflowId)), ("model", .str (points "")),
    ("timestamp", .str (points ""))]

/-- A row of executions. -/
def executionRow (workflowId : String) (projectId : Points) : Row :=
  [("id", .integer 1), ("execution_id", textOf ""), ("event_id", textOf ""),
    ("correlation_id", textOf ""), ("task_id", textOf ""), ("workflow_id", textOf workflowId),
    ("agent", textOf ""), ("model", textOf ""), ("provider", .null), ("runtime", .null),
    ("attempt", .integer 1), ("status", textOf ""), ("duration_ms", .null),
    ("tool_calls", .integer 0), ("llm_turns", .integer 0), ("total_cost", .real (.finite 0)),
    ("timestamp", textOf ""), ("project_id", .text projectId)]

/-- A decision of the router. -/
def routingGiven : Record := [("timestamp", .str (points ""))]

/-- A row of decisions. -/
def routingRow (projectId : Points) : Row :=
  [("id", .integer 1), ("agent", textOf ""), ("task_type", textOf ""), ("complexity", textOf ""),
    ("provider", textOf ""), ("model", textOf ""), ("variant", textOf ""), ("reason", textOf ""),
    ("estimated_cost", .real (.finite 0)), ("context_size", .integer 0), ("source", textOf ""),
    ("fallback_used", .integer 0), ("fallback_reason", textOf ""), ("correlation_id", textOf ""),
    ("timestamp", textOf ""), ("project_id", .text projectId)]

variable {env : StoreEnv} {db : Tables}

/-- Values that are bound one by one. -/
theorem mapM_bind_ok : ∀ {row : List PyVal} {values : List SqlValue},
    List.Forall₂ (fun value bound => PyVal.bind value = .ok bound) row values →
      row.mapM PyVal.bind = .ok values
  | _, _, .nil => rfl
  | _, _, .cons hhead hrest => by
    rw [List.mapM_cons, hhead, mapM_bind_ok hrest]
    rfl

/-- The first row of a table. -/
theorem insertOne_first {table : String} {record : Record} (insert : Insert) {row : List PyVal}
    {values : List SqlValue} (hinsert : inserts.lookup table = some insert)
    (hdb : db insert.name = []) (hbuild : insert.build env record = .ok row)
    (hbind : List.Forall₂ (fun value bound => PyVal.bind value = .ok bound) row values)
    (hfull : insert.emptyColumn values = none) :
    insertOne env table record db =
      Function.update db insert.name [("id", .integer 1) :: insert.columns.zip values] := by
  have hvalues : insert.parameters env record = .ok values := by
    unfold Insert.parameters
    rw [hbuild]
    exact mapM_bind_ok hbind
  unfold insertOne
  simp only [hinsert, hvalues, hfull, Option.isSome_none, Bool.false_or, hdb]
  cases insert.unique with
  | none => rfl
  | some column => rfl

theorem insertOne_usage (h : hasSurrogate env.projectId = false) (hdb : db "telemetry_usage" = [])
    (agent model stamp : String) :
    insertOne env "usage" (usageGiven agent model stamp) db =
      Function.update db "telemetry_usage" [usageRow agent model stamp env.projectId] := by
  have hbuild : rowUsage env (usageGiven agent model stamp) =
      .ok [.str (points ""), .str (points agent), .str (points model), .str (points ""), .none,
        .none, .none, .none, .none, .none, .none, .str (points stamp), .str env.projectId] := rfl
  have hbind : List.Forall₂ (fun value bound => PyVal.bind value = .ok bound)
      [.str (points ""), .str (points agent), .str (points model), .str (points ""), .none,
        .none, .none, .none, .none, .none, .none, .str (points stamp), .str env.projectId]
      [textOf "", textOf agent, textOf model, textOf "", .null, .null,
        .null, .null, .null, .null, .null, textOf stamp, .text env.projectId] := by
    simp [bind_projectId h]
  exact insertOne_first inserts[1].2 rfl hdb hbuild hbind rfl

theorem insertOne_cost (h : hasSurrogate env.projectId = false) (hdb : db "telemetry_costs" = [])
    (stamp : String) :
    insertOne env "costs" (costGiven stamp) db =
      Function.update db "telemetry_costs" [costRow stamp env.projectId] := by
  have hbuild : rowCost env (costGiven stamp) =
      .ok [.str (points ""), .str (points ""), .str (points "builtin"), .float (.finite 0),
        .float (.finite 0), .none, .none, .float (.finite 0), .str (points "USD"),
        .str (points "unpriced"), .str (points stamp), .str env.projectId] := rfl
  have hbind : List.Forall₂ (fun value bound => PyVal.bind value = .ok bound)
      [.str (points ""), .str (points ""), .str (points "builtin"), .float (.finite 0),
        .float (.finite 0), .none, .none, .float (.finite 0), .str (points "USD"),
        .str (points "unpriced"), .str (points stamp), .str env.projectId]
      [textOf "", textOf "", textOf "builtin", .real (.finite 0),
        .real (.finite 0), .null, .null, .real (.finite 0), textOf "USD", textOf "unpriced",
        textOf stamp, .text env.projectId] := by
    simp [bind_projectId h]
  exact insertOne_first inserts[2].2 rfl hdb hbuild hbind rfl

theorem insertOne_execution (h : hasSurrogate env.projectId = false)
    (hdb : db "telemetry_executions" = []) (workflowId : String) :
    insertOne env "executions" (executionGiven workflowId) db =
      Function.update db "telemetry_executions" [executionRow workflowId env.projectId] := by
  have hbuild : rowExecution env (executionGiven workflowId) =
      .ok [.str (points ""), .str (points ""), .str (points ""), .str (points ""),
        .str (points workflowId), .str (points ""), .str (points ""), .none, .none, .int 1,
        .str (points ""), .none, .int 0, .int 0, .float (.finite 0), .str (points ""),
        .str env.projectId] := rfl
  have hbind : List.Forall₂ (fun value bound => PyVal.bind value = .ok bound)
      [.str (points ""), .str (points ""), .str (points ""), .str (points ""),
        .str (points workflowId), .str (points ""), .str (points ""), .none, .none, .int 1,
        .str (points ""), .none, .int 0, .int 0, .float (.finite 0), .str (points ""),
        .str env.projectId]
      [textOf "", textOf "", textOf "", textOf "", textOf workflowId,
        textOf "", textOf "", .null, .null, .integer 1, textOf "", .null, .integer 0, .integer 0,
        .real (.finite 0), textOf "", .text env.projectId] := by
    simp [bind_projectId h]
  exact insertOne_first inserts[0].2 rfl hdb hbuild hbind rfl

theorem insertOne_routing (h : hasSurrogate env.projectId = false)
    (hdb : db "telemetry_routing" = []) :
    insertOne env "routing" routingGiven db =
      Function.update db "telemetry_routing" [routingRow env.projectId] := by
  have hbuild : rowRouting env routingGiven =
      .ok [.str (points ""), .str (points ""), .str (points ""), .str (points ""),
        .str (points ""), .str (points ""), .str (points ""), .float (.finite 0), .int 0,
        .str (points ""), .int 0, .str (points ""), .str (points ""), .str (points ""),
        .str env.projectId] := rfl
  have hbind : List.Forall₂ (fun value bound => PyVal.bind value = .ok bound)
      [.str (points ""), .str (points ""), .str (points ""), .str (points ""),
        .str (points ""), .str (points ""), .str (points ""), .float (.finite 0), .int 0,
        .str (points ""), .int 0, .str (points ""), .str (points ""), .str (points ""),
        .str env.projectId]
      [textOf "", textOf "", textOf "", textOf "", textOf "",
        textOf "", textOf "", .real (.finite 0), .integer 0, textOf "", .integer 0, textOf "",
        textOf "", textOf "", .text env.projectId] := by
    simp [bind_projectId h]
  exact insertOne_first inserts[7].2 rfl hdb hbuild hbind rfl

/-- A row of each table that the queries join, each of a project of its own. -/
theorem written_rows (agent model workflowId stamp : String) {usage cost execution routing : Points}
    (husage : hasSurrogate usage = false) (hcost : hasSurrogate cost = false)
    (hexecution : hasSurrogate execution = false) (hrouting : hasSurrogate routing = false) :
    ∃ db, Written db ∧ db "telemetry_usage" = [usageRow agent model stamp usage] ∧
      db "telemetry_costs" = [costRow stamp cost] ∧
      db "telemetry_executions" = [executionRow workflowId execution] ∧
      db "telemetry_routing" = [routingRow routing] := by
  let writes : List (StoreEnv × String × Record) :=
    [({ projectId := usage }, "usage", usageGiven agent model stamp),
      ({ projectId := cost }, "costs", costGiven stamp),
      ({ projectId := execution }, "executions", executionGiven workflowId),
      ({ projectId := routing }, "routing", routingGiven)]
  refine ⟨_, ⟨writes, rfl⟩, ?_⟩
  simp only [writes, List.foldl_cons, List.foldl_nil]
  rw [insertOne_usage husage rfl, insertOne_cost hcost (by simp),
    insertOne_execution hexecution (by simp), insertOne_routing hrouting (by simp)]
  simp

end Leaks

section Leaking

variable {numerics : Numerics} {projectId : Points} {db : Tables} {f : Filters} {limit : ℤ}

/-- The text a filter asks for, or the empty one. -/
def asked (filter : Option String) : String := (given filter).getD ""

/-- A date that is in a range, unless the range is empty. -/
def dateWithin (dateFrom dateTo : Option String) : String := (given dateFrom).getD (asked dateTo)

theorem holds_optional {row : Row} {column : String} {filter : Option String}
    (h : row.get column = textOf (asked filter)) :
    ∀ condition ∈ optional column filter, condition.holds db row = true := by
  intro condition hmem
  unfold optional at hmem
  rw [Option.mem_toList, Option.map_eq_some_iff] at hmem
  obtain ⟨text, htext, rfl⟩ := hmem
  unfold asked at h
  rw [htext, Option.getD_some] at h
  exact sqlEq_iff.mpr ⟨by rw [h]; exact SqlValue.noConfusion, h⟩

theorem holds_optionalAmong {row found : Row} {table column : String} {filter : Option String}
    (hfound : found ∈ db table) (h : found.get column = textOf (asked filter))
    (hid : row.get "execution_id" = textOf "") (hid' : found.get "execution_id" = textOf "") :
    ∀ condition ∈ optionalAmong table column filter, condition.holds db row = true := by
  intro condition hmem
  unfold optionalAmong at hmem
  rw [Option.mem_toList, Option.map_eq_some_iff] at hmem
  obtain ⟨text, htext, rfl⟩ := hmem
  unfold asked at h
  rw [htext, Option.getD_some] at h
  have hcolumn : sqlEq (found.get column) (textOf text) = true :=
    sqlEq_iff.mpr ⟨by rw [h]; exact SqlValue.noConfusion, h⟩
  have hkey : sqlEq (row.get "execution_id") (found.get "execution_id") = true := by
    rw [hid, hid']
    rfl
  refine List.any_eq_true.mpr ⟨found, hfound, ?_⟩
  rw [hcolumn, hkey]
  rfl

theorem pointsLe_refl : ∀ x : Points, pointsLe x x = true
  | [] => rfl
  | a :: x => by
    unfold pointsLe
    rw [if_pos rfl]
    exact pointsLe_refl x

theorem sqlLe_textOf {first second : String} (h : pointsLe (points first) (points second) = true) :
    sqlLe (textOf first) (textOf second) = true := by
  unfold sqlLe
  rw [Bool.and_eq_true, Bool.and_eq_true]
  exact ⟨⟨rfl, rfl⟩, h⟩

theorem holds_between {row : Row} {column : String} {dateFrom dateTo : Option String}
    (hrange : ¬emptyRange dateFrom dateTo) (h : row.get column = textOf (dateWithin dateFrom dateTo)) :
    ∀ condition ∈ between column dateFrom dateTo, condition.holds db row = true := by
  intro condition hmem
  unfold between at hmem
  rw [List.mem_append, Option.mem_toList, Option.mem_toList, Option.map_eq_some_iff,
    Option.map_eq_some_iff] at hmem
  unfold dateWithin asked at h
  obtain ⟨start, hstart, rfl⟩ | ⟨stop, hstop, rfl⟩ := hmem
  · rw [hstart, Option.getD_some] at h
    rw [Condition.holds_since, h]
    exact sqlLe_textOf (pointsLe_refl _)
  · rw [hstop, Option.getD_some] at h
    rw [Condition.holds_until, h]
    refine sqlLe_textOf ?_
    cases hstart : given dateFrom with
    | none => exact pointsLe_refl _
    | some start =>
      by_contra hle
      exact hrange ⟨start, stop, hstart, hstop, Bool.eq_false_of_not_eq_true hle⟩

/-- The one row of a table, under conditions that it meets. -/
theorem select_singleton {table : String} {row : Row} {conditions : List Condition}
    (htable : db table = [row])
    (h : ∀ condition ∈ conditions, condition.holds db row = true) : select db table conditions = [row] := by
  unfold select
  rw [htable]
  have hall : conditions.all (Condition.holds db row) = true := List.all_eq_true.mpr h
  rw [List.filter_cons, if_pos hall, List.filter_nil]

/-- A nested select that finds nothing. -/
theorem select_optionalAmong_nil {table other column : String} {filter : Option String}
    {conditions : List Condition} (hfilter : given filter ≠ none) (hother : db other = [])
    (hsub : optionalAmong other column filter ⊆ conditions) :
    select db table (ownedBy projectId :: conditions) = [] := by
  obtain ⟨text, htext⟩ := Option.ne_none_iff_exists'.mp hfilter
  unfold optionalAmong at hsub
  rw [htext] at hsub
  have hin : Condition.among "execution_id" other column (textOf text) ∈ conditions :=
    hsub List.mem_cons_self
  refine select_eq_nil (List.mem_cons_of_mem _ hin) fun row _ => ?_
  rw [Condition.holds_among, hother]
  rfl

/-- Rows of the project stay, all others go. -/
theorem projectRows_own {table : String} {row : Row} {projectId : Points} (htable : db table = [row])
    (h : row.get "project_id" = .text projectId) : projectRows projectId db table = [row] := by
  have hown : sqlEq (row.get "project_id") (.text projectId) = true :=
    sqlEq_iff.mpr ⟨by rw [h]; exact SqlValue.noConfusion, h⟩
  unfold projectRows ownRows
  rw [htable, List.filter_cons, if_pos hown, List.filter_nil]

theorem projectRows_other {table : String} {row : Row} {projectId other : Points}
    (htable : db table = [row]) (h : row.get "project_id" = .text other) (hne : other ≠ projectId) :
    projectRows projectId db table = [] := by
  have hother : ¬sqlEq (row.get "project_id") (.text projectId) = true := by
    rw [sqlEq_iff, h]
    rintro ⟨_, heq⟩
    exact hne (SqlValue.text.inj heq)
  unfold projectRows ownRows
  rw [htable, List.filter_cons, if_neg hother, List.filter_nil]

/-- Another project than the one of a name. -/
def otherProject (name : String) : Points := 0 :: points name

theorem otherProject_ne (name : String) : otherProject name ≠ points name := by
  unfold otherProject
  exact List.cons_ne_self 0 (points name)

theorem hasSurrogate_otherProject (name : String) : hasSurrogate (otherProject name) = false := by
  have h := hasSurrogate_points name
  unfold hasSurrogate at h ⊢
  unfold otherProject
  rw [List.any_cons, h]
  rfl

/-- `query_usage` finds a row whose workflow another project ran. -/
theorem select_usage_leak {projectId other : Points} {workflowId : String}
    (husage : db "telemetry_usage" =
      [usageRow (asked f.agent) (asked f.model) (dateWithin f.dateFrom f.dateTo) projectId])
    (hexecution : db "telemetry_executions" = [executionRow workflowId other])
    (hworkflow : workflowId = asked f.workflowId) (hrange : ¬emptyRange f.dateFrom f.dateTo) :
    select db "telemetry_usage" (ownedBy projectId :: filterConditions f true) =
      [usageRow (asked f.agent) (asked f.model) (dateWithin f.dateFrom f.dateTo) projectId] := by
  subst hworkflow
  have hfound : executionRow (asked f.workflowId) other ∈ db "telemetry_executions" := by
    rw [hexecution]
    exact List.mem_singleton_self _
  refine select_singleton husage fun condition hmem => ?_
  obtain rfl | hmem := List.mem_cons.mp hmem
  · exact sqlEq_iff.mpr ⟨SqlValue.noConfusion, rfl⟩
  unfold filterConditions at hmem
  rw [if_pos rfl, if_pos rfl, List.mem_append, List.mem_append, List.mem_append] at hmem
  obtain ((hagent | hmodel) | hworkflow) | hdate := hmem
  · exact holds_optional rfl condition hagent
  · exact holds_optional rfl condition hmodel
  · exact holds_optionalAmong hfound rfl rfl rfl condition hworkflow
  · exact holds_between hrange rfl condition hdate

/-- The filters of `query_costs`. -/
def costConditions (f : Filters) : List Condition :=
  optionalAmong "telemetry_usage" "agent" f.agent ++ optionalAmong "telemetry_usage" "model" f.model ++
    optionalAmong "telemetry_executions" "workflow_id" f.workflowId ++
    between "calculated_at" f.dateFrom f.dateTo

/-- `query_costs` finds a row whose execution another project describes. -/
theorem select_costs_leak {projectId usage execution : Points} {stamp : String}
    (hcosts : db "telemetry_costs" = [costRow (dateWithin f.dateFrom f.dateTo) projectId])
    (husage : db "telemetry_usage" = [usageRow (asked f.agent) (asked f.model) stamp usage])
    (hexecution : db "telemetry_executions" = [executionRow (asked f.workflowId) execution])
    (hrange : ¬emptyRange f.dateFrom f.dateTo) :
    select db "telemetry_costs" (ownedBy projectId :: costConditions f) =
      [costRow (dateWithin f.dateFrom f.dateTo) projectId] := by
  have hused : usageRow (asked f.agent) (asked f.model) stamp usage ∈ db "telemetry_usage" := by
    rw [husage]
    exact List.mem_singleton_self _
  have hexecuted : executionRow (asked f.workflowId) execution ∈ db "telemetry_executions" := by
    rw [hexecution]
    exact List.mem_singleton_self _
  refine select_singleton hcosts fun condition hmem => ?_
  obtain rfl | hmem := List.mem_cons.mp hmem
  · exact sqlEq_iff.mpr ⟨SqlValue.noConfusion, rfl⟩
  unfold costConditions at hmem
  rw [List.mem_append, List.mem_append, List.mem_append] at hmem
  obtain ((hagent | hmodel) | hworkflow) | hdate := hmem
  · exact holds_optionalAmong hused rfl rfl rfl condition hagent
  · exact holds_optionalAmong hused rfl rfl rfl condition hmodel
  · exact holds_optionalAmong hexecuted rfl rfl rfl condition hworkflow
  · exact holds_between hrange rfl condition hdate

/-- What one selected row is returned as. -/
theorem newest_singleton {projectId : Points} {table stamp : String} {conditions : List Condition}
    {row : Row} (h : select db table (ownedBy projectId :: conditions) = [row]) (hlimit : limit ≠ 0) :
    newest projectId db table conditions stamp limit = [row] := by
  unfold newest
  rw [h, orderDesc_singleton]
  exact limited_singleton hlimit row

theorem newest_nil {projectId : Points} {table stamp : String} {conditions : List Condition}
    (h : select db table (ownedBy projectId :: conditions) = []) :
    newest projectId db table conditions stamp limit = [] := by
  unfold newest
  rw [h, orderDesc_nil]
  exact limited_nil limit

/-- The counts and the costs in a report. -/
theorem aggregateUsage_fields {projectId : Points} {report : UsageReport}
    (h : aggregateUsage numerics projectId db f limit = .ok report) :
    report.totalRecords = countRows projectId db "telemetry_usage" (filterConditions f true) ∧
      report.costRecords = queryCosts projectId db f limit := by
  unfold aggregateUsage at h
  simp only [bind, Except.bind] at h
  split at h
  · cases h
  split at h
  · cases h
  split at h
  · cases h
  split at h
  · cases h
  split at h
  · cases h
  split at h
  · cases h
  split at h
  · cases h
  split at h
  · cases h
  split at h
  · cases h
  cases h
  exact ⟨rfl, rfl⟩

/-- A report about nothing. -/
theorem aggregateUsage_of_nil {projectId : Points} (husage : usageRows projectId db f limit = [])
    (hcosts : costRows projectId db f limit = []) :
    ∃ report, aggregateUsage numerics projectId db f limit = .ok report := by
  unfold aggregateUsage
  rw [husage, hcosts]
  exact ⟨_, rfl⟩

end Leaking

section Iff

variable {numerics : Numerics} {name : String} {f : Filters} {limit : ℤ}

/-- The nested selects of `query_usage`. -/
theorem workflow_subset_filter :
    optionalAmong "telemetry_executions" "workflow_id" f.workflowId ⊆ filterConditions f true := by
  intro condition hmem
  unfold filterConditions
  rw [if_pos rfl, if_pos rfl]
  exact List.mem_append_left _ (List.mem_append_right _ hmem)

/-- The nested selects of `query_costs`. -/
theorem workflow_subset_cost :
    optionalAmong "telemetry_executions" "workflow_id" f.workflowId ⊆ costConditions f := by
  intro condition hmem
  unfold costConditions
  exact List.mem_append_left _ (List.mem_append_right _ hmem)

theorem agent_subset_cost :
    optionalAmong "telemetry_usage" "agent" f.agent ⊆ costConditions f := by
  intro condition hmem
  unfold costConditions
  exact List.mem_append_left _ (List.mem_append_left _ (List.mem_append_left _ hmem))

theorem model_subset_cost :
    optionalAmong "telemetry_usage" "model" f.model ⊆ costConditions f := by
  intro condition hmem
  unfold costConditions
  exact List.mem_append_left _ (List.mem_append_left _ (List.mem_append_right _ hmem))

/-- A workflow that another project recorded selects the project's usage and costs. -/
theorem workflow_leak (name : String) (hworkflow : given f.workflowId ≠ none)
    (hrange : ¬emptyRange f.dateFrom f.dateTo) :
    ∃ db, Written db ∧
      (∃ row, select db "telemetry_usage" (ownedBy (points name) :: filterConditions f true) = [row]) ∧
      (∃ row, select db "telemetry_costs" (ownedBy (points name) :: costConditions f) = [row]) ∧
      select (projectRows (points name) db) "telemetry_usage"
        (ownedBy (points name) :: filterConditions f true) = [] ∧
      select (projectRows (points name) db) "telemetry_costs"
        (ownedBy (points name) :: costConditions f) = [] := by
  obtain ⟨db, hwritten, husage, hcosts, hexecution, _⟩ :=
    written_rows (asked f.agent) (asked f.model) (asked f.workflowId)
      (dateWithin f.dateFrom f.dateTo) (hasSurrogate_points name) (hasSurrogate_points name)
      (hasSurrogate_otherProject name) (hasSurrogate_points name)
  have hgone : projectRows (points name) db "telemetry_executions" = [] :=
    projectRows_other hexecution rfl (otherProject_ne name)
  refine ⟨db, hwritten, ⟨_, select_usage_leak husage hexecution rfl hrange⟩,
    ⟨_, select_costs_leak hcosts husage hexecution hrange⟩, ?_, ?_⟩
  · exact select_optionalAmong_nil hworkflow hgone workflow_subset_filter
  · exact select_optionalAmong_nil hworkflow hgone workflow_subset_cost

/-- Usage that another project recorded selects the project's costs. -/
theorem usage_leak (name : String) (hused : given f.agent ≠ none ∨ given f.model ≠ none)
    (hrange : ¬emptyRange f.dateFrom f.dateTo) :
    ∃ db, Written db ∧
      (∃ row, select db "telemetry_costs" (ownedBy (points name) :: costConditions f) = [row]) ∧
      projectRows (points name) db "telemetry_usage" = [] ∧
      select (projectRows (points name) db) "telemetry_costs"
        (ownedBy (points name) :: costConditions f) = [] := by
  obtain ⟨db, hwritten, husage, hcosts, hexecution, _⟩ :=
    written_rows (asked f.agent) (asked f.model) (asked f.workflowId)
      (dateWithin f.dateFrom f.dateTo) (hasSurrogate_otherProject name) (hasSurrogate_points name)
      (hasSurrogate_points name) (hasSurrogate_points name)
  have hgone : projectRows (points name) db "telemetry_usage" = [] :=
    projectRows_other husage rfl (otherProject_ne name)
  refine ⟨db, hwritten, ⟨_, select_costs_leak hcosts husage hexecution hrange⟩, hgone, ?_⟩
  obtain hagent | hmodel := hused
  · exact select_optionalAmong_nil hagent hgone agent_subset_cost
  · exact select_optionalAmong_nil hmodel hgone model_subset_cost

/-- A decision, an execution and a cost, all of another project. -/
theorem route_leak (name : String) : ∃ db, Written db ∧ (∃ row, accuracyRows db = [row]) ∧
    accuracyRows (projectRows (points name) db) = [] := by
  obtain ⟨db, hwritten, _, hcosts, hexecution, hrouting⟩ :=
    written_rows "" "" "" "" (hasSurrogate_otherProject name) (hasSurrogate_otherProject name)
      (hasSurrogate_otherProject name) (hasSurrogate_otherProject name)
  have hgone : projectRows (points name) db "telemetry_routing" = [] :=
    projectRows_other hrouting rfl (otherProject_ne name)
  refine ⟨db, hwritten, ?_, ?_⟩
  · unfold accuracyRows
    rw [hrouting, hexecution, hcosts]
    exact ⟨_, rfl⟩
  · unfold accuracyRows
    rw [hgone]
    rfl

/-- The answers with one row and with none. -/
theorem records_ne (columns : List String) (row : Row) :
    (.ok (.records ([row].map (toRecord columns))) : Except PyExc Answer) ≠
      .ok (.records (([] : List Row).map (toRecord columns))) := by
  intro h
  have hlength := congrArg List.length (Answer.records.inj (Except.ok.inj h))
  cases hlength

theorem usage_isolated_iff :
    (Query.usage f limit).Isolated numerics (points name) ↔ (Query.usage f limit).Scoped := by
  constructor
  · intro h
    by_contra hscoped
    obtain ⟨hworkflow, hrest⟩ := not_or.mp hscoped
    obtain ⟨hlimit, hrange⟩ := not_or.mp hrest
    obtain ⟨db, hwritten, ⟨row, hrow⟩, _, hnone, _⟩ := workflow_leak name hworkflow hrange
    have heq := h db hwritten
    have hfull : usageRows (points name) db f limit = [row] := newest_singleton hrow hlimit
    have hgone : usageRows (points name) (projectRows (points name) db) f limit = [] :=
      newest_nil hnone
    simp only [Query.answer, queryUsage] at heq
    rw [hfull, hgone] at heq
    exact records_ne USAGE_KEYS row heq
  · intro h db _
    have hrows := @usageRows_projectRows (points name) db f limit h
    simp only [Query.answer, queryUsage]
    rw [hrows]

theorem costs_isolated_iff :
    (Query.costs f limit).Isolated numerics (points name) ↔ (Query.costs f limit).Scoped := by
  constructor
  · intro h
    by_contra hscoped
    obtain ⟨hfilters, hrest⟩ := not_or.mp hscoped
    obtain ⟨hlimit, hrange⟩ := not_or.mp hrest
    -- some row of another project answers one of the nested selects
    obtain ⟨db, hwritten, ⟨row, hrow⟩, hnone⟩ : ∃ db, Written db ∧
        (∃ row, select db "telemetry_costs" (ownedBy (points name) :: costConditions f) = [row]) ∧
        select (projectRows (points name) db) "telemetry_costs"
          (ownedBy (points name) :: costConditions f) = [] := by
      by_cases hworkflow : given f.workflowId = none
      · have hused : given f.agent ≠ none ∨ given f.model ≠ none := by
          by_contra hneither
          obtain ⟨hagent, hmodel⟩ := not_or.mp hneither
          exact hfilters ⟨not_not.mp hagent, not_not.mp hmodel, hworkflow⟩
        obtain ⟨db, hwritten, hrow, _, hnone⟩ := usage_leak name hused hrange
        exact ⟨db, hwritten, hrow, hnone⟩
      · obtain ⟨db, hwritten, _, hrow, _, hnone⟩ := workflow_leak name hworkflow hrange
        exact ⟨db, hwritten, hrow, hnone⟩
    have heq := h db hwritten
    have hfull : costRows (points name) db f limit = [row] := newest_singleton hrow hlimit
    have hgone : costRows (points name) (projectRows (points name) db) f limit = [] :=
      newest_nil hnone
    simp only [Query.answer, queryCosts] at heq
    rw [hfull, hgone] at heq
    exact records_ne COST_KEYS row heq
  · intro h db _
    have hrows := @costRows_projectRows (points name) db f limit h
    simp only [Query.answer, queryCosts]
    rw [hrows]

/-- Two reports that are the same count the same rows and list the same costs. -/
theorem aggregateUsage_same {projectId : Points} {db other : Tables} {report : UsageReport}
    (hother : aggregateUsage numerics projectId other f limit = .ok report)
    (h : (Query.aggregateUsage f limit).answer numerics projectId db =
      (Query.aggregateUsage f limit).answer numerics projectId other) :
    countRows projectId db "telemetry_usage" (filterConditions f true) =
        countRows projectId other "telemetry_usage" (filterConditions f true) ∧
      queryCosts projectId db f limit = queryCosts projectId other f limit := by
  simp only [Query.answer] at h
  rw [hother] at h
  cases hdb : aggregateUsage numerics projectId db f limit with
  | error exc =>
    rw [hdb] at h
    cases h
  | ok found =>
    rw [hdb] at h
    have hsame : found = report := Answer.report.inj (Except.ok.inj h)
    subst hsame
    obtain ⟨hcount, hcosts⟩ := aggregateUsage_fields hdb
    obtain ⟨hcount', hcosts'⟩ := aggregateUsage_fields hother
    exact ⟨hcount.symm.trans hcount', hcosts.symm.trans hcosts'⟩

theorem aggregateUsage_isolated_iff :
    (Query.aggregateUsage f limit).Isolated numerics (points name) ↔
      (Query.aggregateUsage f limit).Scoped := by
  constructor
  · intro h
    by_contra hscoped
    obtain ⟨hfilters, hrange⟩ := not_or.mp hscoped
    by_cases hworkflow : given f.workflowId = none
    · have hrest : ¬((given f.agent = none ∧ given f.model = none) ∨ limit = 0) :=
        fun hrest => hfilters ⟨hworkflow, hrest⟩
      obtain ⟨hneither, hlimit⟩ := not_or.mp hrest
      have hused : given f.agent ≠ none ∨ given f.model ≠ none := by
        by_contra hnot
        obtain ⟨hagent, hmodel⟩ := not_or.mp hnot
        exact hneither ⟨not_not.mp hagent, not_not.mp hmodel⟩
      obtain ⟨db, hwritten, ⟨row, hrow⟩, hgone, hnone⟩ := usage_leak name hused hrange
      have husage : select (projectRows (points name) db) "telemetry_usage"
          (ownedBy (points name) :: filterConditions f true) = [] := by
        unfold select
        rw [hgone, List.filter_nil]
      have hcosts : costRows (points name) (projectRows (points name) db) f limit = [] :=
        newest_nil hnone
      obtain ⟨report, hreport⟩ := @aggregateUsage_of_nil numerics _ f limit _ (newest_nil husage) hcosts
      obtain ⟨_, hsame⟩ := aggregateUsage_same hreport (h db hwritten)
      have hfull : costRows (points name) db f limit = [row] := newest_singleton hrow hlimit
      unfold queryCosts at hsame
      rw [hfull, hcosts] at hsame
      cases hsame
    · obtain ⟨db, hwritten, ⟨row, hrow⟩, _, husage, hnone⟩ := workflow_leak name hworkflow hrange
      obtain ⟨report, hreport⟩ :=
        @aggregateUsage_of_nil numerics _ f limit _ (newest_nil husage) (newest_nil hnone)
      obtain ⟨hsame, _⟩ := aggregateUsage_same hreport (h db hwritten)
      unfold countRows at hsame
      rw [hrow, husage] at hsame
      cases hsame
  · intro h db _
    have hreport := @aggregateUsage_projectRows numerics (points name) db f limit h
    simp only [Query.answer]
    rw [hreport]

/-- One answer for each of the rows. -/
theorem records_mapM_ne (g : Row → Except PyExc Record) (row : Row) :
    ([row].mapM g).map Answer.records ≠ (([] : List Row).mapM g).map Answer.records := by
  rw [List.mapM_cons]
  intro h
  cases hg : g row with
  | error exc =>
    rw [hg] at h
    cases h
  | ok record =>
    rw [hg] at h
    cases h

theorem routeAccuracy_isolated_iff :
    (Query.routeAccuracy limit).Isolated numerics (points name) ↔
      (Query.routeAccuracy limit).Scoped := by
  constructor
  · intro h
    by_contra hlimit
    obtain ⟨db, hwritten, ⟨row, hrow⟩, hnone⟩ := route_leak name
    have heq := h db hwritten
    simp only [Query.answer, queryRouteAccuracy] at heq
    rw [hrow, hnone, orderDesc_singleton, orderDesc_nil, limited_singleton hlimit, limited_nil] at heq
    exact records_mapM_ne _ row heq
  · intro h db _
    have hlimit : limit = 0 := h
    subst hlimit
    rfl

/-- The queries of one table, which all name the project. -/
theorem plain_isolated {query : Query}
    (h : ∀ db, query.answer numerics (points name) (projectRows (points name) db) =
      query.answer numerics (points name) db) : query.Isolated numerics (points name) ↔ True := by
  refine ⟨fun _ => trivial, fun _ db _ => ?_⟩
  rw [h db]

/-- A query of a project reads that project's rows alone exactly when no table
that it asks without the project can decide about a row. -/
theorem isolated_iff (numerics : Numerics) (name : String) (query : Query) :
    query.Isolated numerics (points name) ↔ query.Scoped := by
  cases query with
  | usage f limit => exact usage_isolated_iff
  | costs f limit => exact costs_isolated_iff
  | aggregateUsage f limit => exact aggregateUsage_isolated_iff
  | routeAccuracy limit => exact routeAccuracy_isolated_iff
  | executions f limit =>
    refine plain_isolated fun db => ?_
    simp only [Query.answer, queryExecutions_projectRows]
  | retrieval agent limit =>
    refine plain_isolated fun db => ?_
    simp only [Query.answer, queryRetrieval]
    rw [newest_projectRows (plain_optional _ _)]
  | skillStats skill agent dateFrom dateTo limit =>
    refine plain_isolated fun db => ?_
    simp only [Query.answer, querySkillStats]
    rw [ranked_projectRows (by simp)]
  | gateStats gate status dateFrom dateTo limit =>
    refine plain_isolated fun db => ?_
    simp only [Query.answer, queryGateStats, gateConditions]
    rw [ranked_projectRows (by simp)]
  | gateRecords gate status dateFrom dateTo limit =>
    refine plain_isolated fun db => ?_
    simp only [Query.answer, queryGateRecords, gateConditions]
    rw [newest_projectRows (by simp)]
  | securityStats decision agent dateFrom dateTo limit =>
    refine plain_isolated fun db => ?_
    simp only [Query.answer, querySecurityStats]
    rw [ranked_projectRows (by simp)]
  | securityRecords decision agent allowed dateFrom dateTo limit =>
    refine plain_isolated fun db => ?_
    simp only [Query.answer, querySecurityRecords]
    rw [newest_projectRows]
    rw [plain_append, plain_append, plain_append]
    exact ⟨⟨⟨plain_optional _ _, plain_optional _ _⟩, plain_toList⟩, plain_between _ _ _⟩
  | routingStats agent model dateFrom dateTo limit =>
    refine plain_isolated fun db => ?_
    simp only [Query.answer, queryRoutingStats, routingConditions]
    rw [ranked_projectRows (by simp)]
  | routingRecords agent model dateFrom dateTo limit =>
    refine plain_isolated fun db => ?_
    simp only [Query.answer, queryRoutingRecords, routingConditions]
    rw [newest_projectRows (by simp)]
  | backlogStats runId status dateFrom dateTo limit =>
    refine plain_isolated fun db => ?_
    simp only [Query.answer, queryBacklogStats]
    rw [newest_projectRows (by simp)]

/-- Two projects share a database: the first asks for the accuracy of its
routes and reads what a route of the second cost. -/
theorem not_isolated_accuracy :
    ¬∀ (numerics : Numerics) (name : String) (query : Query) (db : Tables), Written db →
      query.answer numerics (points name) db =
        query.answer numerics (points name) (projectRows (points name) db) := by
  intro h
  let store : StoreEnv := { projectId := points "beta" }
  let numerics : Numerics :=
    { sum := fun _ => .null, avg := fun _ => .null, round := fun x _ => x, roundFloat := fun x _ => x
      parseFloat := fun _ => .ok (.finite 0), loads := fun _ => .ok .none }
  let writes : List (StoreEnv × String × Record) :=
    [(store, "routing", [("agent", .str (points "coder")), ("model", .str (points "sonnet")),
        ("estimated_cost", .float (.finite (1 / 4)))]),
      (store, "executions", [("execution_id", .str (points "e1")), ("event_id", .str (points "v1")),
        ("agent", .str (points "coder")), ("model", .str (points "sonnet"))]),
      (store, "costs", [("execution_id", .str (points "e1")),
        ("total_cost", .float (.finite (1 / 2)))])]
  let db : Tables := writes.foldl (fun db write => insertOne write.1 write.2.1 write.2.2 db) fun _ => []
  have hone : (accuracyRows db).length = 1 := by decide
  have hnone : (accuracyRows (projectRows (points "alpha") db)).length = 0 := by decide
  obtain ⟨row, hrow⟩ := List.length_eq_one_iff.mp hone
  have hanswer := h numerics "alpha" (.routeAccuracy 100) db ⟨writes, rfl⟩
  simp only [Query.answer, queryRouteAccuracy] at hanswer
  rw [hrow, List.eq_nil_of_length_eq_zero hnone, orderDesc_singleton, orderDesc_nil,
    limited_singleton (by decide), limited_nil] at hanswer
  exact records_mapM_ne _ row hanswer

end Iff

end AiosDeck.Telemetry
