import AiosDeck.Telemetry.Queries

/-!
# Whose rows a query reads

A query that names its project in every table it reads answers as if the
database held the rows of that project alone. The nested selects of
`query_usage` and `query_costs`, and the whole of `query_route_accuracy`,
name no project: rows of another one decide what they return.
-/

namespace AiosDeck.Telemetry

open Python Storage

/-- The rows of a project. -/
def projectRows (projectId : Points) (db : Tables) : Tables :=
  ownRows "project_id" (.text projectId) db

/-- No other project changes what the query returns to this one. -/
def Query.Isolated (numerics : Numerics) (projectId : Points) (query : Query) : Prop :=
  ∀ db, Written db →
    query.answer numerics projectId db = query.answer numerics projectId (projectRows projectId db)

/-- The range of dates ends before it starts. -/
def emptyRange (dateFrom dateTo : Option String) : Prop :=
  ∃ start stop, given dateFrom = some start ∧ given dateTo = some stop ∧
    pointsLe (points start) (points stop) = false

/-- The calls that ask no table without its project: no nested select is
set up, or nothing is left to be selected by it. -/
def Query.Scoped : Query → Prop
  | .usage f limit => given f.workflowId = none ∨ limit = 0 ∨ emptyRange f.dateFrom f.dateTo
  | .costs f limit =>
    (given f.agent = none ∧ given f.model = none ∧ given f.workflowId = none) ∨ limit = 0 ∨
      emptyRange f.dateFrom f.dateTo
  -- the totals of the report are counted without a limit
  | .aggregateUsage f limit =>
    (given f.workflowId = none ∧ ((given f.agent = none ∧ given f.model = none) ∨ limit = 0)) ∨
      emptyRange f.dateFrom f.dateTo
  | .routeAccuracy limit => limit = 0
  | _ => True

section Plain

/-- Conditions that ask nothing of another table. -/
def Plain (conditions : List Condition) : Prop :=
  ∀ condition ∈ conditions, condition.isPlain = true

@[simp] theorem plain_append {first second : List Condition} :
    Plain (first ++ second) ↔ Plain first ∧ Plain second := by
  unfold Plain
  exact List.forall_mem_append

@[simp] theorem plain_optional (column : String) (filter : Option String) :
    Plain (optional column filter) := by
  intro condition hmem
  unfold optional at hmem
  rw [Option.mem_toList, Option.map_eq_some_iff] at hmem
  obtain ⟨text, _, rfl⟩ := hmem
  rfl

@[simp] theorem plain_between (column : String) (dateFrom dateTo : Option String) :
    Plain (between column dateFrom dateTo) := by
  intro condition hmem
  unfold between at hmem
  rw [List.mem_append, Option.mem_toList, Option.mem_toList, Option.map_eq_some_iff,
    Option.map_eq_some_iff] at hmem
  obtain ⟨text, _, rfl⟩ | ⟨text, _, rfl⟩ := hmem
  · rfl
  · rfl

theorem plain_toList {filter : Option Bool} {column : String} {value : Bool → SqlValue} :
    Plain (filter.map fun set => Condition.equals column (value set)).toList := by
  intro condition hmem
  rw [Option.mem_toList, Option.map_eq_some_iff] at hmem
  obtain ⟨set, _, rfl⟩ := hmem
  rfl

/-- A nested select that is not asked for. -/
theorem optionalAmong_of_none {filter : Option String} (h : given filter = none)
    (table column : String) : optionalAmong table column filter = [] := by
  unfold optionalAmong
  rw [h]
  rfl

end Plain

section Own

variable {projectId : Points} {db : Tables} {conditions : List Condition}

theorem select_projectRows (h : Plain conditions) (table : String) :
    select (projectRows projectId db) table (ownedBy projectId :: conditions) =
      select db table (ownedBy projectId :: conditions) := by
  refine select_ownRows List.mem_cons_self fun condition hmem => ?_
  obtain rfl | hrest := List.mem_cons.mp hmem
  · rfl
  · exact h condition hrest

theorem newest_projectRows (h : Plain conditions) (table stamp : String) (limit : ℤ) :
    newest projectId (projectRows projectId db) table conditions stamp limit =
      newest projectId db table conditions stamp limit := by
  unfold newest
  rw [select_projectRows h]

theorem ranked_projectRows (h : Plain conditions) (table : String) (groupBy : List String)
    (aggregate : List Row → Row) (ranking : List String) (limit : ℤ) :
    ranked projectId (projectRows projectId db) table conditions groupBy aggregate ranking limit =
      ranked projectId db table conditions groupBy aggregate ranking limit := by
  unfold ranked
  rw [select_projectRows h]

theorem countRows_projectRows (h : Plain conditions) (table : String) :
    countRows projectId (projectRows projectId db) table conditions =
      countRows projectId db table conditions := by
  unfold countRows
  rw [select_projectRows h]

/-- Nothing is returned under a limit of zero. -/
theorem newest_limit_zero (table stamp : String) :
    newest projectId db table conditions stamp 0 = [] := by
  unfold newest
  exact limited_zero _

end Own

section EmptyRange

theorem pointsLe_trans : ∀ {x y z : Points}, pointsLe x y = true → pointsLe y z = true →
    pointsLe x z = true
  | [], _, _, _, _ => rfl
  | _ :: _, [], _, hxy, _ => by cases hxy
  | _ :: _, _ :: _, [], _, hyz => by cases hyz
  | a :: x, b :: y, c :: z, hxy, hyz => by
    unfold pointsLe at hxy hyz ⊢
    by_cases hab : a = b
    · subst hab
      by_cases hac : a = c
      · subst hac
        rw [if_pos rfl] at hxy hyz ⊢
        exact pointsLe_trans hxy hyz
      · rw [if_neg hac] at hyz ⊢
        exact hyz
    · rw [if_neg hab] at hxy
      have hlt := of_decide_eq_true hxy
      by_cases hbc : b = c
      · subst hbc
        rw [if_neg hab]
        exact hxy
      · rw [if_neg hbc] at hyz
        have hlt' := of_decide_eq_true hyz
        have hac : a ≠ c := by omega
        rw [if_neg hac]
        exact decide_eq_true (by omega)

/-- A value between two texts is one, and the texts are in order. -/
theorem pointsLe_of_between {start stop : Points} {x : SqlValue}
    (hsince : sqlLe (.text start) x = true) (huntil : sqlLe x (.text stop) = true) :
    pointsLe start stop = true := by
  unfold sqlLe at hsince huntil
  rw [Bool.and_eq_true] at hsince huntil
  cases x with
  | text content => exact pointsLe_trans hsince.2 huntil.2
  | null => cases hsince.2
  | integer n => cases hsince.2
  | real y => cases hsince.2
  | blob content => cases huntil.2

variable {projectId : Points} {db : Tables} {dateFrom dateTo : Option String}

/-- No row has a date in an empty range. -/
theorem select_emptyRange (h : emptyRange dateFrom dateTo) (table column : String)
    (conditions : List Condition) :
    select db table (ownedBy projectId :: (conditions ++ between column dateFrom dateTo)) = [] := by
  obtain ⟨start, stop, hfrom, hto, horder⟩ := h
  refine List.eq_nil_iff_forall_not_mem.mpr fun row hrow => ?_
  obtain ⟨_, hholds⟩ := mem_select.mp hrow
  have hmem : ∀ condition ∈ between column dateFrom dateTo, condition.holds db row = true :=
    fun condition hin => hholds condition
      (List.mem_cons_of_mem _ (List.mem_append_right _ hin))
  unfold between at hmem
  rw [hfrom, hto] at hmem
  have hsince := hmem (.since column (textOf start)) List.mem_cons_self
  have huntil := hmem (.until column (textOf stop)) (List.mem_cons_of_mem _ List.mem_cons_self)
  have hle := pointsLe_of_between hsince huntil
  rw [horder] at hle
  cases hle

theorem newest_emptyRange (h : emptyRange dateFrom dateTo) (table column stamp : String)
    (conditions : List Condition) (limit : ℤ) :
    newest projectId db table (conditions ++ between column dateFrom dateTo) stamp limit = [] := by
  unfold newest
  rw [select_emptyRange h, orderDesc_nil]
  exact limited_nil limit

theorem countRows_emptyRange (h : emptyRange dateFrom dateTo) (table column : String)
    (conditions : List Condition) :
    countRows projectId db table (conditions ++ between column dateFrom dateTo) = 0 := by
  unfold countRows
  rw [select_emptyRange h]
  rfl

end EmptyRange

section Scoped

variable {numerics : Numerics} {projectId : Points} {db : Tables} {f : Filters} {limit : ℤ}

/-- `query_usage` without a workflow, or with nothing to return. -/
theorem usageRows_projectRows
    (h : given f.workflowId = none ∨ limit = 0 ∨ emptyRange f.dateFrom f.dateTo) :
    usageRows projectId (projectRows projectId db) f limit = usageRows projectId db f limit := by
  unfold usageRows
  obtain hnone | rfl | hempty := h
  · rw [optionalAmong_of_none hnone]
    exact newest_projectRows (by simp) _ _ _
  · rw [newest_limit_zero, newest_limit_zero]
  · rw [newest_emptyRange hempty, newest_emptyRange hempty]

/-- `query_costs` without a filter on another table, or with nothing to return. -/
theorem costRows_projectRows
    (h : (given f.agent = none ∧ given f.model = none ∧ given f.workflowId = none) ∨ limit = 0 ∨
      emptyRange f.dateFrom f.dateTo) :
    costRows projectId (projectRows projectId db) f limit = costRows projectId db f limit := by
  unfold costRows
  obtain ⟨hagent, hmodel, hworkflow⟩ | rfl | hempty := h
  · rw [optionalAmong_of_none hagent, optionalAmong_of_none hmodel, optionalAmong_of_none hworkflow]
    exact newest_projectRows (by simp) _ _ _
  · rw [newest_limit_zero, newest_limit_zero]
  · rw [newest_emptyRange hempty, newest_emptyRange hempty]

theorem queryExecutions_projectRows :
    queryExecutions projectId (projectRows projectId db) f limit = queryExecutions projectId db f limit := by
  unfold queryExecutions
  rw [newest_projectRows (by simp)]

/-- The number of rows of usage under the filters. -/
theorem countUsage_projectRows
    (h : given f.workflowId = none ∨ emptyRange f.dateFrom f.dateTo) :
    countRows projectId (projectRows projectId db) "telemetry_usage" (filterConditions f true) =
      countRows projectId db "telemetry_usage" (filterConditions f true) := by
  unfold filterConditions
  obtain hnone | hempty := h
  · rw [optionalAmong_of_none hnone]
    exact countRows_projectRows (by simp) _
  · rw [countRows_emptyRange hempty, countRows_emptyRange hempty]

theorem countExecutions_projectRows :
    countRows projectId (projectRows projectId db) "telemetry_executions" (filterConditions f false) =
      countRows projectId db "telemetry_executions" (filterConditions f false) := by
  unfold filterConditions
  exact countRows_projectRows (by simp) _

/-- The report is built from rows and counts that are the project's own. -/
theorem aggregateUsage_projectRows
    (h : (given f.workflowId = none ∧ ((given f.agent = none ∧ given f.model = none) ∨ limit = 0)) ∨
      emptyRange f.dateFrom f.dateTo) :
    aggregateUsage numerics projectId (projectRows projectId db) f limit =
      aggregateUsage numerics projectId db f limit := by
  have husage : given f.workflowId = none ∨ emptyRange f.dateFrom f.dateTo := by
    obtain ⟨hworkflow, _⟩ | hempty := h
    · exact Or.inl hworkflow
    · exact Or.inr hempty
  have hcosts : (given f.agent = none ∧ given f.model = none ∧ given f.workflowId = none) ∨
      limit = 0 ∨ emptyRange f.dateFrom f.dateTo := by
    obtain ⟨hworkflow, ⟨hagent, hmodel⟩ | hlimit⟩ | hempty := h
    · exact Or.inl ⟨hagent, hmodel, hworkflow⟩
    · exact Or.inr (Or.inl hlimit)
    · exact Or.inr (Or.inr hempty)
  unfold aggregateUsage
  rw [usageRows_projectRows (husage.imp id Or.inr), costRows_projectRows hcosts,
    queryExecutions_projectRows, countUsage_projectRows husage, countExecutions_projectRows]

end Scoped

end AiosDeck.Telemetry
