import AiosDeck.Logic.Overrides
import AiosDeck.Python.Values

/-!
# The schema of benchmark reports

`validate_report` lists what a report violates. A report without violations has the top-level
keys, and results that are either marked as skipped with a reason or have runs with the
metrics of the schema.
-/

namespace AiosDeck.Telemetry

open Python

/-- A dictionary of JSON. -/
abbrev Fields := List (String × Json)

namespace Schema

def schemaVersion : String := "1.1"

def supportedSchemaVersions : List String := ["1.0", "1.1"]

def requiredKeys : List String :=
  ["schema_version", "aiosdeck_version", "git_commit", "timestamp", "system_info", "results"]

def metrics : List String := ["wall_time_ms", "cpu_user_ms", "cpu_system_ms", "peak_memory_kb"]

def groups : List String := ["phases", "commands", "startup"]

/-- Keys of a run besides the metrics. -/
def runExtras : List String := ["error", "timings", "warning", "observability"]

/-- `key in fields`. -/
def hasKey (fields : Fields) (key : String) : Bool := (fields.lookup key).isSome

/-- `fields.get(key)`. -/
def get (fields : Fields) (key : String) : Json := (fields.lookup key).getD .null

/-- `value in names`. -/
def oneOf (names : List String) : Json → Bool
  | .str s => decide (s ∈ names)
  | _ => false

/-- One violation, if there is one. -/
def violation (violated : Bool) (message : String) : List String := if violated then [message] else []

section Validation

-- how a datum prints, `repr(value)`
variable (repr : Json → String)

def validateRun (index runIndex : ℕ) (run : Json) : List String :=
  let label := "results[" ++ toString index ++ "].runs[" ++ toString runIndex ++ "]"
  match run with
  | .obj fields =>
    metrics.flatMap (fun metric =>
      violation (!hasKey fields metric) (label ++ " missing metric " ++ metric)) ++
    fields.flatMap (fun field =>
      violation (decide (field.1 ∉ metrics ∧ field.1 ∉ runExtras))
        (label ++ " unknown key " ++ repr (.str field.1))) ++
    match get fields "timings" with
    | .null | .obj _ => []
    | _ => [label ++ " timings must be an object"]
  | _ => [label ++ " must be an object"]

def validateResult (index : ℕ) (result : Json) : List String :=
  let label := "results[" ++ toString index ++ "]"
  match result with
  | .obj fields =>
    violation (!oneOf groups (get fields "group"))
      (label ++ " group must be one of " ++ join ", " groups) ++
    violation (!hasKey fields "target") (label ++ " missing target") ++
    if (get fields "skipped").truthy then
      violation (!(get fields "reason").truthy) (label ++ " skipped result missing reason")
    else
      match get fields "runs" with
      | .arr (run :: runs) =>
        violation (!hasKey fields "summaries") (label ++ " missing summaries") ++
        (run :: runs).zipIdx.flatMap fun entry => validateRun repr index entry.2 entry.1
      | _ => [label ++ " must have a non-empty runs list"]
  | _ => [label ++ " must be an object"]

/-- The violations of a report; none means that it is valid. -/
def validateReport (report : Fields) : List String :=
  requiredKeys.flatMap (fun key =>
    violation (!hasKey report key) ("missing top-level key: " ++ key)) ++
  violation (hasKey report "schema_version" &&
      !oneOf supportedSchemaVersions (get report "schema_version"))
    ("schema_version " ++ repr (get report "schema_version") ++ " != expected " ++
      repr (.str schemaVersion)) ++
  match report.lookup "results" with
  | none => []
  | some (.arr results) =>
    results.zipIdx.flatMap fun entry => validateResult repr entry.2 entry.1
  | some _ => ["results must be a list"]

end Validation

/-- A run has the metrics, and nothing but them and the extras. -/
def ValidRun (run : Json) : Prop :=
  ∃ fields, run = .obj fields ∧ (∀ metric ∈ metrics, hasKey fields metric = true) ∧
    (∀ field ∈ fields, field.1 ∈ metrics ∨ field.1 ∈ runExtras) ∧
    (get fields "timings" = .null ∨ ∃ timings, get fields "timings" = .obj timings)

/-- A result that was measured has runs, all of them valid. -/
def ValidRuns (fields : Fields) : Prop :=
  hasKey fields "summaries" = true ∧
    ∃ run runs, get fields "runs" = .arr (run :: runs) ∧ ∀ entry ∈ run :: runs, ValidRun entry

/-- A result has a group and a target, and a reason or runs. -/
def ValidResult (result : Json) : Prop :=
  ∃ fields, result = .obj fields ∧ oneOf groups (get fields "group") = true ∧
    hasKey fields "target" = true ∧
    if (get fields "skipped").truthy then (get fields "reason").truthy = true
    else ValidRuns fields

/-- A report has its keys, a version that is supported, and valid results. -/
structure ValidReport (report : Fields) : Prop where
  keys : ∀ key ∈ requiredKeys, hasKey report key = true
  version : oneOf supportedSchemaVersions (get report "schema_version") = true
  results : ∃ results, report.lookup "results" = some (.arr results) ∧
    ∀ result ∈ results, ValidResult result

@[simp] theorem violation_eq_nil {violated : Bool} {message : String} :
    violation violated message = [] ↔ violated = false := by
  cases violated <;> simp [violation]

/-- Violations of entries, by their places. -/
theorem flatMap_zipIdx_eq_nil {α : Type} {check : ℕ → α → List String} {good : α → Prop}
    (hcheck : ∀ i a, check i a = [] ↔ good a) (items : List α) :
    (items.zipIdx.flatMap fun entry => check entry.2 entry.1) = [] ↔ ∀ a ∈ items, good a := by
  rw [List.flatMap_eq_nil_iff]
  constructor
  · intro h a ha
    obtain ⟨i, hi, rfl⟩ := List.mem_iff_getElem.mp ha
    have hmem : (items[i], i) ∈ items.zipIdx := by
      rw [List.mk_mem_zipIdx_iff_getElem?]
      exact List.getElem?_eq_getElem hi
    exact (hcheck _ _).mp (h _ hmem)
  · intro h entry hentry
    exact (hcheck _ _).mpr (h _ (List.fst_mem_of_mem_zipIdx hentry))

variable {repr : Json → String}

theorem validateRun_eq_nil (i j : ℕ) (run : Json) : validateRun repr i j run = [] ↔ ValidRun run := by
  unfold ValidRun
  cases run with
  | obj fields =>
    have htimings : ∀ message : String, (match get fields "timings" with
        | .null | .obj _ => []
        | _ => [message]) = [] ↔
        get fields "timings" = .null ∨ ∃ timings, get fields "timings" = .obj timings := by
      intro message
      cases get fields "timings" <;> simp
    unfold validateRun
    dsimp only
    rw [List.append_eq_nil_iff, List.append_eq_nil_iff, htimings, List.flatMap_eq_nil_iff,
      List.flatMap_eq_nil_iff]
    simp only [violation_eq_nil, Bool.not_eq_false', decide_eq_false_iff_not, not_and_or, not_not,
      Json.obj.injEq, exists_eq_left', and_assoc]
  | null => simp [validateRun]
  | bool b => simp [validateRun]
  | num x => simp [validateRun]
  | str s => simp [validateRun]
  | arr items => simp [validateRun]

theorem validateResult_eq_nil (i : ℕ) (result : Json) :
    validateResult repr i result = [] ↔ ValidResult result := by
  unfold ValidResult
  cases result with
  | obj fields =>
    unfold validateResult
    dsimp only
    rw [List.append_eq_nil_iff, List.append_eq_nil_iff]
    simp only [violation_eq_nil, Bool.not_eq_false', Json.obj.injEq, exists_eq_left', and_assoc]
    refine and_congr_right fun _ => and_congr_right fun _ => ?_
    by_cases hskipped : (get fields "skipped").truthy = true
    · rw [if_pos hskipped, if_pos hskipped]
      simp
    · rw [if_neg hskipped, if_neg hskipped]
      unfold ValidRuns
      cases hruns : get fields "runs" with
      | arr items =>
        cases items with
        | nil => simp
        | cons run runs =>
          dsimp only
          rw [List.append_eq_nil_iff, violation_eq_nil, Bool.not_eq_false',
            flatMap_zipIdx_eq_nil (fun j entry => validateRun_eq_nil i j entry)]
          refine and_congr_right fun _ => ?_
          constructor
          · intro h
            exact ⟨run, runs, rfl, h⟩
          · rintro ⟨run', runs', heq, h⟩
            cases heq
            exact h
      | null => simp
      | bool b => simp
      | num x => simp
      | str s => simp
      | obj items => simp
  | null => simp [validateResult]
  | bool b => simp [validateResult]
  | num x => simp [validateResult]
  | str s => simp [validateResult]
  | arr items => simp [validateResult]

/-- A report without violations is a valid one. -/
theorem validateReport_eq_nil (report : Fields) : validateReport repr report = [] ↔ ValidReport report := by
  unfold validateReport
  rw [List.append_eq_nil_iff, List.append_eq_nil_iff, List.flatMap_eq_nil_iff]
  simp only [violation_eq_nil, Bool.not_eq_false', Bool.and_eq_false_imp]
  constructor
  · rintro ⟨⟨hkeys, hversion⟩, hresults⟩
    have hkey : ∀ key ∈ requiredKeys, hasKey report key = true := fun key h => hkeys key h
    refine ⟨hkey, ?_, ?_⟩
    · exact hversion (hkey "schema_version" (by decide))
    · have hsome := hkey "results" (by decide)
      unfold hasKey at hsome
      obtain ⟨found, hfound⟩ := Option.isSome_iff_exists.mp hsome
      rw [hfound] at hresults
      cases found with
      | arr results =>
        dsimp only at hresults
        rw [flatMap_zipIdx_eq_nil validateResult_eq_nil] at hresults
        exact ⟨results, hfound, hresults⟩
      | null => cases hresults
      | bool b => cases hresults
      | num x => cases hresults
      | str s => cases hresults
      | obj items => cases hresults
  · rintro ⟨hkeys, hversion, results, hfound, hresults⟩
    refine ⟨⟨hkeys, fun _ => hversion⟩, ?_⟩
    rw [hfound]
    dsimp only
    rw [flatMap_zipIdx_eq_nil validateResult_eq_nil]
    exact hresults

end Schema

end AiosDeck.Telemetry
