import AiosDeck.Logic.Verdict
import AiosDeck.Telemetry.Benchmark

/-!
# Comparing benchmark reports

A baseline is compared with a current report, target by target. The comparison is a report of
its own for every two valid reports whose targets can be sorted, whose information can be
looked up, and whose baselines divide.
-/

namespace AiosDeck.Telemetry

open Python Schema

namespace Compare

/-- A group and a target, as the key of a dictionary. -/
structure Key where
  group : Atom
  target : Atom
  deriving DecidableEq, Repr

def runtimeDependent : List Key :=
  [⟨.text "phases", .text "plan"⟩, ⟨.text "phases", .text "agent_exec"⟩,
    ⟨.text "commands", .text "plan"⟩, ⟨.text "commands", .text "backlog"⟩]

def envKeys : List String := ["cpu", "cpu_count", "distro", "kernel", "python"]

def runtimeKeys : List String := ["provider", "model", "host"]

def categoryFor (key : Key) : String := if key ∈ runtimeDependent then "runtime" else "core"

/-- The fields that differ, sorted. -/
def differ (left right : Json) (keys : List String) : Except PyExc (List String) := do
  let differing ← (keys.mapM fun key => do
    let x ← (if left.truthy then left else .obj []).getD key .null
    let y ← (if right.truthy then right else .obj []).getD key .null
    return (key, x.equals y))
  return ((differing.filter fun entry => !entry.2).map Prod.fst).insertionSort (· ≤ ·)

def envDivergence (baseline current : Fields) : Except PyExc (List String) :=
  differ (get baseline "system_info") (get current "system_info") envKeys

def runtimeDivergence (baseline current : Fields) : Except PyExc (List String) :=
  differ (get baseline "runtime_info") (get current "runtime_info") runtimeKeys

/-- The median of the wall time, with its number, where a result has one. -/
def wallP50 : Option Json → Except PyExc (Option (Json × PyNum))
  | none => .ok none
  | some result => do
    let skipped ← result.getD "skipped" .null
    if skipped.truthy then .ok none
    else do
      let summaries ← result.getD "summaries" .null
      let summary ← (if summaries.truthy then summaries else .obj []).getD "wall_time_ms" .null
      if summary.truthy then do
        let p50 ← summary.getD "p50" .null
        return p50.number?.map fun x => (p50, x)
      else .ok none

/-- An entry of a dictionary of results: the key as it is shown, and the result. -/
structure Entry where
  group : Json
  target : Json
  result : Json

abbrev ByKey := List (Key × Entry)

/-- One result of a dictionary; a key that is there already stays the object that it is. -/
def addResult (entries : ByKey) (result : Json) : Except PyExc ByKey := do
  let group ← result.item "group"
  let target ← result.item "target"
  let first ← group.atom
  let second ← target.atom
  let key : Key := ⟨first, second⟩
  let entry : Entry := match entries.lookup key with
    | some old => ⟨old.group, old.target, result⟩
    | none => ⟨group, target, result⟩
  return Overrides.insert key entry entries

/-- `{(r["group"], r["target"]): r for r in report.get("results", [])}`. -/
def byKey (report : Fields) : Except PyExc ByKey := do
  let results ← ((report.lookup "results").getD (.arr [])).iter
  results.foldlM addResult []

/-- `x < y` of keys: by the first items that differ. -/
def keyLt (x y : Key) : Except PyExc Bool :=
  if x.group ≠ y.group then x.group.lt y.group
  else if x.target ≠ y.target then x.target.lt y.target
  else .ok false

/-- Two keys that can be ordered. -/
def ordered (x y : Key) : Bool := (keyLt x y).isOk

/-- `x <= y`, where no key before has to be moved behind. -/
def keyLe (x y : Key) : Bool :=
  match keyLt y x with
  | .ok less => !less
  | .error _ => true

/-- `sorted(set(baseline_by_key) | set(current_by_key))`, which raises when there are keys
that cannot be ordered. -/
def sortedKeys (baseline current : ByKey) : Except PyExc ByKey :=
  let keys := baseline ++ current.filter fun entry => !(baseline.lookup entry.1).isSome
  if keys.Pairwise fun x y => ordered x.1 y.1 = true then
    .ok (keys.insertionSort fun x y => keyLe x.1 y.1)
  else .error ⟨.typeError, "'<' not supported between instances"⟩

/-- `(current - baseline) / baseline * 100.0`. -/
def deltaPct (baseline current : PyNum) : Except PyExc PyFloat := do
  let difference ← current.sub baseline
  let quotient ← difference.div baseline
  return quotient.mul (.finite 100)

inductive Judgement where
  | regression
  | warning
  | ok
  deriving DecidableEq, Repr

def Judgement.text : Judgement → String
  | .regression => "regression"
  | .warning => "warning"
  | .ok => "ok"

/-- What the comparison says of a key. -/
inductive Row where
  | skipped (reason : String)
  | compared (verdict : Judgement) (baselineP50 currentP50 : Json) (delta : PyFloat)
      (runs summaries : Json)

def judge (key : Key) (delta threshold : PyFloat) : Judgement :=
  if threshold.lt delta then
    if categoryFor key = "core" then .regression else .warning
  else .ok

/-- `current_result.get("summaries") or summarize_runs(current_result.get("runs", []))`. -/
def currentSummaries (result : Json) : Except PyExc Json := do
  let summaries ← result.getD "summaries" .null
  if summaries.truthy then .ok summaries
  else do
    let runs ← result.getD "runs" (.arr [])
    Benchmark.summarizeRuns runs

/-- One pass of the loop over the keys. -/
def rowFor (baseline current : ByKey) (threshold : PyFloat) (key : Key) : Except PyExc Row := do
  let baselineResult := (baseline.lookup key).map Entry.result
  let currentResult := (current.lookup key).map Entry.result
  let baselineP50 ← wallP50 baselineResult
  let currentP50 ← wallP50 currentResult
  match baselineP50, currentP50, currentResult with
  | some (baselineShown, x), some (currentShown, y), some result => do
    let delta ← deltaPct x y
    let runs ← result.getD "runs" (.arr [])
    let summaries ← currentSummaries result
    return .compared (judge key delta threshold) baselineShown currentShown delta runs summaries
  | _, some _, _ => return .skipped "not measured in baseline"
  | _, none, _ => return .skipped "not measured in current"

/-- A key with its row. -/
structure Line where
  key : Key
  group : Json
  target : Json
  row : Row

namespace Line

variable (line : Line)

/-- The result in the report. -/
def result : Json :=
  let shown := [("group", line.group), ("target", line.target),
    ("category", .str (categoryFor line.key))]
  match line.row with
  | .skipped reason =>
    .obj (shown ++ [("verdict", .str "skipped"), ("skipped", .bool true), ("reason", .str reason)])
  | .compared verdict baselineP50 currentP50 delta runs summaries =>
    .obj (shown ++ [("verdict", .str verdict.text), ("baseline_p50_ms", baselineP50),
      ("current_p50_ms", currentP50), ("delta_pct", .num (.float delta)), ("runs", runs),
      ("summaries", summaries)])

/-- The entry of a list of verdicts. -/
def flagged (verdict : Judgement) : Option Json :=
  match line.row with
  | .skipped _ => none
  | .compared found _ _ delta _ _ =>
    if found = verdict then
      some (.obj [("group", line.group), ("target", line.target),
        ("delta_pct", .num (.float delta))])
    else none

def skippedEntry : Option Json :=
  match line.row with
  | .skipped reason =>
    some (.obj [("group", line.group), ("target", line.target), ("reason", .str reason)])
  | .compared .. => none

end Line

/-- The code that the comparison ends with. -/
def exitCode (envDiv runtimeDiv : List String) (coreRegressions : List Json) : ℤ :=
  if envDiv ≠ [] ∨ runtimeDiv ≠ [] then 2 else if coreRegressions ≠ [] then 1 else 0

/-- Where a report comes from. -/
def provenance (report : Fields) : Json :=
  .obj [("git_commit", get report "git_commit"),
    ("aiosdeck_version", get report "aiosdeck_version")]

/-- The `compare` section of the report. -/
def comparisonOf (baseline current : Fields) (threshold : PyFloat) (live : Bool)
    (lines : List Line) (envDiv runtimeDiv : List String) : Fields :=
  let coreRegressions := lines.filterMap fun line => line.flagged .regression
  [("baseline", provenance baseline), ("current", provenance current),
    ("threshold_pct", .num (.float threshold)), ("live_run", .bool live),
    ("exit_code", .num (.int (exitCode envDiv runtimeDiv coreRegressions))),
    ("env_divergence", .arr (envDiv.map Json.str)),
    ("runtime_divergence", .arr (runtimeDiv.map Json.str)),
    ("core_regressions", .arr coreRegressions),
    ("runtime_warnings", .arr (lines.filterMap fun line => line.flagged .warning)),
    ("skipped", .arr (lines.filterMap Line.skippedEntry))]

/-- The report of a comparison. -/
def compareReports (baseline current : Fields) (threshold : PyFloat) (live : Bool) :
    Except PyExc Fields := do
  let baselineByKey ← byKey baseline
  let currentByKey ← byKey current
  let keys ← sortedKeys baselineByKey currentByKey
  let lines ← keys.mapM fun entry => do
    let row ← rowFor baselineByKey currentByKey threshold entry.1
    return (⟨entry.1, entry.2.group, entry.2.target, row⟩ : Line)
  let envDiv ← envDivergence baseline current
  let runtimeDiv ← runtimeDivergence baseline current
  let report := Overrides.insert "results" (.arr (lines.map Line.result)) current
  return Overrides.insert "compare"
    (.obj (comparisonOf baseline current threshold live lines envDiv runtimeDiv)) report

end Compare

end AiosDeck.Telemetry
