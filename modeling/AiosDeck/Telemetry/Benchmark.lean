import AiosDeck.Python.Numbers
import AiosDeck.Telemetry.Schema

/-!
# Summaries of benchmark runs

The percentiles and the mean of the samples of a metric, for the runs of a result. A phase that
could not run at all is recorded with zero times.
-/

namespace AiosDeck.Telemetry

open Python Schema

namespace Benchmark

/-- Linear interpolation between the sorted samples next to the rank. -/
def percentile (sortedVals : List PyNum) (q : ℕ) : Except PyExc PyFloat :=
  match sortedVals with
  | [] => .ok (.finite 0)
  | [x] => x.operand
  | first :: rest =>
    let k := double (rest.length * double (q / 100))
    let low := sortedVals.getD ⌊k⌋.toNat first
    let high := sortedVals.getD ⌈k⌉.toNat first
    if ⌊k⌋ = ⌈k⌉ then low.operand
    else do
      let x ← low.operand
      let y ← high.operand
      return (x.mul (.ofRat (⌈k⌉ - k))).add (y.mul (.ofRat (k - ⌊k⌋)))

/-- The exact value of a finite number. -/
def exact : PyNum → ℚ
  | .int n => n
  | .float (.finite q) => q
  | .float _ => 0

def isInt : PyNum → Bool
  | .int _ => true
  | .float _ => false

/-- A number that is infinite or none at all. -/
def special : PyNum → Option PyFloat
  | .int _ | .float (.finite _) => none
  | .float x => some x

/-- `statistics.mean`: exact, and rounded at the end. -/
def mean (samples : List PyNum) : Except PyExc PyNum :=
  match samples.filterMap special with
  | x :: rest => .ok (.float (rest.foldl PyFloat.add x))
  | [] =>
    let total := (samples.map exact).sum / samples.length
    if samples.all isInt ∧ total.den = 1 then .ok (.int total.num)
    else match PyFloat.nearest total with
      | .finite q => .ok (.float (.finite q))
      | _ => .error ⟨.overflowError, "integer division result too large for a float"⟩

/-- `x <= y` of numbers of either kind, by their values. -/
def numberLe : PyNum → PyNum → Bool
  | .int m, .int n => decide (m ≤ n)
  | x, .float y => !y.lt (match x with
    | .int m => .finite m
    | .float x => x)
  | .float x, .int n => !PyFloat.lt (.finite n) x

/-- What the samples of a metric are summarised to. -/
def summarize (samples : List Json) : Except PyExc Json :=
  match samples with
  | [] => .ok (.obj [("count", .num (.int 0)), ("min", .null), ("max", .null), ("mean", .null),
      ("p50", .null), ("p95", .null), ("p99", .null), ("samples", .arr [])])
  | _ =>
    match samples.mapM fun sample => sample.number?.map fun x => (sample, x) with
    | none => .error ⟨.typeError, "can't convert type to numerator/denominator"⟩
    | some pairs => do
      let ordered := pairs.insertionSort fun x y => numberLe x.2 y.2
      let values := ordered.map Prod.snd
      let average ← mean values
      let p50 ← percentile values 50
      let p95 ← percentile values 95
      let p99 ← percentile values 99
      return .obj [("count", .num (.int ordered.length)),
        ("min", (ordered.head?.map Prod.fst).getD .null),
        ("max", (ordered.getLast?.map Prod.fst).getD .null), ("mean", .num average),
        ("p50", .num (.float p50)), ("p95", .num (.float p95)), ("p99", .num (.float p99)),
        ("samples", .arr samples)]

/-- The samples of a metric; runs without it are left out. -/
def samplesOf (metric : String) : List Json → Except PyExc (List Json)
  | [] => .ok []
  | run :: runs => do
    let sample ← run.getD metric .null
    let samples ← samplesOf metric runs
    return match sample with
      | .null => samples
      | _ => sample :: samples

/-- The summaries of all metrics. -/
def summarizeRuns (runs : Json) : Except PyExc Json := do
  let items ← runs.iter
  let summaries ← metrics.mapM fun metric => do
    let samples ← samplesOf metric items
    return (metric, ← summarize samples)
  return .obj summaries

/-- The run of a phase that could not execute. -/
def errorEntry (message : String) : Json :=
  .obj (metrics.map (fun metric => (metric, Json.num (.float (.finite 0)))) ++
    [("error", .str message)])

end Benchmark

end AiosDeck.Telemetry
