import AiosDeck.Agents.Acceptance
import AiosDeck.Agents.ExecutorRuns
import AiosDeck.Agents.Git
import AiosDeck.Agents.Invocation
import AiosDeck.Agents.Observers
import AiosDeck.Agents.Overrides
import AiosDeck.Agents.Planner
import AiosDeck.Agents.Porcelain
import AiosDeck.Agents.Retries
import AiosDeck.Agents.Tallies
import AiosDeck.Agents.Tester
import AiosDeck.Backlog.Drain
import AiosDeck.Backlog.Runner
import AiosDeck.Backlog.Titles
import AiosDeck.Backlog.TodoFile
import AiosDeck.Config.Loader
import AiosDeck.Config.Precedence
import AiosDeck.Config.Tolerance
import AiosDeck.Context.Assembler
import AiosDeck.Context.Assembly
import AiosDeck.Context.Budgeting
import AiosDeck.Events.Bus
import AiosDeck.Knowledge.Accounting
import AiosDeck.Knowledge.ChunkSizes
import AiosDeck.Knowledge.Chunking
import AiosDeck.Knowledge.Coverage
import AiosDeck.Knowledge.Discovery
import AiosDeck.Knowledge.Engine
import AiosDeck.Knowledge.Estimates
import AiosDeck.Knowledge.Fallback
import AiosDeck.Knowledge.Freshness
import AiosDeck.Knowledge.Frontmatter
import AiosDeck.Knowledge.Incremental
import AiosDeck.Knowledge.Indexing
import AiosDeck.Knowledge.Isolation
import AiosDeck.Knowledge.Lookups
import AiosDeck.Knowledge.Normalization
import AiosDeck.Knowledge.Registry
import AiosDeck.Knowledge.Rerun
import AiosDeck.Knowledge.Storable
import AiosDeck.Knowledge.Store
import AiosDeck.Learning.Atomicity
import AiosDeck.Learning.Engine
import AiosDeck.Learning.Extractor
import AiosDeck.Learning.Failures
import AiosDeck.Learning.Governance
import AiosDeck.Learning.Ingestion
import AiosDeck.Learning.Models
import AiosDeck.Learning.Races
import AiosDeck.Logic.Glob
import AiosDeck.Logic.Machine
import AiosDeck.Logic.Overrides
import AiosDeck.Logic.Program
import AiosDeck.Logic.Ranked
import AiosDeck.Logic.Selection
import AiosDeck.Logic.Trace
import AiosDeck.Logic.Verdict
import AiosDeck.Memory.Deletions
import AiosDeck.Prompts.Builder
import AiosDeck.Python.Deque
import AiosDeck.Python.FirstMatch
import AiosDeck.Python.Floats
import AiosDeck.Python.JsonCuts
import AiosDeck.Python.JsonText
import AiosDeck.Python.JsonWriting
import AiosDeck.Python.LineEnds
import AiosDeck.Python.Numbers
import AiosDeck.Python.Objects
import AiosDeck.Python.Rounding
import AiosDeck.Python.Words
import AiosDeck.Quality.Gates
import AiosDeck.Quality.Monotonicity
import AiosDeck.Research.Agent
import AiosDeck.Research.Loading
import AiosDeck.Research.Validity
import AiosDeck.Retrieval.Greedy
import AiosDeck.Retrieval.Keyword
import AiosDeck.Retrieval.Ordering
import AiosDeck.Retrieval.Selector
import AiosDeck.Routing.Cheapest
import AiosDeck.Routing.Distinct
import AiosDeck.Routing.Engine
import AiosDeck.Runtime.CostCap
import AiosDeck.Runtime.Decoding
import AiosDeck.Runtime.Effects
import AiosDeck.Runtime.Fallbacks
import AiosDeck.Runtime.Insertions
import AiosDeck.Runtime.Jsonl
import AiosDeck.Runtime.Permissions
import AiosDeck.Runtime.Repeats
import AiosDeck.Runtime.Tolerance
import AiosDeck.Runtime.Turns
import AiosDeck.Scheduler.Announcements
import AiosDeck.Scheduler.Flow
import AiosDeck.Scheduler.Projects
import AiosDeck.Scheduler.Runs
import AiosDeck.Skills.Assembler
import AiosDeck.Skills.Discovery
import AiosDeck.Skills.Retrieval
import AiosDeck.Storage.Counting
import AiosDeck.Storage.Pool
import AiosDeck.Storage.Script
import AiosDeck.Storage.Select
import AiosDeck.Storage.Transaction
import AiosDeck.Telemetry.Batch
import AiosDeck.Telemetry.Benchmark
import AiosDeck.Telemetry.Compare
import AiosDeck.Telemetry.Comparison
import AiosDeck.Telemetry.Conservation
import AiosDeck.Telemetry.Faults
import AiosDeck.Telemetry.Leaks
import AiosDeck.Telemetry.Percentiles
import AiosDeck.Telemetry.Queries
import AiosDeck.Telemetry.Rows
import AiosDeck.Telemetry.Scoping
import AiosDeck.Telemetry.Totals
import AiosDeck.Telemetry.Writer
import AiosDeck.Ui.Settings
import AiosDeck.Workflow.BoardRows
import AiosDeck.Workflow.BoardRuns
import AiosDeck.Workflow.Conformance
import AiosDeck.Workflow.Engine
import AiosDeck.Workflow.FailSafe
import AiosDeck.Workflow.Footprint
import AiosDeck.Workflow.Gatekeeping
import AiosDeck.Workflow.GreenCards
import AiosDeck.Workflow.IntentScope
import AiosDeck.Workflow.Mirror
import AiosDeck.Workflow.Noop
import AiosDeck.Workflow.Plans
import AiosDeck.Workflow.Protocol
import AiosDeck.Workflow.Research
import AiosDeck.Workflow.Results
import AiosDeck.Workflow.Staging
import AiosDeck.Workflow.TestVerdict
import AiosDeck.Prompts.Grounding
