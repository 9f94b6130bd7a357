import AiosDeck.Agents.Models
import AiosDeck.Research.Contracts

/-!
# The researcher

Sources are collected from the text files of the project, and by a fetcher if there is
one. What a source says becomes a finding, and the result is validated before it is
returned.
-/

namespace AiosDeck.Research

open Python Agents

section Constants

/-- `_SKIP_DIRS`. -/
def SKIP_DIRS : List Text :=
  [".git", ".venv", "venv", "__pycache__", "dist", "build", "node_modules", "site-packages",
    ".aios"].map String.toList

/-- `_TEXT_EXTENSIONS`. -/
def TEXT_EXTENSIONS : List Text :=
  [".py", ".md", ".rst", ".txt", ".toml", ".yaml", ".yml", ".json", ".cfg", ".ini", ".html", ".sh",
    ".js", ".ts", ".tsx", ".jsx", ".go", ".rs", ".c", ".h", ".cpp", ".java"].map String.toList

/-- `_STOPWORDS`. -/
def STOPWORDS : List Text :=
  ["a", "an", "and", "are", "as", "at", "be", "by", "does", "for", "from", "how", "in", "into",
    "is", "it", "of", "on", "or", "that", "the", "this", "to", "was", "what", "when", "where",
    "which", "with", "do", "should", "we", "you", "your", "i", "me", "my"].map String.toList

/-- `_MAX_LOCAL_SOURCES`. -/
def MAX_LOCAL_SOURCES : ℕ := 10

/-- `_SNIPPET_CHARS`. -/
def SNIPPET_CHARS : ℕ := 160

/-- `_MIN_CANDIDATE_CONFIDENCE`. -/
def MIN_CANDIDATE_CONFIDENCE : PyFloat := decimal (7 / 10)

/-- `_MIN_KEYWORD_LENGTH`. -/
def MIN_KEYWORD_LENGTH : ℕ := 3

/-- `_MAX_KEYWORDS`. -/
def MAX_KEYWORDS : ℕ := 5

/-- `_WEB_UNAVAILABLE_RECO`. -/
def WEB_UNAVAILABLE_RECO : Recommendation where
  action := "Configure a web source fetcher before requesting web research"
  rationale := "Web collection is unavailable: no fetcher/provider is injected. " ++
    "This result contains no research claims about external sources."
  risk := "high"
  priority := "low"

end Constants

section Files

/-- A directory: the names of its files, and its directories in the order in which the
system lists them. Links to directories count as files. -/
inductive Directory where
  | node (files : List Text) (children : List (Text × Directory))

/-- The part of `_iter_text_files` that chooses directories. -/
def skipped (name : Text) : Bool := name ∈ SKIP_DIRS || name.head? == some '.'

/-- `name.endswith(_TEXT_EXTENSIONS)`. -/
def isTextFile (name : Text) : Bool := TEXT_EXTENSIONS.any fun ending => ending.isSuffixOf name

/-- Names in the order of their code points. -/
def sortedNames (names : List Text) : List Text := names.insertionSort fun a b => a ≤ b

mutual

/-- The parts of the paths of the text files below a directory, which is walked from the
top. -/
def Directory.textFiles (parts : List Text) : Directory → List (List Text)
  | .node files children =>
    ((sortedNames files).filter isTextFile).map (fun name => parts ++ [name]) ++
      childFiles parts children

/-- The text files below the directories that are not skipped. -/
def childFiles (parts : List Text) : List (Text × Directory) → List (List Text)
  | [] => []
  | child :: rest =>
    (if skipped child.1 then [] else child.2.textFiles (parts ++ [child.1])) ++
      childFiles parts rest

end

/-- `rel.as_posix()`. -/
def asPosix (parts : List Text) : Text := ['/'].intercalate parts

/-- What is found at a root. -/
structure Project where
  /-- None when the root is no directory. -/
  tree : Option Directory
  /-- `read_text` of a file below the root, by its path; none when it raises `OSError`. -/
  read : Text → Option Text

/-- `_iter_text_files`, relative to the root. -/
def iterTextFiles (project : Project) : List (List Text) :=
  match project.tree with
  | none => []
  | some directory => directory.textFiles []

end Files

/-- What the agent finds around it. -/
structure World where
  /-- `str.lower`, by the case tables of the interpreter. -/
  lower : Text → Text
  /-- `str.isalpha`. -/
  isAlpha : Text → Bool
  /-- The time in ISO format. -/
  now : String
  /-- The project at a root, or at the working directory. -/
  disk : Option String → Project

section Collecting

variable (world : World)

/-- `text.find(part)`, where the part occurs. -/
def find? (text part : Text) : Option ℕ := text.tails.findIdx? fun rest => part.isPrefixOf rest

/-- `_keywords`. -/
def keywords (question : Text) : List Text :=
  ((words (world.lower question)).filter fun word =>
    MIN_KEYWORD_LENGTH ≤ word.length ∧ word ∉ STOPWORDS ∧ world.isAlpha word = true).take
      MAX_KEYWORDS

/-- `_snippet`. -/
def snippet (text : Text) (keywords : List Text) : Text :=
  match keywords.filterMap fun kw => find? (world.lower text) kw with
  | [] => text.take SNIPPET_CHARS
  | first :: others =>
    let start := others.foldl min first - SNIPPET_CHARS / 2
    strip (slice text start (start + SNIPPET_CHARS))

/-- Whether a file contains a keyword, in its path or in its text. -/
def mentions (keywords : List Text) (parts : List Text) (text : Text) : Bool :=
  keywords.any fun keyword =>
    (find? (world.lower (asPosix parts ++ ' ' :: text)) keyword).isSome

/-- The source that is made of a file, with its number. -/
def localSource (keywords : List Text) (number : ℕ) (parts : List Text) (text : Text) :
    ResearchSource where
  id := "local-" ++ toString number
  title := asPosix parts
  url := "file://".toList ++ asPosix parts
  type := if parts.any fun part => part ∈ ["docs", "doc", "documentation"].map String.toList then
    "doc" else "code"
  retrievedAt := world.now
  trustScore := decimal (7 / 10)
  snippet := snippet world text keywords
  tags := ["local"]

/-- The loop of `_collect_local`, with the sources found so far. -/
def collectFrom (project : Project) (keywords : List Text) (sources : List ResearchSource) :
    List (List Text) → List ResearchSource
  | [] => sources
  | parts :: rest =>
    match project.read (asPosix parts) with
    | none => collectFrom project keywords sources rest
    | some text =>
      if mentions world keywords parts text then
        let sources := sources ++ [localSource world keywords (sources.length + 1) parts text]
        if MAX_LOCAL_SOURCES ≤ sources.length then sources
        else collectFrom project keywords sources rest
      else collectFrom project keywords sources rest

/-- `_project_root`, before it is resolved. -/
def projectRoot (contextPacket : Json) : Except PyExc (Option String) := do
  let project ← contextPacket.getD "project" (.obj [])
  let projectRoot ← (if project.truthy then project else .obj []).get? "root"
  let root ← match projectRoot with
    | some root => if root.truthy then pure (some root) else contextPacket.get? "root"
    | none => contextPacket.get? "root"
  match root with
  | some (.str path) => return if path = "" then none else some path
  | some root =>
    if root.truthy then throw ⟨.typeError, "argument should be a str or an os.PathLike object"⟩
    else return none
  | none => return none

/-- `_collect_local`. -/
def collectLocal (task : ResearchTask) : Except PyExc (List ResearchSource) := do
  let root ← projectRoot task.contextPacket
  let keywords := keywords world task.question
  if keywords.isEmpty then return []
  return collectFrom world (world.disk root) keywords [] (iterTextFiles (world.disk root))

/-- `_dedupe_sources`, with the keys seen. -/
def dedupeSources (seen : List Text) : List ResearchSource → List ResearchSource
  | [] => []
  | source :: rest =>
    let key := strip source.url
    if key = [] ∨ key ∈ seen then dedupeSources seen rest
    else source :: dedupeSources (key :: seen) rest

end Collecting

section Synthesis

/-- `_candidate_kind`. -/
def candidateKind (tags : List String) : Option String :=
  tags.find? fun tag => tag ∈ VALID_CANDIDATE_KINDS

/-- The finding that is made of a source, with its number. -/
def sourceFinding (number : ℕ) (source : ResearchSource) : Finding where
  id := "F" ++ toString number
  claim := (if source.snippet = [] then source.title else source.snippet).take 200
  evidenceSourceIds := [source.id]
  confidence := source.trustScore
  tags := source.tags

/-- The candidate that is made of a finding. -/
def findingCandidate (finding : Finding) : Option MemoryCandidate :=
  if finding.confidence.lt MIN_CANDIDATE_CONFIDENCE then none
  else
    (candidateKind finding.tags).map fun kind =>
      { kind, content := finding.claim
        reason := "High-confidence finding derived from a collected source"
        confidence := finding.confidence, tags := finding.tags }

/-- `_heuristic_synthesize`. -/
def heuristicSynthesize (sources : List ResearchSource) :
    List Finding × List Recommendation × List MemoryCandidate :=
  let findings := sources.mapIdx fun index source => sourceFinding (index + 1) source
  (findings, [], findings.filterMap findingCandidate)

/-- The magnitude of a float. -/
def magnitude (x : PyFloat) : PyFloat := if x.lt (.finite 0) then x.neg else x

/-- `sum` of floats, with the compensation that the interpreter carries along. -/
def sumFrom (total carry : PyFloat) : List PyFloat → PyFloat
  | [] =>
    match carry with
    | .finite _ => total.add carry
    | _ => total
  | x :: rest =>
    let next := total.add x
    let lost := if PyFloat.le (magnitude x) (magnitude total) then (total.sub next).add x
      else (x.sub next).add total
    sumFrom next (carry.add lost) rest

/-- `round(x, 2)`. -/
def roundTwo : PyFloat → PyFloat
  | .finite q => .ofRat (roundHalfEven (q * 100) / 100)
  | other => other

/-- `_overall_confidence`. -/
def overallConfidence (sources : List ResearchSource) : PyFloat :=
  if sources.isEmpty then .finite 0
  else
    roundTwo ((sumFrom (.finite 0) (.finite 0) (sources.map ResearchSource.trustScore)).divPos
      sources.length)

/-- `_build_summary`. -/
def buildSummary (sources : List ResearchSource) (findings : List Finding)
    (confidence : PyFloat) : String :=
  "Collected " ++ toString sources.length ++ " source(s), " ++ toString findings.length ++
    " finding(s), confidence " ++ formatTwo confidence ++ "."

end Synthesis

/-- `ResearchAgent`, by what is injected. -/
structure ResearchAgent where
  fetcher : Option (ResearchTask → Except PyExc (List ResearchSource)) := none
  synthesizer : Option (ResearchTask → List ResearchSource →
    Except PyExc (List Finding × List Recommendation × List MemoryCandidate)) := none

/-- `ResearchError`. -/
def researchError (message : String) : PyExc := ⟨.user "ResearchError", message⟩

namespace ResearchAgent

variable (agent : ResearchAgent) (world : World)

/-- `_web_was_unavailable`. -/
def webWasUnavailable (task : ResearchTask) : Bool :=
  (task.scope = "web" ∨ task.scope = "mixed") && agent.fetcher.isNone

/-- `ResearchAgent._collect`; an exception of the fetcher leaves no sources. -/
def collect (task : ResearchTask) : Except PyExc (List ResearchSource) := do
  let found ← if task.scope = "repo" ∨ task.scope = "docs" ∨ task.scope = "mixed" then
    collectLocal world task else pure []
  match agent.fetcher with
  | some fetcher =>
    if task.scope = "web" ∨ task.scope = "mixed" then
      match fetcher task with
      | .ok fetched => return found ++ fetched
      | .error _ => return found
    else return found
  | none => return found

/-- `ResearchAgent._synthesize`. -/
def synthesize (task : ResearchTask) (sources : List ResearchSource) (webUnavailable : Bool) :
    Except PyExc (List Finding × List Recommendation × List MemoryCandidate) := do
  let (findings, recommendations, candidates) ← match agent.synthesizer with
    | some synthesizer => synthesizer task sources
    | none => pure (heuristicSynthesize sources)
  return (findings, if webUnavailable then recommendations ++ [WEB_UNAVAILABLE_RECO]
    else recommendations, candidates)

/-- `ResearchAgent._empty_result`. -/
def emptyResult (task : ResearchTask) (webUnavailable : Bool) : ResearchResult :=
  if webUnavailable then
    { task, status := "source_unavailable"
      summaryShort := "Web collection unavailable: configure a fetcher/provider " ++
        "to research external sources."
      recommendations := [WEB_UNAVAILABLE_RECO] }
  else { task, summaryShort := "No sources matched the research question." }

/-- `ResearchAgent._validated`. -/
def validated (result : ResearchResult) : Except PyExc ResearchResult :=
  match validateResearchResult result with
  | [] => .ok result
  | errors => .error (researchError (join "; " errors))

/-- `ResearchAgent._research`. -/
def research (task : ResearchTask) : Except PyExc ResearchResult := do
  let collected ← agent.collect world task
  let sources := dedupeSources [] collected
  let webUnavailable := agent.webWasUnavailable task
  if sources.isEmpty then return emptyResult task webUnavailable
  let (findings, recommendations, candidates) ← agent.synthesize task sources webUnavailable
  let confidence := overallConfidence sources
  validated
    { task, status := if webUnavailable then "partial" else "ok"
      summaryShort := buildSummary sources findings confidence
      sources, findings, confidenceOverall := confidence, recommendations
      memoryCandidates := candidates }

/-- The scope that a task asks for; what is no scope counts as mixed. -/
def scopeOf (task : AgentTask) : String :=
  match task.params.lookup "scope" with
  | some (.str scope) => if scope ∈ VALID_SCOPES then scope else "mixed"
  | _ => "mixed"

/-- The context packet of a task: its own, or the one of the context. -/
def packetOf (task : AgentTask) (context : Option Json) : Json :=
  let packet := match task.params.lookup "context_packet" with
    | none | some .null => context.getD .null
    | some packet => packet
  if packet.truthy then packet else .obj []

/-- The research task that is made of a task. -/
def researchTask (task : AgentTask) (context : Option Json) : ResearchTask where
  question := task.description.toList
  scope := scopeOf task
  constraints := (task.params.lookup "constraints").getD (.obj [])
  contextPacket := packetOf task context

/-- `ResearchAgent.execute`; the context is what its `to_dict` returns. -/
def execute (task : AgentTask) (context : Option Json) : Except PyExc AgentResult :=
  match agent.research world (researchTask task context) with
  | .error exc =>
    if exc.cls = .user "ResearchError" then
      .ok { success := false, errors := [exc.message]
            error := some ⟨RUNTIME_ERROR, exc.message, false⟩, errorCode := some RUNTIME_ERROR
            status := .failed, agent := "research", taskId := task.taskId
            correlationId := task.correlationId }
    else .error exc
  | .ok result =>
    match result.toDict with
    | .error exc => .error exc
    | .ok document =>
      .ok { success := result.status ≠ "error", output := .json document, agent := "research"
            taskId := task.taskId, correlationId := task.correlationId }

end ResearchAgent

end AiosDeck.Research
