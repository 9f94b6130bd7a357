import AiosDeck.Knowledge.Discovery

/-!
# The knowledge engine

Indexing all files of a project, and embedding the chunks that have no
embedding yet. The audit table of the runs is left out; no other statement
reads it.
-/

namespace AiosDeck.Knowledge

open Python Storage Tables

/-- The document of a candidate with this content. -/
def SourceCandidate.document (candidate : SourceCandidate) (content : Text) : KnowledgeDocument where
  path := candidate.path
  content := content
  type := candidate.type
  version := candidate.version
  metadata := candidate.metadata

/-- `IndexSummary`. -/
structure IndexSummary where
  scanned : ℕ := 0
  skipped : ℕ := 0
  reindexed : ℕ := 0
  chunksCreated : ℕ := 0
  chunksDeleted : ℕ := 0

/-- One more result of `index_document`. -/
def IndexSummary.count (summary : IndexSummary) (result : IndexResult) : IndexSummary :=
  { summary with
    skipped := if result.action = .skipped then summary.skipped + 1 else summary.skipped
    reindexed := if result.action = .skipped then summary.reindexed else summary.reindexed + 1
    chunksCreated := summary.chunksCreated + result.chunksCreated
    chunksDeleted := summary.chunksDeleted + result.chunksDeleted }

/-- `EmbeddingProvider`; a vector is the text that `json.dumps` makes of it. -/
structure EmbeddingProvider where
  name : Text
  /-- `getattr(provider, "_model", "")`. -/
  model : Text := []
  available : Bool := true
  dimensions : ℤ
  embed : List Text → Except PyExc (List Text)

/-- The statuses of `embed_indexed`. -/
inductive EmbedStatus where
  | noProvider
  | providerUnavailable
  | noChunks
  | upToDate
  | ok
  deriving DecidableEq, Repr

/-- The result of `embed_indexed`. -/
structure EmbedSummary where
  embedded : ℕ := 0
  skipped : ℕ := 0
  status : EmbedStatus
  deriving DecidableEq

/-- `embedding_hash`. -/
def embeddingHash (contentHash provider model : Text) : Text :=
  sha256 (contentHash ++ ['|'] ++ provider ++ ['|'] ++ model)

/-- Slices of a list, one behind the other. -/
def batches {α : Type} (size : ℕ) : ℕ → List α → List (List α)
  | 0, _ => []
  | fuel + 1, items =>
    if items = [] then [] else items.take size :: batches size fuel (items.drop size)

namespace KnowledgeStore

/-- `upsert_source_metadata`. -/
def upsertSourceMetadata (store : KnowledgeStore) (sourceId : Text) (metadata : Metadata) :
    Query Unit := do
  let metadataJson ← parameter (jsonText metadata)
  execute fun db => .ok
    ({ db with sources := db.sources.map fun row =>
        if row.sourceId = sourceId ∧ row.projectId = store.projectId then { row with metadataJson }
        else row },
      (db.sources.filter fun row =>
        row.sourceId = sourceId ∧ row.projectId = store.projectId).length)

/-- `list_sources`. -/
def listSources (store : KnowledgeStore) : Query (List SourceRow) :=
  fetch (fun db => (db.sources.filter fun row =>
    row.projectId = store.projectId).insertionSort fun a b =>
      a.type < b.type ∨ (a.type = b.type ∧ a.path ≤ b.path)) []

end KnowledgeStore

/-- `KnowledgeEngine`. -/
structure KnowledgeEngine where
  store : KnowledgeStore
  /-- `str` of a list of texts. -/
  listText : List Text → Text
  /-- How many parameters SQLite takes in a statement. -/
  parameterLimit : ℕ

namespace KnowledgeEngine

/-- A program of the engine. -/
abbrev Query (α : Type) := Sql Db α

/-- One candidate of `index`. -/
def indexCandidate (engine : KnowledgeEngine) (files : ProjectFiles) (summary : IndexSummary)
    (candidate : SourceCandidate) : Query IndexSummary := do
  let summary := { summary with scanned := summary.scanned + 1 }
  match files.readText candidate.path with
  | none => return summary
  | some content =>
    let doc := candidate.document content.1
    try
      let result ← engine.store.indexDocument doc
      if doc.metadata ≠ [] then engine.store.upsertSourceMetadata doc.sourceId doc.metadata
      return summary.count result
    catch exc =>
      if exc.cls = .user "KnowledgeError" then return summary else throw exc

/-- The candidates of `index`, one after another. -/
def indexCandidates (engine : KnowledgeEngine) (files : ProjectFiles) :
    List SourceCandidate → IndexSummary → Query IndexSummary
  | [], summary => return summary
  | candidate :: rest, summary => do
    let summary ← engine.indexCandidate files summary candidate
    engine.indexCandidates files rest summary

/-- `index`. -/
def index (engine : KnowledgeEngine) (files : ProjectFiles) : Query IndexSummary :=
  engine.indexCandidates files (discoverSources engine.listText files) {}

/-- The chunks of some sources. -/
def chunksOfSources (engine : KnowledgeEngine) : List SourceRow → Query (List ChunkRow)
  | [] => return []
  | source :: rest => do
    let chunks ← engine.store.getSourceChunks source.sourceId
    let others ← engine.chunksOfSources rest
    return chunks ++ others

/-- `find_unembedded_chunk_ids`; a statement with too many parameters is
refused, and the read swallows that. -/
def findUnembedded (engine : KnowledgeEngine) (chunkIds : List Text) : Query (List Text) :=
  if engine.parameterLimit < chunkIds.length + 1 then return chunkIds
  else engine.store.findUnembeddedChunkIds chunkIds

/-- The vectors of a batch, each with its chunk. -/
def saveVectors (engine : KnowledgeEngine) (provider : EmbeddingProvider) (model : Text) :
    List (ChunkRow × Text) → Query Unit
  | [] => return ()
  | (chunk, vector) :: rest => do
    engine.store.saveEmbedding chunk.chunkId provider.name model provider.dimensions vector
      (embeddingHash chunk.contentHash provider.name model)
    engine.saveVectors provider model rest

/-- The batches; one that fails is the last. -/
def embedBatches (engine : KnowledgeEngine) (provider : EmbeddingProvider) (model : Text) :
    List (List ChunkRow) → ℕ → Query ℕ
  | [], embedded => return embedded
  | batch :: rest, embedded =>
    match provider.embed (batch.map ChunkRow.content) with
    | .error _ => return embedded
    | .ok vectors => do
      let pairs := batch.zip vectors
      engine.saveVectors provider model pairs
      engine.embedBatches provider model rest (embedded + pairs.length)

/-- `model or getattr(provider, "_model", "") or "<unknown>"`. -/
def modelName (provider : EmbeddingProvider) (model : Text) : Text :=
  if model ≠ [] then model else if provider.model ≠ [] then provider.model else "<unknown>".toList

/-- `chunk_map[chunk_id]`: the last chunk with the id. -/
def chunkFor (chunks : List ChunkRow) (chunkId : Text) : Option ChunkRow :=
  chunks.reverse.find? fun chunk => chunk.chunkId = chunkId

/-- `embed_indexed`. -/
def embedIndexed (engine : KnowledgeEngine) (provider : Option EmbeddingProvider) (model : Text) :
    Query EmbedSummary := do
  match provider with
  | none => return { status := .noProvider }
  | some provider =>
    if !provider.available then return { status := .providerUnavailable }
    let sources ← engine.store.listSources
    let chunks ← engine.chunksOfSources sources
    let chunkIds := chunks.map ChunkRow.chunkId
    if chunkIds = [] then return { status := .noChunks }
    let unembedded ← engine.findUnembedded chunkIds
    if unembedded = [] then return { skipped := chunkIds.length, status := .upToDate }
    let again ← engine.chunksOfSources sources
    let toEmbed := unembedded.filterMap (chunkFor (again.filter fun chunk => chunk.chunkId ∈ unembedded))
    let batchSize := min 32 (max 1 toEmbed.length)
    let embedded ← engine.embedBatches provider (modelName provider model)
      (batches batchSize toEmbed.length toEmbed) 0
    return { embedded, status := .ok }

end KnowledgeEngine

end AiosDeck.Knowledge
