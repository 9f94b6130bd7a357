import AiosDeck.Knowledge.Chunking
import AiosDeck.Logic.Tables
import AiosDeck.Storage.Sqlite

/-!
# The knowledge store

Sources, documents, chunks, their mirror in the full-text table, and
embeddings, shared by the projects of one database. Full-text matching and
ranking belong to SQLite; `LIKE` is its documented pattern language.
-/

namespace AiosDeck.Knowledge

open Python Storage Tables

/-- `VALID_SOURCE_TYPES`. -/
def validSourceTypes : List Text :=
  ["skill", "documentation", "adr", "code", "research", "memory", "project_dna"].map String.toList

/-- `KnowledgeError`. -/
def knowledgeError (message : Text) : PyExc := ⟨.user "KnowledgeError", String.ofList message⟩

section Rows

/-- A row of `knowledge_sources`. -/
structure SourceRow where
  sourceId : Text
  type : Text
  path : Text
  hash : Text
  version : Text
  metadataJson : Points
  status : Text
  projectId : Text
  deriving DecidableEq

/-- A row of `knowledge_documents`. -/
structure DocumentRow where
  documentId : Text
  sourceId : Text
  title : Text
  path : Text
  hash : Text
  metadataJson : Points
  projectId : Text
  deriving DecidableEq

/-- A row of `knowledge_chunks`. -/
structure ChunkRow where
  chunkId : Text
  sourceId : Text
  documentId : Text
  content : Text
  metadataJson : Points
  contentHash : Text
  position : ℕ
  tokenEstimate : ℕ
  projectId : Text
  deriving DecidableEq

/-- A row of `knowledge_fts`. -/
structure FtsRow where
  chunkId : Text
  sourceId : Text
  documentId : Text
  content : Text
  projectId : Text
  deriving DecidableEq

/-- A row of `knowledge_embeddings`. -/
structure EmbeddingRow where
  chunkId : Text
  provider : Text
  model : Text
  vectorDim : ℤ
  vectorBlob : Text
  embeddingHash : Text
  projectId : Text
  deriving DecidableEq

/-- The tables, each in the order of its row ids. -/
structure Db where
  sources : List SourceRow := []
  documents : List DocumentRow := []
  chunks : List ChunkRow := []
  fts : List FtsRow := []
  embeddings : List EmbeddingRow := []

/-- The keys declared `UNIQUE`. -/
def SourceRow.key (row : SourceRow) : Text × Text := (row.sourceId, row.projectId)
def DocumentRow.key (row : DocumentRow) : Text × Text := (row.documentId, row.projectId)
def ChunkRow.key (row : ChunkRow) : Text × Text := (row.chunkId, row.projectId)
def EmbeddingRow.key (row : EmbeddingRow) : Text × Text := (row.chunkId, row.projectId)

/-- The row of the full-text table that mirrors a chunk. -/
def ChunkRow.mirror (row : ChunkRow) : FtsRow :=
  ⟨row.chunkId, row.sourceId, row.documentId, row.content, row.projectId⟩

end Rows

/-- The full-text engine of SQLite. -/
structure Fts5 where
  /-- Whether `FTS_SCHEMA` could be created. -/
  available : Bool
  /-- `knowledge_fts MATCH expression`, row by row. -/
  hit : Text → Text → Bool
  /-- `rank` of a row among all the contents of the table; best is least. -/
  rank : List Text → Text → Text → ℚ
  /-- Whether evaluating the expression raises. -/
  refused : Text → Bool := fun _ => false
  /-- What writing so many rows adds to `total_changes`. -/
  changed : ℕ → ℕ := id

/-- A store: one project in a shared database. -/
structure KnowledgeStore where
  fts : Fts5
  projectId : Text

/-- `KnowledgeDocument`. -/
structure KnowledgeDocument where
  documentId : Text := []
  title : Text := []
  path : Text := []
  content : Text := []
  type : Text := "documentation".toList
  version : Text := "1".toList
  metadata : Metadata := []

/-- The statements of the store that write. -/
inductive Statement where
  | insertSource (row : SourceRow)
  | deleteFts (sourceId : Text)
  | deleteEmbeddings (sourceId projectId : Text)
  | deleteChunks (sourceId projectId : Text)
  | deleteDocument (documentId projectId : Text)
  | insertChunk (row : ChunkRow)
  | insertFts (row : FtsRow)
  | insertDocument (row : DocumentRow)
  | touchSource (sourceId projectId hash : Text)
  | insertEmbedding (row : EmbeddingRow)

namespace Db

/-- The chunks of a source in a project. -/
def chunksOf (db : Db) (sourceId projectId : Text) : List ChunkRow :=
  db.chunks.filter fun row => row.sourceId = sourceId ∧ row.projectId = projectId

end Db

/-- What a statement does to the tables, and how many rows it changes. -/
def Statement.run (fts : Fts5) (db : Db) : Statement → Except PyExc (Db × ℕ)
  | insertSource row =>
    if row.key ∈ db.sources.map SourceRow.key then
      .error ⟨.sqliteIntegrity, "UNIQUE constraint failed: knowledge_sources.source_id, " ++
        "knowledge_sources.project_id"⟩
    else .ok ({ db with sources := db.sources ++ [row] }, 1)
  -- in all projects
  | deleteFts sourceId =>
    let rest := db.fts.filter fun row => row.sourceId ≠ sourceId
    .ok ({ db with fts := rest }, fts.changed (db.fts.length - rest.length))
  -- by chunk id, in all projects
  | deleteEmbeddings sourceId projectId =>
    let ids := (db.chunksOf sourceId projectId).map ChunkRow.chunkId
    let rest := db.embeddings.filter fun row => row.chunkId ∉ ids
    .ok ({ db with embeddings := rest }, db.embeddings.length - rest.length)
  | deleteChunks sourceId projectId =>
    let rest := db.chunks.filter fun row => ¬ (row.sourceId = sourceId ∧ row.projectId = projectId)
    .ok ({ db with chunks := rest }, db.chunks.length - rest.length)
  | deleteDocument documentId projectId =>
    let rest := db.documents.filter fun row =>
      ¬ (row.documentId = documentId ∧ row.projectId = projectId)
    .ok ({ db with documents := rest }, db.documents.length - rest.length)
  | insertChunk row => .ok ({ db with chunks := upsert ChunkRow.key row db.chunks }, 1)
  | insertFts row => .ok ({ db with fts := db.fts ++ [row] }, fts.changed 1)
  | insertDocument row =>
    .ok ({ db with documents := upsert DocumentRow.key row db.documents }, 1)
  | touchSource sourceId projectId hash =>
    let touched := db.sources.map fun row =>
      if row.sourceId = sourceId ∧ row.projectId = projectId then
        { row with hash, status := "active".toList }
      else row
    .ok ({ db with sources := touched }, (db.sources.filter fun row =>
      row.sourceId = sourceId ∧ row.projectId = projectId).length)
  | insertEmbedding row =>
    .ok ({ db with embeddings := upsert EmbeddingRow.key row db.embeddings }, 1)

/-- `json.dumps(fields, ensure_ascii=False)` as a parameter of a statement. -/
def jsonText (fields : Metadata) : Except PyExc Points :=
  match (PyVal.dict fields).dumps with
  | .error exc => .error exc
  | .ok content =>
    if hasSurrogate content then .error ⟨.unicodeError, "surrogates not allowed"⟩ else .ok content

/-- `deterministic_source_id`. -/
def deterministicSourceId (sourceType path : Text) : Text := sha256 (sourceType ++ ['|'] ++ path)

/-- `Path(path).name`. -/
def pathName (path : Text) : Text :=
  (((path.splitOn '/').filter fun part => part ≠ [] ∧ part ≠ ['.']).getLast?).getD []

namespace KnowledgeDocument

/-- `deterministic_source_id(doc.type, doc.path)`. -/
def sourceId (doc : KnowledgeDocument) : Text := deterministicSourceId doc.type doc.path

/-- `doc.document_id`, by default a hash. -/
def resolvedId (doc : KnowledgeDocument) : Text :=
  if doc.documentId = [] then sha256 (doc.sourceId ++ ['|'] ++ doc.path) else doc.documentId

/-- `doc.title`, by default the name of the file. -/
def resolvedTitle (doc : KnowledgeDocument) : Text :=
  if doc.title = [] then pathName doc.path else doc.title

/-- `compute_hash(doc.content)`. -/
def hash (doc : KnowledgeDocument) : Text := contentHash doc.content

/-- `doc_metadata`, as it is given to `chunk_text`. -/
def chunkMetadata (doc : KnowledgeDocument) : Metadata :=
  mergeFields
    [(.str (points "title"), textVal doc.resolvedTitle), (.str (points "path"), textVal doc.path),
     (.str (points "type"), textVal doc.type), (.str (points "version"), textVal doc.version)]
    doc.metadata

/-- The chunks of the document. -/
def chunks (doc : KnowledgeDocument) : List Chunk :=
  chunkText doc.content doc.type doc.sourceId doc.chunkMetadata

end KnowledgeDocument

/-- What `index_document` did. -/
inductive IndexAction where
  | indexed
  | skipped
  | reindexed
  deriving DecidableEq, Repr

/-- The result of `index_document`. -/
structure IndexResult where
  action : IndexAction
  chunksCreated : ℕ := 0
  chunksDeleted : ℕ := 0
  sourceId : Text
  deriving DecidableEq

/-- `KnowledgeQuery`. -/
structure KnowledgeQuery where
  text : Text
  limit : ℤ := 20
  sourceTypes : Option (List Text) := none

/-- `KnowledgeResult`, with the metadata as the text that is stored. -/
structure KnowledgeResult where
  chunkId : Text
  sourceId : Text
  sourceType : Text
  sourcePath : Text
  documentId : Text
  content : Text
  position : ℕ
  contentHash : Text
  tokenEstimate : ℕ
  metadata : Points
  deriving DecidableEq

/-- `LIKE`: `%` is any text, `_` any character, and ASCII letters match
without regard to case. -/
def like : Text → Text → Bool
  | [], text => text.isEmpty
  | p :: pattern, text =>
    if p = '%' then text.tails.any (like pattern)
    else
      match text with
      | [] => false
      | c :: rest => (p = '_' || p.toLower = c.toLower) && like pattern rest

/-- The length in bytes from which SQLite refuses a `LIKE` pattern. -/
def maxLikePattern : ℕ := 50000

/-- `LIMIT ?`: a negative limit is none. -/
def limitRows {α : Type} (limit : ℤ) (rows : List α) : List α :=
  if limit < 0 then rows else rows.take limit.toNat

namespace KnowledgeStore

/-- A program of the store. -/
abbrev Query (α : Type) := Sql Db α

/-- A statement of this store. -/
def run (store : KnowledgeStore) (s : Statement) : Query Unit := execute (s.run store.fts)

/-- The row of a source in the project. -/
def findSource (store : KnowledgeStore) (sourceId : Text) (db : Db) : Option SourceRow :=
  db.sources.find? fun row => row.sourceId = sourceId ∧ row.projectId = store.projectId

/-- The row of a document in the project. -/
def findDocument (store : KnowledgeStore) (documentId : Text) (db : Db) : Option DocumentRow :=
  db.documents.find? fun row => row.documentId = documentId ∧ row.projectId = store.projectId

/-- `_ensure_source`. -/
def ensureSource (store : KnowledgeStore) (sourceId type path version : Text) : Query Unit := do
  match ← fetch (store.findSource sourceId) none with
  | some _ => pure ()
  | none => store.run (.insertSource
      ⟨sourceId, type, path, [], version, points "\x7b\x7d", "active".toList, store.projectId⟩)

/-- `delete_embeddings_for_source`. -/
def deleteEmbeddingsForSource (store : KnowledgeStore) (sourceId : Text) : Query Unit :=
  store.run (.deleteEmbeddings sourceId store.projectId)

/-- `_delete_chunks_for_source`. -/
def deleteChunksForSource (store : KnowledgeStore) (sourceId : Text) : Query Unit := do
  if store.fts.available then store.run (.deleteFts sourceId)
  store.deleteEmbeddingsForSource sourceId
  store.run (.deleteChunks sourceId store.projectId)

/-- The row of a chunk. -/
def chunkRow (store : KnowledgeStore) (sourceId documentId : Text) (chunk : Chunk)
    (metadataJson : Points) : ChunkRow :=
  ⟨chunk.chunkId, sourceId, documentId, chunk.content, metadataJson, chunk.contentHash,
    chunk.position, chunk.tokenEstimate, store.projectId⟩

/-- `_insert_chunk`. -/
def insertChunk (store : KnowledgeStore) (sourceId documentId : Text) (chunk : Chunk) :
    Query Unit := do
  let metadataJson ← parameter (jsonText chunk.metadata)
  let row := store.chunkRow sourceId documentId chunk metadataJson
  store.run (.insertChunk row)
  if store.fts.available then store.run (.insertFts row.mirror)

/-- The loop over the chunks. -/
def insertChunks (store : KnowledgeStore) (sourceId documentId : Text) :
    List Chunk → Query Unit
  | [] => pure ()
  | chunk :: rest => do
    store.insertChunk sourceId documentId chunk
    store.insertChunks sourceId documentId rest

/-- The part of `index_document` that writes the new version. -/
def writeDocument (store : KnowledgeStore) (doc : KnowledgeDocument) : Query Unit := do
  store.insertChunks doc.sourceId doc.resolvedId doc.chunks
  let metadataJson ← parameter (jsonText doc.metadata)
  store.run (.insertDocument
    ⟨doc.resolvedId, doc.sourceId, doc.resolvedTitle, doc.path, doc.hash, metadataJson,
      store.projectId⟩)
  store.run (.touchSource doc.sourceId store.projectId doc.hash)

/-- `index_document`. -/
def indexDocument (store : KnowledgeStore) (doc : KnowledgeDocument) : Query IndexResult := do
  if doc.type ∉ validSourceTypes then
    throw (knowledgeError ("Invalid document type: ".toList ++ doc.type))
  store.ensureSource doc.sourceId doc.type doc.path doc.version
  match ← fetch (store.findDocument doc.resolvedId) none with
  | some existing =>
    if existing.hash = doc.hash then return { action := .skipped, sourceId := doc.sourceId }
    store.deleteChunksForSource doc.sourceId
    let deleted ← totalChanges
    store.run (.deleteDocument doc.resolvedId store.projectId)
    store.writeDocument doc
    return ⟨.reindexed, doc.chunks.length, deleted, doc.sourceId⟩
  | none =>
    store.writeDocument doc
    return ⟨.indexed, doc.chunks.length, 0, doc.sourceId⟩

/-- `save_embedding`. -/
def saveEmbedding (store : KnowledgeStore) (chunkId provider model : Text) (vectorDim : ℤ)
    (vectorBlob embeddingHash : Text) : Query Unit :=
  store.run (.insertEmbedding
    ⟨chunkId, provider, model, vectorDim, vectorBlob, embeddingHash, store.projectId⟩)

/-- `get_source_chunks`. -/
def getSourceChunks (store : KnowledgeStore) (sourceId : Text) : Query (List ChunkRow) :=
  fetch (fun db => (db.chunksOf sourceId store.projectId).insertionSort fun a b =>
    a.position ≤ b.position) []

/-- `get_embeddings_by_chunk_ids`. -/
def getEmbeddingsByChunkIds (store : KnowledgeStore) (chunkIds : List Text) :
    Query (List EmbeddingRow) :=
  fetch (fun db => (db.embeddings.filter fun row =>
    row.chunkId ∈ chunkIds ∧ row.projectId = store.projectId).insertionSort fun a b =>
      a.chunkId ≤ b.chunkId) []

/-- `find_unembedded_chunk_ids`. -/
def findUnembeddedChunkIds (store : KnowledgeStore) (chunkIds : List Text) :
    Query (List Text) := do
  let rows ← fetch (fun db => db.embeddings.filter fun row =>
    row.chunkId ∈ chunkIds ∧ row.projectId = store.projectId) []
  return chunkIds.filter fun chunkId => chunkId ∉ rows.map EmbeddingRow.chunkId

/-- `AND ks.type IN (...)`, when types are asked for. -/
def asksFor (query : KnowledgeQuery) (type : Text) : Bool :=
  match query.sourceTypes with
  | none | some [] => true
  | some types => type ∈ types

/-- The sources a chunk is joined with, of the types asked for. -/
def joinedSources (query : KnowledgeQuery) (chunk : ChunkRow) (db : Db) : List SourceRow :=
  db.sources.filter fun source => source.sourceId = chunk.sourceId ∧
    source.projectId = chunk.projectId ∧ asksFor query source.type

/-- `_escape_fts_token`. -/
def escapeFtsToken (token : Text) : Text :=
  ['"'] ++ token.flatMap (fun c => if c = '"' then ['"', '"'] else [c]) ++ ['"']

/-- The expression `_search_fts` asks the full-text table for. -/
def ftsExpr (query : KnowledgeQuery) : Text :=
  " OR ".toList.intercalate ((words (strip query.text)).map fun token =>
    ['('] ++ escapeFtsToken token ++ [')'])

/-- The joined rows of the full-text statement, with their rank. -/
def ftsJoin (store : KnowledgeStore) (query : KnowledgeQuery) (db : Db) : List (ℚ × ChunkRow) :=
  (db.fts.filter fun row => store.fts.hit (ftsExpr query) row.content).flatMap fun row =>
    let score := store.fts.rank (db.fts.map FtsRow.content) (ftsExpr query) row.content
    (db.chunks.filter fun chunk =>
      chunk.chunkId = row.chunkId ∧ chunk.projectId = store.projectId).flatMap fun chunk =>
        (joinedSources query chunk db).map fun _ => (score, chunk)

/-- The rows of `_search_fts`. -/
def ftsRows (store : KnowledgeStore) (query : KnowledgeQuery) (db : Db) : List ChunkRow :=
  if store.fts.refused (ftsExpr query) then []
  else
    limitRows query.limit
      (((store.ftsJoin query db).insertionSort fun a b => a.1 ≤ b.1).map Prod.snd)

/-- The pattern of `_search_like`. -/
def likePattern (query : KnowledgeQuery) : Text := ['%'] ++ query.text ++ ['%']

/-- The rows of `_search_like`. -/
def likeRows (store : KnowledgeStore) (query : KnowledgeQuery) (db : Db) : List ChunkRow :=
  if maxLikePattern < (utf8 (likePattern query)).length then []
  else
    limitRows query.limit
      (((db.chunks.filter fun chunk => like (likePattern query) chunk.content ∧
        chunk.projectId = store.projectId).flatMap fun chunk =>
          (joinedSources query chunk db).map fun _ => chunk).insertionSort fun a b =>
            a.content.length ≤ b.content.length)

/-- The result for a row, with the source it belongs to. -/
def toResult (source : Option SourceRow) (row : ChunkRow) : KnowledgeResult :=
  ⟨row.chunkId, row.sourceId, (source.map SourceRow.type).getD [],
    (source.map SourceRow.path).getD [], row.documentId, row.content, row.position,
    row.contentHash, row.tokenEstimate, row.metadataJson⟩

/-- `_rows_to_results`. -/
def rowsToResults (store : KnowledgeStore) : List ChunkRow → Query (List KnowledgeResult)
  | [] => return []
  | row :: rest => do
    let source ← fetch (store.findSource row.sourceId) none
    let results ← store.rowsToResults rest
    return toResult source row :: results

/-- `_search_like`. -/
def searchLike (store : KnowledgeStore) (query : KnowledgeQuery) :
    Query (List KnowledgeResult) := do
  let rows ← fetch (store.likeRows query) []
  store.rowsToResults rows

/-- `_search_fts`; the error of the statement is swallowed by the read, so
the fallback to `_search_like` behind it is never taken. -/
def searchFts (store : KnowledgeStore) (query : KnowledgeQuery) :
    Query (List KnowledgeResult) := do
  if ftsExpr query = [] then return []
  let rows ← fetch (store.ftsRows query) []
  store.rowsToResults rows

/-- `search`. -/
def search (store : KnowledgeStore) (query : KnowledgeQuery) : Query (List KnowledgeResult) :=
  if strip query.text = [] then pure []
  else if store.fts.available then store.searchFts query
  else store.searchLike query

end KnowledgeStore

end AiosDeck.Knowledge
