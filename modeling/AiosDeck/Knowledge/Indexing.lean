import AiosDeck.Knowledge.Store

/-!
# What indexing a document does to the tables

The tables after each part of `index_document`, as functions of the tables
before it, with the number of statements each part issues.
-/

namespace AiosDeck.Knowledge

open Python Storage Tables

/-- The metadata of every chunk and of the document can be stored. -/
structure KnowledgeDocument.Writable (doc : KnowledgeDocument) : Prop where
  chunks : ∀ chunk ∈ doc.chunks, ∃ content, jsonText chunk.metadata = .ok content
  document : ∃ content, jsonText doc.metadata = .ok content

theorem KnowledgeDocument.Writable.of_isOk {doc : KnowledgeDocument}
    (hchunks : (doc.chunks.all fun chunk => (jsonText chunk.metadata).isOk) = true)
    (hdocument : (jsonText doc.metadata).isOk = true) : doc.Writable := by
  have hstored : ∀ fields : Metadata, (jsonText fields).isOk = true →
      ∃ content, jsonText fields = .ok content := by
    intro fields hok
    cases h : jsonText fields with
    | ok content => exact ⟨content, rfl⟩
    | error exc =>
      rw [h] at hok
      cases hok
  constructor
  · exact fun chunk hchunk => hstored _ (List.all_eq_true.mp hchunks chunk hchunk)
  · exact hstored _ hdocument

/-- The stored text of metadata that can be stored. -/
def storedJson (fields : Metadata) : Points :=
  match jsonText fields with
  | .ok content => content
  | .error _ => []

theorem storedJson_eq {fields : Metadata} {content : Points} (h : jsonText fields = .ok content) :
    storedJson fields = content := by
  simp [storedJson, h]

namespace KnowledgeStore

variable (store : KnowledgeStore)

/-- The rows of some chunks of a source. -/
def rowsOf (sourceId documentId : Text) (chunks : List Chunk) : List ChunkRow :=
  chunks.map fun chunk => store.chunkRow sourceId documentId chunk (storedJson chunk.metadata)

/-- The rows of all chunks of a document. -/
def documentRows (doc : KnowledgeDocument) : List ChunkRow :=
  store.rowsOf doc.sourceId doc.resolvedId doc.chunks

/-- The row `_ensure_source` inserts. -/
def newSource (doc : KnowledgeDocument) : SourceRow :=
  ⟨doc.sourceId, doc.type, doc.path, [], doc.version, points "\x7b\x7d", "active".toList,
    store.projectId⟩

/-- After `_ensure_source`. -/
def ensured (doc : KnowledgeDocument) (db : Db) : Db :=
  match store.findSource doc.sourceId db with
  | some _ => db
  | none => { db with sources := db.sources ++ [store.newSource doc] }

/-- After `_delete_chunks_for_source`. -/
def chunksDeleted (sourceId : Text) (db : Db) : Db :=
  { db with
    fts := if store.fts.available then db.fts.filter fun row => row.sourceId ≠ sourceId else db.fts
    embeddings := db.embeddings.filter fun row =>
      row.chunkId ∉ (db.chunksOf sourceId store.projectId).map ChunkRow.chunkId
    chunks := db.chunks.filter fun row =>
      ¬ (row.sourceId = sourceId ∧ row.projectId = store.projectId) }

/-- After the document is deleted too. -/
def cleared (doc : KnowledgeDocument) (db : Db) : Db :=
  { store.chunksDeleted doc.sourceId db with
    documents := db.documents.filter fun row =>
      ¬ (row.documentId = doc.resolvedId ∧ row.projectId = store.projectId) }

/-- After `_insert_chunk`. -/
def addRow (db : Db) (row : ChunkRow) : Db :=
  { db with
    chunks := upsert ChunkRow.key row db.chunks
    fts := if store.fts.available then db.fts ++ [row.mirror] else db.fts }

/-- After some chunks are inserted. -/
def addRows (rows : List ChunkRow) (db : Db) : Db := rows.foldl store.addRow db

/-- The row of a document. -/
def documentRow (doc : KnowledgeDocument) : DocumentRow :=
  ⟨doc.resolvedId, doc.sourceId, doc.resolvedTitle, doc.path, doc.hash, storedJson doc.metadata,
    store.projectId⟩

/-- After the document is inserted. -/
def documented (doc : KnowledgeDocument) (db : Db) : Db :=
  { db with documents := upsert DocumentRow.key (store.documentRow doc) db.documents }

/-- After the source is updated. -/
def touched (doc : KnowledgeDocument) (db : Db) : Db :=
  { db with
    sources := db.sources.map fun row =>
      if row.sourceId = doc.sourceId ∧ row.projectId = store.projectId then
        { row with hash := doc.hash, status := "active".toList }
      else row }

/-- After the new version is written. -/
def written (doc : KnowledgeDocument) (db : Db) : Db :=
  store.touched doc (store.documented doc (store.addRows (store.documentRows doc) db))

/-- Statements of `_ensure_source`. -/
def ensureCost (doc : KnowledgeDocument) (db : Db) : ℕ :=
  if (store.findSource doc.sourceId db).isSome then 1 else 2

/-- Statements of `_delete_chunks_for_source`. -/
def deleteCost : ℕ := if store.fts.available then 3 else 2

/-- Statements of `_insert_chunk`. -/
def chunkCost : ℕ := if store.fts.available then 2 else 1

variable {store}

/-- A source that is not found has no row. -/
theorem newSource_new {doc : KnowledgeDocument} {db : Db}
    (h : store.findSource doc.sourceId db = none) :
    (store.newSource doc).key ∉ db.sources.map SourceRow.key := by
  intro hmem
  obtain ⟨row, hrow, hkey⟩ := List.mem_map.mp hmem
  have hnot := List.find?_eq_none.mp h row hrow
  have hsame : row.sourceId = doc.sourceId ∧ row.projectId = store.projectId :=
    Prod.mk.inj hkey
  simp [hsame] at hnot

theorem ensured_nodup {doc : KnowledgeDocument} {db : Db} (h : (db.sources.map SourceRow.key).Nodup) :
    ((store.ensured doc db).sources.map SourceRow.key).Nodup := by
  unfold ensured
  cases hfound : store.findSource doc.sourceId db with
  | some row => exact h
  | none =>
    rw [List.map_append]
    exact h.append (List.nodup_singleton _) (List.disjoint_singleton.mpr (newSource_new hfound))

theorem ensureSource_runs (doc : KnowledgeDocument) {db : Db} :
    Runs (store.ensureSource doc.sourceId doc.type doc.path doc.version) (store.ensureCost doc db)
      db () (store.ensured doc db) := by
  unfold ensureSource ensureCost ensured
  have hfetch := Runs.fetch (store.findSource doc.sourceId) none db
  cases hfound : store.findSource doc.sourceId db with
  | some row =>
    rw [hfound] at hfetch
    refine hfetch.bind (k := 0) ?_
    exact Runs.pure () db
  | none =>
    rw [hfound] at hfetch
    have hkey := newSource_new hfound
    have hinsert : (Statement.insertSource (store.newSource doc)).run store.fts db =
        .ok ({ db with sources := db.sources ++ [store.newSource doc] }, 1) := by
      simp only [Statement.run, if_neg hkey]
    refine hfetch.bind (k := 1) ?_
    exact Runs.execute hinsert

theorem deleteChunksForSource_runs (sourceId : Text) (db : Db) :
    Runs (store.deleteChunksForSource sourceId) store.deleteCost db ()
      (store.chunksDeleted sourceId db) := by
  unfold deleteChunksForSource deleteEmbeddingsForSource deleteCost chunksDeleted
  by_cases havailable : store.fts.available = true
  · simp only [havailable, if_true]
    refine Runs.bind (Runs.execute rfl) (j := 1) (k := 2) ?_
    refine Runs.bind (Runs.execute rfl) (j := 1) (k := 1) ?_
    exact Runs.execute rfl
  · simp only [havailable, Bool.false_eq_true, if_false]
    refine Runs.bind (Runs.execute rfl) (j := 1) (k := 1) ?_
    exact Runs.execute rfl

theorem insertChunk_runs {sourceId documentId : Text} {chunk : Chunk} {content : Points}
    (h : jsonText chunk.metadata = .ok content) (db : Db) :
    Runs (store.insertChunk sourceId documentId chunk) store.chunkCost db ()
      (store.addRow db (store.chunkRow sourceId documentId chunk (storedJson chunk.metadata))) := by
  rw [storedJson_eq h]
  unfold insertChunk chunkCost addRow
  by_cases havailable : store.fts.available = true
  · simp only [havailable, if_true]
    refine Runs.bind (Runs.parameter h db) (k := 2) ?_
    refine Runs.bind (Runs.execute rfl) (j := 1) (k := 1) ?_
    exact Runs.execute rfl
  · simp only [havailable, Bool.false_eq_true, if_false]
    refine Runs.bind (Runs.parameter h db) (k := 1) ?_
    refine Runs.bind (Runs.execute rfl) (j := 1) (k := 0) ?_
    exact Runs.pure () _

theorem insertChunks_runs {sourceId documentId : Text} {chunks : List Chunk}
    (h : ∀ chunk ∈ chunks, ∃ content, jsonText chunk.metadata = .ok content) (db : Db) :
    Runs (store.insertChunks sourceId documentId chunks) (store.chunkCost * chunks.length) db ()
      (store.addRows (store.rowsOf sourceId documentId chunks) db) := by
  induction chunks generalizing db with
  | nil => exact Runs.pure () db
  | cons chunk rest ih =>
    obtain ⟨content, hcontent⟩ := h chunk (List.mem_cons_self ..)
    have hrest := ih (fun c hc => h c (List.mem_cons_of_mem _ hc))
      (store.addRow db (store.chunkRow sourceId documentId chunk (storedJson chunk.metadata)))
    have hcost : store.chunkCost * (chunk :: rest).length =
        store.chunkCost + store.chunkCost * rest.length := by
      rw [List.length_cons, Nat.mul_succ, Nat.add_comm]
    rw [hcost]
    exact (insertChunk_runs hcontent db).bind hrest

theorem writeDocument_runs {doc : KnowledgeDocument} (h : doc.Writable) (db : Db) :
    Runs (store.writeDocument doc) (store.chunkCost * doc.chunks.length + 2) db ()
      (store.written doc db) := by
  obtain ⟨content, hcontent⟩ := h.document
  have hdocument : Runs (store.run (.insertDocument ⟨doc.resolvedId, doc.sourceId,
      doc.resolvedTitle, doc.path, doc.hash, content, store.projectId⟩)) 1
      (store.addRows (store.documentRows doc) db) ()
      (store.documented doc (store.addRows (store.documentRows doc) db)) := by
    have hrow : store.documentRow doc = ⟨doc.resolvedId, doc.sourceId, doc.resolvedTitle, doc.path,
        doc.hash, content, store.projectId⟩ := by
      unfold documentRow
      rw [storedJson_eq hcontent]
    unfold documented
    rw [hrow]
    exact Runs.execute rfl
  have htouch : Runs (store.run (.touchSource doc.sourceId store.projectId doc.hash)) 1
      (store.documented doc (store.addRows (store.documentRows doc) db)) () (store.written doc db) :=
    Runs.execute rfl
  have hparameter := Runs.parameter hcontent (store.addRows (store.documentRows doc) db)
  refine (insertChunks_runs h.chunks db).bind (k := 2) ?_
  refine hparameter.bind (k := 2) ?_
  refine hdocument.bind (k := 1) ?_
  exact htouch

/-- The document is there with the same hash: nothing but the source changes. -/
theorem indexDocument_skips {doc : KnowledgeDocument} {db : Db} {existing : DocumentRow}
    (htype : doc.type ∈ validSourceTypes)
    (hfound : store.findDocument doc.resolvedId db = some existing)
    (hhash : existing.hash = doc.hash) :
    Leaves (store.indexDocument doc) (store.ensureCost doc db + 1) db (store.ensured doc db) := by
  have hsame : store.findDocument doc.resolvedId (store.ensured doc db) = some existing := by
    rw [← hfound]
    unfold ensured
    split <;> rfl
  have hfetch := Runs.fetch (store.findDocument doc.resolvedId) none (store.ensured doc db)
  rw [hsame] at hfetch
  unfold indexDocument
  simp only [htype, not_true_eq_false, if_false]
  refine (ensureSource_runs doc).bind_leaves (hfetch.bind_leaves (k := 0) ?_)
  simp only [hhash, if_true]
  exact (Runs.pure _ _).leaves

/-- The document is not there: it is written. -/
theorem indexDocument_indexes {doc : KnowledgeDocument} {db : Db}
    (htype : doc.type ∈ validSourceTypes) (hwritable : doc.Writable)
    (hfound : store.findDocument doc.resolvedId db = none) :
    Leaves (store.indexDocument doc)
      (store.ensureCost doc db + (1 + (store.chunkCost * doc.chunks.length + 2))) db
      (store.written doc (store.ensured doc db)) := by
  have hsame : store.findDocument doc.resolvedId (store.ensured doc db) = none := by
    rw [← hfound]
    unfold ensured
    split <;> rfl
  have hfetch := Runs.fetch (store.findDocument doc.resolvedId) none (store.ensured doc db)
  rw [hsame] at hfetch
  unfold indexDocument
  simp only [htype, not_true_eq_false, if_false]
  refine (ensureSource_runs doc).bind_leaves (hfetch.bind_leaves ?_)
  exact (writeDocument_runs hwritable _).bind_leaves (k := 0) (Runs.pure _ _).leaves

/-- The document is there with another hash: it is replaced. -/
theorem indexDocument_reindexes {doc : KnowledgeDocument} {db : Db} {existing : DocumentRow}
    (htype : doc.type ∈ validSourceTypes) (hwritable : doc.Writable)
    (hfound : store.findDocument doc.resolvedId db = some existing)
    (hhash : existing.hash ≠ doc.hash) :
    Leaves (store.indexDocument doc)
      (store.ensureCost doc db + (1 + (store.deleteCost + (1 + (store.chunkCost *
        doc.chunks.length + 2))))) db
      (store.written doc (store.cleared doc (store.ensured doc db))) := by
  have hsame : store.findDocument doc.resolvedId (store.ensured doc db) = some existing := by
    rw [← hfound]
    unfold ensured
    split <;> rfl
  have hfetch := Runs.fetch (store.findDocument doc.resolvedId) none (store.ensured doc db)
  rw [hsame] at hfetch
  unfold indexDocument
  simp only [htype, not_true_eq_false, if_false]
  refine (ensureSource_runs doc).bind_leaves (hfetch.bind_leaves ?_)
  simp only [hhash, if_false]
  refine (deleteChunksForSource_runs doc.sourceId _).bind_leaves ?_
  have hdelete : Runs (store.run (.deleteDocument doc.resolvedId store.projectId)) 1
      (store.chunksDeleted doc.sourceId (store.ensured doc db)) ()
      (store.cleared doc (store.ensured doc db)) := Runs.execute rfl
  have hrest : ∀ deleted : ℕ, Leaves (do
      store.run (.deleteDocument doc.resolvedId store.projectId)
      store.writeDocument doc
      return (⟨.reindexed, doc.chunks.length, deleted, doc.sourceId⟩ : IndexResult))
      (1 + (store.chunkCost * doc.chunks.length + 2))
      (store.chunksDeleted doc.sourceId (store.ensured doc db))
      (store.written doc (store.cleared doc (store.ensured doc db))) := by
    intro deleted
    refine hdelete.bind_leaves ?_
    exact (writeDocument_runs hwritable _).bind_leaves (k := 0) (Runs.pure _ _).leaves
  have htotal := (Leaves.totalChanges (store.chunksDeleted doc.sourceId (store.ensured doc db))).bind
    hrest
  rw [Nat.zero_add] at htotal
  exact htotal

end KnowledgeStore

end AiosDeck.Knowledge
