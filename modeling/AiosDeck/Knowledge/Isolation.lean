import AiosDeck.Knowledge.Lookups

/-!
# Projects that share a database

What a project looks up depends on its own rows alone, and no call of another
project touches these, as long as the ids of chunks and sources that the
projects write stay apart. The deletes and joins on the full-text table and
on the embeddings are scoped by these ids only.
-/

namespace AiosDeck.Knowledge

open Python Storage Tables

/-- The calls of a project on its store. -/
inductive Operation where
  | index (doc : KnowledgeDocument)
  | saveEmbedding (chunkId provider model : Text) (vectorDim : ℤ) (vectorBlob embeddingHash : Text)
  | search (query : KnowledgeQuery)

/-- The rows of a project. -/
structure View where
  sources : List SourceRow
  chunks : List ChunkRow
  embeddings : List EmbeddingRow

/-- What a project sees of the tables. -/
def Db.view (projectId : Text) (db : Db) : View :=
  ⟨db.ownSources projectId, db.ownChunks projectId, db.ownEmbeddings projectId⟩

namespace KnowledgeStore

variable {store : KnowledgeStore} {db : Db}

/-- The tables after a call. -/
def perform (store : KnowledgeStore) (db : Db) : Operation → Db
  | .index doc => (outcome (store.indexDocument doc) db).2
  | .saveEmbedding chunkId provider model vectorDim vectorBlob embeddingHash =>
    (outcome (store.saveEmbedding chunkId provider model vectorDim vectorBlob embeddingHash) db).2
  | .search query => (outcome (store.search query) db).2

/-- The stored version of the document has the same content. -/
def skips (store : KnowledgeStore) (doc : KnowledgeDocument) (db : Db) : Bool :=
  (store.findDocument doc.resolvedId db).any fun existing => existing.hash = doc.hash

/-- There is a stored version with another content. -/
def replaces (store : KnowledgeStore) (doc : KnowledgeDocument) (db : Db) : Bool :=
  (store.findDocument doc.resolvedId db).any fun existing => existing.hash ≠ doc.hash

/-- The tables before the chunks of a document are inserted. -/
def prepared (store : KnowledgeStore) (doc : KnowledgeDocument) (db : Db) : Db :=
  if store.replaces doc db then store.cleared doc (store.ensured doc db) else store.ensured doc db

/-- The document keeps apart from the rows that are there. -/
structure KeepsApart (store : KnowledgeStore) (doc : KnowledgeDocument) (db : Db) : Prop where
  distinct : (doc.chunks.map Chunk.chunkId).Nodup
  /-- Only the version that it replaces has its chunk ids. -/
  chunkIds : store.fts.available = true →
    ∀ row ∈ db.chunks, row.chunkId ∈ doc.chunks.map Chunk.chunkId →
      store.replaces doc db = true ∧ row.sourceId = doc.sourceId ∧ row.projectId = store.projectId
  /-- No other project has chunks of the source. -/
  sources : store.fts.available = true → store.replaces doc db = true →
    ∀ row ∈ db.chunks, row.sourceId = doc.sourceId → row.projectId = store.projectId
  /-- No other project has embeddings for the chunks that it replaces. -/
  embeddings : store.replaces doc db = true →
    ∀ chunk ∈ db.chunksOf doc.sourceId store.projectId, ∀ row ∈ db.embeddings,
      row.projectId ≠ store.projectId → row.chunkId ≠ chunk.chunkId

/-- A call that keeps apart from the rows of other projects. -/
def Permitted (store : KnowledgeStore) (db : Db) : Operation → Prop
  | .index doc => doc.type ∈ validSourceTypes → store.skips doc db = false → store.KeepsApart doc db
  | _ => True

end KnowledgeStore

/-- The databases that permitted calls of any projects, in any order, lead to. -/
inductive Reached (fts : Fts5) : Db → Prop
  | empty : Reached fts {}
  | call {db : Db} (store : KnowledgeStore) (op : Operation) (hfts : store.fts = fts)
      (hreached : Reached fts db) (hpermitted : store.Permitted db op) :
      Reached fts (store.perform db op)

/-- Keys are unique; with a full-text table, chunk ids are unique over all
projects and the table mirrors the chunks. -/
structure Db.Sound (fts : Fts5) (db : Db) : Prop where
  sources : (db.sources.map SourceRow.key).Nodup
  chunks : (db.chunks.map ChunkRow.key).Nodup
  chunkIds : fts.available = true → (db.chunks.map ChunkRow.chunkId).Nodup
  mirrored : fts.available = true → db.fts = db.chunks.map ChunkRow.mirror

theorem Db.Sound.coherent {fts : Fts5} {db : Db} (h : db.Sound fts) (projectId : Text) :
    db.Coherent fts projectId := by
  constructor
  · exact h.sources
  · exact h.chunks
  · intro hfts
    rw [h.mirrored hfts, List.filter_map]
    rfl
  · intro hfts row hrow hother chunk hchunk hsame
    rw [h.mirrored hfts] at hrow
    obtain ⟨owner, howner, rfl⟩ := List.mem_map.mp hrow
    obtain ⟨hmem, hproject⟩ := Db.mem_ownChunks.mp hchunk
    have heq : chunk = owner := List.inj_on_of_nodup_map (h.chunkIds hfts) hmem howner hsame
    rw [heq] at hproject
    exact hother hproject

namespace KnowledgeStore

variable {store : KnowledgeStore} {db : Db}

section Effects

/-- Inserting chunks of which one cannot be stored raises behind those before
it. -/
theorem insertChunks_raises {sourceId documentId : Text} {chunks : List Chunk}
    (h : ¬ ∀ chunk ∈ chunks, ∃ content, jsonText chunk.metadata = .ok content) (db : Db) :
    ∃ k exc n, Raises (store.insertChunks sourceId documentId chunks) k db exc
      (store.addRows ((store.rowsOf sourceId documentId chunks).take n) db) := by
  induction chunks generalizing db with
  | nil => exact absurd (fun chunk hchunk => by cases hchunk) h
  | cons chunk rest ih =>
    cases hjson : jsonText chunk.metadata with
    | error exc =>
      have hraises : Raises (store.insertChunk sourceId documentId chunk) 0 db exc db :=
        (Raises.parameter hjson db).bind_left
      exact ⟨0, exc, 0, hraises.bind_left⟩
    | ok content =>
      have hone : Runs (store.insertChunk sourceId documentId chunk) store.chunkCost db ()
          (store.addRow db (store.chunkRow sourceId documentId chunk (storedJson chunk.metadata))) :=
        insertChunk_runs hjson db
      have hrest : ¬ ∀ chunk ∈ rest, ∃ content, jsonText chunk.metadata = .ok content := by
        intro hall
        exact h (List.forall_mem_cons.mpr ⟨⟨content, hjson⟩, hall⟩)
      obtain ⟨k, exc, n, hraises⟩ := ih hrest (store.addRow db (store.chunkRow sourceId documentId
        chunk (storedJson chunk.metadata)))
      exact ⟨_, exc, n + 1, hraises.bind_right hone⟩

/-- A document that cannot be stored leaves the first of its chunks. -/
theorem writeDocument_raises {doc : KnowledgeDocument} (h : ¬ doc.Writable) (db : Db) :
    ∃ k exc n, Raises (store.writeDocument doc) k db exc
      (store.addRows ((store.documentRows doc).take n) db) := by
  unfold writeDocument
  by_cases hchunks : ∀ chunk ∈ doc.chunks, ∃ content, jsonText chunk.metadata = .ok content
  · cases hjson : jsonText doc.metadata with
    | ok content => exact absurd ⟨hchunks, content, hjson⟩ h
    | error exc =>
      have hall : Runs (store.insertChunks doc.sourceId doc.resolvedId doc.chunks)
          (store.chunkCost * doc.chunks.length) db () (store.addRows (store.documentRows doc) db) :=
        insertChunks_runs hchunks db
      have htake : (store.documentRows doc).take doc.chunks.length = store.documentRows doc := by
        refine List.take_of_length_le ?_
        simp [documentRows, rowsOf]
      refine ⟨store.chunkCost * doc.chunks.length + 0, exc, doc.chunks.length, ?_⟩
      rw [htake]
      exact (Raises.parameter rfl _).bind_left.bind_right hall
  · obtain ⟨k, exc, n, hraises⟩ :
        ∃ k exc n, Raises (store.insertChunks doc.sourceId doc.resolvedId doc.chunks) k db exc
          (store.addRows ((store.documentRows doc).take n) db) := insertChunks_raises hchunks db
    exact ⟨k, exc, n, hraises.bind_left⟩

/-- What indexing a document leaves. -/
inductive Indexed (store : KnowledgeStore) (doc : KnowledgeDocument) (db : Db) : Db → Prop
  | refused : Indexed store doc db db
  | skipped : Indexed store doc db (store.ensured doc db)
  | written (hvalid : doc.type ∈ validSourceTypes) (hskips : store.skips doc db = false) :
      Indexed store doc db (store.written doc (store.prepared doc db))
  | stuck (n : ℕ) (hvalid : doc.type ∈ validSourceTypes) (hskips : store.skips doc db = false) :
      Indexed store doc db (store.addRows ((store.documentRows doc).take n) (store.prepared doc db))

theorem indexDocument_raises {doc : KnowledgeDocument} {existing : Option DocumentRow}
    (htype : doc.type ∈ validSourceTypes) (hwritable : ¬ doc.Writable)
    (hfound : store.findDocument doc.resolvedId db = existing)
    (hhash : ∀ row ∈ existing, row.hash ≠ doc.hash) :
    ∃ k exc n, Raises (store.indexDocument doc) k db exc
      (store.addRows ((store.documentRows doc).take n) (store.prepared doc db)) := by
  have hsame : store.findDocument doc.resolvedId (store.ensured doc db) = existing := by
    rw [← hfound]
    unfold ensured
    split <;> rfl
  have hfetch := Runs.fetch (store.findDocument doc.resolvedId) none (store.ensured doc db)
  rw [hsame] at hfetch
  obtain ⟨k, exc, n, hraises⟩ := writeDocument_raises hwritable (store.prepared doc db)
  unfold indexDocument
  simp only [htype, not_true_eq_false, if_false]
  cases existing with
  | none =>
    have hprepared : store.prepared doc db = store.ensured doc db := by
      simp [prepared, replaces, hfound]
    rw [hprepared] at hraises ⊢
    refine ⟨store.ensureCost doc db + (1 + k), exc, n, ?_⟩
    refine Raises.bind_right (ensureSource_runs doc) ?_
    refine Raises.bind_right hfetch ?_
    exact hraises.bind_left
  | some row =>
    have hdiffer : row.hash ≠ doc.hash := hhash row rfl
    have hprepared : store.prepared doc db = store.cleared doc (store.ensured doc db) := by
      simp [prepared, replaces, hfound, hdiffer]
    rw [hprepared] at hraises ⊢
    have hdelete : Runs (store.run (.deleteDocument doc.resolvedId store.projectId)) 1
        (store.chunksDeleted doc.sourceId (store.ensured doc db)) ()
        (store.cleared doc (store.ensured doc db)) := Runs.execute rfl
    refine ⟨store.ensureCost doc db + (1 + (store.deleteCost + (0 + (1 + k)))), exc, n, ?_⟩
    refine Raises.bind_right (ensureSource_runs doc) ?_
    refine Raises.bind_right hfetch ?_
    simp only [hdiffer, if_false]
    refine Raises.bind_right (deleteChunksForSource_runs doc.sourceId _) ?_
    refine (Leaves.totalChanges _).bind_raises fun deleted => ?_
    exact hraises.bind_left.bind_right hdelete

/-- Indexing ends in one of four ways. -/
theorem indexDocument_indexed (store : KnowledgeStore) (doc : KnowledgeDocument) (db : Db) :
    store.Indexed doc db (outcome (store.indexDocument doc) db).2 := by
  by_cases htype : doc.type ∈ validSourceTypes
  · cases hfound : store.findDocument doc.resolvedId db with
    | none =>
      have hskips : store.skips doc db = false := by simp [skips, hfound]
      have hprepared : store.prepared doc db = store.ensured doc db := by
        simp [prepared, replaces, hfound]
      by_cases hwritable : doc.Writable
      · rw [(indexDocument_indexes htype hwritable hfound).outcome, ← hprepared]
        exact .written htype hskips
      · obtain ⟨k, exc, n, hraises⟩ := indexDocument_raises htype hwritable hfound (by simp)
        rw [hraises.outcome]
        exact .stuck n htype hskips
    | some existing =>
      by_cases hhash : existing.hash = doc.hash
      · rw [(indexDocument_skips htype hfound hhash).outcome]
        exact .skipped
      · have hskips : store.skips doc db = false := by simp [skips, hfound, hhash]
        have hprepared : store.prepared doc db = store.cleared doc (store.ensured doc db) := by
          simp [prepared, replaces, hfound, hhash]
        by_cases hwritable : doc.Writable
        · rw [(indexDocument_reindexes htype hwritable hfound hhash).outcome, ← hprepared]
          exact .written htype hskips
        · have hother : ∀ row ∈ some existing, row.hash ≠ doc.hash := by
            rintro row hrow
            cases hrow
            exact hhash
          obtain ⟨k, exc, n, hraises⟩ := indexDocument_raises htype hwritable hfound hother
          rw [hraises.outcome]
          exact .stuck n htype hskips
  · have hraises : Raises (store.indexDocument doc) 0 db
        (knowledgeError ("Invalid document type: ".toList ++ doc.type)) db := by
      unfold indexDocument
      simp only [htype, not_false_eq_true, if_true]
      exact (Raises.throw _ db).bind_left
    rw [hraises.outcome]
    exact .refused

end Effects

section Soundness

variable {doc : KnowledgeDocument}

theorem ensured_sound (h : db.Sound store.fts) : (store.ensured doc db).Sound store.fts := by
  have hnodup := @ensured_nodup store doc db h.sources
  unfold ensured at hnodup ⊢
  cases hfound : store.findSource doc.sourceId db with
  | some row => exact h
  | none =>
    rw [hfound] at hnodup
    exact ⟨hnodup, h.chunks, h.chunkIds, h.mirrored⟩

theorem cleared_sound (h : db.Sound store.fts)
    (hsources : store.fts.available = true →
      ∀ row ∈ db.chunks, row.sourceId = doc.sourceId → row.projectId = store.projectId) :
    (store.cleared doc db).Sound store.fts := by
  have hsub : (store.cleared doc db).chunks.Sublist db.chunks := List.filter_sublist
  constructor
  · exact h.sources
  · exact h.chunks.sublist (hsub.map _)
  · exact fun hfts => (h.chunkIds hfts).sublist (hsub.map _)
  · intro hfts
    change (if store.fts.available then db.fts.filter fun row => row.sourceId ≠ doc.sourceId
      else db.fts) = _
    rw [if_pos hfts, h.mirrored hfts, List.filter_map]
    congr 1
    refine List.filter_congr fun row hrow => ?_
    have howner := hsources hfts row hrow
    simp only [Function.comp_apply, decide_eq_decide]
    constructor
    · exact fun hne hboth => hne hboth.1
    · exact fun hnot hsource => hnot ⟨hsource, howner hsource⟩

theorem addRow_sound {row : ChunkRow} (h : db.Sound store.fts)
    (hfresh : store.fts.available = true → row.chunkId ∉ db.chunks.map ChunkRow.chunkId) :
    (store.addRow db row).Sound store.fts := by
  have hnew : store.fts.available = true → upsert ChunkRow.key row db.chunks = db.chunks ++ [row] := by
    intro hfts
    refine upsert_new fun hmem => hfresh hfts ?_
    obtain ⟨other, hother, hkey⟩ := List.mem_map.mp hmem
    exact List.mem_map.mpr ⟨other, hother, (Prod.mk.inj hkey).1⟩
  constructor
  · exact h.sources
  · exact upsert_nodup h.chunks
  · intro hfts
    change ((upsert ChunkRow.key row db.chunks).map ChunkRow.chunkId).Nodup
    rw [hnew hfts, List.map_append]
    refine List.nodup_append.mpr ⟨h.chunkIds hfts, List.nodup_singleton _, ?_⟩
    intro k hk l hl hsame
    rw [List.map_singleton, List.mem_singleton] at hl
    rw [hsame, hl] at hk
    exact hfresh hfts hk
  · intro hfts
    change (if store.fts.available then db.fts ++ [row.mirror] else db.fts) =
      (upsert ChunkRow.key row db.chunks).map ChunkRow.mirror
    rw [if_pos hfts, hnew hfts, List.map_append, h.mirrored hfts]
    rfl

theorem addRows_sound {rows : List ChunkRow} (h : db.Sound store.fts)
    (hdistinct : (rows.map ChunkRow.chunkId).Nodup)
    (hfresh : store.fts.available = true →
      ∀ row ∈ rows, row.chunkId ∉ db.chunks.map ChunkRow.chunkId) :
    (store.addRows rows db).Sound store.fts := by
  induction rows generalizing db with
  | nil => exact h
  | cons row rest ih =>
    rw [List.map_cons, List.nodup_cons] at hdistinct
    obtain ⟨hother, hrest⟩ := hdistinct
    have hone : (store.addRow db row).Sound store.fts :=
      addRow_sound h fun hfts => hfresh hfts row (List.mem_cons_self ..)
    refine ih hone hrest fun hfts next hnext hmem => ?_
    obtain ⟨old, hold, hsame⟩ := List.mem_map.mp hmem
    rcases mem_upsert.mp hold with ⟨hold, -⟩ | rfl
    · exact hfresh hfts next (List.mem_cons_of_mem _ hnext) (hsame ▸ List.mem_map_of_mem hold)
    · exact hother (hsame ▸ List.mem_map_of_mem hnext)

theorem finished_sound (h : db.Sound store.fts) :
    (store.touched doc (store.documented doc db)).Sound store.fts := by
  refine ⟨?_, h.chunks, h.chunkIds, h.mirrored⟩
  have hkeys : ∀ row : SourceRow, (if row.sourceId = doc.sourceId ∧ row.projectId = store.projectId
      then { row with hash := doc.hash, status := "active".toList } else row).key = row.key := by
    intro row
    split <;> rfl
  have hall : (store.touched doc (store.documented doc db)).sources.map SourceRow.key =
      db.sources.map SourceRow.key := by
    change (db.sources.map _).map SourceRow.key = _
    rw [List.map_map]
    exact List.map_congr_left fun row _ => hkeys row
  rw [hall]
  exact h.sources

theorem documentRows_chunkIds (doc : KnowledgeDocument) :
    (store.documentRows doc).map ChunkRow.chunkId = doc.chunks.map Chunk.chunkId := by
  unfold documentRows rowsOf
  rw [List.map_map]
  rfl

theorem ensured_chunks (doc : KnowledgeDocument) (db : Db) :
    (store.ensured doc db).chunks = db.chunks := by
  unfold ensured
  split <;> rfl

theorem ensured_embeddings (doc : KnowledgeDocument) (db : Db) :
    (store.ensured doc db).embeddings = db.embeddings := by
  unfold ensured
  split <;> rfl

theorem prepared_sound (h : db.Sound store.fts) (hapart : store.KeepsApart doc db) :
    (store.prepared doc db).Sound store.fts := by
  unfold prepared
  split
  · rename_i hreplaces
    refine cleared_sound (ensured_sound h) fun hfts => ?_
    rw [ensured_chunks]
    exact hapart.sources hfts hreplaces
  · exact ensured_sound h

/-- What is left before the chunks are inserted shares no chunk id with them. -/
theorem prepared_fresh (hapart : store.KeepsApart doc db) (hfts : store.fts.available = true) :
    ∀ row ∈ store.documentRows doc,
      row.chunkId ∉ (store.prepared doc db).chunks.map ChunkRow.chunkId := by
  intro row hrow hmem
  have hid : row.chunkId ∈ doc.chunks.map Chunk.chunkId := by
    have hmap : row.chunkId ∈ (store.documentRows doc).map ChunkRow.chunkId :=
      List.mem_map_of_mem hrow
    rwa [documentRows_chunkIds] at hmap
  obtain ⟨old, hold, hsame⟩ := List.mem_map.mp hmem
  rw [← hsame] at hid
  unfold prepared at hold
  split at hold
  · obtain ⟨hin, hkept⟩ := List.mem_filter.mp hold
    change old ∈ (store.ensured doc db).chunks at hin
    rw [ensured_chunks] at hin
    exact of_decide_eq_true hkept (hapart.chunkIds hfts old hin hid).2
  · rename_i hreplaces
    rw [ensured_chunks] at hold
    exact hreplaces (hapart.chunkIds hfts old hold hid).1

/-- Chunks of the document, first ones first, keep the tables sound. -/
theorem take_sound (h : db.Sound store.fts) (hapart : store.KeepsApart doc db) (n : ℕ) :
    (store.addRows ((store.documentRows doc).take n) (store.prepared doc db)).Sound store.fts := by
  have hdistinct : ((store.documentRows doc).map ChunkRow.chunkId).Nodup := by
    rw [documentRows_chunkIds]
    exact hapart.distinct
  refine addRows_sound (prepared_sound h hapart) ?_ fun hfts row hrow => ?_
  · exact hdistinct.sublist ((List.take_sublist n _).map _)
  · exact prepared_fresh hapart hfts row (List.mem_of_mem_take hrow)

theorem Indexed.sound {after : Db} (h : store.Indexed doc db after) (hsound : db.Sound store.fts)
    (hapart : store.Permitted db (.index doc)) : after.Sound store.fts := by
  cases h with
  | refused => exact hsound
  | skipped => exact ensured_sound hsound
  | stuck n hvalid hskips => exact take_sound hsound (hapart hvalid hskips) n
  | written hvalid hskips =>
    have hall := take_sound hsound (hapart hvalid hskips) (store.documentRows doc).length
    rw [List.take_length] at hall
    exact finished_sound hall

end Soundness

section Views

variable {doc : KnowledgeDocument} {projectId : Text}

theorem ensured_view (hother : projectId ≠ store.projectId) :
    (store.ensured doc db).view projectId = db.view projectId := by
  unfold ensured
  split
  · rfl
  · have hnone : [store.newSource doc].filter (fun row => row.projectId = projectId) = [] := by
      simp [newSource, Ne.symm hother]
    simp [Db.view, Db.ownSources, Db.ownChunks, Db.ownEmbeddings, List.filter_append, hnone]

theorem cleared_view (hother : projectId ≠ store.projectId)
    (hembeddings : ∀ chunk ∈ db.chunksOf doc.sourceId store.projectId, ∀ row ∈ db.embeddings,
      row.projectId ≠ store.projectId → row.chunkId ≠ chunk.chunkId) :
    (store.cleared doc db).view projectId = db.view projectId := by
  have hchunks : (store.cleared doc db).ownChunks projectId = db.ownChunks projectId := by
    refine filter_delete fun row _ hown => ?_
    have hproject : row.projectId = projectId := of_decide_eq_true hown
    refine decide_eq_true fun hboth => hother ?_
    rw [← hproject]
    exact hboth.2
  have hkept : (store.cleared doc db).ownEmbeddings projectId = db.ownEmbeddings projectId := by
    refine filter_delete fun row hrow hown => ?_
    have hproject : row.projectId = projectId := of_decide_eq_true hown
    refine decide_eq_true fun hmem => ?_
    obtain ⟨chunk, hchunk, hsame⟩ := List.mem_map.mp hmem
    exact hembeddings chunk hchunk row hrow (by rw [hproject]; exact hother) hsame.symm
  unfold Db.view
  rw [hchunks, hkept]
  rfl

theorem addRow_view {row : ChunkRow} (hother : projectId ≠ row.projectId) :
    (store.addRow db row).view projectId = db.view projectId := by
  have hchunks : (store.addRow db row).ownChunks projectId = db.ownChunks projectId := by
    refine filter_upsert ?_ fun other _ hown hkey => hother ?_
    · exact decide_eq_false (Ne.symm hother)
    · have hproject : other.projectId = projectId := of_decide_eq_true hown
      rw [← hproject]
      exact (Prod.mk.inj hkey).2
  unfold Db.view
  rw [hchunks]
  rfl

theorem addRows_view {rows : List ChunkRow} (hother : ∀ row ∈ rows, projectId ≠ row.projectId) :
    (store.addRows rows db).view projectId = db.view projectId := by
  induction rows generalizing db with
  | nil => rfl
  | cons row rest ih =>
    have hrest : (store.addRows rest (store.addRow db row)).view projectId =
        (store.addRow db row).view projectId :=
      ih fun other hmem => hother other (List.mem_cons_of_mem _ hmem)
    exact hrest.trans (addRow_view (hother row (List.mem_cons_self ..)))

theorem finished_view (hother : projectId ≠ store.projectId) :
    (store.touched doc (store.documented doc db)).view projectId = db.view projectId := by
  have hsources : (store.touched doc (store.documented doc db)).ownSources projectId =
      db.ownSources projectId := by
    refine filter_update (fun row _ => ?_) fun row _ hown => ?_
    · split <;> rfl
    · have hproject : row.projectId = projectId := of_decide_eq_true hown
      refine if_neg fun hboth => hother ?_
      rw [← hproject]
      exact hboth.2
  unfold Db.view
  rw [hsources]
  rfl

theorem prepared_view (hother : projectId ≠ store.projectId) (hapart : store.KeepsApart doc db) :
    (store.prepared doc db).view projectId = db.view projectId := by
  unfold prepared
  split
  · rename_i hreplaces
    have hcleared : (store.cleared doc (store.ensured doc db)).view projectId =
        (store.ensured doc db).view projectId := by
      refine cleared_view hother fun chunk hchunk row hrow => ?_
      rw [Db.chunksOf, ensured_chunks] at hchunk
      rw [ensured_embeddings] at hrow
      exact hapart.embeddings hreplaces chunk hchunk row hrow
    rw [hcleared, ensured_view hother]
  · exact ensured_view hother

theorem take_view (hother : projectId ≠ store.projectId) (hapart : store.KeepsApart doc db) (n : ℕ) :
    (store.addRows ((store.documentRows doc).take n) (store.prepared doc db)).view projectId =
      db.view projectId := by
  refine (addRows_view fun row hrow => ?_).trans (prepared_view hother hapart)
  obtain ⟨chunk, -, rfl⟩ := List.mem_map.mp (List.mem_of_mem_take hrow)
  exact hother

theorem Indexed.view {after : Db} (h : store.Indexed doc db after)
    (hother : projectId ≠ store.projectId) (hapart : store.Permitted db (.index doc)) :
    after.view projectId = db.view projectId := by
  cases h with
  | refused => rfl
  | skipped => exact ensured_view hother
  | stuck n hvalid hskips => exact take_view hother (hapart hvalid hskips) n
  | written hvalid hskips =>
    have hall := take_view hother (hapart hvalid hskips) (store.documentRows doc).length
    rw [List.take_length] at hall
    exact (finished_view hother).trans hall

end Views

section Calls

theorem perform_saveEmbedding (chunkId provider model : Text) (vectorDim : ℤ)
    (vectorBlob embeddingHash : Text) :
    store.perform db (.saveEmbedding chunkId provider model vectorDim vectorBlob embeddingHash) =
      { db with embeddings := upsert EmbeddingRow.key ⟨chunkId, provider, model, vectorDim,
          vectorBlob, embeddingHash, store.projectId⟩ db.embeddings } := by
  have hruns : Runs (store.saveEmbedding chunkId provider model vectorDim vectorBlob embeddingHash)
      1 db () { db with embeddings := upsert EmbeddingRow.key ⟨chunkId, provider, model, vectorDim,
          vectorBlob, embeddingHash, store.projectId⟩ db.embeddings } := by
    unfold saveEmbedding run
    exact Runs.execute rfl
  simp only [perform, hruns.outcome]

theorem perform_search (query : KnowledgeQuery) : store.perform db (.search query) = db := by
  simp only [perform, search_outcome]

/-- A permitted call keeps the tables sound. -/
theorem perform_sound {op : Operation} (h : db.Sound store.fts) (hpermitted : store.Permitted db op) :
    (store.perform db op).Sound store.fts := by
  cases op with
  | index doc => exact (indexDocument_indexed store doc db).sound h hpermitted
  | saveEmbedding chunkId provider model vectorDim vectorBlob embeddingHash =>
    rw [perform_saveEmbedding]
    exact ⟨h.sources, h.chunks, h.chunkIds, h.mirrored⟩
  | search query =>
    rw [perform_search]
    exact h

/-- A permitted call leaves the rows of other projects alone. -/
theorem perform_view {op : Operation} {projectId : Text} (hother : projectId ≠ store.projectId)
    (hpermitted : store.Permitted db op) : (store.perform db op).view projectId = db.view projectId := by
  cases op with
  | index doc => exact (indexDocument_indexed store doc db).view hother hpermitted
  | saveEmbedding chunkId provider model vectorDim vectorBlob embeddingHash =>
    have hembeddings : (store.perform db (.saveEmbedding chunkId provider model vectorDim vectorBlob
        embeddingHash)).ownEmbeddings projectId = db.ownEmbeddings projectId := by
      rw [perform_saveEmbedding]
      refine filter_upsert ?_ fun other _ hown hkey => hother ?_
      · exact decide_eq_false (Ne.symm hother)
      · have hproject : other.projectId = projectId := of_decide_eq_true hown
        rw [← hproject]
        exact (Prod.mk.inj hkey).2
    unfold Db.view
    rw [hembeddings, perform_saveEmbedding]
    rfl
  | search query => rw [perform_search]

end Calls

section Lookups

variable {db' : Db} {query : KnowledgeQuery}

/-- The contents that a search is about. -/
def finds (store : KnowledgeStore) (query : KnowledgeQuery) : Text → Bool :=
  if store.fts.available then store.fts.hit (ftsExpr query) else like (likePattern query)

/-- A search returns, each at most once, chunks of its own project that match
the query. -/
def Confined (store : KnowledgeStore) (query : KnowledgeQuery) (db : Db) : Prop :=
  ∃ results, (outcome (store.search query) db).1 = .ok results ∧
    (results.map KnowledgeResult.chunkId).Nodup ∧
    ∀ result ∈ results, ∃ chunk ∈ db.ownChunks store.projectId,
      store.finds query chunk.content = true ∧
      asked query (db.ownSources store.projectId) chunk = true ∧
      result = toResult (store.findSource chunk.sourceId db) chunk

/-- What a project looks up is the same in two databases. -/
structure Undisturbed (store : KnowledgeStore) (db db' : Db) : Prop where
  listing : ∀ sourceId, (outcome (store.getSourceChunks sourceId) db').1 =
    (outcome (store.getSourceChunks sourceId) db).1
  embeddings : ∀ chunkIds, (outcome (store.getEmbeddingsByChunkIds chunkIds) db').1 =
    (outcome (store.getEmbeddingsByChunkIds chunkIds) db).1
  unembedded : ∀ chunkIds, (outcome (store.findUnembeddedChunkIds chunkIds) db').1 =
    (outcome (store.findUnembeddedChunkIds chunkIds) db).1
  search : ∀ query, store.RanksLocally query db → store.RanksLocally query db' →
    (outcome (store.search query) db').1 = (outcome (store.search query) db).1

theorem limitRows_sublist {α : Type} (limit : ℤ) (rows : List α) :
    (limitRows limit rows).Sublist rows := by
  unfold limitRows
  split
  · exact List.Sublist.refl _
  · exact List.take_sublist _ _

/-- The rows of a search are some of those that match, in some order. -/
theorem foundRows_matched (h : db.Coherent store.fts store.projectId) (query : KnowledgeQuery) :
    (store.foundRows query db).Subperm (store.matched query (store.finds query) db) := by
  unfold foundRows finds
  split
  · exact List.nil_subperm
  · by_cases hfts : store.fts.available = true
    · rw [if_pos hfts, if_pos hfts]
      split
      · exact List.nil_subperm
      · rw [ftsRows_eq h hfts query db.corpus fun a _ b _ => Iff.rfl]
        split
        · exact List.nil_subperm
        · exact (limitRows_sublist _ _).subperm.trans (List.perm_insertionSort _ _).subperm
    · rw [if_neg hfts, if_neg hfts, likeRows_eq h.sources]
      split
      · exact List.nil_subperm
      · exact (limitRows_sublist _ _).subperm.trans (List.perm_insertionSort _ _).subperm

theorem ownChunks_chunkIds (h : (db.chunks.map ChunkRow.key).Nodup) (projectId : Text) :
    ((db.ownChunks projectId).map ChunkRow.chunkId).Nodup := by
  have hkeys : ((db.ownChunks projectId).map ChunkRow.key).Nodup :=
    h.sublist (List.filter_sublist.map _)
  have hsame : (db.ownChunks projectId).map ChunkRow.key =
      ((db.ownChunks projectId).map ChunkRow.chunkId).map fun chunkId => (chunkId, projectId) := by
    rw [List.map_map]
    refine List.map_congr_left fun row hrow => ?_
    rw [Function.comp_apply, ← (Db.mem_ownChunks.mp hrow).2]
    rfl
  rw [hsame] at hkeys
  exact hkeys.of_map _

/-- In a coherent database searches are confined. -/
theorem search_confined (h : db.Coherent store.fts store.projectId) (query : KnowledgeQuery) :
    store.Confined query db := by
  have hrows := foundRows_matched h query
  have hmatched : (store.matched query (store.finds query) db).Sublist
      (db.ownChunks store.projectId) := List.filter_sublist.trans List.filter_sublist
  refine ⟨_, by rw [search_outcome], ?_, ?_⟩
  · rw [List.map_map]
    have hids : ((store.foundRows query db).map ChunkRow.chunkId).Nodup := by
      obtain ⟨rows, hperm, hsub⟩ := hrows
      have hall := (ownChunks_chunkIds h.chunks store.projectId).sublist ((hsub.trans hmatched).map _)
      exact (hperm.map _).nodup_iff.mp hall
    exact hids
  · intro result hresult
    obtain ⟨chunk, hchunk, rfl⟩ := List.mem_map.mp hresult
    obtain ⟨hfound, hasked⟩ := List.mem_filter.mp (hrows.subset hchunk)
    obtain ⟨hown, hfinds⟩ := List.mem_filter.mp hfound
    exact ⟨chunk, hown, hfinds, hasked, rfl⟩

/-- The rows of a search depend on the own rows, where ranks do. -/
theorem foundRows_view (h : db.Coherent store.fts store.projectId)
    (h' : db'.Coherent store.fts store.projectId)
    (hview : db'.view store.projectId = db.view store.projectId)
    (hranks : store.RanksLocally query db) (hranks' : store.RanksLocally query db') :
    store.foundRows query db' = store.foundRows query db := by
  have hsources : db'.ownSources store.projectId = db.ownSources store.projectId :=
    congrArg View.sources hview
  have hchunks : db'.ownChunks store.projectId = db.ownChunks store.projectId :=
    congrArg View.chunks hview
  have hmatched : ∀ hit, store.matched query hit db' = store.matched query hit db := by
    intro hit
    unfold matched
    rw [hsources, hchunks]
  have hcorpus : store.ownCorpus db' = store.ownCorpus db := by
    unfold ownCorpus
    rw [hchunks]
  unfold foundRows
  by_cases hfts : store.fts.available = true
  · rw [if_pos hfts, if_pos hfts,
      ftsRows_eq h hfts query (store.ownCorpus db) fun a ha b hb => (hranks hfts a ha b hb).symm,
      ftsRows_eq h' hfts query (store.ownCorpus db') fun a ha b hb => (hranks' hfts a ha b hb).symm,
      hmatched, hcorpus]
  · rw [if_neg hfts, if_neg hfts, likeRows_eq h.sources, likeRows_eq h'.sources, hmatched]

theorem getSourceChunks_outcome (sourceId : Text) (db : Db) :
    (outcome (store.getSourceChunks sourceId) db).1 = .ok (((db.view store.projectId).chunks.filter
      fun row => row.sourceId = sourceId).insertionSort fun a b => a.position ≤ b.position) := by
  have hruns := Runs.fetch (fun db : Db => (db.chunksOf sourceId store.projectId).insertionSort
    fun a b => a.position ≤ b.position) [] db
  unfold getSourceChunks
  rw [hruns.outcome, Db.chunksOf_own]
  rfl

theorem ownEmbeddings_filter (chunkIds : List Text) (db : Db) :
    db.embeddings.filter (fun row => row.chunkId ∈ chunkIds ∧ row.projectId = store.projectId) =
      (db.view store.projectId).embeddings.filter fun row => row.chunkId ∈ chunkIds := by
  unfold Db.view Db.ownEmbeddings
  rw [List.filter_filter]
  refine List.filter_congr fun row _ => ?_
  rw [Bool.decide_and]

theorem getEmbeddingsByChunkIds_outcome (chunkIds : List Text) (db : Db) :
    (outcome (store.getEmbeddingsByChunkIds chunkIds) db).1 =
      .ok (((db.view store.projectId).embeddings.filter fun row =>
        row.chunkId ∈ chunkIds).insertionSort fun a b => a.chunkId ≤ b.chunkId) := by
  have hruns := Runs.fetch (fun db : Db => (db.embeddings.filter fun row =>
    row.chunkId ∈ chunkIds ∧ row.projectId = store.projectId).insertionSort fun a b =>
      a.chunkId ≤ b.chunkId) [] db
  unfold getEmbeddingsByChunkIds
  rw [hruns.outcome, ownEmbeddings_filter]

theorem findUnembeddedChunkIds_outcome (chunkIds : List Text) (db : Db) :
    (outcome (store.findUnembeddedChunkIds chunkIds) db).1 =
      .ok (chunkIds.filter fun chunkId => chunkId ∉ ((db.view store.projectId).embeddings.filter
        fun row => row.chunkId ∈ chunkIds).map EmbeddingRow.chunkId) := by
  have hruns := Runs.fetch (fun db : Db => db.embeddings.filter fun row =>
    row.chunkId ∈ chunkIds ∧ row.projectId = store.projectId) [] db
  have hall : Runs (store.findUnembeddedChunkIds chunkIds) (1 + 0) db (chunkIds.filter fun chunkId =>
      chunkId ∉ (db.embeddings.filter fun row => row.chunkId ∈ chunkIds ∧
        row.projectId = store.projectId).map EmbeddingRow.chunkId) db :=
    hruns.bind (Runs.pure _ db)
  rw [hall.outcome, ownEmbeddings_filter]

/-- What a project looks up depends on its own rows, where ranks do. -/
theorem undisturbed_of_view (h : db.Coherent store.fts store.projectId)
    (h' : db'.Coherent store.fts store.projectId)
    (hview : db'.view store.projectId = db.view store.projectId) : store.Undisturbed db db' := by
  constructor
  · intro sourceId
    rw [getSourceChunks_outcome, getSourceChunks_outcome, hview]
  · intro chunkIds
    rw [getEmbeddingsByChunkIds_outcome, getEmbeddingsByChunkIds_outcome, hview]
  · intro chunkIds
    rw [findUnembeddedChunkIds_outcome, findUnembeddedChunkIds_outcome, hview]
  · intro query hranks hranks'
    have hsources : ∀ sourceId, store.findSource sourceId db' = store.findSource sourceId db := by
      intro sourceId
      rw [findSource_own, findSource_own]
      exact congrArg _ (congrArg View.sources hview)
    rw [search_outcome, search_outcome, foundRows_view h h' hview hranks hranks']
    simp only [hsources]

end Lookups

end KnowledgeStore

theorem Reached.sound {fts : Fts5} {db : Db} (h : Reached fts db) : db.Sound fts := by
  induction h with
  | empty => exact ⟨List.nodup_nil, List.nodup_nil, fun _ => List.nodup_nil, fun _ => rfl⟩
  | call store op hfts _ hpermitted ih =>
    rw [← hfts] at ih ⊢
    exact KnowledgeStore.perform_sound ih hpermitted

/-- In every database that permitted calls lead to, every project's searches
are confined to its own matching chunks, and the next permitted call of one
project does not disturb another. -/
theorem projects_isolated {fts : Fts5} {db : Db} (h : Reached fts db) :
    (∀ store : KnowledgeStore, store.fts = fts → ∀ query, store.Confined query db) ∧
    ∀ (store : KnowledgeStore) (op : Operation), store.fts = fts → store.Permitted db op →
      ∀ other : KnowledgeStore, other.fts = fts → other.projectId ≠ store.projectId →
        other.Undisturbed db (store.perform db op) := by
  constructor
  · intro store hfts query
    exact KnowledgeStore.search_confined (hfts ▸ h.sound.coherent store.projectId) query
  · intro store op hfts hpermitted other hother hdistinct
    have hafter : Reached fts (store.perform db op) := .call store op hfts h hpermitted
    have hview := KnowledgeStore.perform_view hdistinct hpermitted
    refine KnowledgeStore.undisturbed_of_view ?_ ?_ hview
    · exact hother ▸ h.sound.coherent other.projectId
    · exact hother ▸ hafter.sound.coherent other.projectId

section Memos

/-- Full-text search for one word, with equal ranks. -/
def wordFts : Fts5 where
  available := true
  hit expr content := expr ∈ (words content).map fun word => ['('] ++ KnowledgeStore.escapeFtsToken word ++ [')']
  rank _ _ _ := 0

def memoStore (projectId : String) : KnowledgeStore := ⟨wordFts, projectId.toList⟩

def memo (path content : String) : KnowledgeDocument where
  path := path.toList
  content := content.toList
  type := "adr".toList

/-- Both projects index the same path. -/
def sharedDb : Db :=
  (memoStore "b").perform ((memoStore "a").perform {} (.index (memo "a.md" "alpha")))
    (.index (memo "a.md" "alpha"))

/-- With the same path in two projects a search returns a chunk twice: its id
is in the full-text table once for each project. -/
theorem not_confined_shared : ¬ (memoStore "a").Confined { text := "alpha".toList } sharedDb := by
  rintro ⟨results, hok, hdistinct, -⟩
  have htwice : ((memoStore "a").foundRows { text := "alpha".toList } sharedDb).map
      ChunkRow.chunkId = ((memoStore "a").documentRows (memo "a.md" "alpha") ++
        (memoStore "a").documentRows (memo "a.md" "alpha")).map ChunkRow.chunkId := by
    decide +kernel
  rw [KnowledgeStore.search_outcome] at hok
  rw [← Except.ok.inj hok, List.map_map] at hdistinct
  have hids : (((memoStore "a").foundRows { text := "alpha".toList } sharedDb).map
      ChunkRow.chunkId).Nodup := hdistinct
  rw [htwice] at hids
  have hone : ¬ (((memoStore "a").documentRows (memo "a.md" "alpha") ++
      (memoStore "a").documentRows (memo "a.md" "alpha")).map ChunkRow.chunkId).Nodup := by
    decide +kernel
  exact hone hids

/-- A project with a memo of its own. -/
def memoDb : Db := (memoStore "a").perform {} (.index (memo "a.md" "alpha"))

/-- A memo of another project under another path leaves the first alone. -/
theorem projects_isolated_memos :
    (memoStore "a").Confined { text := "alpha".toList } memoDb ∧
    (memoStore "a").Undisturbed memoDb
      ((memoStore "b").perform memoDb (.index (memo "b.md" "beta"))) := by
  have hfirst : (memoStore "a").Permitted {} (.index (memo "a.md" "alpha")) := by
    intro _ _
    constructor <;> decide +kernel
  have hsecond : (memoStore "b").Permitted memoDb (.index (memo "b.md" "beta")) := by
    intro _ _
    constructor <;> decide +kernel
  have hreached : Reached wordFts memoDb := .call _ _ rfl .empty hfirst
  have hisolated := projects_isolated hreached
  have hother : (memoStore "a").projectId ≠ (memoStore "b").projectId := by decide
  exact ⟨hisolated.1 (memoStore "a") rfl _,
    hisolated.2 (memoStore "b") _ rfl hsecond (memoStore "a") rfl hother⟩

end Memos

end AiosDeck.Knowledge
