import AiosDeck.Knowledge.Indexing

/-!
# What a project looks up

Listings, embedding lookups and searches in terms of the rows of the project
that asks, in a database whose full-text rows mirror the chunks.
-/

namespace AiosDeck.Knowledge

open Python Storage Tables

namespace Db

/-- The sources of a project. -/
def ownSources (projectId : Text) (db : Db) : List SourceRow :=
  db.sources.filter fun row => row.projectId = projectId

/-- The chunks of a project. -/
def ownChunks (projectId : Text) (db : Db) : List ChunkRow :=
  db.chunks.filter fun row => row.projectId = projectId

/-- The embeddings of a project. -/
def ownEmbeddings (projectId : Text) (db : Db) : List EmbeddingRow :=
  db.embeddings.filter fun row => row.projectId = projectId

/-- The contents of the full-text table, on which ranks depend. -/
def corpus (db : Db) : List Text := db.fts.map FtsRow.content

theorem chunksOf_own (sourceId projectId : Text) (db : Db) : db.chunksOf sourceId projectId =
    (db.ownChunks projectId).filter fun row => row.sourceId = sourceId := by
  unfold chunksOf ownChunks
  rw [List.filter_filter]
  refine List.filter_congr fun row _ => ?_
  rw [Bool.decide_and]

theorem mem_ownChunks {projectId : Text} {db : Db} {row : ChunkRow} :
    row ∈ db.ownChunks projectId ↔ row ∈ db.chunks ∧ row.projectId = projectId := by
  simp [ownChunks]

/-- A database in which the searches of a project find its own chunks once:
keys are unique, and the full-text rows of the project mirror its chunks and
share no chunk id with those of others. -/
structure Coherent (fts : Fts5) (projectId : Text) (db : Db) : Prop where
  sources : (db.sources.map SourceRow.key).Nodup
  chunks : (db.chunks.map ChunkRow.key).Nodup
  mirrored : fts.available = true →
    db.fts.filter (fun row => row.projectId = projectId) =
      (db.ownChunks projectId).map ChunkRow.mirror
  foreign : fts.available = true → ∀ row ∈ db.fts, row.projectId ≠ projectId →
    ∀ chunk ∈ db.ownChunks projectId, chunk.chunkId ≠ row.chunkId

end Db

namespace KnowledgeStore

variable {store : KnowledgeStore} {db : Db}

theorem findSource_own (sourceId : Text) : store.findSource sourceId db =
    (db.ownSources store.projectId).find? fun row => row.sourceId = sourceId := by
  unfold findSource Db.ownSources
  rw [List.find?_filter]
  congr 1
  funext row
  simp [and_comm]

/-- Whether a chunk is joined with a source of the types asked for. -/
def asked (query : KnowledgeQuery) (sources : List SourceRow) (chunk : ChunkRow) : Bool :=
  sources.any fun source => source.sourceId = chunk.sourceId ∧ asksFor query source.type

/-- A chunk is joined with its source once. -/
theorem joinedSources_map {β : Type} (hunique : (db.sources.map SourceRow.key).Nodup)
    {query : KnowledgeQuery} {chunk : ChunkRow} (hchunk : chunk.projectId = store.projectId)
    (x : β) : (joinedSources query chunk db).map (fun _ => x) =
      if asked query (db.ownSources store.projectId) chunk then [x] else [] := by
  by_cases hasked : asked query (db.ownSources store.projectId) chunk = true
  · obtain ⟨source, hsource, hmatch⟩ := List.any_eq_true.mp hasked
    obtain ⟨hmem, hproject⟩ := List.mem_filter.mp hsource
    rw [decide_eq_true_iff] at hmatch hproject
    have hone : joinedSources query chunk db = [source] := by
      have hkey := filter_key hunique hmem
      rw [← hkey]
      refine List.filter_congr fun other hother => ?_
      have hsame : (other.key = source.key) ↔
          other.sourceId = chunk.sourceId ∧ other.projectId = chunk.projectId := by
        rw [hchunk, ← hmatch.1, ← hproject]
        exact Prod.mk.injEq .. ▸ Iff.rfl
      rw [decide_eq_decide, hsame]
      constructor
      · exact fun h => ⟨h.1, h.2.1⟩
      · intro h
        have hsource : other = source := by
          have hin : other ∈ db.sources.filter fun row => row.key = source.key :=
            List.mem_filter.mpr ⟨hother, decide_eq_true (hsame.mpr h)⟩
          rw [hkey] at hin
          exact List.mem_singleton.mp hin
        rw [hsource]
        exact ⟨hmatch.1, hproject.trans hchunk.symm, hmatch.2⟩
    rw [hone, if_pos hasked]
    rfl
  · have hnone : joinedSources query chunk db = [] := by
      refine List.filter_eq_nil_iff.mpr fun source hsource hmatch => hasked ?_
      rw [decide_eq_true_iff] at hmatch
      refine List.any_eq_true.mpr ⟨source, ?_, decide_eq_true ⟨hmatch.1, hmatch.2.2⟩⟩
      exact List.mem_filter.mpr ⟨hsource, decide_eq_true (hmatch.2.1.trans hchunk)⟩
    rw [hnone, if_neg hasked]
    rfl

/-- The own chunks with a content that is hit, of the types asked for. -/
def matched (store : KnowledgeStore) (query : KnowledgeQuery) (hit : Text → Bool) (db : Db) :
    List ChunkRow :=
  ((db.ownChunks store.projectId).filter fun chunk => hit chunk.content).filter
    (asked query (db.ownSources store.projectId))

/-- The full-text join gives each own chunk that is hit, once. -/
theorem ftsJoin_eq (h : db.Coherent store.fts store.projectId) (hfts : store.fts.available = true)
    (query : KnowledgeQuery) : store.ftsJoin query db =
      (store.matched query (store.fts.hit (ftsExpr query)) db).map fun chunk =>
        (store.fts.rank db.corpus (ftsExpr query) chunk.content, chunk) := by
  let score : Text → ℚ := store.fts.rank db.corpus (ftsExpr query)
  let join : FtsRow → List (ℚ × ChunkRow) := fun row =>
    (db.chunks.filter fun chunk =>
      chunk.chunkId = row.chunkId ∧ chunk.projectId = store.projectId).flatMap fun chunk =>
        (joinedSources query chunk db).map fun _ => (score row.content, chunk)
  have hforeign : ∀ row ∈ db.fts.filter (fun row => store.fts.hit (ftsExpr query) row.content),
      (decide (row.projectId = store.projectId)) = false → join row = [] := by
    intro row hrow hother
    have hnone : db.chunks.filter (fun chunk =>
        chunk.chunkId = row.chunkId ∧ chunk.projectId = store.projectId) = [] := by
      refine List.filter_eq_nil_iff.mpr fun chunk hchunk hmatch => ?_
      rw [decide_eq_true_iff] at hmatch
      have hown : chunk ∈ db.ownChunks store.projectId :=
        Db.mem_ownChunks.mpr ⟨hchunk, hmatch.2⟩
      exact h.foreign hfts row (List.mem_filter.mp hrow).1 (of_decide_eq_false hother) chunk hown
        hmatch.1
    simp only [join, hnone, List.flatMap_nil]
  have hmirror : ∀ chunk ∈ (db.ownChunks store.projectId).filter (fun chunk =>
      store.fts.hit (ftsExpr query) chunk.content), join chunk.mirror =
        if asked query (db.ownSources store.projectId) chunk then [(score chunk.content, chunk)]
        else [] := by
    intro chunk hchunk
    obtain ⟨hmem, hproject⟩ := Db.mem_ownChunks.mp (List.mem_filter.mp hchunk).1
    have hone : db.chunks.filter (fun other =>
        other.chunkId = chunk.mirror.chunkId ∧ other.projectId = store.projectId) = [chunk] := by
      rw [← filter_key h.chunks hmem]
      refine List.filter_congr fun other _ => ?_
      rw [decide_eq_decide, ← hproject]
      exact Prod.mk.injEq .. ▸ Iff.rfl
    simp only [join, hone, List.flatMap_cons, List.flatMap_nil, List.append_nil]
    exact joinedSources_map h.sources hproject _
  have hcomm : (db.fts.filter fun row => store.fts.hit (ftsExpr query) row.content).filter
      (fun row => decide (row.projectId = store.projectId)) =
        (db.fts.filter fun row => row.projectId = store.projectId).filter fun row =>
          store.fts.hit (ftsExpr query) row.content := List.filter_comm ..
  calc store.ftsJoin query db
      = (db.fts.filter fun row => store.fts.hit (ftsExpr query) row.content).flatMap join := rfl
    _ = (((db.ownChunks store.projectId).map ChunkRow.mirror).filter fun row =>
          store.fts.hit (ftsExpr query) row.content).flatMap join := by
        rw [← flatMap_filter hforeign, hcomm, h.mirrored hfts]
    _ = ((db.ownChunks store.projectId).filter fun chunk =>
          store.fts.hit (ftsExpr query) chunk.content).flatMap fun chunk => join chunk.mirror := by
        rw [List.filter_map, List.flatMap_map]
        rfl
    _ = _ := flatMap_single hmirror

/-- The content of the own full-text rows. -/
def ownCorpus (store : KnowledgeStore) (db : Db) : List Text :=
  (db.ownChunks store.projectId).map ChunkRow.content

/-- The ranks of the rows a search finds do not depend on the rows of others. -/
def RanksLocally (store : KnowledgeStore) (query : KnowledgeQuery) (db : Db) : Prop :=
  store.fts.available = true →
    ∀ a ∈ store.matched query (store.fts.hit (ftsExpr query)) db,
    ∀ b ∈ store.matched query (store.fts.hit (ftsExpr query)) db,
      (store.fts.rank db.corpus (ftsExpr query) a.content ≤
          store.fts.rank db.corpus (ftsExpr query) b.content ↔
        store.fts.rank (store.ownCorpus db) (ftsExpr query) a.content ≤
          store.fts.rank (store.ownCorpus db) (ftsExpr query) b.content)

/-- The full-text rows, for a corpus that orders them as the real one does. -/
theorem ftsRows_eq (h : db.Coherent store.fts store.projectId) (hfts : store.fts.available = true)
    (query : KnowledgeQuery) (corpus : List Text)
    (hrank : ∀ a ∈ store.matched query (store.fts.hit (ftsExpr query)) db,
      ∀ b ∈ store.matched query (store.fts.hit (ftsExpr query)) db,
        (store.fts.rank corpus (ftsExpr query) a.content ≤
            store.fts.rank corpus (ftsExpr query) b.content ↔
          store.fts.rank db.corpus (ftsExpr query) a.content ≤
            store.fts.rank db.corpus (ftsExpr query) b.content)) :
    store.ftsRows query db =
      if store.fts.refused (ftsExpr query) then []
      else limitRows query.limit ((store.matched query (store.fts.hit (ftsExpr query)) db).insertionSort
        fun a b => store.fts.rank corpus (ftsExpr query) a.content ≤
          store.fts.rank corpus (ftsExpr query) b.content) := by
  have hsort : (store.ftsJoin query db).insertionSort (fun a b => a.1 ≤ b.1) =
      ((store.matched query (store.fts.hit (ftsExpr query)) db).insertionSort fun a b =>
        store.fts.rank corpus (ftsExpr query) a.content ≤
          store.fts.rank corpus (ftsExpr query) b.content).map fun chunk =>
            (store.fts.rank db.corpus (ftsExpr query) chunk.content, chunk) := by
    rw [ftsJoin_eq h hfts]
    exact (List.map_insertionSort _ (fun a b : ℚ × ChunkRow => a.1 ≤ b.1) (fun chunk =>
      (store.fts.rank db.corpus (ftsExpr query) chunk.content, chunk)) _ hrank).symm
  unfold ftsRows
  rw [hsort, List.map_map]
  have hsnd : (Prod.snd ∘ fun chunk : ChunkRow =>
      (store.fts.rank db.corpus (ftsExpr query) chunk.content, chunk)) = id := rfl
  rw [hsnd, List.map_id]

/-- The rows of a pattern search. -/
theorem likeRows_eq (hunique : (db.sources.map SourceRow.key).Nodup) (query : KnowledgeQuery) :
    store.likeRows query db =
      if maxLikePattern < (utf8 (likePattern query)).length then []
      else limitRows query.limit ((store.matched query (like (likePattern query)) db).insertionSort
        fun a b => a.content.length ≤ b.content.length) := by
  have hfilter : db.chunks.filter (fun chunk => like (likePattern query) chunk.content ∧
      chunk.projectId = store.projectId) =
        (db.ownChunks store.projectId).filter fun chunk => like (likePattern query) chunk.content := by
    unfold Db.ownChunks
    rw [List.filter_filter]
    refine List.filter_congr fun chunk _ => ?_
    simp
  have hjoin : ((db.ownChunks store.projectId).filter fun chunk =>
      like (likePattern query) chunk.content).flatMap (fun chunk =>
        (joinedSources query chunk db).map fun _ => chunk) =
      (store.matched query (like (likePattern query)) db).map fun chunk => chunk := by
    refine flatMap_single fun chunk hchunk => ?_
    exact joinedSources_map hunique (Db.mem_ownChunks.mp (List.mem_filter.mp hchunk).1).2 chunk
  unfold likeRows
  rw [hfilter, hjoin, List.map_id']

/-- `_rows_to_results` reads the source of each row. -/
theorem rowsToResults_runs (rows : List ChunkRow) (db : Db) :
    Runs (store.rowsToResults rows) rows.length db
      (rows.map fun row => toResult (store.findSource row.sourceId db) row) db := by
  induction rows with
  | nil => exact Runs.pure [] db
  | cons row rest ih =>
    have hfetch := Runs.fetch (store.findSource row.sourceId) none db
    rw [List.length_cons, Nat.add_comm]
    refine hfetch.bind (k := rest.length) ?_
    refine ih.bind (k := 0) ?_
    exact Runs.pure _ db

/-- The rows a search finds. -/
def foundRows (store : KnowledgeStore) (query : KnowledgeQuery) (db : Db) : List ChunkRow :=
  if strip query.text = [] then []
  else if store.fts.available then
    if ftsExpr query = [] then [] else store.ftsRows query db
  else store.likeRows query db

/-- A search returns its rows, each with its source, and writes nothing. -/
theorem search_outcome (query : KnowledgeQuery) (db : Db) : outcome (store.search query) db =
    (.ok ((store.foundRows query db).map fun row =>
      toResult (store.findSource row.sourceId db) row), db) := by
  have hfound : ∃ k, Runs (store.search query) k db ((store.foundRows query db).map fun row =>
      toResult (store.findSource row.sourceId db) row) db := by
    unfold search searchFts searchLike foundRows
    split
    · exact ⟨0, Runs.pure [] db⟩
    · split
      · split
        · exact ⟨0, Runs.pure [] db⟩
        · exact ⟨_, (Runs.fetch (store.ftsRows query) [] db).bind (rowsToResults_runs _ db)⟩
      · exact ⟨_, (Runs.fetch (store.likeRows query) [] db).bind (rowsToResults_runs _ db)⟩
  obtain ⟨k, hruns⟩ := hfound
  exact hruns.outcome

end KnowledgeStore

end AiosDeck.Knowledge
