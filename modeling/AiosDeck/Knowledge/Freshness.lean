import AiosDeck.Knowledge.Accounting

/-!
# The freshness of embeddings

`embed_indexed` picks the chunks without an embedding by their ids alone. Behind it every chunk
has an embedding for the provider and the model exactly when none had one for others before.
-/

namespace AiosDeck.Knowledge

open Python Storage Tables

/-- Keys are unique, and every chunk has its source. -/
structure Db.Kept (db : Db) : Prop where
  sources : (db.sources.map SourceRow.key).Nodup
  chunks : (db.chunks.map ChunkRow.key).Nodup
  embeddings : (db.embeddings.map EmbeddingRow.key).Nodup
  owned : ∀ row ∈ db.chunks, (row.sourceId, row.projectId) ∈ db.sources.map SourceRow.key

theorem Db.Kept.empty : Db.Kept {} :=
  ⟨List.nodup_nil, List.nodup_nil, List.nodup_nil, fun row h => absurd h List.not_mem_nil⟩

namespace KnowledgeStore

variable {store : KnowledgeStore} {db : Db} {doc : KnowledgeDocument}

/-- The source of the document is there behind `_ensure_source`. -/
theorem mem_ensured_sources (doc : KnowledgeDocument) (db : Db) :
    (doc.sourceId, store.projectId) ∈ (store.ensured doc db).sources.map SourceRow.key := by
  unfold ensured
  cases hfound : store.findSource doc.sourceId db with
  | some row =>
    have hmem := List.mem_of_find?_eq_some hfound
    have hsame := List.find?_some hfound
    simp only [Bool.and_eq_true, decide_eq_true_eq] at hsame
    refine List.mem_map.mpr ⟨row, hmem, ?_⟩
    exact Prod.ext hsame.1 hsame.2
  | none =>
    refine List.mem_map_of_mem (List.mem_append_right _ (List.mem_singleton_self _))

theorem ensured_kept (h : db.Kept) : (store.ensured doc db).Kept := by
  have hnodup := @ensured_nodup store doc db h.sources
  unfold ensured at hnodup ⊢
  cases hfound : store.findSource doc.sourceId db with
  | some row => exact h
  | none =>
    rw [hfound] at hnodup
    refine ⟨hnodup, h.chunks, h.embeddings, ?_⟩
    intro row hrow
    rw [List.map_append]
    exact List.mem_append_left _ (h.owned row hrow)

theorem cleared_kept (h : db.Kept) : (store.cleared doc db).Kept := by
  refine ⟨h.sources, ?_, ?_, ?_⟩
  · exact h.chunks.sublist (List.filter_sublist.map _)
  · exact h.embeddings.sublist (List.filter_sublist.map _)
  · intro row hrow
    exact h.owned row (List.mem_filter.mp hrow).1

theorem addRows_kept {rows : List ChunkRow} (h : db.Kept)
    (hrows : ∀ row ∈ rows, (row.sourceId, row.projectId) ∈ db.sources.map SourceRow.key) :
    (store.addRows rows db).Kept ∧ (store.addRows rows db).sources = db.sources := by
  induction rows generalizing db with
  | nil => exact ⟨h, rfl⟩
  | cons row rest ih =>
    obtain ⟨hrow, hrest⟩ := List.forall_mem_cons.mp hrows
    have hone : (store.addRow db row).Kept := by
      refine ⟨h.sources, upsert_nodup h.chunks, h.embeddings, ?_⟩
      intro other hother
      rcases mem_upsert.mp hother with ⟨hold, -⟩ | rfl
      · exact h.owned other hold
      · exact hrow
    exact ih hone hrest

theorem addRows_embeddings (rows : List ChunkRow) (db : Db) :
    (store.addRows rows db).embeddings = db.embeddings := by
  unfold addRows
  induction rows generalizing db with
  | nil => rfl
  | cons row rest ih =>
    rw [List.foldl_cons]
    exact ih _

/-- Writing to the rows of sources keeps their keys. -/
theorem kept_map_sources {f : SourceRow → SourceRow} (h : db.Kept)
    (hf : ∀ row, (f row).key = row.key) : Db.Kept { db with sources := db.sources.map f } := by
  have hkeys : (db.sources.map f).map SourceRow.key = db.sources.map SourceRow.key := by
    rw [List.map_map]
    exact List.map_congr_left fun row _ => hf row
  refine ⟨?_, h.chunks, h.embeddings, ?_⟩
  · show ((db.sources.map f).map SourceRow.key).Nodup
    rw [hkeys]
    exact h.sources
  · intro row hrow
    show _ ∈ (db.sources.map f).map SourceRow.key
    rw [hkeys]
    exact h.owned row hrow

theorem afterIndex_kept (h : db.Kept) : (store.afterIndex doc db).Kept := by
  have hensured := @ensured_kept store db doc h
  have hprepared : (store.prepared doc db).Kept ∧
      (doc.sourceId, store.projectId) ∈ (store.prepared doc db).sources.map SourceRow.key := by
    unfold prepared
    split
    · exact ⟨cleared_kept hensured, mem_ensured_sources doc db⟩
    · exact ⟨hensured, mem_ensured_sources doc db⟩
  unfold afterIndex
  split
  · exact hensured
  · have hrows : ∀ row ∈ store.documentRows doc,
        (row.sourceId, row.projectId) ∈ (store.prepared doc db).sources.map SourceRow.key := by
      intro row hrow
      obtain ⟨chunk, -, rfl⟩ := List.mem_map.mp hrow
      exact hprepared.2
    obtain ⟨hadded, -⟩ := addRows_kept hprepared.1 hrows
    have hdocumented : (store.documented doc
        (store.addRows (store.documentRows doc) (store.prepared doc db))).Kept :=
      ⟨hadded.sources, hadded.chunks, hadded.embeddings, hadded.owned⟩
    refine kept_map_sources hdocumented fun row => ?_
    split <;> rfl

end KnowledgeStore

namespace KnowledgeEngine

variable {engine : KnowledgeEngine} {files : ProjectFiles} {db : Db} {n : ℕ}

theorem describe_kept {doc : KnowledgeDocument} {s : Session Db} (h : s.db.Kept)
    (hfailing : s.failing = none) : (Program.after (engine.describe doc) s).db.Kept := by
  obtain ⟨db, m, failing⟩ := s
  cases hfailing
  unfold Program.after describe
  by_cases hempty : doc.metadata = []
  · rw [if_neg (not_not.mpr hempty)]
    exact h
  · rw [if_pos hempty]
    unfold KnowledgeStore.upsertSourceMetadata
    cases htext : jsonText doc.metadata with
    | error exc => exact h
    | ok content =>
      refine KnowledgeStore.kept_map_sources h fun row => ?_
      split <;> rfl

/-- A run over the candidates keeps the tables. -/
theorem indexCandidates_kept {candidates : List SourceCandidate}
    (hsane : ∀ candidate ∈ candidates, candidate.Sane) {summary : IndexSummary} (h : db.Kept) :
    ∃ last db', Returns (engine.indexCandidates files candidates summary) n db last db' ∧
      db'.Kept := by
  induction candidates generalizing summary db n with
  | nil => exact ⟨summary, db, Returns.pure _ _ _, h⟩
  | cons candidate rest ih =>
    obtain ⟨hfirst, hrest⟩ := List.forall_mem_cons.mp hsane
    have hone : ∃ next db', Returns (engine.indexCandidate files summary candidate) n db next db' ∧
        db'.Kept := by
      cases hread : files.readText candidate.path with
      | none =>
        refine ⟨{ summary with scanned := summary.scanned + 1 }, db, ⟨n, ?_⟩, h⟩
        unfold indexCandidate
        simp only [hread]
        rfl
      | some content =>
        obtain ⟨result, s, t, hcall, hafter, hrun, hfailing, -⟩ :=
          @indexCandidate_returns engine files candidate hfirst content hread summary db n
        obtain ⟨-, hdb, hsfailing⟩ := KnowledgeStore.indexDocument_ok hcall
        have hkept : s.db.Kept := hdb ▸ KnowledgeStore.afterIndex_kept h
        refine ⟨({ summary with scanned := summary.scanned + 1 } : IndexSummary).count result, t.db,
          ⟨t.totalChanges, ?_⟩, ?_⟩
        · rw [hrun]
          cases t
          cases hfailing
          rfl
        · rw [← hafter]
          exact describe_kept hkept hsfailing
    obtain ⟨next, db', hreturns, hkept⟩ := hone
    obtain ⟨m, hm⟩ := hreturns
    obtain ⟨last, db'', hlast, hkept'⟩ := @ih db' m hrest next hkept
    obtain ⟨l, hl⟩ := hlast
    refine ⟨last, db'', ⟨l, ?_⟩, hkept'⟩
    rw [indexCandidates]
    change EStateM.bind _ _ _ = _
    unfold EStateM.bind
    rw [hm]
    exact hl

section Chunks

/-- The chunks of a source, by their position. -/
def orderedChunks (engine : KnowledgeEngine) (db : Db) (source : SourceRow) : List ChunkRow :=
  (db.chunksOf source.sourceId engine.store.projectId).insertionSort fun a b =>
    a.position ≤ b.position

theorem chunksOfSources_returns (sources : List SourceRow) (db : Db) (n : ℕ) :
    Returns (engine.chunksOfSources sources) n db (sources.flatMap (engine.orderedChunks db)) db := by
  induction sources generalizing n with
  | nil => exact Returns.pure _ _ _
  | cons source rest ih =>
    have hfetch := Returns.fetch (fun db : Db => engine.orderedChunks db source) [] n db
    exact hfetch.bind fun m => (ih m).bind fun l => Returns.pure _ _ _

/-- The chunks of all sources of the project are those of the project. -/
theorem mem_chunksOfSources (h : db.Kept) {sources : List SourceRow}
    (hsources : sources.Perm (db.ownSources engine.store.projectId)) {row : ChunkRow} :
    row ∈ sources.flatMap (engine.orderedChunks db) ↔ row ∈ db.ownChunks engine.store.projectId := by
  rw [List.mem_flatMap, Db.mem_ownChunks]
  constructor
  · rintro ⟨source, -, hrow⟩
    have hmem := (List.mem_insertionSort _).mp hrow
    obtain ⟨hchunk, hown⟩ := List.mem_filter.mp hmem
    exact ⟨hchunk, (of_decide_eq_true hown).2⟩
  · rintro ⟨hchunk, hproject⟩
    obtain ⟨source, hsource, hkey⟩ := List.mem_map.mp (h.owned row hchunk)
    obtain ⟨hid, howner⟩ := Prod.mk.inj hkey
    refine ⟨source, hsources.symm.subset (List.mem_filter.mpr ⟨hsource, ?_⟩), ?_⟩
    · exact decide_eq_true (howner.trans hproject)
    · refine (List.mem_insertionSort _).mpr (List.mem_filter.mpr ⟨hchunk, ?_⟩)
      exact decide_eq_true ⟨hid.symm, hproject⟩

/-- No chunk is listed twice. -/
theorem nodup_chunksOfSources (h : db.Kept) {sources : List SourceRow}
    (hsources : sources.Perm (db.ownSources engine.store.projectId)) :
    (sources.flatMap (engine.orderedChunks db)).Nodup := by
  have hchunks : db.chunks.Nodup := h.chunks.of_map _
  rw [List.nodup_flatMap]
  constructor
  · intro source _
    exact (List.perm_insertionSort _ _).nodup_iff.mpr (hchunks.filter _)
  · have hdistinct : (sources.map SourceRow.sourceId).Nodup := by
      rw [(hsources.map SourceRow.sourceId).nodup_iff]
      refine List.Nodup.map_on ?_ ((h.sources.of_map _).filter _)
      intro a ha b hb hsame
      obtain ⟨hamem, hown⟩ := List.mem_filter.mp ha
      obtain ⟨hbmem, hown'⟩ := List.mem_filter.mp hb
      refine List.inj_on_of_nodup_map h.sources hamem hbmem ?_
      exact Prod.ext hsame ((of_decide_eq_true hown).trans (of_decide_eq_true hown').symm)
    rw [List.Nodup, List.pairwise_map] at hdistinct
    refine hdistinct.imp fun {a b} hne row ha hb => hne ?_
    have hrowa := (List.mem_filter.mp ((List.mem_insertionSort _).mp ha)).2
    have hrowb := (List.mem_filter.mp ((List.mem_insertionSort _).mp hb)).2
    exact (of_decide_eq_true hrowa).1.symm.trans (of_decide_eq_true hrowb).1

end Chunks

section Batches

/-- Slices of a list give it back. -/
theorem flatten_batches {α : Type} {size : ℕ} (hsize : 0 < size) (fuel : ℕ) (items : List α)
    (hfuel : items.length ≤ fuel) : (batches size fuel items).flatten = items := by
  induction fuel generalizing items with
  | zero => rw [List.eq_nil_of_length_eq_zero (Nat.le_zero.mp hfuel)]; rfl
  | succ fuel ih =>
    unfold batches
    split_ifs with hnil
    · rw [hnil]
      rfl
    · have hdrop : (items.drop size).length ≤ fuel := by
        have hpositive := List.length_pos_iff.mpr hnil
        rw [List.length_drop]
        omega
      rw [List.flatten_cons, ih _ hdrop, List.take_append_drop]

/-- Each call gives one vector for each text. -/
def OneEach (provider : EmbeddingProvider) : Prop :=
  ∀ texts, ∃ vectors, provider.embed texts = .ok vectors ∧ vectors.length = texts.length

/-- The row of a chunk with its vector. -/
def embeddingRow (engine : KnowledgeEngine) (provider : EmbeddingProvider) (model : Text)
    (pair : ChunkRow × Text) : EmbeddingRow :=
  ⟨pair.1.chunkId, provider.name, model, provider.dimensions, pair.2,
    embeddingHash pair.1.contentHash provider.name model, engine.store.projectId⟩

/-- The tables with some more embeddings. -/
def embedded (rows : List EmbeddingRow) (db : Db) : Db :=
  { db with
    embeddings := rows.foldl (fun table row => upsert EmbeddingRow.key row table) db.embeddings }

theorem saveVectors_returns (provider : EmbeddingProvider) (model : Text)
    (pairs : List (ChunkRow × Text)) (db : Db) (n : ℕ) :
    Returns (engine.saveVectors provider model pairs) n db ()
      (embedded (pairs.map (engine.embeddingRow provider model)) db) := by
  induction pairs generalizing db n with
  | nil => exact Returns.pure _ _ _
  | cons pair rest ih =>
    have hsave : Runs (engine.store.saveEmbedding pair.1.chunkId provider.name model
        provider.dimensions pair.2 (embeddingHash pair.1.contentHash provider.name model)) 1 db ()
        (embedded [engine.embeddingRow provider model pair] db) := by
      unfold KnowledgeStore.saveEmbedding
      exact Runs.execute rfl
    exact (hsave.returns n).bind fun m => ih _ m

/-- All batches are embedded: every chunk gets one row. -/
theorem embedBatches_returns {provider : EmbeddingProvider} (heach : OneEach provider)
    (model : Text) (slices : List (List ChunkRow)) (count : ℕ) (db : Db) :
    ∃ total, ∃ pairs : List (ChunkRow × Text), pairs.map Prod.fst = slices.flatten ∧
      ∀ n, Returns (engine.embedBatches provider model slices count) n db total
        (embedded (pairs.map (engine.embeddingRow provider model)) db) := by
  induction slices generalizing count db with
  | nil => exact ⟨count, [], rfl, fun n => Returns.pure _ _ _⟩
  | cons batch rest ih =>
    obtain ⟨vectors, hembed, hlength⟩ := heach (batch.map ChunkRow.content)
    rw [List.length_map] at hlength
    have hfirst : (batch.zip vectors).map Prod.fst = batch :=
      List.map_fst_zip (Nat.le_of_eq hlength.symm)
    obtain ⟨total, pairs, hpairs, hrest⟩ := ih (count + (batch.zip vectors).length)
      (embedded ((batch.zip vectors).map (engine.embeddingRow provider model)) db)
    refine ⟨total, batch.zip vectors ++ pairs, ?_, fun n => ?_⟩
    · rw [List.map_append, hfirst, hpairs, List.flatten_cons]
    · have hall : embedded ((batch.zip vectors ++ pairs).map (engine.embeddingRow provider model)) db =
          embedded (pairs.map (engine.embeddingRow provider model))
            (embedded ((batch.zip vectors).map (engine.embeddingRow provider model)) db) := by
        unfold embedded
        rw [List.map_append, List.foldl_append]
      unfold embedBatches
      rw [hembed, hall]
      exact (saveVectors_returns provider model _ db n).bind hrest

end Batches

section Embedding

variable {provider : EmbeddingProvider} {model : Text}

/-- Every chunk of the project has an embedding of its content by the provider and model. -/
def Fresh (engine : KnowledgeEngine) (provider : EmbeddingProvider) (model : Text) (db : Db) : Prop :=
  ∀ chunk ∈ db.ownChunks engine.store.projectId, ∃ row ∈ db.embeddings, row.key = chunk.key ∧
    row.embeddingHash = embeddingHash chunk.contentHash provider.name model

/-- The ids that `find_unembedded_chunk_ids` is answered with. -/
def unembedded (engine : KnowledgeEngine) (db : Db) (chunkIds : List Text) : List Text :=
  if engine.parameterLimit < chunkIds.length + 1 then chunkIds
  else chunkIds.filter fun chunkId => chunkId ∉ (db.embeddings.filter fun row =>
    row.chunkId ∈ chunkIds ∧ row.projectId = engine.store.projectId).map EmbeddingRow.chunkId

theorem findUnembedded_returns (chunkIds : List Text) (db : Db) (n : ℕ) :
    Returns (engine.findUnembedded chunkIds) n db (engine.unembedded db chunkIds) db := by
  unfold findUnembedded unembedded
  split_ifs
  · exact Returns.pure _ _ _
  · exact (Returns.fetch _ [] n db).bind fun m => Returns.pure _ _ _

/-- A chunk is embedded when all are, or it has no embedding. -/
theorem mem_unembedded {chunks : List ChunkRow} {chunk : ChunkRow}
    (hown : ∀ chunk ∈ chunks, chunk.projectId = engine.store.projectId) (hchunk : chunk ∈ chunks) :
    chunk.chunkId ∈ engine.unembedded db (chunks.map ChunkRow.chunkId) ↔
      engine.parameterLimit < chunks.length + 1 ∨ ∀ row ∈ db.embeddings, row.key ≠ chunk.key := by
  have hmem : chunk.chunkId ∈ chunks.map ChunkRow.chunkId := List.mem_map_of_mem hchunk
  unfold unembedded
  rw [List.length_map]
  split_ifs with hlimit
  · exact iff_of_true hmem (.inl hlimit)
  · rw [or_iff_right hlimit, List.mem_filter, and_iff_right hmem, decide_eq_true_iff]
    constructor
    · intro hnone row hrow hkey
      obtain ⟨hid, hproject⟩ := Prod.mk.inj hkey
      refine hnone (List.mem_map.mpr ⟨row, List.mem_filter.mpr ⟨hrow, ?_⟩, hid⟩)
      exact decide_eq_true ⟨hid ▸ hmem, hproject.trans (hown chunk hchunk)⟩
    · intro hnone hsome
      obtain ⟨row, hrow, hid⟩ := List.mem_map.mp hsome
      obtain ⟨hstored, hasked⟩ := List.mem_filter.mp hrow
      refine hnone row hstored (Prod.ext hid ?_)
      exact (of_decide_eq_true hasked).2.trans (hown chunk hchunk).symm

/-- The chunks of a project have different ids. -/
theorem chunk_of_id (h : db.Kept) {a b : ChunkRow} (ha : a ∈ db.ownChunks engine.store.projectId)
    (hb : b ∈ db.ownChunks engine.store.projectId) (hid : a.chunkId = b.chunkId) : a = b := by
  obtain ⟨hamem, haown⟩ := Db.mem_ownChunks.mp ha
  obtain ⟨hbmem, hbown⟩ := Db.mem_ownChunks.mp hb
  exact List.inj_on_of_nodup_map h.chunks hamem hbmem (Prod.ext hid (haown.trans hbown.symm))

/-- The chunks that are looked up again are those whose ids were found. -/
theorem filterMap_chunkFor {chunks : List ChunkRow} {ids : List Text}
    (hids : ∀ a ∈ chunks, ∀ b ∈ chunks, a.chunkId = b.chunkId → a = b)
    {picked : List ChunkRow} (hpicked : ids = picked.map ChunkRow.chunkId)
    (hsub : ∀ chunk ∈ picked, chunk ∈ chunks) :
    ids.filterMap (chunkFor (chunks.filter fun chunk => chunk.chunkId ∈ ids)) = picked := by
  have hfound : ∀ chunk ∈ picked,
      chunkFor (chunks.filter fun chunk => chunk.chunkId ∈ ids) chunk.chunkId = some chunk := by
    intro chunk hchunk
    have hid : chunk.chunkId ∈ ids := hpicked ▸ List.mem_map_of_mem hchunk
    have hin : chunk ∈ chunks.filter fun chunk => chunk.chunkId ∈ ids :=
      List.mem_filter.mpr ⟨hsub chunk hchunk, decide_eq_true hid⟩
    unfold chunkFor
    cases hfind : (chunks.filter fun chunk => chunk.chunkId ∈ ids).reverse.find? fun other =>
        other.chunkId = chunk.chunkId with
    | none =>
      have hnot := List.find?_eq_none.mp hfind chunk (List.mem_reverse.mpr hin)
      exact absurd (decide_eq_true rfl) hnot
    | some other =>
      have hother := List.mem_reverse.mp (List.mem_of_find?_eq_some hfind)
      have hsame := List.find?_some hfind
      rw [decide_eq_true_iff] at hsame
      rw [hids other (List.mem_filter.mp hother).1 chunk (hsub chunk hchunk) hsame]
  subst hpicked
  rw [List.filterMap_map]
  calc picked.filterMap (chunkFor (chunks.filter fun chunk => chunk.chunkId ∈ picked.map
          ChunkRow.chunkId) ∘ ChunkRow.chunkId)
      = picked.filterMap some := by
        refine List.filterMap_congr fun chunk hchunk => ?_
        exact hfound chunk hchunk
    _ = picked := List.filterMap_some

theorem unembedded_eq_filter (chunkIds : List Text) :
    ∃ missing : Text → Bool, engine.unembedded db chunkIds = chunkIds.filter missing := by
  unfold unembedded
  split_ifs
  · exact ⟨fun _ => true, (List.filter_true _).symm⟩
  · exact ⟨_, rfl⟩

/-- What an embedding leaves: new rows for some chunks, which are all, or those that had none. -/
theorem embedIndexed_returns (h : db.Kept) (havailable : provider.available = true)
    (heach : OneEach provider) (model : Text) (n : ℕ) :
    ∃ summary, ∃ pairs : List (ChunkRow × Text),
      (∀ chunk, chunk ∈ pairs.map Prod.fst ↔ chunk ∈ db.ownChunks engine.store.projectId ∧
        (engine.parameterLimit < (db.ownChunks engine.store.projectId).length + 1 ∨
          ∀ row ∈ db.embeddings, row.key ≠ chunk.key)) ∧
      Returns (engine.embedIndexed (some provider) model) n db summary
        (embedded (pairs.map (engine.embeddingRow provider (modelName provider model))) db) := by
  obtain ⟨sources, hsources⟩ : ∃ sources : List SourceRow, sources.Perm
      (db.ownSources engine.store.projectId) ∧
        ∀ n, Returns engine.store.listSources n db sources db :=
    ⟨_, List.perm_insertionSort _ _, fun n => Returns.fetch _ [] n db⟩
  obtain ⟨hperm, hlist⟩ := hsources
  generalize hchunks : sources.flatMap (engine.orderedChunks db) = chunks
  have hmem : ∀ chunk, chunk ∈ chunks ↔ chunk ∈ db.ownChunks engine.store.projectId := by
    intro chunk
    rw [← hchunks]
    exact mem_chunksOfSources h hperm
  have hlength : chunks.length = (db.ownChunks engine.store.projectId).length := by
    have hnodup : chunks.Nodup := hchunks ▸ nodup_chunksOfSources h hperm
    have hown : (db.ownChunks engine.store.projectId).Nodup := (h.chunks.of_map _).filter _
    exact ((List.perm_ext_iff_of_nodup hnodup hown).mpr hmem).length_eq
  have hreads : ∀ n, Returns (engine.chunksOfSources sources) n db chunks db := by
    intro n
    rw [← hchunks]
    exact chunksOfSources_returns sources db n
  have hown : ∀ chunk ∈ chunks, chunk.projectId = engine.store.projectId :=
    fun chunk hchunk => (Db.mem_ownChunks.mp ((hmem chunk).mp hchunk)).2
  generalize hids : engine.unembedded db (chunks.map ChunkRow.chunkId) = ids
  have hfind : ∀ n, Returns (engine.findUnembedded (chunks.map ChunkRow.chunkId)) n db ids db := by
    intro n
    rw [← hids]
    exact findUnembedded_returns _ db n
  -- the chunks without an embedding, in the order of the listing
  generalize hpicked : chunks.filter (fun chunk => chunk.chunkId ∈ ids) = picked
  have hpickedMem : ∀ chunk, chunk ∈ picked ↔ chunk ∈ db.ownChunks engine.store.projectId ∧
      (engine.parameterLimit < (db.ownChunks engine.store.projectId).length + 1 ∨
        ∀ row ∈ db.embeddings, row.key ≠ chunk.key) := by
    intro chunk
    rw [← hpicked, List.mem_filter, decide_eq_true_iff, hmem]
    refine and_congr_right fun hchunk => ?_
    rw [← hids, mem_unembedded hown ((hmem chunk).mpr hchunk), hlength]
  have hidsPicked : ids = picked.map ChunkRow.chunkId := by
    obtain ⟨missing, hmissing⟩ := @unembedded_eq_filter engine db (chunks.map ChunkRow.chunkId)
    rw [← hpicked, ← hids, hmissing, List.filter_map]
    congr 1
    refine List.filter_congr fun chunk hchunk => ?_
    have hin : chunk.chunkId ∈ chunks.map ChunkRow.chunkId := List.mem_map_of_mem hchunk
    rw [← List.filter_map, Function.comp_apply]
    simp [List.mem_filter, hin]
  have hlookup : ids.filterMap (chunkFor (chunks.filter fun chunk => chunk.chunkId ∈ ids)) = picked := by
    refine filterMap_chunkFor ?_ hidsPicked fun chunk hchunk => ?_
    · exact fun a ha b hb hid => chunk_of_id h ((hmem a).mp ha) ((hmem b).mp hb) hid
    · rw [← hpicked] at hchunk
      exact (List.mem_filter.mp hchunk).1
  by_cases hempty : chunks.map ChunkRow.chunkId = []
  · have hnil : chunks = [] := List.map_eq_nil_iff.mp hempty
    refine ⟨{ status := .noChunks }, [], fun chunk => ?_, ?_⟩
    · rw [← hmem, hnil]
      simp
    · unfold embedIndexed
      simp only [havailable, Bool.not_true, Bool.false_eq_true, if_false]
      refine (hlist n).bind fun m => (hreads m).bind fun l => ?_
      rw [if_pos hempty]
      exact Returns.pure _ _ _
  · by_cases hnone : ids = []
    · have hpickedNil : picked = [] := List.map_eq_nil_iff.mp (hidsPicked ▸ hnone)
      refine ⟨{ skipped := (chunks.map ChunkRow.chunkId).length, status := .upToDate }, [],
        fun chunk => ?_, ?_⟩
      · rw [← hpickedMem, hpickedNil]
        simp
      · unfold embedIndexed
        simp only [havailable, Bool.not_true, Bool.false_eq_true, if_false]
        refine (hlist n).bind fun m => (hreads m).bind fun l => ?_
        rw [if_neg hempty]
        refine (hfind l).bind fun k => ?_
        rw [if_pos hnone]
        exact Returns.pure _ _ _
    · have hsize : 0 < min 32 (max 1 picked.length) := by omega
      obtain ⟨total, pairs, hpairs, hembed⟩ := @embedBatches_returns engine provider heach
        (modelName provider model)
        (batches (min 32 (max 1 picked.length)) picked.length picked) 0 db
      rw [flatten_batches hsize picked.length picked (Nat.le_refl _)] at hpairs
      refine ⟨{ embedded := total, status := .ok }, pairs, fun chunk => ?_, ?_⟩
      · rw [hpairs]
        exact hpickedMem chunk
      · unfold embedIndexed
        simp only [havailable, Bool.not_true, Bool.false_eq_true, if_false]
        refine (hlist n).bind fun m => (hreads m).bind fun l => ?_
        rw [if_neg hempty]
        refine (hfind l).bind fun k => ?_
        rw [if_neg hnone]
        refine (hreads k).bind fun j => ?_
        rw [hlookup]
        exact (hembed j).bind fun i => Returns.pure _ _ _

section Rows

variable {pairs : List (ChunkRow × Text)}

theorem embedded_kept (h : db.Kept) (rows : List EmbeddingRow) : (embedded rows db).Kept :=
  ⟨h.sources, h.chunks, foldl_upsert_nodup h.embeddings, h.owned⟩

end Rows

end Embedding

section Histories

/-- The databases that calls of `index` and `embed_indexed` lead to, with any files, providers
and models. -/
inductive History (engine : KnowledgeEngine) : Db → Prop
  | empty : History engine {}
  | index {db : Db} {s : Session Db} {summary : IndexSummary} (files : ProjectFiles) (n : ℕ)
      (hbefore : History engine db) (hcall : engine.index files ⟨db, n, none⟩ = .ok summary s) :
      History engine s.db
  | embed {db : Db} {s : Session Db} {summary : EmbedSummary} (provider : EmbeddingProvider)
      (model : Text) (n : ℕ) (hbefore : History engine db) (heach : OneEach provider)
      (hcall : engine.embedIndexed (some provider) model ⟨db, n, none⟩ = .ok summary s) :
      History engine s.db

/-- What a program that returns leaves. -/
theorem returns_db {α : Type} {x : Query α} {a b : α} {db' : Db} {s : Session Db}
    (h : Returns x n db a db') (hcall : x ⟨db, n, none⟩ = .ok b s) : s.db = db' := by
  obtain ⟨m, hm⟩ := h
  rw [hm] at hcall
  cases hcall
  rfl

theorem embedIndexed_unavailable {provider : EmbeddingProvider} (h : provider.available = false)
    (model : Text) (n : ℕ) : Returns (engine.embedIndexed (some provider) model) n db
      { status := .providerUnavailable } db := by
  unfold embedIndexed
  simp only [h, Bool.not_false, if_true]
  exact Returns.pure _ _ _

theorem History.kept (h : History engine db) : db.Kept := by
  induction h with
  | empty => exact .empty
  | index files n hbefore hcall ih =>
    obtain ⟨last, db', hreturns, hkept⟩ := @indexCandidates_kept engine files _ n
      (discoverSources engine.listText files) (discoverSources_sane _ _) {} ih
    rw [returns_db hreturns hcall]
    exact hkept
  | @embed db s summary provider model n hbefore heach hcall ih =>
    cases havailable : provider.available with
    | false =>
      rw [returns_db (embedIndexed_unavailable havailable model n) hcall]
      exact ih
    | true =>
      obtain ⟨summary', pairs, -, hreturns⟩ := embedIndexed_returns ih havailable heach model n
      rw [returns_db hreturns hcall]
      exact embedded_kept ih _

end Histories

section Steady

variable {name model : Text}

/-- Every embedding of the project is one of a stored chunk, by this provider and model. -/
def Matched (engine : KnowledgeEngine) (name model : Text) (db : Db) : Prop :=
  ∀ row ∈ db.embeddings, row.projectId = engine.store.projectId →
    ∃ chunk ∈ db.chunks, chunk.key = row.key ∧
      row.embeddingHash = embeddingHash chunk.contentHash name model

/-- Chunks that are deleted take their embeddings with them. -/
theorem matched_prepared {doc : KnowledgeDocument} (h : engine.Matched name model db) :
    engine.Matched name model (engine.store.prepared doc db) := by
  have hensured : engine.Matched name model (engine.store.ensured doc db) := by
    unfold Matched at h ⊢
    rw [KnowledgeStore.ensured_embeddings, KnowledgeStore.ensured_chunks]
    exact h
  unfold KnowledgeStore.prepared
  split_ifs
  · intro row hrow hproject
    obtain ⟨hold, hleft⟩ := List.mem_filter.mp hrow
    obtain ⟨chunk, hchunk, hkey, hhash⟩ := hensured row hold hproject
    refine ⟨chunk, List.mem_filter.mpr ⟨hchunk, decide_eq_true fun hown => ?_⟩, hkey, hhash⟩
    refine of_decide_eq_true hleft (List.mem_map.mpr ⟨chunk, ?_, (Prod.mk.inj hkey).1⟩)
    exact List.mem_filter.mpr ⟨hchunk, decide_eq_true hown⟩
  · exact hensured

/-- A call that writes new chunk ids only leaves no embedding of another content. -/
theorem matched_afterIndex {doc : KnowledgeDocument} (h : engine.Matched name model db)
    (hfresh : engine.store.skips doc db = false → engine.store.FreshKeys doc db) :
    engine.Matched name model (engine.store.afterIndex doc db) := by
  cases hskips : engine.store.skips doc db with
  | true =>
    unfold KnowledgeStore.afterIndex
    rw [if_pos hskips]
    unfold Matched at h ⊢
    rw [KnowledgeStore.ensured_embeddings, KnowledgeStore.ensured_chunks]
    exact h
  | false =>
    have hprepared := @matched_prepared engine db name model doc h
    have hnew := (hfresh hskips).2
    have hchunks : (engine.store.afterIndex doc db).chunks =
        (engine.store.documentRows doc).foldl (fun table row => upsert ChunkRow.key row table)
          (engine.store.prepared doc db).chunks := by
      unfold KnowledgeStore.afterIndex
      rw [hskips, if_neg Bool.false_ne_true, ← KnowledgeStore.addRows_chunks]
      rfl
    have hembeddings : (engine.store.afterIndex doc db).embeddings =
        (engine.store.prepared doc db).embeddings := by
      unfold KnowledgeStore.afterIndex
      rw [hskips, if_neg Bool.false_ne_true]
      exact KnowledgeStore.addRows_embeddings _ _
    intro row hrow hproject
    rw [hembeddings] at hrow
    obtain ⟨chunk, hchunk, hkey, hhash⟩ := hprepared row hrow hproject
    refine ⟨chunk, ?_, hkey, hhash⟩
    rw [hchunks]
    refine mem_foldl_upsert_of_mem hchunk fun hmem => ?_
    obtain ⟨other, hother, hsame⟩ := List.mem_map.mp hmem
    exact hnew other hother (hsame ▸ List.mem_map_of_mem hchunk)

/-- The metadata of a source are written to its row only. -/
theorem describe_keeps {doc : KnowledgeDocument} {s : Session Db} (hfailing : s.failing = none) :
    (Program.after (engine.describe doc) s).db.chunks = s.db.chunks ∧
      (Program.after (engine.describe doc) s).db.embeddings = s.db.embeddings := by
  obtain ⟨db, m, failing⟩ := s
  cases hfailing
  unfold Program.after describe
  by_cases hempty : doc.metadata = []
  · rw [if_neg (not_not.mpr hempty)]
    exact ⟨rfl, rfl⟩
  · rw [if_pos hempty]
    unfold KnowledgeStore.upsertSourceMetadata
    cases htext : jsonText doc.metadata with
    | error exc => exact ⟨rfl, rfl⟩
    | ok content => exact ⟨rfl, rfl⟩

/-- Each call that writes, writes new chunk ids. -/
def NewIds (calls : List Call) : Prop :=
  ∀ call ∈ calls, call.store.skips call.doc call.before = false →
    call.store.FreshKeys call.doc call.before

theorem indexCandidates_matched {candidates : List SourceCandidate}
    (hsane : ∀ candidate ∈ candidates, candidate.Sane) (summary : IndexSummary)
    (h : engine.Matched name model db)
    (hnew : NewIds (engine.candidateCalls files candidates db n)) :
    ∃ last db', Returns (engine.indexCandidates files candidates summary) n db last db' ∧
      engine.Matched name model db' := by
  induction candidates generalizing summary db n with
  | nil => exact ⟨summary, db, Returns.pure _ _ _, h⟩
  | cons candidate rest ih =>
    obtain ⟨hfirst, hrest⟩ := List.forall_mem_cons.mp hsane
    have hnext : ∀ (next last : IndexSummary) (t : Session Db) (db' : Db), t.failing = none →
        engine.indexCandidate files summary candidate ⟨db, n, none⟩ = .ok next t →
        Returns (engine.indexCandidates files rest next) t.totalChanges t.db last db' →
        Returns (engine.indexCandidates files (candidate :: rest) summary) n db last db' := by
      rintro next last ⟨between, m, failing⟩ db' hfailing hone ⟨l, hl⟩
      cases hfailing
      refine ⟨l, ?_⟩
      rw [indexCandidates]
      change EStateM.bind _ _ _ = _
      unfold EStateM.bind
      rw [hone]
      exact hl
    cases hread : files.readText candidate.path with
    | none =>
      have hcalls : engine.candidateCalls files (candidate :: rest) db n =
          engine.candidateCalls files rest db n := by
        rw [candidateCalls, hread]
      have hone : engine.indexCandidate files summary candidate ⟨db, n, none⟩ =
          .ok { summary with scanned := summary.scanned + 1 } ⟨db, n, none⟩ := by
        unfold indexCandidate
        simp only [hread]
        rfl
      rw [hcalls] at hnew
      obtain ⟨last, db', hreturns, hmatched⟩ := ih hrest
        { summary with scanned := summary.scanned + 1 } h hnew
      exact ⟨last, db', hnext _ last _ db' rfl hone hreturns, hmatched⟩
    | some content =>
      obtain ⟨result, s, t, hcall, hafter, hone, hfailing, hchunks⟩ :=
        @indexCandidate_returns engine files candidate hfirst content hread summary db n
      have hcalls : engine.candidateCalls files (candidate :: rest) db n =
          ⟨engine.store, candidate.document content.1, db, n, result, s.db⟩ ::
            engine.candidateCalls files rest t.db t.totalChanges := by
        rw [candidateCalls, hread]
        dsimp only
        rw [hcall, ← hafter]
      rw [hcalls] at hnew
      obtain ⟨hthis, hothers⟩ := List.forall_mem_cons.mp hnew
      obtain ⟨-, hdb, hsfailing⟩ := KnowledgeStore.indexDocument_ok hcall
      have hindexed : engine.Matched name model s.db := hdb ▸ matched_afterIndex h hthis
      have hdescribed : engine.Matched name model t.db := by
        obtain ⟨hkeptChunks, hkeptEmbeddings⟩ :=
          @describe_keeps engine (candidate.document content.1) s hsfailing
        rw [← hafter]
        unfold Matched at hindexed ⊢
        rw [hkeptChunks, hkeptEmbeddings]
        exact hindexed
      obtain ⟨last, db', hreturns, hmatched⟩ := ih hrest
        (({ summary with scanned := summary.scanned + 1 } : IndexSummary).count result) hdescribed
        hothers
      exact ⟨last, db', hnext _ last t db' hfailing hone hreturns, hmatched⟩

/-- The databases that calls of `index` that write new chunk ids and of `embed_indexed` with one
provider and model lead to. -/
inductive Steady (engine : KnowledgeEngine) (name model : Text) : Db → Prop
  | empty : Steady engine name model {}
  | index {db : Db} {s : Session Db} {summary : IndexSummary} (files : ProjectFiles) (n : ℕ)
      (hbefore : Steady engine name model db)
      (hnew : NewIds (engine.candidateCalls files (discoverSources engine.listText files) db n))
      (hcall : engine.index files ⟨db, n, none⟩ = .ok summary s) : Steady engine name model s.db
  | embed {db : Db} {s : Session Db} {summary : EmbedSummary} (provider : EmbeddingProvider)
      (asked : Text) (n : ℕ) (hbefore : Steady engine name model db) (heach : OneEach provider)
      (hname : provider.name = name) (hmodel : modelName provider asked = model)
      (hcall : engine.embedIndexed (some provider) asked ⟨db, n, none⟩ = .ok summary s) :
      Steady engine name model s.db

theorem Steady.history (h : Steady engine name model db) : History engine db := by
  induction h with
  | empty => exact .empty
  | index files n _ _ hcall ih => exact .index files n ih hcall
  | embed provider asked n _ heach _ _ hcall ih => exact .embed provider asked n ih heach hcall

theorem Steady.matched (h : Steady engine name model db) : engine.Matched name model db := by
  induction h with
  | empty => exact fun row hrow => absurd hrow List.not_mem_nil
  | index files n hbefore hnew hcall ih =>
    obtain ⟨last, db', hreturns, hmatched⟩ :=
      indexCandidates_matched (discoverSources_sane _ _) {} ih hnew
    rw [returns_db hreturns hcall]
    exact hmatched
  | @embed db s summary provider asked n hbefore heach hname hmodel hcall ih =>
    cases havailable : provider.available with
    | false =>
      rw [returns_db (embedIndexed_unavailable havailable asked n) hcall]
      exact ih
    | true =>
      obtain ⟨summary', pairs, hpairs, hreturns⟩ :=
        embedIndexed_returns hbefore.history.kept havailable heach asked n
      rw [returns_db hreturns hcall]
      intro row hrow hproject
      rcases mem_foldl_upsert hrow with hfresh | ⟨hold, -⟩
      · obtain ⟨pair, hpair, rfl⟩ := List.mem_map.mp hfresh
        obtain ⟨hchunk, hown⟩ := Db.mem_ownChunks.mp
          ((hpairs pair.1).mp (List.mem_map_of_mem hpair)).1
        refine ⟨pair.1, hchunk, Prod.ext rfl hown, ?_⟩
        rw [← hname, ← hmodel]
        rfl
      · exact ih row hold hproject

end Steady

section Samples

end Samples

end KnowledgeEngine

end AiosDeck.Knowledge
