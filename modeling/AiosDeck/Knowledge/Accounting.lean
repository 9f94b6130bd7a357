import AiosDeck.Knowledge.Incremental
import AiosDeck.Knowledge.Isolation
import AiosDeck.Knowledge.Storable
import AiosDeck.Storage.Counting

/-!
# The counts of indexing

What `index_document` reports as deleted is the counter of the whole connection, read
behind its deletions. The counts agree with the tables where that counter holds nothing but
the deleted chunks.
-/

namespace AiosDeck.Knowledge

open Python Storage Tables

namespace KnowledgeStore

variable (store : KnowledgeStore)

section Changes

/-- Rows that `_ensure_source` inserts. -/
def ensureChange (doc : KnowledgeDocument) (db : Db) : ℕ :=
  if (store.findSource doc.sourceId db).isSome then 0 else 1

/-- What deleting the full-text rows of a source adds to the counter. -/
def ftsChange (sourceId : Text) (db : Db) : ℕ :=
  if store.fts.available then
    store.fts.changed (db.fts.length - (db.fts.filter fun row => row.sourceId ≠ sourceId).length)
  else 0

/-- Embeddings that are deleted with the chunks of a source. -/
def embeddingChange (sourceId : Text) (db : Db) : ℕ :=
  db.embeddings.length - (db.embeddings.filter fun row =>
    row.chunkId ∉ (db.chunksOf sourceId store.projectId).map ChunkRow.chunkId).length

variable {store} {db : Db} {doc : KnowledgeDocument} {n : ℕ}

theorem ensureSource_counts (doc : KnowledgeDocument) (n : ℕ) (db : Db) :
    Counts (store.ensureSource doc.sourceId doc.type doc.path doc.version) n db ()
      (store.ensured doc db) (store.ensureChange doc db) := by
  have hfetch := Counts.fetch (store.findSource doc.sourceId) none n db
  unfold ensureSource ensureChange ensured
  cases hfound : store.findSource doc.sourceId db with
  | some row =>
    rw [hfound] at hfetch
    show Counts _ n db () _ (0 + 0)
    exact hfetch.bind (Counts.pure () _ db)
  | none =>
    rw [hfound] at hfetch
    have hkey := newSource_new hfound
    have hinsert : (Statement.insertSource (store.newSource doc)).run store.fts db =
        .ok ({ db with sources := db.sources ++ [store.newSource doc] }, 1) := by
      simp only [Statement.run, if_neg hkey]
    show Counts _ n db () _ (0 + 1)
    exact hfetch.bind (Counts.execute hinsert _)

/-- The rows that are deleted and those that are left are all rows. -/
theorem length_chunks_left (sourceId projectId : Text) (db : Db) :
    (db.chunks.filter fun row => ¬ (row.sourceId = sourceId ∧ row.projectId = projectId)).length +
      (db.chunksOf sourceId projectId).length = db.chunks.length := by
  have hsplit := List.length_eq_length_filter_add (l := db.chunks)
    fun row => decide (row.sourceId = sourceId ∧ row.projectId = projectId)
  have hleft : (db.chunks.filter fun row =>
      ¬ (row.sourceId = sourceId ∧ row.projectId = projectId)) =
      db.chunks.filter fun row =>
        !decide (row.sourceId = sourceId ∧ row.projectId = projectId) := by
    simp
  rw [hleft]
  unfold Db.chunksOf
  omega

theorem deleteChunksForSource_counts (sourceId : Text) (n : ℕ) (db : Db) :
    Counts (store.deleteChunksForSource sourceId) n db () (store.chunksDeleted sourceId db)
      (store.ftsChange sourceId db + (store.embeddingChange sourceId db +
        (db.chunksOf sourceId store.projectId).length)) := by
  have hleft := length_chunks_left sourceId store.projectId db
  have hchunks : db.chunks.length - (db.chunks.filter fun row =>
      ¬ (row.sourceId = sourceId ∧ row.projectId = store.projectId)).length =
      (db.chunksOf sourceId store.projectId).length := by omega
  unfold deleteChunksForSource deleteEmbeddingsForSource chunksDeleted ftsChange embeddingChange
  rw [← hchunks]
  by_cases havailable : store.fts.available = true
  · simp only [havailable, if_true]
    refine Counts.bind (Counts.execute rfl _) ?_
    refine Counts.bind (Counts.execute rfl _) ?_
    exact Counts.execute rfl _
  · simp only [havailable, Bool.false_eq_true, if_false, Nat.zero_add]
    refine Counts.bind (Counts.execute rfl _) ?_
    exact Counts.execute rfl _

end Changes

section Results

/-- What a call reports when the counter stands at `n`. -/
def resultOf (doc : KnowledgeDocument) (n : ℕ) (db : Db) : IndexResult :=
  if store.skips doc db then { action := .skipped, sourceId := doc.sourceId }
  else if store.replaces doc db then
    ⟨.reindexed, doc.chunks.length,
      n + (store.ensureChange doc db + (store.ftsChange doc.sourceId db +
        (store.embeddingChange doc.sourceId db +
          (db.chunksOf doc.sourceId store.projectId).length))), doc.sourceId⟩
  else ⟨.indexed, doc.chunks.length, 0, doc.sourceId⟩

/-- The tables behind a call. -/
def afterIndex (doc : KnowledgeDocument) (db : Db) : Db :=
  if store.skips doc db then store.ensured doc db
  else store.written doc (store.prepared doc db)

variable {store} {doc : KnowledgeDocument} {db : Db}

theorem findDocument_of_ensured (documentId : Text) :
    store.findDocument documentId (store.ensured doc db) = store.findDocument documentId db := by
  unfold ensured
  split <;> rfl

/-- What a call for a valid type returns when the metadata can be stored. -/
theorem indexDocument_returns (htype : doc.type ∈ validSourceTypes)
    (hwritable : store.skips doc db = false → doc.Writable) (n : ℕ) :
    Returns (store.indexDocument doc) n db (store.resultOf doc n db) (store.afterIndex doc db) := by
  have hensure := @ensureSource_counts store doc n db
  have hfetch := Counts.fetch (store.findDocument doc.resolvedId) none
    (n + store.ensureChange doc db) (store.ensured doc db)
  rw [findDocument_of_ensured] at hfetch
  unfold indexDocument resultOf afterIndex
  simp only [htype, not_true_eq_false, if_false]
  refine hensure.bind_returns (hfetch.bind_returns ?_)
  cases hfound : store.findDocument doc.resolvedId db with
  | none =>
    have hskips : store.skips doc db = false := by simp [skips, hfound]
    have hreplaces : store.replaces doc db = false := by simp [replaces, hfound]
    simp only [hskips, hreplaces, prepared, Bool.false_eq_true, if_false]
    have hwrite := @writeDocument_runs store doc (hwritable hskips) (store.ensured doc db)
    refine Runs.returns (hwrite.bind (k := 0) ?_) _
    exact Runs.pure _ _
  | some existing =>
    by_cases hhash : existing.hash = doc.hash
    · have hskips : store.skips doc db = true := by simp [skips, hfound, hhash]
      simp only [hhash, hskips, if_true]
      exact (Runs.pure _ _).returns _
    · have hskips : store.skips doc db = false := by simp [skips, hfound, hhash]
      have hreplaces : store.replaces doc db = true := by simp [replaces, hfound, hhash]
      simp only [hhash, hskips, hreplaces, prepared, Bool.false_eq_true, if_false, if_true]
      have hdelete := @deleteChunksForSource_counts store doc.sourceId
        (n + store.ensureChange doc db + 0) (store.ensured doc db)
      have hrow : Runs (store.run (.deleteDocument doc.resolvedId store.projectId)) 1
          (store.chunksDeleted doc.sourceId (store.ensured doc db)) ()
          (store.cleared doc (store.ensured doc db)) := Runs.execute rfl
      have hwrite := @writeDocument_runs store doc (hwritable hskips)
        (store.cleared doc (store.ensured doc db))
      have hchunks : (store.ensured doc db).chunksOf doc.sourceId store.projectId =
          db.chunksOf doc.sourceId store.projectId := chunksOf_ensured doc db _ _
      have hfts : store.ftsChange doc.sourceId (store.ensured doc db) =
          store.ftsChange doc.sourceId db := by
        have hrows : (store.ensured doc db).fts = db.fts := by
          unfold ensured
          split <;> rfl
        unfold ftsChange
        rw [hrows]
      have hembeddings : store.embeddingChange doc.sourceId (store.ensured doc db) =
          store.embeddingChange doc.sourceId db := by
        unfold embeddingChange
        rw [hchunks, ensured_embeddings]
      rw [hchunks, hfts, hembeddings, Nat.add_zero] at hdelete
      refine hdelete.bind_returns ((Counts.totalChanges _ _).bind_returns ?_)
      simp only [Nat.add_zero, Nat.add_assoc]
      refine Runs.returns (hrow.bind (hwrite.bind (k := 0) ?_)) _
      exact Runs.pure _ _

/-- A call that returns has a valid type, and what it writes can be stored. -/
theorem indexDocument_accepts {n : ℕ} {result : IndexResult} {s : Session Db}
    (h : store.indexDocument doc ⟨db, n, none⟩ = .ok result s) :
    doc.type ∈ validSourceTypes ∧ (store.skips doc db = false → doc.Writable) := by
  have htype : doc.type ∈ validSourceTypes := by
    by_contra htype
    have hraises : Raises (store.indexDocument doc) 0 db
        (knowledgeError ("Invalid document type: ".toList ++ doc.type)) db := by
      unfold indexDocument
      simp only [htype, not_false_eq_true, if_true]
      exact (Raises.throw _ db).bind_left
    exact hraises.not_ok h
  refine ⟨htype, fun hskips => ?_⟩
  by_contra hwritable
  have hhash : ∀ row ∈ store.findDocument doc.resolvedId db, row.hash ≠ doc.hash := by
    intro row hrow hsame
    have hfound : store.findDocument doc.resolvedId db = some row := hrow
    simp [skips, hfound, hsame] at hskips
  obtain ⟨k, exc, m, hraises⟩ := indexDocument_raises htype hwritable rfl hhash
  exact hraises.not_ok h

/-- What a call returns, when it does. -/
theorem indexDocument_ok {n : ℕ} {result : IndexResult} {s : Session Db}
    (h : store.indexDocument doc ⟨db, n, none⟩ = .ok result s) :
    result = store.resultOf doc n db ∧ s.db = store.afterIndex doc db ∧ s.failing = none := by
  obtain ⟨htype, hwritable⟩ := indexDocument_accepts h
  obtain ⟨m, hm⟩ := indexDocument_returns htype hwritable n
  rw [hm] at h
  cases h
  exact ⟨rfl, rfl, rfl⟩

end Results

section Counts

/-- Chunks of the source that a call deletes. -/
def removed (store : KnowledgeStore) (doc : KnowledgeDocument) (db : Db) : ℕ :=
  if store.replaces doc db then (db.chunksOf doc.sourceId store.projectId).length else 0

/-- Chunks that a call inserts. -/
def inserted (store : KnowledgeStore) (doc : KnowledgeDocument) (db : Db) : ℕ :=
  if store.skips doc db then 0 else doc.chunks.length

variable {store : KnowledgeStore} {doc : KnowledgeDocument} {db : Db}

theorem not_replaces_of_skips (h : store.skips doc db = true) : store.replaces doc db = false := by
  unfold skips at h
  unfold replaces
  cases hfound : store.findDocument doc.resolvedId db with
  | none => rfl
  | some existing =>
    rw [hfound] at h
    simpa using h

theorem addRows_chunks (rows : List ChunkRow) (db : Db) :
    (store.addRows rows db).chunks =
      rows.foldl (fun table row => upsert ChunkRow.key row table) db.chunks := by
  unfold addRows
  induction rows generalizing db with
  | nil => rfl
  | cons row rest ih =>
    rw [List.foldl_cons, List.foldl_cons, ih]
    rfl

/-- The chunks that are left when a call begins to insert. -/
theorem length_prepared :
    (store.prepared doc db).chunks.length + store.removed doc db = db.chunks.length := by
  unfold prepared removed
  split
  · have hleft := length_chunks_left doc.sourceId store.projectId (store.ensured doc db)
    have hcleared : (store.cleared doc (store.ensured doc db)).chunks =
        (store.ensured doc db).chunks.filter fun row =>
          ¬ (row.sourceId = doc.sourceId ∧ row.projectId = store.projectId) := rfl
    rw [chunksOf_ensured, ensured_chunks] at hleft
    rw [hcleared, ensured_chunks]
    exact hleft
  · rw [ensured_chunks]
    rfl

/-- The chunk ids of a document are new behind its deletions, and all different. -/
def FreshKeys (store : KnowledgeStore) (doc : KnowledgeDocument) (db : Db) : Prop :=
  ((store.documentRows doc).map ChunkRow.key).Nodup ∧
    ∀ row ∈ store.documentRows doc, row.key ∉ (store.prepared doc db).chunks.map ChunkRow.key

/-- A call that writes adds all its chunks to those that are left, exactly when their ids
are new. -/
theorem length_afterIndex (hskips : store.skips doc db = false) :
    (store.afterIndex doc db).chunks.length =
        (store.prepared doc db).chunks.length + doc.chunks.length ↔ store.FreshKeys doc db := by
  have hrows : (store.documentRows doc).length = doc.chunks.length := by
    simp [documentRows, rowsOf]
  have hchunks : (store.afterIndex doc db).chunks =
      (store.documentRows doc).foldl (fun table row => upsert ChunkRow.key row table)
        (store.prepared doc db).chunks := by
    unfold afterIndex
    rw [hskips, if_neg Bool.false_ne_true, ← addRows_chunks]
    rfl
  rw [hchunks, ← hrows]
  exact (length_foldl_upsert _ _).2

end Counts

end KnowledgeStore

/-- A call of `index_document` that returned, with the session that it found. -/
structure Call where
  store : KnowledgeStore
  doc : KnowledgeDocument
  before : Db
  /-- `total_changes` of the connection. -/
  counter : ℕ
  result : IndexResult
  after : Db

namespace Call

variable (call : Call)

/-- The call returned this from there. -/
def Genuine : Prop :=
  ∃ s, call.store.indexDocument call.doc ⟨call.before, call.counter, none⟩ =
    .ok call.result s ∧ s.db = call.after

/-- The counts are those of the chunks that the call deleted and inserted, and their
difference is the change in the number of stored chunks. -/
structure Accounted : Prop where
  deleted : call.result.chunksDeleted = call.store.removed call.doc call.before
  created : call.result.chunksCreated = call.store.inserted call.doc call.before
  change : (call.after.chunks.length : ℤ) - call.before.chunks.length =
    call.result.chunksCreated - call.result.chunksDeleted

/-- A version is replaced only when nothing was written on the connection before and
nothing but chunks is deleted, and the chunk ids that are written are new. -/
structure Exact : Prop where
  untouched : call.store.replaces call.doc call.before = true →
    call.counter = 0 ∧ (call.store.findSource call.doc.sourceId call.before).isSome = true ∧
      call.store.ftsChange call.doc.sourceId call.before = 0 ∧
      call.store.embeddingChange call.doc.sourceId call.before = 0
  fresh : call.store.skips call.doc call.before = false →
    call.store.FreshKeys call.doc call.before

variable {call}

/-- A call is accounted for exactly under that condition. -/
theorem Genuine.accounted_iff (h : call.Genuine) : call.Accounted ↔ call.Exact := by
  obtain ⟨s, hreturned, hafter⟩ := h
  obtain ⟨hresult, hdb, -⟩ := KnowledgeStore.indexDocument_ok hreturned
  have hleft := @KnowledgeStore.length_prepared call.store call.doc call.before
  rw [hafter] at hdb
  by_cases hskips : call.store.skips call.doc call.before = true
  · have hreplaces := KnowledgeStore.not_replaces_of_skips hskips
    have hlength : call.after.chunks.length = call.before.chunks.length := by
      rw [hdb]
      unfold KnowledgeStore.afterIndex
      rw [if_pos hskips, KnowledgeStore.ensured_chunks]
    constructor
    · intro _
      refine ⟨fun h => ?_, fun h => ?_⟩
      · exact Bool.noConfusion (hreplaces.symm.trans h)
      · exact Bool.noConfusion (hskips.symm.trans h)
    · intro _
      refine ⟨?_, ?_, ?_⟩
      · simp [hresult, KnowledgeStore.resultOf, hskips, KnowledgeStore.removed, hreplaces]
      · simp [hresult, KnowledgeStore.resultOf, hskips, KnowledgeStore.inserted]
      · simp [hresult, KnowledgeStore.resultOf, hskips, hlength]
  · have hskips : call.store.skips call.doc call.before = false := by simpa using hskips
    have hkeys := KnowledgeStore.length_afterIndex hskips
    rw [← hdb] at hkeys
    have hcreated : call.result.chunksCreated = call.doc.chunks.length := by
      rw [hresult]
      unfold KnowledgeStore.resultOf
      rw [hskips, if_neg Bool.false_ne_true]
      split <;> rfl
    have hinserted : call.store.inserted call.doc call.before = call.doc.chunks.length := by
      simp [KnowledgeStore.inserted, hskips]
    have hdeleted : call.result.chunksDeleted = call.store.removed call.doc call.before ↔
        (call.store.replaces call.doc call.before = true →
          call.counter = 0 ∧
            (call.store.findSource call.doc.sourceId call.before).isSome = true ∧
            call.store.ftsChange call.doc.sourceId call.before = 0 ∧
            call.store.embeddingChange call.doc.sourceId call.before = 0) := by
      rw [hresult]
      unfold KnowledgeStore.resultOf KnowledgeStore.removed KnowledgeStore.ensureChange
      rw [hskips, if_neg Bool.false_ne_true]
      by_cases hreplaces : call.store.replaces call.doc call.before = true
      · rw [if_pos hreplaces, if_pos hreplaces]
        dsimp only
        by_cases hsource : (call.store.findSource call.doc.sourceId call.before).isSome = true
        · rw [if_pos hsource]
          constructor
          · intro heq _
            exact ⟨by omega, hsource, by omega, by omega⟩
          · intro hzero
            obtain ⟨hcounter, -, hfts, hembeddings⟩ := hzero hreplaces
            omega
        · rw [if_neg hsource]
          constructor
          · intro heq
            omega
          · intro hzero
            exact absurd (hzero hreplaces).2.1 hsource
      · rw [if_neg hreplaces, if_neg hreplaces]
        exact ⟨fun _ h => absurd h hreplaces, fun _ => rfl⟩
    constructor
    · intro haccounted
      refine ⟨hdeleted.mp haccounted.deleted, fun _ => hkeys.mp ?_⟩
      have hchange := haccounted.change
      rw [haccounted.deleted, hcreated] at hchange
      omega
    · intro hexact
      have hlength := hkeys.mpr (hexact.fresh hskips)
      have hsame := hdeleted.mpr hexact.untouched
      refine ⟨hsame, hcreated.trans hinserted.symm, ?_⟩
      rw [hsame, hcreated]
      omega

end Call

/-- The calls that return in some use of a connection, by stores of any projects, with calls
that raise and any other writes in between. -/
inductive Uses : Db → ℕ → List Call → Prop
  | done (db : Db) (n : ℕ) : Uses db n []
  | returned {store : KnowledgeStore} {doc : KnowledgeDocument} {db : Db} {n : ℕ}
      {result : IndexResult} {s : Session Db} {calls : List Call}
      (hcall : store.indexDocument doc ⟨db, n, none⟩ = .ok result s)
      (hrest : Uses s.db s.totalChanges calls) : Uses db n (⟨store, doc, db, n, result, s.db⟩ :: calls)
  | raised {store : KnowledgeStore} {doc : KnowledgeDocument} {db : Db} {n : ℕ} {exc : PyExc}
      {s : Session Db} {calls : List Call}
      (hcall : store.indexDocument doc ⟨db, n, none⟩ = .error exc s)
      (hrest : Uses s.db s.totalChanges calls) : Uses db n calls
  | other {db db' : Db} {n changed : ℕ} {calls : List Call} (hrest : Uses db' (n + changed) calls) :
      Uses db n calls

theorem Uses.genuine {db : Db} {n : ℕ} {calls : List Call} (h : Uses db n calls) :
    ∀ call ∈ calls, call.Genuine := by
  induction h with
  | done => exact fun call hmem => absurd hmem List.not_mem_nil
  | returned hcall hrest ih => exact List.forall_mem_cons.mpr ⟨⟨_, hcall, rfl⟩, ih⟩
  | raised hcall hrest ih => exact ih
  | other hrest ih => exact ih

/-- What a call says that it adds. -/
def Call.gain (call : Call) : ℤ := call.result.chunksCreated - call.result.chunksDeleted

namespace KnowledgeEngine

variable (engine : KnowledgeEngine) (files : ProjectFiles)

/-- The write of the metadata behind a call. -/
def describe (doc : KnowledgeDocument) : Query Unit :=
  if doc.metadata ≠ [] then engine.store.upsertSourceMetadata doc.sourceId doc.metadata
  else pure ()

/-- The calls of the loop over the candidates. -/
def candidateCalls : List SourceCandidate → Db → ℕ → List Call
  | [], _, _ => []
  | candidate :: rest, db, n =>
    match files.readText candidate.path with
    | none => candidateCalls rest db n
    | some content =>
      let doc := candidate.document content.1
      match engine.store.indexDocument doc ⟨db, n, none⟩ with
      | .ok result s =>
        let t := Program.after (engine.describe doc) s
        ⟨engine.store, doc, db, n, result, s.db⟩ :: candidateCalls rest t.db t.totalChanges
      | .error _ s => candidateCalls rest s.db s.totalChanges

/-- `start_run` and `finish_run`, which write one row of the audit table each. -/
def auditRun : Query Unit := execute fun db => .ok (db, 1)

/-- `index`, with the audit of the run. -/
def indexRun : Query IndexSummary := do
  auditRun
  let summary ← engine.index files
  auditRun
  return summary

/-- The calls of a run, which starts with a write of its own. -/
def runCalls (db : Db) (n : ℕ) : List Call :=
  engine.candidateCalls files (discoverSources engine.listText files) db (n + 1)

variable {engine files} {candidate : SourceCandidate} {db : Db} {n : ℕ}

/-- The metadata of a document that can be stored is written, and the chunks stay. -/
theorem describe_counts {doc : KnowledgeDocument} (hwritable : doc.Writable) (n : ℕ) (db : Db) :
    ∃ db' changed, Counts (engine.describe doc) n db () db' changed ∧ db'.chunks = db.chunks := by
  obtain ⟨content, hcontent⟩ := hwritable.document
  unfold describe
  by_cases hempty : doc.metadata = []
  · rw [if_neg (not_not.mpr hempty)]
    exact ⟨db, 0, Counts.pure () n db, rfl⟩
  · rw [if_pos hempty]
    unfold KnowledgeStore.upsertSourceMetadata
    have hparameter : Counts (parameter (jsonText doc.metadata)) n db content db 0 := by
      simp [Counts, parameter, hcontent]
    exact ⟨{ db with sources := db.sources.map fun row =>
        if row.sourceId = doc.sourceId ∧ row.projectId = engine.store.projectId then
          { row with metadataJson := content }
        else row }, _, hparameter.bind (Counts.execute rfl _), rfl⟩

/-- One candidate that can be read: the call returns, and is counted. -/
theorem indexCandidate_returns (hsane : candidate.Sane) {content : FileText}
    (hread : files.readText candidate.path = some content) (summary : IndexSummary) (db : Db)
    (n : ℕ) :
    ∃ result s t, engine.store.indexDocument (candidate.document content.1) ⟨db, n, none⟩ =
        .ok result s ∧
      Program.after (engine.describe (candidate.document content.1)) s = t ∧
      engine.indexCandidate files summary candidate ⟨db, n, none⟩ =
        .ok ({ summary with scanned := summary.scanned + 1 }.count result) t ∧
      t.failing = none ∧ t.db.chunks = s.db.chunks := by
  have hwritable := hsane.writable content
  have htype : (candidate.document content.1).type ∈ validSourceTypes := hsane.type
  obtain ⟨m, hcall⟩ := @KnowledgeStore.indexDocument_returns engine.store _ db htype
    (fun _ => hwritable) n
  obtain ⟨db', changed, hdescribe, hchunks⟩ := @describe_counts engine _ hwritable m
    (engine.store.afterIndex (candidate.document content.1) db)
  refine ⟨_, _, ⟨db', m + changed, none⟩, hcall, ?_, ?_, rfl, hchunks⟩
  · unfold Program.after
    rw [hdescribe]
  · unfold indexCandidate
    unfold describe at hdescribe
    simp only [hread]
    by_cases hempty : (candidate.document content.1).metadata = []
    · rw [if_neg (not_not.mpr hempty)] at hdescribe
      have hsame := EStateM.Result.ok.inj hdescribe
      simp only [hempty, ne_eq, not_true_eq_false, if_false, bind, EStateM.bind, tryCatch,
        tryCatchThe, MonadExceptOf.tryCatch, EStateM.tryCatch, hcall]
      rw [← hsame.2]
      rfl
    · rw [if_pos hempty] at hdescribe
      simp only [hempty, ne_eq, not_false_eq_true, if_true, bind, EStateM.bind, tryCatch,
        tryCatchThe, MonadExceptOf.tryCatch, EStateM.tryCatch, hcall]
      unfold Counts at hdescribe
      rw [hdescribe]
      rfl

/-- What the calls of a loop say that they add. -/
def gains (calls : List Call) : ℤ := (calls.map Call.gain).sum

theorem gain_count (summary : IndexSummary) (result : IndexResult) :
    ((summary.count result).chunksCreated : ℤ) - (summary.count result).chunksDeleted =
      summary.chunksCreated - summary.chunksDeleted +
        (result.chunksCreated - result.chunksDeleted) := by
  simp only [IndexSummary.count, Nat.cast_add]
  omega

/-- The loop returns, its totals are those of its calls, and where every call is accounted
for, so are the totals. -/
theorem indexCandidates_counts (candidates : List SourceCandidate)
    (hsane : ∀ candidate ∈ candidates, candidate.Sane) (summary : IndexSummary) (db : Db) (n : ℕ) :
    ∃ last t, engine.indexCandidates files candidates summary ⟨db, n, none⟩ = .ok last t ∧
      (last.chunksCreated : ℤ) - last.chunksDeleted =
        summary.chunksCreated - summary.chunksDeleted +
          gains (engine.candidateCalls files candidates db n) ∧
      (∀ call ∈ engine.candidateCalls files candidates db n, call.Genuine) ∧
      ((∀ call ∈ engine.candidateCalls files candidates db n, call.Accounted) →
        (t.db.chunks.length : ℤ) - db.chunks.length =
          gains (engine.candidateCalls files candidates db n)) ∧ t.failing = none := by
  induction candidates generalizing summary db n with
  | nil => exact ⟨summary, _, rfl, by simp [candidateCalls, gains], by simp [candidateCalls],
      by simp [candidateCalls, gains], rfl⟩
  | cons candidate rest ih =>
    obtain ⟨hfirst, hrest⟩ := List.forall_mem_cons.mp hsane
    have hnext : ∀ (next : IndexSummary) (t : Session Db),
        engine.indexCandidate files summary candidate ⟨db, n, none⟩ = .ok next t →
        engine.indexCandidates files (candidate :: rest) summary ⟨db, n, none⟩ =
          engine.indexCandidates files rest next t := by
      intro next t hone
      rw [indexCandidates]
      change EStateM.bind _ _ _ = _
      unfold EStateM.bind
      rw [hone]
    cases hread : files.readText candidate.path with
    | none =>
      have hcalls : engine.candidateCalls files (candidate :: rest) db n =
          engine.candidateCalls files rest db n := by
        rw [candidateCalls, hread]
      have hone : engine.indexCandidate files summary candidate ⟨db, n, none⟩ =
          .ok { summary with scanned := summary.scanned + 1 } ⟨db, n, none⟩ := by
        unfold indexCandidate
        simp only [hread]
        rfl
      rw [hcalls, hnext _ _ hone]
      exact ih hrest { summary with scanned := summary.scanned + 1 } db n
    | some content =>
      obtain ⟨result, s, t, hcall, hafter, hone, hfailing, hchunks⟩ :=
        @indexCandidate_returns engine files candidate hfirst content hread summary db n
      have hcalls : engine.candidateCalls files (candidate :: rest) db n =
          ⟨engine.store, candidate.document content.1, db, n, result, s.db⟩ ::
            engine.candidateCalls files rest t.db t.totalChanges := by
        rw [candidateCalls, hread]
        dsimp only
        rw [hcall, ← hafter]
      have hsession : t = ⟨t.db, t.totalChanges, none⟩ := by
        cases t
        cases hfailing
        rfl
      obtain ⟨last, u, hrun, htotal, hgenuine, hchange, hlast⟩ := ih hrest
        ({ summary with scanned := summary.scanned + 1 }.count result) t.db t.totalChanges
      rw [← hsession] at hrun
      rw [hcalls, hnext _ _ hone]
      refine ⟨last, u, hrun, ?_, ?_, ?_, hlast⟩
      · rw [htotal, gain_count]
        simp only [gains, List.map_cons, List.sum_cons, Call.gain]
        ring
      · exact List.forall_mem_cons.mpr ⟨⟨s, hcall, rfl⟩, hgenuine⟩
      · intro hall
        obtain ⟨hthis, hothers⟩ := List.forall_mem_cons.mp hall
        have hfirstChange := hthis.change
        have hrestChange := hchange hothers
        rw [hchunks] at hrestChange
        simp only [gains, List.map_cons, List.sum_cons, Call.gain] at hrestChange ⊢
        dsimp only at hfirstChange
        linarith

/-- The run of an index returns, and its totals are those of its calls. -/
theorem indexRun_counts (engine : KnowledgeEngine) (files : ProjectFiles) (db : Db) (n : ℕ) :
    ∃ summary t, engine.indexRun files ⟨db, n, none⟩ = .ok summary t ∧
      (summary.chunksCreated : ℤ) - summary.chunksDeleted = gains (engine.runCalls files db n) ∧
      (∀ call ∈ engine.runCalls files db n, call.Genuine) ∧
      ((∀ call ∈ engine.runCalls files db n, call.Accounted) →
        (t.db.chunks.length : ℤ) - db.chunks.length = gains (engine.runCalls files db n)) := by
  obtain ⟨last, t, hrun, htotal, hgenuine, hchange, hfailing⟩ :=
    @indexCandidates_counts engine files (discoverSources engine.listText files)
      (discoverSources_sane _ _) {} db (n + 1)
  have hsession : t = ⟨t.db, t.totalChanges, none⟩ := by
    cases t
    cases hfailing
    rfl
  have hindex : engine.index files ⟨db, n + 1, none⟩ = .ok last ⟨t.db, t.totalChanges, none⟩ := by
    rw [← hsession]
    exact hrun
  refine ⟨last, ⟨t.db, t.totalChanges + 1, none⟩, ?_, ?_, hgenuine, hchange⟩
  · have hstart : auditRun ⟨db, n, none⟩ = .ok () ⟨db, n + 1, none⟩ := rfl
    have hfinish : auditRun ⟨t.db, t.totalChanges, none⟩ =
        .ok () ⟨t.db, t.totalChanges + 1, none⟩ := rfl
    simp only [indexRun, bind, EStateM.bind, hstart, hindex, hfinish]
    rfl
  · rw [htotal]
    simp [runCalls]

/-- In every use of a connection, each call that returns is accounted for exactly when it
replaces no version, or is the first to write and deletes nothing but chunks, and its chunk
ids are new. All calls of a run of the index are accounted for, with its totals, exactly
when each of them meets this. -/
theorem accounting_iff (db : Db) (n : ℕ) (calls : List Call) (huses : Uses db n calls)
    (engine : KnowledgeEngine) (files : ProjectFiles) :
    (∀ call ∈ calls, call.Accounted ↔ call.Exact) ∧
      ∃ summary t, engine.indexRun files ⟨db, n, none⟩ = .ok summary t ∧
        (((∀ call ∈ engine.runCalls files db n, call.Accounted) ∧
            (summary.chunksCreated : ℤ) - summary.chunksDeleted =
              (t.db.chunks.length : ℤ) - db.chunks.length) ↔
          ∀ call ∈ engine.runCalls files db n, call.Exact) := by
  refine ⟨fun call hmem => (huses.genuine call hmem).accounted_iff, ?_⟩
  obtain ⟨summary, t, hrun, htotal, hgenuine, hchange⟩ := indexRun_counts engine files db n
  refine ⟨summary, t, hrun, ?_⟩
  constructor
  · rintro ⟨haccounted, -⟩ call hmem
    exact (hgenuine call hmem).accounted_iff.mp (haccounted call hmem)
  · intro hexact
    have haccounted : ∀ call ∈ engine.runCalls files db n, call.Accounted :=
      fun call hmem => (hgenuine call hmem).accounted_iff.mpr (hexact call hmem)
    exact ⟨haccounted, htotal.trans (hchange haccounted).symm⟩

/-- The first version of a note is accounted for. -/
theorem accounting_note : ∃ result s,
    KnowledgeStore.noteStore.indexDocument (KnowledgeStore.note "1") ⟨{}, 0, none⟩ =
        .ok result s ∧
      (⟨KnowledgeStore.noteStore, KnowledgeStore.note "1", {}, 0, result, s.db⟩ : Call).Accounted := by
  obtain ⟨m, hcall⟩ := @KnowledgeStore.indexDocument_returns KnowledgeStore.noteStore
    (KnowledgeStore.note "1") {} (by decide)
    (fun _ => KnowledgeStore.note_writable _ (List.mem_cons_self ..)) 0
  have hnew : KnowledgeStore.noteStore.replaces (KnowledgeStore.note "1") {} ≠ true := by
    decide
  have hdistinct : ((KnowledgeStore.noteStore.documentRows (KnowledgeStore.note "1")).map
      ChunkRow.key).Nodup := by
    decide
  have hempty : (KnowledgeStore.noteStore.prepared (KnowledgeStore.note "1") {}).chunks = [] := by
    decide
  refine ⟨_, _, hcall, ?_⟩
  refine ((accounting_iff {} 0 _ (.returned hcall (.done _ _))
    ⟨KnowledgeStore.noteStore, List.flatten, 1⟩ {}).1 _ (List.mem_cons_self ..)).mpr ?_
  refine ⟨fun h => absurd h hnew, fun _ => ⟨hdistinct, ?_⟩⟩
  intro row hrow
  dsimp only
  rw [hempty]
  exact List.not_mem_nil

/-- A version of the note with other content. -/
def changedNote : KnowledgeDocument :=
  { KnowledgeStore.note "2" with content := "beta".toList }

/-- The changed note replaces one chunk, and more is reported as deleted. -/
theorem changedNote_not_accounted :
    ¬ ∀ db n calls, Uses db n calls → ∀ call ∈ calls, call.Accounted := by
  intro hall
  have hfirst : ∃ m, KnowledgeStore.noteStore.indexDocument (KnowledgeStore.note "1")
      ⟨{}, 0, none⟩ = .ok (KnowledgeStore.noteStore.resultOf (KnowledgeStore.note "1") 0 {})
        ⟨KnowledgeStore.noteStore.afterIndex (KnowledgeStore.note "1") {}, m, none⟩ :=
    KnowledgeStore.indexDocument_returns (by decide)
      (fun _ => KnowledgeStore.note_writable _ (List.mem_cons_self ..)) 0
  obtain ⟨m, hfirst⟩ := hfirst
  have hchanged : changedNote.Writable := .of_isOk (by decide) (by decide)
  obtain ⟨k, hsecond⟩ := @KnowledgeStore.indexDocument_returns KnowledgeStore.noteStore
    changedNote (KnowledgeStore.noteStore.afterIndex (KnowledgeStore.note "1") {}) (by decide)
    (fun _ => hchanged) m
  have haccounted := hall {} 0 _ (.returned hfirst (.returned hsecond (.done _ _))) _
    (List.mem_cons_of_mem _ (List.mem_cons_self ..))
  have hdeleted := haccounted.deleted
  have hfts : KnowledgeStore.noteStore.ftsChange changedNote.sourceId
      (KnowledgeStore.noteStore.afterIndex (KnowledgeStore.note "1") {}) = 1 := by decide +kernel
  have hreplaces : KnowledgeStore.noteStore.replaces changedNote
      (KnowledgeStore.noteStore.afterIndex (KnowledgeStore.note "1") {}) = true := by
    decide +kernel
  have hskips : KnowledgeStore.noteStore.skips changedNote
      (KnowledgeStore.noteStore.afterIndex (KnowledgeStore.note "1") {}) = false := by
    decide +kernel
  simp only [KnowledgeStore.resultOf, KnowledgeStore.removed, hskips, hreplaces, hfts,
    Bool.false_eq_true, if_false, if_true] at hdeleted
  omega

end KnowledgeEngine

end AiosDeck.Knowledge
