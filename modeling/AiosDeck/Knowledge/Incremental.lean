import AiosDeck.Knowledge.Indexing

/-!
# Incremental and fresh indexing

A call is skipped when the normalised content has the stored hash. What is
stored of a source is therefore what a fresh store would hold of the last
document that was not skipped.
-/

namespace AiosDeck.Knowledge

open Python Storage Tables

/-- Two versions of one document. -/
structure SameDocument (first second : KnowledgeDocument) : Prop where
  type : first.type = second.type
  path : first.path = second.path
  documentId : first.documentId = second.documentId

theorem SameDocument.sourceId {first second : KnowledgeDocument} (h : SameDocument first second) :
    first.sourceId = second.sourceId := by
  unfold KnowledgeDocument.sourceId
  rw [h.type, h.path]

theorem SameDocument.resolvedId {first second : KnowledgeDocument} (h : SameDocument first second) :
    first.resolvedId = second.resolvedId := by
  unfold KnowledgeDocument.resolvedId
  rw [h.documentId, h.sourceId, h.path]

/-- The version that is stored after one more call. -/
def keepIndexed (kept : Option KnowledgeDocument) (doc : KnowledgeDocument) :
    Option KnowledgeDocument :=
  match kept with
  | none => some doc
  | some old => if old.hash = doc.hash then some old else some doc

/-- The last of some versions that is not skipped. -/
def lastIndexed (docs : List KnowledgeDocument) : Option KnowledgeDocument :=
  docs.foldl keepIndexed none

/-- Rows inserted one after the other. -/
def insertRows (rows table : List ChunkRow) : List ChunkRow :=
  rows.foldl (fun table row => upsert ChunkRow.key row table) table

namespace KnowledgeStore

variable {store : KnowledgeStore}

/-- Index some documents, one after another. -/
def indexAll (store : KnowledgeStore) : List KnowledgeDocument → Query Unit
  | [] => pure ()
  | doc :: rest => do
    let _ ← store.indexDocument doc
    store.indexAll rest

theorem chunksOf_ensured (doc : KnowledgeDocument) (db : Db) (sourceId projectId : Text) :
    (store.ensured doc db).chunksOf sourceId projectId = db.chunksOf sourceId projectId := by
  unfold ensured
  split <;> rfl

theorem chunksOf_cleared (store : KnowledgeStore) (doc : KnowledgeDocument) (db : Db) :
    (store.cleared doc db).chunksOf doc.sourceId store.projectId = [] := by
  refine List.filter_eq_nil_iff.mpr fun row hrow => ?_
  have hother := (List.mem_filter.mp hrow).2
  rw [decide_eq_true_iff] at hother ⊢
  exact hother

/-- Inserted rows of a source join its rows. -/
theorem chunksOf_addRows {sourceId : Text} (rows : List ChunkRow) (db : Db)
    (h : ∀ row ∈ rows, row.sourceId = sourceId ∧ row.projectId = store.projectId) :
    (store.addRows rows db).chunksOf sourceId store.projectId =
      insertRows rows (db.chunksOf sourceId store.projectId) := by
  induction rows generalizing db with
  | nil => rfl
  | cons row rest ih =>
    have hrest := ih (store.addRow db row) fun other hother => h other (List.mem_cons_of_mem _ hother)
    have hrow : (decide (row.sourceId = sourceId ∧ row.projectId = store.projectId)) = true :=
      decide_eq_true (h row (List.mem_cons_self ..))
    have hone : (store.addRow db row).chunksOf sourceId store.projectId =
        upsert ChunkRow.key row (db.chunksOf sourceId store.projectId) :=
      filter_upsert_own hrow
    change (store.addRows rest (store.addRow db row)).chunksOf sourceId store.projectId = _
    rw [hrest, hone]
    rfl

theorem documentRows_own (doc : KnowledgeDocument) : ∀ row ∈ store.documentRows doc,
    row.sourceId = doc.sourceId ∧ row.projectId = store.projectId := by
  intro row hrow
  obtain ⟨chunk, -, rfl⟩ := List.mem_map.mp hrow
  exact ⟨rfl, rfl⟩

theorem chunksOf_written (store : KnowledgeStore) (doc : KnowledgeDocument) (db : Db) :
    (store.written doc db).chunksOf doc.sourceId store.projectId =
      insertRows (store.documentRows doc) (db.chunksOf doc.sourceId store.projectId) :=
  chunksOf_addRows _ _ (documentRows_own doc)

theorem findDocument_ensured (doc : KnowledgeDocument) (db : Db) (documentId : Text) :
    store.findDocument documentId (store.ensured doc db) = store.findDocument documentId db := by
  unfold ensured
  split <;> rfl

theorem findDocument_written (store : KnowledgeStore) (doc : KnowledgeDocument) (db : Db) :
    store.findDocument doc.resolvedId (store.written doc db) = some (store.documentRow doc) := by
  have hdocuments : (store.written doc db).documents =
      upsert DocumentRow.key (store.documentRow doc) (store.addRows (store.documentRows doc) db).documents :=
    rfl
  unfold findDocument
  rw [hdocuments]
  refine find?_upsert fun other => ?_
  rw [decide_eq_true_iff]
  exact Prod.mk.injEq .. ▸ Iff.rfl

/-- What is stored of a document when this version of it is the last one
that was not skipped. -/
def Holds (store : KnowledgeStore) (doc : KnowledgeDocument) (kept : Option KnowledgeDocument)
    (db : Db) : Prop :=
  match kept with
  | none => db.chunksOf doc.sourceId store.projectId = [] ∧
      store.findDocument doc.resolvedId db = none
  | some old => db.chunksOf doc.sourceId store.projectId = insertRows (store.documentRows old) [] ∧
      store.findDocument doc.resolvedId db = some (store.documentRow old)

/-- One call. -/
theorem indexDocument_holds {doc next : KnowledgeDocument} {kept : Option KnowledgeDocument}
    {db : Db} (hsame : SameDocument next doc) (htype : next.type ∈ validSourceTypes)
    (hwritable : next.Writable) (h : store.Holds doc kept db) :
    ∃ k db', Leaves (store.indexDocument next) k db db' ∧ store.Holds doc (keepIndexed kept next) db' := by
  have hwritten : ∀ t : Db, t.chunksOf doc.sourceId store.projectId = [] →
      store.Holds doc (some next) (store.written next t) := by
    intro t hempty
    have hchunks := chunksOf_written store next t
    have hdocument := findDocument_written store next t
    rw [hsame.sourceId, hempty] at hchunks
    rw [hsame.resolvedId] at hdocument
    exact ⟨hchunks, hdocument⟩
  cases kept with
  | none =>
    obtain ⟨hempty, hnone⟩ := h
    rw [← hsame.resolvedId] at hnone
    have hindexes := indexDocument_indexes htype hwritable hnone
    refine ⟨_, _, hindexes, hwritten _ ?_⟩
    rw [chunksOf_ensured]
    exact hempty
  | some old =>
    obtain ⟨hrows, hfound⟩ := h
    rw [← hsame.resolvedId] at hfound
    by_cases hhash : old.hash = next.hash
    · have hskips := indexDocument_skips htype hfound hhash
      refine ⟨_, _, hskips, ?_⟩
      rw [keepIndexed, if_pos hhash]
      constructor
      · rw [chunksOf_ensured]
        exact hrows
      · rw [findDocument_ensured, ← hsame.resolvedId]
        exact hfound
    · have hreindexes := indexDocument_reindexes htype hwritable hfound hhash
      refine ⟨_, _, hreindexes, ?_⟩
      rw [keepIndexed, if_neg hhash]
      refine hwritten _ ?_
      have hcleared := chunksOf_cleared store next (store.ensured next db)
      rw [hsame.sourceId] at hcleared
      exact hcleared

/-- A sequence of calls. -/
theorem indexAll_holds {doc : KnowledgeDocument} {kept : Option KnowledgeDocument} {db : Db}
    (docs : List KnowledgeDocument) (hsame : ∀ next ∈ docs, SameDocument next doc)
    (htype : doc.type ∈ validSourceTypes) (hwritable : ∀ next ∈ docs, next.Writable)
    (h : store.Holds doc kept db) :
    ∃ k db', Leaves (store.indexAll docs) k db db' ∧
      store.Holds doc (docs.foldl keepIndexed kept) db' := by
  induction docs generalizing kept db with
  | nil => exact ⟨0, db, (Runs.pure () db).leaves, h⟩
  | cons next rest ih =>
    have hnext : SameDocument next doc := hsame next (List.mem_cons_self ..)
    have hvalid : next.type ∈ validSourceTypes := by
      rw [hnext.type]
      exact htype
    obtain ⟨j, t, hone, ht⟩ :=
      indexDocument_holds hnext hvalid (hwritable next (List.mem_cons_self ..)) h
    obtain ⟨k, u, hrest, hu⟩ := ih (fun d hd => hsame d (List.mem_cons_of_mem _ hd))
      (fun d hd => hwritable d (List.mem_cons_of_mem _ hd)) ht
    exact ⟨j + k, u, hone.bind fun _ => hrest, hu⟩

/-- The listing of a source in this state. -/
theorem getSourceChunks_runs (store : KnowledgeStore) (sourceId : Text) (db : Db) :
    Runs (store.getSourceChunks sourceId) 1 db
      ((db.chunksOf sourceId store.projectId).insertionSort fun a b => a.position ≤ b.position) db :=
  Runs.fetch _ _ _

/-- The version that is stored is one of those given. -/
theorem mem_of_foldl_keepIndexed {docs : List KnowledgeDocument} {kept : Option KnowledgeDocument}
    {doc : KnowledgeDocument} (h : docs.foldl keepIndexed kept = some doc) :
    doc ∈ docs ∨ kept = some doc := by
  induction docs generalizing kept with
  | nil => exact .inr h
  | cons next rest ih =>
    rcases ih h with hmem | hkept
    · exact .inl (List.mem_cons_of_mem _ hmem)
    · cases kept with
      | none =>
        have hnext : next = doc := Option.some.inj hkept
        exact .inl (hnext ▸ List.mem_cons_self ..)
      | some old =>
        simp only [keepIndexed] at hkept
        split at hkept
        · exact .inr hkept
        · have hnext : next = doc := Option.some.inj hkept
          exact .inl (hnext ▸ List.mem_cons_self ..)

theorem holds_empty (store : KnowledgeStore) (doc : KnowledgeDocument) : store.Holds doc none {} := ⟨rfl, rfl⟩

/-- After any sequence of versions of a document, its source has the chunks
that a fresh store has after the last version that was not skipped. -/
theorem incremental_eq_fresh (store : KnowledgeStore) (docs : List KnowledgeDocument)
    (doc : KnowledgeDocument) (db : Db) (hsame : ∀ next ∈ docs, SameDocument next doc)
    (htype : doc.type ∈ validSourceTypes) (hwritable : ∀ next ∈ docs, next.Writable)
    (hnew : store.Holds doc none db) (hlast : lastIndexed docs = some doc) :
    ∃ k db₁ j db₂ rows, Leaves (store.indexAll docs) k db db₁ ∧
      Leaves (store.indexDocument doc) j {} db₂ ∧
      Runs (store.getSourceChunks doc.sourceId) 1 db₁ rows db₁ ∧
      Runs (store.getSourceChunks doc.sourceId) 1 db₂ rows db₂ := by
  have hmem : doc ∈ docs := by
    rcases mem_of_foldl_keepIndexed hlast with hmem | hnone
    · exact hmem
    · cases hnone
  obtain ⟨k, db₁, hall, hstored⟩ := indexAll_holds docs hsame htype hwritable hnew
  have hself : SameDocument doc doc := ⟨rfl, rfl, rfl⟩
  obtain ⟨j, db₂, hone, hfresh⟩ :=
    indexDocument_holds hself htype (hwritable doc hmem) (holds_empty store doc)
  change store.Holds doc (lastIndexed docs) db₁ at hstored
  rw [hlast] at hstored
  have hrows : db₁.chunksOf doc.sourceId store.projectId =
      db₂.chunksOf doc.sourceId store.projectId := hstored.1.trans hfresh.1.symm
  have hlisting := getSourceChunks_runs store doc.sourceId db₁
  rw [hrows] at hlisting
  exact ⟨k, db₁, j, db₂, _, hall, hone, hlisting, getSourceChunks_runs store doc.sourceId db₂⟩

/-- A note in two versions with the same content. -/
def note (version : String) : KnowledgeDocument where
  path := "a.md".toList
  content := "alpha".toList
  type := "adr".toList
  version := version.toList

def noteStore : KnowledgeStore where
  fts := ⟨true, fun _ _ => true, fun _ _ _ => 0, fun _ => false, id⟩
  projectId := "p".toList

theorem note_writable : ∀ doc ∈ [note "1", note "2"], doc.Writable := by
  intro doc hdoc
  rcases List.mem_pair.mp hdoc with rfl | rfl
  · exact .of_isOk (by decide) (by decide)
  · exact .of_isOk (by decide) (by decide)

/-- One row needs no sorting. -/
theorem sorted_single {rows : List ChunkRow} (h : rows.length = 1)
    (le : ChunkRow → ChunkRow → Prop) [DecidableRel le] :
    (insertRows rows []).insertionSort le = rows := by
  obtain ⟨row, rfl⟩ := List.length_eq_one_iff.mp h
  rfl

/-- With a new version and the same content the stored chunks keep the old
version in their metadata. -/
theorem not_fresh_version : ∃ k db₁ j db₂ rows₁ rows₂,
    Leaves (noteStore.indexAll [note "1", note "2"]) k {} db₁ ∧
      Leaves (noteStore.indexDocument (note "2")) j {} db₂ ∧
      Runs (noteStore.getSourceChunks (note "2").sourceId) 1 db₁ rows₁ db₁ ∧
      Runs (noteStore.getSourceChunks (note "2").sourceId) 1 db₂ rows₂ db₂ ∧
      rows₁.map ChunkRow.metadataJson ≠ rows₂.map ChunkRow.metadataJson := by
  have hvalid : (note "2").type ∈ validSourceTypes := by decide
  have hsame : ∀ doc ∈ [note "1", note "2"], SameDocument doc (note "2") := by
    intro doc hdoc
    rcases List.mem_pair.mp hdoc with rfl | rfl <;> exact ⟨rfl, rfl, rfl⟩
  obtain ⟨k, db₁, hall, hstored⟩ := indexAll_holds [note "1", note "2"] hsame hvalid note_writable
    (holds_empty noteStore (note "2"))
  have hself : SameDocument (note "2") (note "2") := ⟨rfl, rfl, rfl⟩
  have hwritable : (note "2").Writable := note_writable _ (List.mem_cons_of_mem _ (List.mem_singleton_self _))
  obtain ⟨j, db₂, hone, hfresh⟩ :=
    indexDocument_holds hself hvalid hwritable (holds_empty noteStore (note "2"))
  have hkept : [note "1", note "2"].foldl keepIndexed none = some (note "1") := by
    have hhash : (note "1").hash = (note "2").hash := rfl
    simp only [List.foldl_cons, List.foldl_nil, keepIndexed, hhash, if_true]
  rw [hkept] at hstored
  have hrows₁ := getSourceChunks_runs noteStore (note "2").sourceId db₁
  have hrows₂ := getSourceChunks_runs noteStore (note "2").sourceId db₂
  have hone₁ : (noteStore.documentRows (note "1")).length = 1 := by decide
  have hone₂ : (noteStore.documentRows (note "2")).length = 1 := by decide
  have hdiffer : (noteStore.documentRows (note "1")).map ChunkRow.metadataJson ≠
      (noteStore.documentRows (note "2")).map ChunkRow.metadataJson := by
    decide
  rw [hstored.1, sorted_single hone₁] at hrows₁
  rw [hfresh.1, sorted_single hone₂] at hrows₂
  exact ⟨k, db₁, j, db₂, _, _, hall, hone, hrows₁, hrows₂, hdiffer⟩

/-- In that run the stored chunks are those of the first version. -/
theorem incremental_eq_fresh_notes : ∃ k db₁ j db₂ rows,
    Leaves (noteStore.indexAll [note "1", note "2"]) k {} db₁ ∧
      Leaves (noteStore.indexDocument (note "1")) j {} db₂ ∧
      Runs (noteStore.getSourceChunks (note "1").sourceId) 1 db₁ rows db₁ ∧
      Runs (noteStore.getSourceChunks (note "1").sourceId) 1 db₂ rows db₂ := by
  refine incremental_eq_fresh noteStore [note "1", note "2"] (note "1") {} ?_ (by decide)
    note_writable (holds_empty noteStore (note "1")) ?_
  · intro doc hdoc
    rcases List.mem_pair.mp hdoc with rfl | rfl <;> exact ⟨rfl, rfl, rfl⟩
  · have hhash : (note "1").hash = (note "2").hash := rfl
    simp only [lastIndexed, List.foldl_cons, List.foldl_nil, keepIndexed, hhash, if_true]

end KnowledgeStore

end AiosDeck.Knowledge
