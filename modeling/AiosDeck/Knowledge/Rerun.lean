import AiosDeck.Knowledge.Registry

/-!
# Indexing again

What a run over the files leaves, as a function of the tables before it. Another run over the
same files then finds every document with the content that the first has stored.
-/

namespace AiosDeck.Knowledge

open Python Storage Tables

/-- The documents of the candidates that can be read. -/
def ProjectFiles.documents (files : ProjectFiles) (candidates : List SourceCandidate) :
    List KnowledgeDocument :=
  candidates.filterMap fun candidate =>
    (files.readText candidate.path).map fun content => candidate.document content.1

namespace KnowledgeStore

variable {store : KnowledgeStore} {db : Db} {doc : KnowledgeDocument} {docs : List KnowledgeDocument}

/-- The row of a source behind the metadata of a document. -/
def describeRow (store : KnowledgeStore) (doc : KnowledgeDocument) (row : SourceRow) : SourceRow :=
  if row.sourceId = doc.sourceId ∧ row.projectId = store.projectId ∧ doc.metadata ≠ [] then
    { row with metadataJson := storedJson doc.metadata }
  else row

/-- The tables behind the metadata of a document. -/
def described (store : KnowledgeStore) (doc : KnowledgeDocument) (db : Db) : Db :=
  { db with sources := db.sources.map (store.describeRow doc) }

/-- The tables behind a document of a run. -/
def afterDocument (store : KnowledgeStore) (db : Db) (doc : KnowledgeDocument) : Db :=
  store.described doc (store.afterIndex doc db)

section Versions

end Versions

section Sources

/-- The row of a source behind the metadata of several documents. -/
def describeRows (store : KnowledgeStore) (docs : List KnowledgeDocument) (row : SourceRow) :
    SourceRow :=
  docs.foldl (fun row doc => store.describeRow doc row) row

theorem describeRow_key (row : SourceRow) : (store.describeRow doc row).key = row.key := by
  unfold describeRow
  split <;> rfl

/-- Only the metadata changes, and it does not depend on the rest but the key. -/
theorem describeRows_eq (docs : List KnowledgeDocument) (row : SourceRow) :
    ∃ metadataJson, store.describeRows docs row = { row with metadataJson } ∧
      ∀ hash status, store.describeRows docs { row with hash, status } =
        { row with hash, status, metadataJson } := by
  induction docs generalizing row with
  | nil => exact ⟨row.metadataJson, rfl, fun _ _ => rfl⟩
  | cons doc rest ih =>
    unfold describeRows at ih ⊢
    simp only [List.foldl_cons]
    obtain ⟨metadataJson, hrow, hothers⟩ := ih (store.describeRow doc row)
    refine ⟨metadataJson, ?_, fun hash status => ?_⟩
    · rw [hrow]
      unfold describeRow
      split <;> rfl
    · have hdescribed : store.describeRow doc { row with hash, status } =
          { store.describeRow doc row with hash, status } := by
        unfold describeRow
        split <;> rfl
      rw [hdescribed, hothers]
      unfold describeRow
      split <;> rfl

/-- The last metadata override the earlier ones. -/
theorem describeRow_describeRows (docs : List KnowledgeDocument) (row : SourceRow) :
    store.describeRow doc (store.describeRows docs (store.describeRow doc row)) =
      store.describeRow doc (store.describeRows docs row) := by
  obtain ⟨first, hfirst, -⟩ := @describeRows_eq store docs (store.describeRow doc row)
  obtain ⟨second, hsecond, -⟩ := @describeRows_eq store docs row
  by_cases hown : row.sourceId = doc.sourceId ∧ row.projectId = store.projectId ∧ doc.metadata ≠ []
  · rw [hfirst, hsecond]
    unfold describeRow
    rw [if_pos hown]
    dsimp only
    rw [if_pos hown, if_pos hown]
  · have hsame : store.describeRow doc row = row := by
      unfold describeRow
      rw [if_neg hown]
    rw [hsame]

theorem describeRows_of_new {row : SourceRow} (h : ∀ doc ∈ docs, doc.sourceId ≠ row.sourceId) :
    store.describeRows docs row = row := by
  induction docs with
  | nil => rfl
  | cons doc rest ih =>
    obtain ⟨hdoc, hrest⟩ := List.forall_mem_cons.mp h
    have hsame : store.describeRow doc row = row := by
      unfold describeRow
      rw [if_neg fun hown => hdoc hown.1.symm]
    unfold describeRows at ih ⊢
    rw [List.foldl_cons, hsame]
    exact ih hrest

/-- The documents have their sources, and the sources the metadata of the last of them. -/
structure Settled (store : KnowledgeStore) (docs : List KnowledgeDocument) (db : Db) : Prop where
  present : ∀ doc ∈ docs, (doc.sourceId, store.projectId) ∈ db.sources.map SourceRow.key
  described : ∀ row ∈ db.sources, store.describeRows docs row = row

/-- The update of the source that ends a call. -/
def touchRow (store : KnowledgeStore) (doc : KnowledgeDocument) (row : SourceRow) : SourceRow :=
  if row.sourceId = doc.sourceId ∧ row.projectId = store.projectId then
    { row with hash := doc.hash, status := "active".toList }
  else row

theorem touchRow_key (row : SourceRow) : (store.touchRow doc row).key = row.key := by
  unfold touchRow
  split <;> rfl

theorem describeRows_touchRow {row : SourceRow} (h : store.describeRows docs row = row) :
    store.describeRows docs (store.touchRow doc row) = store.touchRow doc row := by
  obtain ⟨metadataJson, hrow, hothers⟩ := @describeRows_eq store docs row
  unfold touchRow
  split
  · rw [hothers]
    rw [h] at hrow
    have hjson : row.metadataJson = metadataJson := congrArg SourceRow.metadataJson hrow
    rw [hjson]
  · exact h

/-- A call adds its source where it is new, and touches it where it writes. -/
theorem afterIndex_sources : (store.afterIndex doc db).sources =
    if store.skips doc db then (store.ensured doc db).sources
    else (store.ensured doc db).sources.map (store.touchRow doc) := by
  unfold afterIndex
  split
  · rfl
  · show List.map _ (store.addRows (store.documentRows doc) (store.prepared doc db)).sources = _
    rw [(addRows_sources _ _).1]
    unfold prepared touchRow
    split <;> rfl

theorem mem_ensured {row : SourceRow} (h : row ∈ (store.ensured doc db).sources) :
    row ∈ db.sources ∨
      row = store.newSource doc ∧ (doc.sourceId, store.projectId) ∉ db.sources.map SourceRow.key := by
  unfold ensured at h
  cases hfound : store.findSource doc.sourceId db with
  | some old =>
    rw [hfound] at h
    exact .inl h
  | none =>
    rw [hfound] at h
    rcases List.mem_append.mp h with hold | hnew
    · exact .inl hold
    · exact .inr ⟨List.mem_singleton.mp hnew, newSource_new hfound⟩

theorem keys_ensured {key : Text × Text} (h : key ∈ db.sources.map SourceRow.key) :
    key ∈ (store.ensured doc db).sources.map SourceRow.key := by
  unfold ensured
  cases store.findSource doc.sourceId db with
  | some old => exact h
  | none =>
    rw [List.map_append]
    exact List.mem_append_left _ h

theorem keys_afterDocument : (store.afterDocument db doc).sources.map SourceRow.key =
    (store.ensured doc db).sources.map SourceRow.key := by
  have hdescribed : (store.afterDocument db doc).sources.map SourceRow.key =
      (store.afterIndex doc db).sources.map SourceRow.key := by
    show ((store.afterIndex doc db).sources.map (store.describeRow doc)).map SourceRow.key = _
    rw [List.map_map]
    exact List.map_congr_left fun row _ => describeRow_key row
  rw [hdescribed, afterIndex_sources]
  split
  · rfl
  · rw [List.map_map]
    exact List.map_congr_left fun row _ => touchRow_key row

/-- The rows that a call leaves keep the metadata of the documents before. -/
theorem described_afterIndex (h : store.Settled docs db) {row : SourceRow}
    (hrow : row ∈ (store.afterIndex doc db).sources) : store.describeRows docs row = row := by
  have hensured : ∀ row ∈ (store.ensured doc db).sources, store.describeRows docs row = row := by
    intro row hrow
    rcases mem_ensured hrow with hold | ⟨rfl, hnew⟩
    · exact h.described row hold
    · refine describeRows_of_new fun other hother hsame => hnew ?_
      have hpresent := h.present other hother
      rw [hsame] at hpresent
      exact hpresent
  rw [afterIndex_sources] at hrow
  split at hrow
  · exact hensured row hrow
  · obtain ⟨old, hold, rfl⟩ := List.mem_map.mp hrow
    exact describeRows_touchRow (hensured old hold)

/-- One more document. -/
theorem Settled.afterDocument (h : store.Settled docs db) (doc : KnowledgeDocument) :
    store.Settled (docs ++ [doc]) (store.afterDocument db doc) := by
  constructor
  · intro other hother
    rw [keys_afterDocument]
    rcases List.mem_append.mp hother with hmem | hlast
    · exact keys_ensured (h.present other hmem)
    · rw [List.mem_singleton.mp hlast]
      exact mem_ensured_sources doc db
  · intro row hrow
    obtain ⟨old, hold, rfl⟩ := List.mem_map.mp hrow
    have hsplit : ∀ row, store.describeRows (docs ++ [doc]) row =
        store.describeRow doc (store.describeRows docs row) := by
      intro row
      unfold describeRows
      rw [List.foldl_append]
      rfl
    rw [hsplit, describeRow_describeRows, described_afterIndex h hold]

end Sources

end KnowledgeStore

namespace KnowledgeEngine

variable {engine : KnowledgeEngine} {files : ProjectFiles} {db : Db} {n : ℕ}

end KnowledgeEngine

end AiosDeck.Knowledge
