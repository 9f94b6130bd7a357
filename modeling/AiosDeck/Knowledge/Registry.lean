import AiosDeck.Knowledge.Freshness

/-!
# The registry of sources

The sources of a project as a map in which the last write of a field wins. The calls that
index and describe sources keep to it; `upsert_source` does not get to its statement.
-/

namespace AiosDeck.Knowledge

open Python Storage Tables

/-- `KnowledgeSource`. -/
structure KnowledgeSource where
  sourceId : Text := []
  type : Text := "skill".toList
  path : Text := []
  hash : Text := []
  version : Text := "1".toList
  metadataJson : Metadata := []
  status : Text := "active".toList

/-- `source.source_id`, by default a hash. -/
def KnowledgeSource.resolvedId (source : KnowledgeSource) : Text :=
  if source.sourceId = [] then deterministicSourceId source.type source.path else source.sourceId

/-- A call that writes to the sources. -/
inductive SourceCall where
  | upsertSource (source : KnowledgeSource)
  | upsertSourceMetadata (sourceId : Text) (metadata : Metadata)
  | indexDocument (doc : KnowledgeDocument)

namespace KnowledgeStore

variable (store : KnowledgeStore)

/-- `self.self._now()`: a store has no attribute `self`. -/
def selfNow : Query Unit :=
  throw ⟨.attributeError, "'SQLiteKnowledgeStore' object has no attribute 'self'"⟩

/-- `upsert_source`. -/
def upsertSource (source : KnowledgeSource) : Query Text := do
  if source.type ∉ validSourceTypes then
    throw (knowledgeError ("Invalid source type: ".toList ++ source.type))
  selfNow
  let metadataJson ← parameter (jsonText source.metadataJson)
  let row : SourceRow := ⟨source.resolvedId, source.type, source.path, source.hash, source.version,
    metadataJson, source.status, store.projectId⟩
  execute fun db => .ok ({ db with sources := upsert SourceRow.key row db.sources }, 1)
  return source.resolvedId

/-- A call of the store, without what it returns. -/
def write : SourceCall → Query Unit
  | .upsertSource source => do
    let _ ← store.upsertSource source
    return ()
  | .upsertSourceMetadata sourceId metadata => store.upsertSourceMetadata sourceId metadata
  | .indexDocument doc => do
    let _ ← store.indexDocument doc
    return ()

/-- The calls one after another. -/
def writeAll : List SourceCall → Query Unit
  | [] => return ()
  | call :: rest => do
    store.write call
    writeAll rest

end KnowledgeStore

section Abstract

/-- What a source has beside its id. -/
structure SourceEntry where
  type : Text
  path : Text
  hash : Text
  version : Text
  metadata : Points
  status : Text

def SourceRow.entry (row : SourceRow) : SourceEntry :=
  ⟨row.type, row.path, row.hash, row.version, row.metadataJson, row.status⟩

/-- The sources of a project by their ids, and the hashes of its documents. -/
@[ext]
structure Registry where
  sources : Text → Option SourceEntry
  versions : Text → Option Text

namespace Registry

variable (registry : Registry)

/-- The entry of a source with its first document. -/
def newEntry (doc : KnowledgeDocument) : SourceEntry :=
  ⟨doc.type, doc.path, [], doc.version, points "\x7b\x7d", "active".toList⟩

/-- The document is there with the same content. -/
def skips (doc : KnowledgeDocument) : Bool := registry.versions doc.resolvedId = some doc.hash

/-- A call writes its own fields: a source all, its metadata that one, a document the hash
and the status, and the others where the source is new. -/
def write : SourceCall → Registry
  | .upsertSource source =>
    { registry with
      sources := Function.update registry.sources source.resolvedId
        (some ⟨source.type, source.path, source.hash, source.version,
          storedJson source.metadataJson, source.status⟩) }
  | .upsertSourceMetadata sourceId metadata =>
    { registry with
      sources := Function.update registry.sources sourceId
        ((registry.sources sourceId).map fun entry =>
          { entry with metadata := storedJson metadata }) }
  | .indexDocument doc =>
    let entry := (registry.sources doc.sourceId).getD (newEntry doc)
    if registry.skips doc then
      { registry with sources := Function.update registry.sources doc.sourceId (some entry) }
    else
      { sources := Function.update registry.sources doc.sourceId
          (some { entry with hash := doc.hash, status := "active".toList })
        versions := Function.update registry.versions doc.resolvedId (some doc.hash) }

/-- The call does not raise: it is no `upsert_source`, the type of its document is valid, and
what it stores can be stored. -/
def Accepts : SourceCall → Prop
  | .upsertSource _ => False
  | .upsertSourceMetadata _ metadata => ∃ content, jsonText metadata = .ok content
  | .indexDocument doc =>
    doc.type ∈ validSourceTypes ∧ (registry.skips doc = false → doc.Writable)

/-- Every call is accepted where it is made. -/
def AcceptsAll (registry : Registry) : List SourceCall → Prop
  | [] => True
  | call :: rest => registry.Accepts call ∧ AcceptsAll (registry.write call) rest

/-- One row for each source that is there, and no others. -/
def Lists (rows : List SourceRow) : Prop :=
  ∀ sourceId, (rows.filter fun row => row.sourceId = sourceId).map SourceRow.entry =
    (registry.sources sourceId).toList

end Registry

end Abstract

namespace KnowledgeStore

variable (store : KnowledgeStore)

/-- The registry that the tables hold. -/
def registry (db : Db) : Registry where
  sources sourceId := (store.findSource sourceId db).map SourceRow.entry
  versions documentId := (store.findDocument documentId db).map DocumentRow.hash

variable {store} {db : Db} {doc : KnowledgeDocument}

section Reads

theorem findSource_map {f : SourceRow → SourceRow} (hf : ∀ row, (f row).key = row.key)
    (sourceId : Text) : store.findSource sourceId { db with sources := db.sources.map f } =
      (store.findSource sourceId db).map f := by
  unfold findSource
  rw [List.find?_map]
  congr 2
  funext row
  have hkey := Prod.mk.inj (hf row)
  simp only [Function.comp_apply, hkey.1, hkey.2]

/-- The source of a document is there behind `_ensure_source`, and the others stay. -/
theorem findSource_ensured (sourceId : Text) : store.findSource sourceId (store.ensured doc db) =
    if sourceId = doc.sourceId then
      some ((store.findSource doc.sourceId db).getD (store.newSource doc))
    else store.findSource sourceId db := by
  unfold ensured
  cases hfound : store.findSource doc.sourceId db with
  | some row =>
    split_ifs with hsame
    · rw [hsame, hfound]
      rfl
    · rfl
  | none =>
    unfold findSource at hfound ⊢
    rw [List.find?_append]
    split_ifs with hsame
    · rw [hsame, hfound]
      simp [newSource]
    · have hother : List.find? (fun row : SourceRow => decide (row.sourceId = sourceId ∧
          row.projectId = store.projectId)) [store.newSource doc] = none := by
        refine List.find?_eq_none.mpr fun row hrow => ?_
        rw [List.mem_singleton.mp hrow]
        simp [newSource, Ne.symm hsame]
      rw [hother, Option.or_none]

theorem addRows_sources (rows : List ChunkRow) (db : Db) :
    (store.addRows rows db).sources = db.sources ∧
      (store.addRows rows db).documents = db.documents := by
  unfold addRows
  induction rows generalizing db with
  | nil => exact ⟨rfl, rfl⟩
  | cons row rest ih =>
    rw [List.foldl_cons]
    exact ih _

theorem findDocument_afterIndex (hskips : store.skips doc db = false) (documentId : Text) :
    store.findDocument documentId (store.afterIndex doc db) =
      if documentId = doc.resolvedId then some (store.documentRow doc)
      else store.findDocument documentId db := by
  have hdocuments : (store.afterIndex doc db).documents =
      upsert DocumentRow.key (store.documentRow doc) (store.prepared doc db).documents := by
    have hrows := (@addRows_sources store (store.documentRows doc) (store.prepared doc db)).2
    unfold afterIndex
    rw [hskips, if_neg Bool.false_ne_true]
    show upsert DocumentRow.key (store.documentRow doc)
      (store.addRows (store.documentRows doc) (store.prepared doc db)).documents = _
    rw [hrows]
  unfold findDocument
  rw [hdocuments]
  split_ifs with hsame
  · refine find?_upsert fun other => ?_
    rw [hsame, decide_eq_true_iff]
    exact (Prod.mk_inj).symm
  · rw [find?_upsert_other fun other hkey => ?_]
    · unfold prepared
      split
      · -- the version that is deleted has another id
        show (List.filter _ (store.ensured doc db).documents).find? _ = _
        rw [List.find?_filter]
        have hdb : (store.ensured doc db).documents = db.documents := by
          unfold ensured
          split <;> rfl
        rw [hdb]
        congr 1
        funext row
        rw [decide_eq_decide]
        simp only [decide_eq_true_eq]
        refine and_iff_right_of_imp ?_
        rintro ⟨hid, -⟩ ⟨hown, -⟩
        exact hsame (hid.symm.trans hown)
      · exact findDocument_of_ensured documentId
    · rw [decide_eq_false_iff_not]
      rintro ⟨hid, -⟩
      exact hsame (hid.symm.trans (Prod.mk.inj hkey).1)

end Reads

section Steps

theorem registry_skips : (store.registry db).skips doc = store.skips doc db := by
  unfold Registry.skips registry skips
  cases hfound : store.findDocument doc.resolvedId db <;> simp [hfound]

/-- Writing to the row of a source changes its entry, and no other. -/
theorem registry_update {f : SourceRow → SourceRow} {g : SourceEntry → SourceEntry}
    (hkey : ∀ row, (f row).key = row.key) (hentry : ∀ row, (f row).entry = g row.entry)
    (sourceId : Text) :
    store.registry { db with sources := db.sources.map fun row =>
      if row.sourceId = sourceId ∧ row.projectId = store.projectId then f row else row } =
      { store.registry db with
        sources := Function.update (store.registry db).sources sourceId
          (((store.registry db).sources sourceId).map g) } := by
  refine Registry.ext (funext fun other => ?_) rfl
  unfold registry
  dsimp only
  rw [findSource_map]
  · rw [Option.map_map]
    rcases eq_or_ne other sourceId with rfl | hother
    · rw [Function.update_self, Option.map_map]
      refine Option.map_congr fun row hrow => ?_
      have hown := List.find?_some hrow
      rw [decide_eq_true_iff] at hown
      rw [Function.comp_apply, Function.comp_apply, if_pos hown]
      exact hentry row
    · rw [Function.update_of_ne hother]
      refine Option.map_congr fun row hrow => ?_
      have hown := List.find?_some hrow
      rw [decide_eq_true_iff] at hown
      rw [Function.comp_apply, if_neg fun h => hother (hown.1.symm.trans h.1)]
  · intro row
    split
    · exact hkey row
    · rfl

/-- A source is there behind `_ensure_source`. -/
theorem registry_ensured : store.registry (store.ensured doc db) =
    { store.registry db with
      sources := Function.update (store.registry db).sources doc.sourceId
        (some (((store.registry db).sources doc.sourceId).getD (Registry.newEntry doc))) } := by
  refine Registry.ext (funext fun sourceId => ?_) (funext fun documentId => ?_)
  · unfold registry
    dsimp only
    rw [findSource_ensured]
    rcases eq_or_ne sourceId doc.sourceId with rfl | hother
    · rw [if_pos rfl, Function.update_self]
      cases store.findSource doc.sourceId db <;> rfl
    · rw [if_neg hother, Function.update_of_ne hother]
  · unfold registry
    dsimp only
    rw [findDocument_of_ensured]

/-- Indexing a document writes the registry as the abstract call does. -/
theorem registry_afterIndex : store.registry (store.afterIndex doc db) =
    (store.registry db).write (.indexDocument doc) := by
  unfold Registry.write
  dsimp only
  rw [registry_skips]
  by_cases hskips : store.skips doc db = true
  · rw [if_pos hskips]
    unfold afterIndex
    rw [if_pos hskips]
    exact registry_ensured
  · rw [if_neg hskips]
    rw [Bool.not_eq_true] at hskips
    have hsources : (store.addRows (store.documentRows doc) (store.prepared doc db)).sources =
        (store.ensured doc db).sources := by
      rw [(addRows_sources _ _).1]
      unfold prepared
      split <;> rfl
    have htouched : (store.registry (store.afterIndex doc db)).sources =
        (store.registry (store.touched doc (store.ensured doc db))).sources := by
      funext sourceId
      unfold registry afterIndex written touched documented findSource
      rw [hskips, if_neg Bool.false_ne_true, hsources]
    refine Registry.ext ?_ (funext fun documentId => ?_)
    · rw [htouched]
      unfold touched
      rw [@registry_update store (store.ensured doc db)
        (fun row => { row with hash := doc.hash, status := "active".toList })
        (fun entry => { entry with hash := doc.hash, status := "active".toList })
        (fun _ => rfl) (fun _ => rfl) doc.sourceId, registry_ensured]
      dsimp only
      rw [Function.update_self, Function.update_idem]
      rfl
    · unfold registry
      dsimp only
      rw [findDocument_afterIndex hskips]
      rcases eq_or_ne documentId doc.resolvedId with rfl | hother
      · rw [if_pos rfl, Function.update_self]
        rfl
      · rw [if_neg hother, Function.update_of_ne hother]

theorem afterIndex_nodup (h : (db.sources.map SourceRow.key).Nodup) :
    ((store.afterIndex doc db).sources.map SourceRow.key).Nodup := by
  have hensured := @ensured_nodup store doc db h
  have hprepared : (store.prepared doc db).sources = (store.ensured doc db).sources := by
    unfold prepared
    split <;> rfl
  unfold afterIndex
  split
  · exact hensured
  · unfold written touched documented
    dsimp only
    rw [(addRows_sources _ _).1, hprepared, List.map_map]
    have hkeys : (SourceRow.key ∘ fun row : SourceRow =>
        if row.sourceId = doc.sourceId ∧ row.projectId = store.projectId then
          { row with hash := doc.hash, status := "active".toList } else row) = SourceRow.key := by
      funext row
      rw [Function.comp_apply]
      split <;> rfl
    rw [hkeys]
    exact hensured

/-- A call that is accepted returns, and writes what the abstract call does. -/
theorem write_returns (h : (db.sources.map SourceRow.key).Nodup) {call : SourceCall}
    (haccepts : (store.registry db).Accepts call) (n : ℕ) :
    ∃ db', Returns (store.write call) n db () db' ∧ (db'.sources.map SourceRow.key).Nodup ∧
      store.registry db' = (store.registry db).write call := by
  cases call with
  | upsertSource source => cases haccepts
  | upsertSourceMetadata sourceId metadata =>
    obtain ⟨content, hcontent⟩ := haccepts
    refine ⟨{ db with sources := db.sources.map fun row =>
      if row.sourceId = sourceId ∧ row.projectId = store.projectId then
        { row with metadataJson := content } else row }, ?_, ?_, ?_⟩
    · exact ((Runs.parameter hcontent db).bind (Runs.execute rfl)).returns n
    · dsimp only
      rw [List.map_map]
      have hkeys : (SourceRow.key ∘ fun row : SourceRow =>
          if row.sourceId = sourceId ∧ row.projectId = store.projectId then
            { row with metadataJson := content } else row) = SourceRow.key := by
        funext row
        rw [Function.comp_apply]
        split <;> rfl
      rw [hkeys]
      exact h
    · rw [@registry_update store db (fun row => { row with metadataJson := content })
        (fun entry => { entry with metadata := content }) (fun _ => rfl) (fun _ => rfl) sourceId]
      dsimp only [Registry.write]
      rw [storedJson_eq hcontent]
  | indexDocument doc =>
    obtain ⟨htype, hwritable⟩ := haccepts
    rw [registry_skips] at hwritable
    refine ⟨store.afterIndex doc db, ?_, afterIndex_nodup h, registry_afterIndex⟩
    exact (indexDocument_returns htype hwritable n).bind fun m => Returns.pure () m _

/-- A call that is not accepted raises. -/
theorem write_not_ok {call : SourceCall} (h : ¬(store.registry db).Accepts call) (n : ℕ)
    (s : Session Db) : store.write call ⟨db, n, none⟩ ≠ .ok () s := by
  cases call with
  | upsertSource source =>
    have hraises : ∃ exc, Raises (store.upsertSource source) 0 db exc db := by
      unfold upsertSource
      by_cases htype : source.type ∈ validSourceTypes
      · simp only [htype, not_true_eq_false, if_false]
        exact ⟨_, (Raises.throw _ db).bind_left⟩
      · simp only [htype, not_false_eq_true, if_true]
        exact ⟨_, (Raises.throw _ db).bind_left⟩
    obtain ⟨exc, hraises⟩ := hraises
    exact hraises.bind_left.not_ok
  | upsertSourceMetadata sourceId metadata =>
    cases hcontent : jsonText metadata with
    | ok content => exact absurd ⟨content, hcontent⟩ h
    | error exc => exact (Raises.parameter hcontent db).bind_left.not_ok
  | indexDocument doc =>
    intro hok
    unfold write at hok
    change EStateM.bind _ _ _ = _ at hok
    unfold EStateM.bind at hok
    split at hok
    · rename_i result s' hresult
      obtain ⟨htype, hwritable⟩ := indexDocument_accepts hresult
      exact h ⟨htype, fun hskips => hwritable (registry_skips.symm.trans hskips)⟩
    · cases hok

end Steps

section Runs

/-- Calls that are accepted return, and write what the abstract calls do. -/
theorem writeAll_returns (h : (db.sources.map SourceRow.key).Nodup) {calls : List SourceCall}
    (haccepts : (store.registry db).AcceptsAll calls) (n : ℕ) :
    ∃ db', Returns (store.writeAll calls) n db () db' ∧ (db'.sources.map SourceRow.key).Nodup ∧
      store.registry db' = calls.foldl Registry.write (store.registry db) := by
  induction calls generalizing db n with
  | nil => exact ⟨db, Returns.pure () n db, h, rfl⟩
  | cons call rest ih =>
    obtain ⟨hcall, hrest⟩ := haccepts
    obtain ⟨db', ⟨m, hm⟩, hnodup, hwrite⟩ := write_returns h hcall n
    rw [← hwrite] at hrest
    obtain ⟨db'', ⟨l, hl⟩, hnodup', hwrites⟩ := ih hnodup hrest m
    refine ⟨db'', ⟨l, ?_⟩, hnodup', ?_⟩
    · unfold writeAll
      change EStateM.bind _ _ _ = _
      unfold EStateM.bind
      rw [hm]
      exact hl
    · rw [List.foldl_cons, ← hwrite]
      exact hwrites

/-- Calls that all return were accepted. -/
theorem writeAll_accepts (h : (db.sources.map SourceRow.key).Nodup) {calls : List SourceCall}
    {n : ℕ} {s : Session Db} (hok : store.writeAll calls ⟨db, n, none⟩ = .ok () s) :
    (store.registry db).AcceptsAll calls := by
  induction calls generalizing db n with
  | nil => trivial
  | cons call rest ih =>
    have hcall : (store.registry db).Accepts call := by
      by_contra hnot
      unfold writeAll at hok
      change EStateM.bind _ _ _ = _ at hok
      unfold EStateM.bind at hok
      split at hok
      · rename_i s' hone
        exact write_not_ok hnot n s' hone
      · cases hok
    obtain ⟨db', ⟨m, hm⟩, hnodup, hwrite⟩ := write_returns h hcall n
    unfold writeAll at hok
    change EStateM.bind _ _ _ = _ at hok
    unfold EStateM.bind at hok
    rw [hm] at hok
    refine ⟨hcall, ?_⟩
    rw [← hwrite]
    exact ih hnodup hok

/-- `list_sources` gives one row for each source of the registry. -/
theorem registry_lists (h : (db.sources.map SourceRow.key).Nodup) {rows : List SourceRow}
    (hrows : rows.Perm (db.sources.filter fun row => row.projectId = store.projectId)) :
    (store.registry db).Lists rows := by
  intro sourceId
  have hperm := hrows.filter fun row => decide (row.sourceId = sourceId)
  have hfilter : (db.sources.filter fun row => row.projectId = store.projectId).filter
      (fun row => row.sourceId = sourceId) = (store.findSource sourceId db).toList := by
    rw [List.filter_filter]
    unfold findSource
    cases hfound : db.sources.find? fun row =>
        decide (row.sourceId = sourceId ∧ row.projectId = store.projectId) with
    | none =>
      refine List.filter_eq_nil_iff.mpr fun row hrow => ?_
      simpa using List.find?_eq_none.mp hfound row hrow
    | some row =>
      have hown := List.find?_some hfound
      rw [decide_eq_true_iff] at hown
      rw [Option.toList_some, ← filter_key h (List.mem_of_find?_eq_some hfound)]
      refine List.filter_congr fun other _ => ?_
      unfold SourceRow.key
      rw [← hown.1, ← hown.2]
      simp [Prod.ext_iff]
  rw [hfilter] at hperm
  unfold registry
  dsimp only
  cases hfound : store.findSource sourceId db with
  | none =>
    rw [hfound] at hperm
    rw [hperm.eq_nil]
    rfl
  | some row =>
    rw [hfound] at hperm
    rw [List.perm_singleton.mp hperm]
    rfl

/-- Of any sequence of calls no one raises and `list_sources` then lists what the last calls
wrote, exactly when none is an `upsert_source`, and all have valid types and what can be
stored. -/
theorem listSources_writeAll_iff (store : KnowledgeStore) (db : Db)
    (h : (db.sources.map SourceRow.key).Nodup) (n : ℕ) (calls : List SourceCall) :
    (∃ s rows t, store.writeAll calls ⟨db, n, none⟩ = .ok () s ∧ store.listSources s = .ok rows t ∧
        (calls.foldl Registry.write (store.registry db)).Lists rows) ↔
      (store.registry db).AcceptsAll calls := by
  constructor
  · rintro ⟨s, rows, t, hok, -⟩
    exact writeAll_accepts h hok
  · intro haccepts
    obtain ⟨db', ⟨m, hm⟩, hnodup, hwrites⟩ := writeAll_returns h haccepts n
    refine ⟨_, _, _, hm, rfl, ?_⟩
    rw [← hwrites]
    exact registry_lists hnodup (List.perm_insertionSort _ _)

/-- The metadata of a note that is indexed. -/
theorem listSources_note : ∃ s rows t,
    noteStore.writeAll [.indexDocument (note "1"), .upsertSourceMetadata (note "1").sourceId []]
        ⟨{}, 0, none⟩ = .ok () s ∧ noteStore.listSources s = .ok rows t ∧
      ([.indexDocument (note "1"), .upsertSourceMetadata (note "1").sourceId []].foldl
        Registry.write (noteStore.registry {})).Lists rows :=
  (listSources_writeAll_iff noteStore {} List.nodup_nil 0 _).mpr
    ⟨⟨by decide, fun _ => note_writable _ (List.mem_cons_self ..)⟩, ⟨_, rfl⟩, trivial⟩

/-- A source of a valid type is refused. -/
theorem upsertSource_raises :
    "skill".toList ∈ validSourceTypes ∧ (outcome (noteStore.writeAll
      [.upsertSource { path := "a.md".toList }]) {}).1 =
        .error ⟨.attributeError, "'SQLiteKnowledgeStore' object has no attribute 'self'"⟩ :=
  ⟨by decide, rfl⟩

end Runs

end KnowledgeStore

end AiosDeck.Knowledge
