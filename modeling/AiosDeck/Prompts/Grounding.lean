import AiosDeck.Prompts.Builder
import AiosDeck.Retrieval.Keyword

/-!
# What a prompt rests on

The task comes first and whole. What is shown of the knowledge are chunks that the database has
of the project now, under the path of their source, and all layers together stay within the
budget of the agent or the words of the task.
-/

namespace AiosDeck.Prompts

open Python Retrieval Context Skills Knowledge Selection

section Texts

variable {floatText : PyFloat → Text} {packet : Context.ContextPacket} {layered : LayeredContext}
  {contexts : List SkillContext}

/-- The first section and those behind it. -/
theorem joinSections_cons {first : Text} {rest : List Text} (hfirst : first ≠ [])
    (hrest : (rest.filter fun s => s ≠ []) ≠ []) :
    joinSections (first :: rest) = first ++ "\n\n".toList ++ joinSections rest := by
  unfold joinSections
  rw [List.filter_cons_of_pos (by simpa using hfirst), List.intercalate_cons_of_ne_nil hrest]

theorem joinLines_ne_nil {line : Text} {lines : List Text} (h : line ≠ []) :
    joinLines (line :: lines) ≠ [] := by
  unfold joinLines
  cases lines with
  | nil => simpa using h
  | cons next rest =>
    rw [List.intercalate_cons_cons]
    simp

theorem auditSection_ne_nil (layered : LayeredContext) : auditSection layered ≠ [] :=
  joinLines_ne_nil (by decide)

theorem headed_ne_nil (heading : String) (content : Text) : headed heading content ≠ [] := by
  simp [headed]

/-- A prompt of layers with one of the task begins with it. -/
theorem buildLayered_task {l : TracedLayer} (h : ofType .task layered.layers = some l) :
    ∃ rest, buildLayered floatText packet layered contexts =
      headed "## Task" l.layer.content ++ "\n\n".toList ++ rest := by
  have htask : taskSection layered.layers = headed "## Task" l.layer.content := by
    simp only [taskSection, typeSection, h]
  have haudit : auditSection layered ≠ [] := auditSection_ne_nil layered
  unfold buildLayered
  rw [htask, joinSections_cons (headed_ne_nil _ _)]
  · exact ⟨_, rfl⟩
  · exact List.ne_nil_of_mem (List.mem_filter.mpr
      ⟨List.mem_of_mem_getLast? rfl, decide_eq_true haudit⟩)

end Texts

section Sources

variable {fts : Fts5} {db : Db} {store : KnowledgeStore} {lower : Text → Text}

/-- A chunk that the database has of the project, and its source. -/
structure Stored (store : KnowledgeStore) (db : Db) (row : ChunkRow) (source : SourceRow) : Prop where
  ownChunk : row ∈ db.ownChunks store.projectId
  ownSource : source ∈ db.ownSources store.projectId
  same : source.sourceId = row.sourceId

/-- A relevant chunk has a source of the types that were asked for. -/
theorem relevant_stored (hsources : (db.sources.map SourceRow.key).Nodup) {query : KnowledgeQuery}
    {s : ScoredResult} {row : ChunkRow} (h : Relevant lower store query db s row) :
    ∃ source, Stored store db row source ∧ KnowledgeStore.asksFor query source.type = true ∧
      s.result.sourceType = source.type ∧ s.result.sourcePath = source.path := by
  obtain ⟨source, hsource, hmatch⟩ := List.any_eq_true.mp h.asked
  obtain ⟨hsame, hasks⟩ := of_decide_eq_true hmatch
  obtain ⟨hmem, hproject⟩ := List.mem_filter.mp hsource
  have hfound : store.findSource row.sourceId db = some source := by
    unfold KnowledgeStore.findSource
    cases hfind : db.sources.find? fun other =>
      other.sourceId = row.sourceId ∧ other.projectId = store.projectId with
    | none =>
      have hnone := List.find?_eq_none.mp hfind source hmem
      have hboth : source.sourceId = row.sourceId ∧ source.projectId = store.projectId :=
        ⟨hsame, of_decide_eq_true hproject⟩
      exact absurd (decide_eq_true hboth) hnone
    | some other =>
      have hfits := List.find?_some hfind
      have hother := of_decide_eq_true hfits
      have hkeys : other.key = source.key :=
        Prod.ext (hother.1.trans hsame.symm) (hother.2.trans (of_decide_eq_true hproject).symm)
      exact congrArg some (List.inj_on_of_nodup_map hsources (List.mem_of_find?_eq_some hfind) hmem
        hkeys)
  refine ⟨source, ⟨h.own, hsource, hsame⟩, hasks, ?_, ?_⟩
  · rw [h.result, hfound]
    rfl
  · rw [h.result, hfound]
    rfl

/-- A result that shows a stored chunk, whole or its first words. -/
structure Shows (store : KnowledgeStore) (db : Db) (result : KnowledgeResult) (row : ChunkRow)
    (source : SourceRow) : Prop extends Stored store db row source where
  sourceId : result.sourceId = row.sourceId
  sourceType : result.sourceType = source.type
  sourcePath : result.sourcePath = source.path
  position : result.position = row.position
  content : Cut row.content result.content
  counted : (words result.content).length = result.tokenEstimate

/-- What the engine returns shows stored chunks. -/
theorem retrieve_shows (h : Reached fts db) (engine : KnowledgeEngine)
    (hfts : engine.store.fts = fts) (lower : Text → Text) (query agent : Text) (k : ℤ)
    (budget : ContextBudget) (hbudget : 0 ≤ budget.forAgent agent) :
    ∃ result, Storage.outcome (retrieve lower engine query agent k budget) db = (.ok result, db) ∧
      ∀ chunk ∈ result.chunks, ∃ row source, Shows engine.store db chunk.result row source := by
  obtain ⟨results, result, hretrieved, houtcome, ⟨picks, hsub, hpicks⟩, -⟩ :=
    retrieve_picked h engine hfts lower query agent k budget hbudget
  refine ⟨result, houtcome, fun chunk hchunk => ?_⟩
  obtain ⟨pick, hpick, hreturned⟩ := exists_related hpicks hchunk
  have hranked := (firstsFrom_sublist _ _ _).subset (hsub.subset hpick)
  obtain ⟨candidate, hcandidate, rfl⟩ := List.mem_map.mp ((List.mem_insertionSort _).mp hranked)
  obtain ⟨row, hrow⟩ := hretrieved.relevant candidate hcandidate
  obtain ⟨source, hstored, -, htype, hpath⟩ := relevant_stored h.sound.sources hrow
  have hcounted := (hretrieved.counted candidate hcandidate).2
  have hrowResult := hrow.result
  have hcontent : candidate.result.content = row.content := by rw [hrowResult]; rfl
  have hid : candidate.result.sourceId = row.sourceId := by rw [hrowResult]; rfl
  have hposition : candidate.result.position = row.position := by rw [hrowResult]; rfl
  obtain rfl | ⟨-, rfl⟩ := hreturned
  · exact ⟨row, source, hstored, hid, htype, hpath, hposition, .inl hcontent, hcounted⟩
  · refine ⟨row, source, hstored, hid, htype, hpath, hposition, ?_, rfl⟩
    rw [← hcontent]
    exact .truncate _ _

/-- What is retrieved of the skills shows chunks of the files of the skills. -/
theorem retrieveRaw_shows (h : Reached fts db) (engine : KnowledgeEngine)
    (hfts : engine.store.fts = fts) (lower : Text → Text) (query : Text) (limit : ℤ) :
    ∃ raw, Storage.outcome (retrieveRaw lower engine query limit (some SKILL_SOURCE_TYPES)) db =
        (.ok raw, db) ∧ ∀ r ∈ raw, 0 < r.tokens ∧ ∃ row source, Shows engine.store db r.result row source ∧
          source.type ∈ SKILL_SOURCE_TYPES ∧ r.result.content = row.content := by
  have htypes : (some SKILL_SOURCE_TYPES).filter (fun types => types ≠ []) =
      some SKILL_SOURCE_TYPES := rfl
  obtain ⟨raw, houtcome, hretrieved⟩ :=
    keywordRetrieve_reached h hfts lower query limit (some SKILL_SOURCE_TYPES)
  refine ⟨raw, ?_, fun r hr => ?_⟩
  · unfold retrieveRaw
    rw [htypes]
    exact houtcome
  · obtain ⟨row, hrow⟩ := hretrieved.relevant r hr
    obtain ⟨source, hstored, hasks, htype, hpath⟩ := relevant_stored h.sound.sources hrow
    obtain ⟨hpos, hcounted⟩ := hretrieved.counted r hr
    have hresult := hrow.result
    have hcontent : r.result.content = row.content := by rw [hresult]; rfl
    have hid : r.result.sourceId = row.sourceId := by rw [hresult]; rfl
    have hposition : r.result.position = row.position := by rw [hresult]; rfl
    refine ⟨?_, row, source, ⟨hstored, hid, htype, hpath, hposition, .inl hcontent, hcounted⟩, ?_,
      hcontent⟩
    · unfold ScoredResult.tokens
      omega
    · exact of_decide_eq_true hasks

end Sources

section Wiring

variable {fts : Fts5} {db : Db}

/-- The developer as the factory wires it to the knowledge engine. -/
def wiredDeveloper (lower : Text → Text) (engine : KnowledgeEngine)
    (discovery : SkillDiscoveryService) (recorder : Option SkillUsageRecorder) (db : Db) :
    DeveloperAgent where
  skills := some
    { discovery := some discovery
      retrieval := some
        { retrieveRaw := fun query limit types =>
            (Storage.outcome (retrieveRaw lower engine query limit (some types)) db).1 }
      recorder }
  assembler := some
    { knowledge := some fun query agent limit =>
        (Storage.outcome (retrieve lower engine query agent limit {}) db).1.map SelectionResult.chunks }

/-- The layers and skills of a prompt rest on what the database has of the project. -/
structure Grounded (store : KnowledgeStore) (db : Db) (limit : ℤ) (description : Text)
    (layers : List TracedLayer) (contexts : List SkillContext) : Prop where
  knowledge : ∀ l ∈ layers, l.layer.type = .retrieved → ∃ row source, Stored store db row source ∧
    source.type ∉ SKILL_SOURCE_TYPES ∧ Cut row.content l.layer.content ∧
    ∃ score, l.trace = some ⟨row.sourceId, source.path, score, row.position⟩
  counted : ∀ l ∈ layers, l.layer.tokens = (words l.layer.content).length
  within : Context.totalTokens (layers.map TracedLayer.layer) ≤ max limit (words description).length
  skills : ∀ c ∈ contexts, ∀ chunk ∈ c.chunks, ∃ row source, Stored store db row source ∧
    source.type ∈ SKILL_SOURCE_TYPES ∧ chunk.result.content = row.content ∧
    extractSkillName source.path = some c.skill.skill.name
  skillTokens : (contexts.map SkillContext.tokensUsed).sum ≤ limit

end Wiring

end AiosDeck.Prompts
