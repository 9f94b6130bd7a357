import AiosDeck.Learning.Governance

/-!
# What an ingestion leaves in the memory

The engine marks a candidate as ingested whatever became of the write to the
memory. The memory has the content of every ingested candidate as long as no
write raises, and each content is either there already or is written to a
memory with a store under a name that no other pattern has.
-/

namespace AiosDeck.Learning

open Python Memory Storage Relation

/-- The memory of its project has the content of every ingested candidate. -/
def Db.Remembers (db : Db) : Prop :=
  ∀ candidate ∈ db.candidates, candidate.state = .ingested →
    db.memories.Holds candidate.projectId candidate.content

/-- The next write to the memory raises. -/
def MemoryEngine.Fails (memory : MemoryEngine) : Prop := memory.initialized ∧ memory.fault.isSome

/-- The memory has the content of a candidate, or takes it. -/
def MemoryEngine.Takes (memory : MemoryEngine) (candidate : CandidateRow)
    (memories : Memories) : Prop :=
  memories.Holds candidate.projectId candidate.content ∨
    memory.initialized ∧ (candidate.suggestedType = .pattern →
      ¬ memories.HasPattern candidate.projectId (LearningEngine.firstLine candidate.content))

namespace LearningEngine

/-- An ingestion whose write to the memory raises leaves the candidate as it
was. -/
def Retryable (engine : LearningEngine) (db : Db) : Request → Prop
  | .ingest candidateId => ∀ candidate memory,
      engine.Ingestible candidateId db candidate memory → memory.Fails →
        engine.candidate candidateId (engine.perform db (.ingest candidateId)) = some candidate
  | _ => True

/-- An ingestion that goes ahead finds a memory that does not fail and takes
the candidate. -/
def Supplied (engine : LearningEngine) (db : Db) : Request → Prop
  | .ingest candidateId => ∀ candidate memory,
      engine.Ingestible candidateId db candidate memory →
        ¬ memory.Fails ∧ memory.Takes candidate db.memories
  | _ => True

end LearningEngine

/-- In every state of a history the ingested candidates are remembered, and
every ingestion that fails can be retried. -/
def Dependable : Db → List (LearningEngine × Request) → Prop
  | db, [] => db.Remembers
  | db, (engine, request) :: rest =>
    db.Remembers ∧ engine.Retryable db request ∧ Dependable (engine.perform db request) rest

/-- Every ingestion of a history finds what it needs. -/
def Supplied : Db → List (LearningEngine × Request) → Prop
  | _, [] => True
  | db, (engine, request) :: rest =>
    engine.Supplied db request ∧ Supplied (engine.perform db request) rest

section Memory

variable (engine : LearningEngine) {candidate : CandidateRow} {memories : Memories}
  {projectId text : String}

/-- What a memory has after a candidate was written to it. -/
theorem holds_remembered : (engine.remembered candidate memories).Holds projectId text ↔
    memories.Holds projectId text ∨
      (engine.projectId = projectId ∧ candidate.content = text) ∧
        (candidate.suggestedType = .pattern →
          ¬ memories.HasPattern engine.projectId (LearningEngine.firstLine candidate.content)) := by
  unfold LearningEngine.remembered
  cases candidate.suggestedType with
  | pattern =>
    refine (Memories.holds_addPattern _ _).trans (or_congr_right (and_congr_right fun _ => ?_))
    exact ⟨fun h _ => h, fun h => h rfl⟩
  | convention =>
    refine (Memories.holds_upsertConvention _ _ _).trans (or_congr_right ?_)
    exact (and_iff_left fun h => by cases h).symm
  | mistake =>
    refine (Memories.holds_addMistake _ _ _).trans (or_congr_right ?_)
    exact (and_iff_left fun h => by cases h).symm
  | decision | architectureNote | dependencyNote =>
    refine (Memories.holds_addDecision _ _ _ _).trans (or_congr_right ?_)
    exact (and_iff_left fun h => by cases h).symm

/-- Nothing that a memory has is lost with a write. -/
theorem holds_written (memory : MemoryEngine) (h : memories.Holds projectId text) :
    (engine.written memory candidate memories).Holds projectId text := by
  unfold LearningEngine.written
  split
  · exact (holds_remembered engine).mpr (.inl h)
  · exact h

/-- A write that does not fail leaves the content in the memory if and only
if the memory takes it. -/
theorem holds_written_iff {memory : MemoryEngine} (hfault : ¬ memory.Fails)
    (hproject : candidate.projectId = engine.projectId) :
    (engine.written memory candidate memories).Holds candidate.projectId candidate.content ↔
      memory.Takes candidate memories := by
  unfold LearningEngine.written MemoryEngine.Takes
  cases hinitialized : memory.initialized with
  | false => simp
  | true =>
    have hnone : memory.fault.isNone := by
      cases hcase : memory.fault with
      | none => rfl
      | some exc => exact absurd ⟨hinitialized, by rw [hcase]; rfl⟩ hfault
    rw [if_pos ⟨rfl, hnone⟩, holds_remembered, ← hproject]
    simp

end Memory

section Steps

variable {engine : LearningEngine} {db : Db}

/-- Calls other than an ingestion neither write to the memory nor ingest. -/
def Forgoes (db db' : Db) : Prop :=
  db'.memories = db.memories ∧ ∀ row ∈ db'.candidates, row.state = .ingested → row ∈ db.candidates

theorem Forgoes.remembers {db' : Db} (h : Forgoes db db') (hremembers : db.Remembers) :
    db'.Remembers := by
  intro row hrow hstate
  rw [h.1]
  exact hremembers row (h.2 row hrow hstate) hstate

theorem forgoes_refl (db : Db) : Forgoes db db := ⟨rfl, fun _ hrow _ => hrow⟩

theorem proposals_forgo {db' : Db} (hproposed : ReflTransGen Proposed db db') : Forgoes db db' := by
  refine ⟨?_, fun row hrow hstate => proposals_ingested hproposed hrow hstate⟩
  induction hproposed with
  | refl => rfl
  | tail _ hlast ih =>
    obtain ⟨row, -, -, -, -⟩ := hlast
    exact ih

theorem settle_forgoes (candidateId : ℤ) {update : CandidateRow → CandidateRow}
    (review : LearningEngine.Review) (hstate : ∀ row, (update row).state ≠ .ingested) :
    Forgoes db ((engine.settle candidateId update review).run db).2 := by
  refine ⟨rfl, fun row hrow hingested => ?_⟩
  obtain ⟨old, hold, rfl⟩ := List.mem_map.mp hrow
  split at hingested
  · exact absurd hingested (hstate old)
  · rename_i hother
    rw [if_neg hother]
    exact hold

theorem rule_forgoes {verb : String} {candidateId : ℤ} {state : CandidateState}
    {review : CandidateRow → LearningEngine.Review} (hstate : state ≠ .ingested) :
    Forgoes db ((engine.rule verb candidateId state review).run db).2 := by
  rcases rule_run engine verb candidateId state review db with
    ⟨exc, hrun⟩ | ⟨candidate, -, -, hrun⟩
  · rw [hrun]
    exact forgoes_refl db
  · rw [hrun]
    exact settle_forgoes candidateId _ fun _ => hstate

/-- A call other than an ingestion. -/
theorem perform_forgoes {request : Request} (h : ∀ candidateId, request ≠ .ingest candidateId) :
    Forgoes db (engine.perform db request) := by
  cases request with
  | observe sourceEvent payload =>
    obtain ⟨hcandidates, -, hmemories⟩ := observe_quiet engine sourceEvent payload db
    refine ⟨hmemories, fun row hrow _ => ?_⟩
    change row ∈ (((engine.observe sourceEvent payload).run db).2).candidates at hrow
    rw [hcandidates] at hrow
    exact hrow
  | extract observationId => exact proposals_forgo (extract_proposed engine observationId db)
  | approve candidateId reviewer reason => exact rule_forgoes (by decide)
  | reject candidateId reason reviewer =>
    change Forgoes db ((engine.reject candidateId reason reviewer).run db).2
    unfold LearningEngine.reject
    split
    · exact forgoes_refl db
    · exact rule_forgoes (by decide)
  | ingest candidateId => exact absurd rfl (h candidateId)

/-- An ingestion marks the candidate, whatever becomes of the write. -/
theorem mem_ingested (haccounted : db.Accounted) {candidateId : ℤ} {candidate : CandidateRow}
    (hfound : engine.candidate candidateId db = some candidate) {memoryId : String}
    {memories : Memories} {row : CandidateRow} :
    row ∈ (((engine.settle candidateId (LearningEngine.ingested candidate memoryId)
      (LearningEngine.ingestion candidate memoryId)).run { db with memories }).2).candidates ↔
        row = LearningEngine.ingested candidate memoryId candidate ∨
          row ∈ db.candidates ∧ row.id ≠ candidateId :=
  mem_updated haccounted.ids hfound

/-- What is remembered after an ingestion. -/
theorem ingested_remembers (haccounted : db.Accounted) (hremembers : db.Remembers)
    {candidateId : ℤ} {candidate : CandidateRow} {memory : MemoryEngine} (memoryId : String)
    (hfound : engine.candidate candidateId db = some candidate) :
    ((engine.settle candidateId (LearningEngine.ingested candidate memoryId)
      (LearningEngine.ingestion candidate memoryId)).run
        { db with memories := engine.written memory candidate db.memories }).2.Remembers ↔
      (engine.written memory candidate db.memories).Holds candidate.projectId candidate.content := by
  constructor
  · intro h
    exact h (LearningEngine.ingested candidate memoryId candidate)
      ((mem_ingested haccounted hfound).mpr (.inl rfl)) rfl
  · intro hheld row hrow hstate
    rcases (mem_ingested haccounted hfound).mp hrow with rfl | ⟨hold, -⟩
    · exact hheld
    · exact holds_written engine memory (hremembers row hold hstate)

/-- One call keeps the promise if and only if it is supplied. -/
theorem perform_dependable (haccounted : db.Accounted) (hremembers : db.Remembers)
    (request : Request) :
    engine.Retryable db request ∧ (engine.perform db request).Remembers ↔
      engine.Supplied db request := by
  by_cases hingest : ∃ candidateId, request = .ingest candidateId
  · obtain ⟨candidateId, rfl⟩ := hingest
    rcases ingest_run engine candidateId db with
      ⟨⟨exc, hrun⟩, hrefused⟩ | ⟨candidate, memory, memoryId, hingestible, -, hrun⟩
    · have hsame : engine.perform db (.ingest candidateId) = db := congrArg Prod.snd hrun
      refine iff_of_true ⟨?_, ?_⟩ fun candidate memory h => absurd h (hrefused candidate memory)
      · exact fun candidate memory h => absurd h (hrefused candidate memory)
      · rw [hsame]
        exact hremembers
    · obtain ⟨hfound, happroved, hmemory⟩ := hingestible
      have hunique : ∀ other store, engine.Ingestible candidateId db other store →
          other = candidate ∧ store = memory := by
        rintro other store ⟨hother, -, hstore⟩
        rw [hfound] at hother
        rw [hmemory] at hstore
        exact ⟨(Option.some.inj hother).symm, (Option.some.inj hstore).symm⟩
      have hmarked : engine.candidate candidateId (engine.perform db (.ingest candidateId)) ≠
          some candidate := by
        intro hafter
        change engine.candidate candidateId ((engine.ingest candidateId).run db).2 = _ at hafter
        rw [hrun] at hafter
        obtain ⟨hmem, hid, -⟩ := candidate_found hafter
        rcases (mem_ingested haccounted hfound).mp hmem with hsame | ⟨-, hne⟩
        · rw [hsame] at happroved
          cases happroved
        · exact hne hid
      have hretry : engine.Retryable db (.ingest candidateId) ↔ ¬ memory.Fails := by
        constructor
        · intro h hfails
          exact hmarked (h candidate memory ⟨hfound, happroved, hmemory⟩ hfails)
        · intro hfault other store hother hfails
          rw [(hunique other store hother).2] at hfails
          exact absurd hfails hfault
      have hsupplied : engine.Supplied db (.ingest candidateId) ↔
          ¬ memory.Fails ∧ memory.Takes candidate db.memories := by
        constructor
        · exact fun h => h candidate memory ⟨hfound, happroved, hmemory⟩
        · intro h other store hother
          obtain ⟨rfl, rfl⟩ := hunique other store hother
          exact h
      rw [hretry, hsupplied]
      refine and_congr_right fun hfault => ?_
      rw [← holds_written_iff engine hfault (candidate_found hfound).2.2,
        ← ingested_remembers haccounted hremembers memoryId hfound, ← hrun]
      rfl
  · have hother : ∀ candidateId, request ≠ .ingest candidateId := fun candidateId h =>
      hingest ⟨candidateId, h⟩
    have hkept : (engine.perform db request).Remembers :=
      (perform_forgoes hother).remembers hremembers
    cases request with
    | ingest candidateId => exact absurd rfl (hother candidateId)
    | observe | extract | approve | reject => exact iff_of_true ⟨trivial, hkept⟩ trivial

end Steps

/-- A history is dependable if and only if each of its ingestions is supplied. -/
theorem dependable_iff {db : Db} (haccounted : db.Accounted) (hremembers : db.Remembers)
    (calls : List (LearningEngine × Request)) : Dependable db calls ↔ Supplied db calls := by
  induction calls generalizing db with
  | nil => exact iff_of_true hremembers trivial
  | cons call rest ih =>
    obtain ⟨engine, request⟩ := call
    have hstep : engine.Retryable db request ∧ (engine.perform db request).Remembers ↔
        engine.Supplied db request := perform_dependable haccounted hremembers request
    have hnext := perform_accounted engine request haccounted
    constructor
    · rintro ⟨-, hretry, hrest⟩
      have hafter : (engine.perform db request).Remembers := by
        cases rest with
        | nil => exact hrest
        | cons next later => exact hrest.1
      exact ⟨hstep.mp ⟨hretry, hafter⟩, (ih hnext hafter).mp hrest⟩
    · rintro ⟨hsupplied, hrest⟩
      obtain ⟨hretry, hafter⟩ := hstep.mpr hsupplied
      exact ⟨hremembers, hretry, (ih hnext hafter).mpr hrest⟩

/-- A scored pattern. -/
def scoredPattern (id : ℤ) (content : String) (dedupeHash : Text) : CandidateRow where
  id := id
  observationId := id
  content := content
  suggestedType := .pattern
  confidence := decimal (4 / 5)
  riskLevel := .low
  evidenceRefs := []
  dedupeHash := dedupeHash
  state := .scored
  ingestVersion := 0
  ingestedMemoryId := ""
  projectId := "demo"
  createdAt := ""

/-- Two patterns with one first line. -/
def retryPatterns : Db where
  candidates := [scoredPattern 1 "Retry\nwith backoff" ['a'], scoredPattern 2 "Retry\nonly once" ['b']]

theorem retryPatterns_accounted : retryPatterns.Accounted := by
  have hcases : ∀ candidate ∈ retryPatterns.candidates,
      candidate = scoredPattern 1 "Retry\nwith backoff" ['a'] ∨
        candidate = scoredPattern 2 "Retry\nonly once" ['b'] := by
    intro candidate hcandidate
    simpa [retryPatterns] using hcandidate
  constructor
  · decide
  · intro candidate hcandidate other hother _ hhash _ _
    rcases hcases candidate hcandidate with rfl | rfl <;>
      rcases hcases other hother with rfl | rfl <;> first | rfl | cases hhash
  · intro candidate hcandidate
    rcases hcases candidate hcandidate with rfl | rfl <;> rfl
  · intro candidate hcandidate
    rcases hcases candidate hcandidate with rfl | rfl <;> rfl
  · exact fun review h => absurd h List.not_mem_nil

/-- One pattern, approved and ingested. -/
theorem dependable_retry : Dependable retryPatterns
    [({ projectId := "demo" }, .approve 1 "alice" ""), ({ projectId := "demo" }, .ingest 1)] := by
  have hnone : retryPatterns.Remembers := by
    intro candidate hcandidate hstate
    simp only [retryPatterns, List.mem_cons, List.not_mem_nil, or_false] at hcandidate
    rcases hcandidate with rfl | rfl <;> cases hstate
  refine (dependable_iff retryPatterns_accounted hnone _).mpr ⟨trivial, ?_, trivial⟩
  rintro candidate memory ⟨-, -, hmemory⟩
  cases hmemory
  refine ⟨?_, .inr ⟨rfl, ?_⟩⟩
  · rintro ⟨-, hfault⟩
    cases hfault
  · rintro - ⟨row, hrow, -⟩
    cases hrow

/-- The second pattern is ingested, and its content is nowhere. -/
theorem not_dependable_retry : ¬ Dependable retryPatterns
    [({ projectId := "demo" }, .approve 1 "alice" ""), ({ projectId := "demo" }, .ingest 1),
      ({ projectId := "demo" }, .approve 2 "alice" ""), ({ projectId := "demo" }, .ingest 2)] := by
  rintro ⟨-, -, -, -, -, -, -, -, hlast⟩
  have hheld := hlast
    { scoredPattern 2 "Retry\nonly once" ['b'] with
      state := .ingested, ingestVersion := 1, ingestedMemoryId := "pattern:Retry" }
    (List.mem_cons_of_mem _ List.mem_cons_self) rfl
  exact absurd hheld (by decide)

end AiosDeck.Learning
