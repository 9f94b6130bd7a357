import AiosDeck.Learning.Engine
import AiosDeck.Logic.Tables

/-!
# Governance over whole histories

Every call of an engine is a sequence of moves on candidates and reviews: a
candidate is proposed, approved, rejected or ingested. The moves keep the
reviews of a candidate in step with its state.
-/

namespace AiosDeck.Learning

open Python Memory Storage Relation Tables

/-- A call of a learning engine. -/
inductive Request where
  | observe (sourceEvent : String) (payload : List (String × Json))
  | extract (observationId : Option ℤ)
  | approve (candidateId : ℤ) (reviewer reason : String)
  | reject (candidateId : ℤ) (reason reviewer : String)
  | ingest (candidateId : ℤ)

/-- The database after a call, whether it is refused or not. -/
def LearningEngine.perform (engine : LearningEngine) (db : Db) : Request → Db
  | .observe sourceEvent payload => ((engine.observe sourceEvent payload).run db).2
  | .extract observationId => ((engine.extract observationId).run db).2
  | .approve candidateId reviewer reason => ((engine.approve candidateId reviewer reason).run db).2
  | .reject candidateId reason reviewer => ((engine.reject candidateId reason reviewer).run db).2
  | .ingest candidateId => ((engine.ingest candidateId).run db).2

/-- The database after a history of calls, each on the engine as it then is. -/
def history (db : Db) (calls : List (LearningEngine × Request)) : Db :=
  calls.foldl (fun db call => call.1.perform db call.2) db

namespace Db

/-- The approvals and rejections of a candidate, oldest first. -/
def verdicts (db : Db) (candidateId : ℤ) : List Decision :=
  ((db.reviews.filter fun review => review.candidateId = candidateId).map ReviewRow.decision).filter
    fun decision => decision ≠ .ingested

/-- The state of a candidate. -/
def stateOf (db : Db) (candidateId : ℤ) : Option CandidateState :=
  (db.candidates.find? fun row => row.id = candidateId).map CandidateRow.state

/-- What governance promises of a database. -/
structure Governed (db : Db) : Prop where
  approved : ∀ candidate ∈ db.candidates, candidate.state = .ingested →
    ∃ review ∈ db.reviews, review.candidateId = candidate.id ∧ review.decision = .approve
  hashes : ∀ candidate ∈ db.candidates, ∀ other ∈ db.candidates,
    candidate.projectId = other.projectId → candidate.dedupeHash = other.dedupeHash →
      candidate.state ≠ .rejected → other.state ≠ .rejected → candidate = other
  reviews : ∀ candidate ∈ db.candidates, (db.verdicts candidate.id).length ≤ 1
  versions : ∀ candidate ∈ db.candidates,
    candidate.ingestVersion = if candidate.state = .ingested then 1 else 0

end Db

/-- The verdicts that lead to a state. -/
def CandidateState.verdicts : CandidateState → List Decision
  | .draft | .scored => []
  | .approved | .ingested => [.approve]
  | .rejected => [.reject]

/-- The reviews of each candidate are those that lead to its state. -/
structure Db.Accounted (db : Db) : Prop where
  ids : (db.candidates.map CandidateRow.id).Nodup
  hashes : ∀ candidate ∈ db.candidates, ∀ other ∈ db.candidates,
    candidate.projectId = other.projectId → candidate.dedupeHash = other.dedupeHash →
      candidate.state ≠ .rejected → other.state ≠ .rejected → candidate.id = other.id
  verdicts : ∀ candidate ∈ db.candidates, db.verdicts candidate.id = candidate.state.verdicts
  versions : ∀ candidate ∈ db.candidates,
    candidate.ingestVersion = if candidate.state = .ingested then 1 else 0
  known : ∀ review ∈ db.reviews, ∃ candidate ∈ db.candidates, candidate.id = review.candidateId

/-- What a review does to its candidate. -/
inductive Settles (before after : CandidateRow) : Decision → Prop
  | approves (hopen : before.state = .draft ∨ before.state = .scored)
      (hafter : after = { before with state := .approved }) : Settles before after .approve
  | rejects (hopen : before.state = .draft ∨ before.state = .scored)
      (hafter : after = { before with state := .rejected }) : Settles before after .reject
  | ingests (memoryId : String) (happroved : before.state = .approved)
      (hafter : after = { before with
        state := .ingested, ingestVersion := before.ingestVersion + 1, ingestedMemoryId := memoryId }) :
      Settles before after .ingested

/-- One more candidate, when all with its hash are rejected. -/
inductive Proposed (db : Db) : Db → Prop
  | proposed (row : CandidateRow) (hid : row.id = nextId CandidateRow.id db.candidates)
      (hstate : row.state = .scored) (hversion : row.ingestVersion = 0)
      (hnew : ∀ other ∈ db.candidates, other.projectId = row.projectId →
        other.dedupeHash = row.dedupeHash → other.state = .rejected) :
      Proposed db { db with candidates := db.candidates ++ [row] }

/-- A call that leaves candidates and reviews alone, or settles one candidate. -/
inductive Move (db : Db) : Db → Prop
  | quiet {db' : Db} (hcandidates : db'.candidates = db.candidates)
      (hreviews : db'.reviews = db.reviews) : Move db db'
  | settled (engine : LearningEngine) (candidate : CandidateRow) (candidateId : ℤ)
      (update : CandidateRow → CandidateRow) (review : LearningEngine.Review) (memories : Memories)
      (hfound : engine.candidate candidateId db = some candidate)
      (hsettles : Settles candidate (update candidate) review.decision) :
      Move db (engine.reviewed candidateId review
        (engine.updated candidateId update { db with memories }))

section Moves

variable {db db' : Db} {engine : LearningEngine} {candidate : CandidateRow} {candidateId : ℤ}

/-- The next id is not in use. -/
theorem lt_nextId {α : Type} {id : α → ℤ} {rows : List α} {row : α} (h : row ∈ rows) :
    id row < nextId id rows := by
  have hmax : id row ≤ (rows.map id).foldr max 0 := by
    induction rows with
    | nil => cases h
    | cons first rest ih =>
      rw [List.map_cons, List.foldr_cons]
      rcases List.mem_cons.mp h with rfl | hrest
      · exact le_max_left _ _
      · exact (ih hrest).trans (le_max_right _ _)
  unfold nextId
  omega

theorem candidate_found (h : engine.candidate candidateId db = some candidate) :
    candidate ∈ db.candidates ∧ candidate.id = candidateId ∧
      candidate.projectId = engine.projectId := by
  have hmatch := List.find?_some h
  simp only [decide_eq_true_eq] at hmatch
  exact ⟨List.mem_of_find?_eq_some h, hmatch⟩

/-- An update changes the candidate that it is meant for and no other. -/
theorem mem_updated (hids : (db.candidates.map CandidateRow.id).Nodup)
    (hfound : engine.candidate candidateId db = some candidate)
    {update : CandidateRow → CandidateRow} {row : CandidateRow} :
    row ∈ (engine.updated candidateId update db).candidates ↔
      row = update candidate ∨ row ∈ db.candidates ∧ row.id ≠ candidateId := by
  obtain ⟨hmem, hid, hproject⟩ := candidate_found hfound
  have hsame : ∀ other ∈ db.candidates, other.id = candidateId → other = candidate := by
    intro other hother hotherId
    exact List.inj_on_of_nodup_map hids hother hmem (hotherId.trans hid.symm)
  unfold LearningEngine.updated
  rw [List.mem_map]
  constructor
  · rintro ⟨other, hother, rfl⟩
    by_cases hotherId : other.id = candidateId
    · have heq := hsame other hother hotherId
      rw [if_pos ⟨hotherId, by rw [heq]; exact hproject⟩, heq]
      exact .inl rfl
    · rw [if_neg fun hboth => hotherId hboth.1]
      exact .inr ⟨hother, hotherId⟩
  · rintro (rfl | ⟨hrow, hne⟩)
    · exact ⟨candidate, hmem, if_pos ⟨hid, hproject⟩⟩
    · exact ⟨row, hrow, if_neg fun hboth => hne hboth.1⟩

theorem Settles.same {before after : CandidateRow} {decision : Decision}
    (h : Settles before after decision) :
    after.id = before.id ∧ after.projectId = before.projectId ∧
      after.dedupeHash = before.dedupeHash := by
  cases h with
  | approves _ hafter => rw [hafter]; exact ⟨rfl, rfl, rfl⟩
  | rejects _ hafter => rw [hafter]; exact ⟨rfl, rfl, rfl⟩
  | ingests memoryId _ hafter => rw [hafter]; exact ⟨rfl, rfl, rfl⟩

/-- Only an open or an approved candidate is settled. -/
theorem Settles.open {before after : CandidateRow} {decision : Decision}
    (h : Settles before after decision) : before.state ≠ .rejected ∧ before.state ≠ .ingested := by
  cases h with
  | approves hopen _ => rcases hopen with hopen | hopen <;> simp [hopen]
  | rejects hopen _ => rcases hopen with hopen | hopen <;> simp [hopen]
  | ingests memoryId happroved _ => simp [happroved]

/-- The review is what leads from the old state to the new one. -/
theorem Settles.verdicts {before after : CandidateRow} {decision : Decision}
    (h : Settles before after decision) :
    before.state.verdicts ++ [decision].filter (fun decision => decision ≠ .ingested) =
      after.state.verdicts := by
  cases h with
  | approves hopen hafter => rcases hopen with hopen | hopen <;> simp [hopen, hafter, CandidateState.verdicts]
  | rejects hopen hafter => rcases hopen with hopen | hopen <;> simp [hopen, hafter, CandidateState.verdicts]
  | ingests memoryId happroved hafter => simp [happroved, hafter, CandidateState.verdicts]

theorem Settles.versions {before after : CandidateRow} {decision : Decision}
    (h : Settles before after decision)
    (hversion : before.ingestVersion = if before.state = .ingested then 1 else 0) :
    after.ingestVersion = if after.state = .ingested then 1 else 0 := by
  cases h with
  | approves hopen hafter => rcases hopen with hopen | hopen <;> simp [hopen, hafter, hversion]
  | rejects hopen hafter => rcases hopen with hopen | hopen <;> simp [hopen, hafter, hversion]
  | ingests memoryId happroved hafter => simp [happroved, hafter, hversion]

theorem verdicts_reviewed (engine : LearningEngine) (candidateId : ℤ)
    (review : LearningEngine.Review) (db : Db) (id : ℤ) :
    (engine.reviewed candidateId review db).verdicts id =
      db.verdicts id ++ if candidateId = id then
        [review.decision].filter (fun decision => decision ≠ .ingested) else [] := by
  unfold Db.verdicts LearningEngine.reviewed
  rw [List.filter_append, List.map_append, List.filter_append]
  by_cases hid : candidateId = id <;> simp [LearningEngine.reviewRow, hid]

/-- A review keeps the ids of the candidates. -/
theorem updated_ids (hids : (db.candidates.map CandidateRow.id).Nodup)
    (hfound : engine.candidate candidateId db = some candidate)
    {update : CandidateRow → CandidateRow} (hid : (update candidate).id = candidate.id) :
    (engine.updated candidateId update db).candidates.map CandidateRow.id =
      db.candidates.map CandidateRow.id := by
  obtain ⟨hmem, hcandidate, -⟩ := candidate_found hfound
  unfold LearningEngine.updated
  rw [List.map_map]
  refine List.map_congr_left fun row hrow => ?_
  by_cases hmatch : row.id = candidateId ∧ row.projectId = engine.projectId
  · have heq : row = candidate :=
      List.inj_on_of_nodup_map hids hrow hmem (hmatch.1.trans hcandidate.symm)
    rw [Function.comp_apply, if_pos hmatch, heq, hid]
  · rw [Function.comp_apply, if_neg hmatch]

theorem stateOf_found (hids : (db.candidates.map CandidateRow.id).Nodup)
    (hfound : engine.candidate candidateId db = some candidate) :
    db.stateOf candidateId = some candidate.state := by
  obtain ⟨hmem, hid, -⟩ := candidate_found hfound
  unfold Db.stateOf
  rw [find?_key hids hmem (decide_eq_true hid) fun row _ hrow =>
    (of_decide_eq_true hrow).trans hid.symm]
  rfl

/-- The candidate as an update leaves it. -/
theorem candidate_updated {other : LearningEngine} (hids : (db.candidates.map CandidateRow.id).Nodup)
    (hfound : engine.candidate candidateId db = some candidate)
    (hproject : other.projectId = engine.projectId) (update : CandidateRow → CandidateRow)
    (hid : (update candidate).id = candidate.id)
    (howner : (update candidate).projectId = candidate.projectId) :
    other.candidate candidateId (engine.updated candidateId update db) = some (update candidate) ∧
      (engine.updated candidateId update db).stateOf candidateId = some (update candidate).state := by
  obtain ⟨-, hcandidate, hengine⟩ := candidate_found hfound
  have hunique : ((engine.updated candidateId update db).candidates.map CandidateRow.id).Nodup := by
    rw [updated_ids hids hfound hid]
    exact hids
  have hmem : update candidate ∈ (engine.updated candidateId update db).candidates :=
    (mem_updated hids hfound).mpr (.inl rfl)
  have hsame : (update candidate).id = candidateId := hid.trans hcandidate
  have hany : ∀ reader : LearningEngine, reader.projectId = engine.projectId →
      reader.candidate candidateId (engine.updated candidateId update db) =
        some (update candidate) := by
    intro reader hreader
    refine find?_key hunique hmem
      (decide_eq_true ⟨hsame, howner.trans (hengine.trans hreader.symm)⟩) ?_
    intro row _ hrow
    exact (of_decide_eq_true hrow).1.trans hsame.symm
  exact ⟨hany other hproject, stateOf_found hunique (hany engine rfl)⟩

/-- The row that a row after a review was before it. -/
theorem updated_origin (hids : (db.candidates.map CandidateRow.id).Nodup)
    (hfound : engine.candidate candidateId db = some candidate)
    {update : CandidateRow → CandidateRow} {decision : Decision}
    (hsettles : Settles candidate (update candidate) decision) {row : CandidateRow}
    (hrow : row ∈ (engine.updated candidateId update db).candidates) :
    ∃ old ∈ db.candidates, old.id = row.id ∧ old.projectId = row.projectId ∧
      old.dedupeHash = row.dedupeHash ∧ (old.state = .rejected → row.state = .rejected) := by
  rcases (mem_updated hids hfound).mp hrow with rfl | ⟨hold, -⟩
  · obtain ⟨hid, hproject, hhash⟩ := hsettles.same
    refine ⟨candidate, (candidate_found hfound).1, hid.symm, hproject.symm, hhash.symm, ?_⟩
    exact fun hrejected => absurd hrejected hsettles.open.1
  · exact ⟨row, hold, rfl, rfl, rfl, id⟩

/-- A proposal keeps the reviews in step with the states. -/
theorem Proposed.accounted (hproposed : Proposed db db') (h : db.Accounted) : db'.Accounted := by
  obtain ⟨row, hid, hstate, hversion, hnew⟩ := hproposed
  constructor
  · rw [List.map_append, List.nodup_append]
    refine ⟨h.ids, List.nodup_singleton _, ?_⟩
    intro k hk l hl
    obtain ⟨other, hother, rfl⟩ := List.mem_map.mp hk
    rw [List.map_singleton, List.mem_singleton] at hl
    have hlt : other.id < nextId CandidateRow.id db.candidates := lt_nextId hother
    omega
  · intro candidate hcandidate other hother hproject hhash hopen hotherOpen
    rcases List.mem_append.mp hcandidate with hcandidate | hcandidate
    · rcases List.mem_append.mp hother with hother | hother
      · exact h.hashes candidate hcandidate other hother hproject hhash hopen hotherOpen
      · rw [List.mem_singleton.mp hother] at hproject hhash
        exact absurd (hnew candidate hcandidate hproject hhash) hopen
    · rw [List.mem_singleton.mp hcandidate] at hproject hhash ⊢
      rcases List.mem_append.mp hother with hother | hother
      · exact absurd (hnew other hother hproject.symm hhash.symm) hotherOpen
      · rw [List.mem_singleton.mp hother]
  · intro candidate hcandidate
    rcases List.mem_append.mp hcandidate with hcandidate | hcandidate
    · exact h.verdicts candidate hcandidate
    · rw [List.mem_singleton.mp hcandidate, hstate]
      have hnone : db.reviews.filter (fun review => review.candidateId = row.id) = [] := by
        refine List.filter_eq_nil_iff.mpr fun review hreview hmatch => ?_
        have hmatch : review.candidateId = row.id := of_decide_eq_true hmatch
        obtain ⟨known, hknown, hknownId⟩ := h.known review hreview
        have hlt : known.id < nextId CandidateRow.id db.candidates := lt_nextId hknown
        omega
      change ((db.reviews.filter fun review => review.candidateId = row.id).map _).filter _ = _
      rw [hnone]
      rfl
  · intro candidate hcandidate
    rcases List.mem_append.mp hcandidate with hcandidate | hcandidate
    · exact h.versions candidate hcandidate
    · rw [List.mem_singleton.mp hcandidate, hstate, hversion]
      rfl
  · intro review hreview
    obtain ⟨known, hknown, hid⟩ := h.known review hreview
    exact ⟨known, List.mem_append_left _ hknown, hid⟩

/-- Every move keeps the reviews in step with the states. -/
theorem Move.accounted (hmove : Move db db') (h : db.Accounted) : db'.Accounted := by
  cases hmove with
  | quiet hcandidates hreviews =>
    have hverdicts : ∀ id, db'.verdicts id = db.verdicts id := by
      intro id
      unfold Db.verdicts
      rw [hreviews]
    constructor
    · rw [hcandidates]
      exact h.ids
    · rw [hcandidates]
      exact h.hashes
    · rw [hcandidates]
      exact fun candidate hmem => (hverdicts _).trans (h.verdicts candidate hmem)
    · rw [hcandidates]
      exact h.versions
    · rw [hcandidates, hreviews]
      exact h.known
  | settled engine candidate candidateId update review memories hfound hsettles =>
    obtain ⟨hmem, hid, -⟩ := candidate_found hfound
    have hids := updated_ids h.ids hfound hsettles.same.1
    constructor
    · change ((engine.updated candidateId update db).candidates.map CandidateRow.id).Nodup
      rw [hids]
      exact h.ids
    · intro row hrow other hother hproject hhash hopen hotherOpen
      obtain ⟨old, hold, holdId, holdProject, holdHash, holdState⟩ :=
        updated_origin h.ids hfound hsettles hrow
      obtain ⟨past, hpast, hpastId, hpastProject, hpastHash, hpastState⟩ :=
        updated_origin h.ids hfound hsettles hother
      rw [← holdId, ← hpastId]
      refine h.hashes old hold past hpast ?_ ?_ (mt holdState hopen) (mt hpastState hotherOpen)
      · rw [holdProject, hpastProject, hproject]
      · rw [holdHash, hpastHash, hhash]
    · intro row hrow
      rw [verdicts_reviewed]
      rcases (mem_updated h.ids hfound).mp hrow with rfl | ⟨hold, hne⟩
      · rw [if_pos (hid.symm.trans hsettles.same.1.symm), hsettles.same.1]
        change db.verdicts candidate.id ++ _ = _
        rw [h.verdicts candidate hmem]
        exact hsettles.verdicts
      · rw [if_neg (Ne.symm hne), List.append_nil]
        exact h.verdicts row hold
    · intro row hrow
      rcases (mem_updated h.ids hfound).mp hrow with rfl | ⟨hold, -⟩
      · exact hsettles.versions (h.versions candidate hmem)
      · exact h.versions row hold
    · intro past hpast
      have hknown : past.candidateId ∈ db.candidates.map CandidateRow.id := by
        rcases List.mem_append.mp hpast with hpast | hpast
        · obtain ⟨known, hknown, hknownId⟩ := h.known past hpast
          exact hknownId ▸ List.mem_map_of_mem hknown
        · rw [List.mem_singleton.mp hpast]
          exact List.mem_map.mpr ⟨candidate, hmem, hid⟩
      rw [← hids] at hknown
      exact List.mem_map.mp hknown

/-- A candidate that is rejected or ingested is never touched again. -/
theorem Move.kept (hmove : Move db db') (h : db.Accounted) {row : CandidateRow}
    (hrow : row ∈ db.candidates) (hclosed : row.state = .rejected ∨ row.state = .ingested) :
    row ∈ db'.candidates := by
  cases hmove with
  | quiet hcandidates hreviews =>
    rw [hcandidates]
    exact hrow
  | settled engine candidate candidateId update review memories hfound hsettles =>
    refine (mem_updated h.ids hfound).mpr (.inr ⟨hrow, fun hid => ?_⟩)
    obtain ⟨hmem, hcandidate, -⟩ := candidate_found hfound
    have heq : row = candidate := List.inj_on_of_nodup_map h.ids hrow hmem (hid.trans hcandidate.symm)
    rw [heq] at hclosed
    rcases hclosed with hrejected | hingested
    · exact hsettles.open.1 hrejected
    · exact hsettles.open.2 hingested

theorem approved_of_verdicts {id : ℤ} (h : Decision.approve ∈ db.verdicts id) :
    ∃ review ∈ db.reviews, review.candidateId = id ∧ review.decision = .approve := by
  obtain ⟨review, hreview, hdecision⟩ := List.mem_map.mp (List.mem_filter.mp h).1
  obtain ⟨hmem, hid⟩ := List.mem_filter.mp hreview
  exact ⟨review, hmem, of_decide_eq_true hid, hdecision⟩

/-- What a move ingests has been approved before. -/
theorem Move.ingested (hmove : Move db db') (h : db.Accounted) {row : CandidateRow}
    (hrow : row ∈ db'.candidates) (hstate : row.state = .ingested) : row ∈ db.candidates ∨
      ∃ review ∈ db.reviews, review.candidateId = row.id ∧ review.decision = .approve := by
  cases hmove with
  | quiet hcandidates hreviews =>
    rw [hcandidates] at hrow
    exact .inl hrow
  | settled engine candidate candidateId update review memories hfound hsettles =>
    rcases (mem_updated h.ids hfound).mp hrow with rfl | ⟨hold, -⟩
    · refine .inr (approved_of_verdicts ?_)
      rw [hsettles.same.1, h.verdicts candidate (candidate_found hfound).1]
      generalize hdecision : review.decision = decision at hsettles
      cases hsettles with
      | approves _ hafter =>
        rw [hafter] at hstate
        cases hstate
      | rejects _ hafter =>
        rw [hafter] at hstate
        cases hstate
      | ingests memoryId happroved _ =>
        rw [happroved]
        exact List.mem_singleton_self _
    · exact .inl hold

theorem Db.Accounted.governed (h : db.Accounted) : db.Governed := by
  constructor
  · intro candidate hcandidate hstate
    refine approved_of_verdicts ?_
    rw [h.verdicts candidate hcandidate, hstate]
    exact List.mem_singleton_self _
  · intro candidate hcandidate other hother hproject hhash hopen hotherOpen
    have hid := h.hashes candidate hcandidate other hother hproject hhash hopen hotherOpen
    exact List.inj_on_of_nodup_map h.ids hcandidate hother hid
  · intro candidate hcandidate
    rw [h.verdicts candidate hcandidate]
    cases candidate.state <;> decide
  · exact h.versions

end Moves

section Calls

variable (engine : LearningEngine)

/-- Calls that change no table but that of the observations. -/
def SameGovernance (db db' : Db) : Prop :=
  db'.candidates = db.candidates ∧ db'.reviews = db.reviews ∧ db'.memories = db.memories

instance : Std.Refl SameGovernance := ⟨fun _ => ⟨rfl, rfl, rfl⟩⟩

instance : IsTrans Db SameGovernance :=
  ⟨fun _ _ _ h h' => ⟨h'.1.trans h.1, h'.2.1.trans h.2.1, h'.2.2.trans h.2.2⟩⟩

theorem insertObservation_quiet (observation : ObservationRecord) :
    (engine.insertObservation observation).Respects SameGovernance := by
  refine Script.Respects.change _ fun db db' h => ?_
  cases hrow : engine.observationRow observation db with
  | error exc =>
    simp only [hrow] at h
    cases h
  | ok row =>
    simp only [hrow] at h
    cases h
    exact ⟨rfl, rfl, rfl⟩

theorem findObservationBySource_quiet (sourceExecutionId sourceId : Json) :
    (engine.findObservationBySource sourceExecutionId sourceId).Respects SameGovernance := by
  unfold LearningEngine.findObservationBySource
  split
  · exact .select _ _
  all_goals
    split
    · exact .select _ _
    · exact .throw _

theorem recordObservations_quiet (observations : List ObservationRecord) :
    (engine.recordObservations observations).Respects SameGovernance := by
  induction observations with
  | nil => exact .pure _
  | cons observation rest ih =>
    refine (findObservationBySource_quiet engine _ _).bind fun found => ?_
    cases found with
    | some _ => exact ih
    | none =>
      refine (insertObservation_quiet engine observation).bind fun observationId => ?_
      exact ih.bind fun others => .pure _

theorem observe_quiet (sourceEvent : String) (payload : List (String × Json)) :
    (engine.observe sourceEvent payload).Respects SameGovernance := by
  unfold LearningEngine.observe
  split
  · split
    · exact recordObservations_quiet engine _
    · exact .throw _
  · exact .pure _

/-- A candidate is inserted only where the lookup by its hash finds none. -/
theorem insertCandidate_proposed {observation : ObservationRow} {db : Db}
    (hnone : ((engine.findCandidateByHash observation.dedupeHash).run db).1 = .ok none) :
    Proposed db ((engine.insertCandidate observation).run db).2 := by
  refine .proposed (engine.candidateRow observation db) rfl rfl rfl fun other hother hproject hhash => ?_
  have hfind := List.find?_eq_none.mp (Except.ok.inj hnone) other hother
  by_contra hopen
  exact hfind (decide_eq_true ⟨hhash, hproject, hopen⟩)

theorem extractCandidates_proposed (observations : List ObservationRow) (db : Db) :
    ReflTransGen Proposed db ((engine.extractCandidates observations).run db).2 := by
  induction observations generalizing db with
  | nil => exact .refl
  | cons observation rest ih =>
    unfold LearningEngine.extractCandidates
    split
    · have hlookup : (engine.findCandidateByHash observation.dedupeHash).run db =
          (.ok (db.candidates.find? fun row => row.dedupeHash = observation.dedupeHash ∧
            row.projectId = engine.projectId ∧ row.state ≠ .rejected), db) := rfl
      rw [Script.run_bind_ok hlookup]
      cases hfound : db.candidates.find? fun row => row.dedupeHash = observation.dedupeHash ∧
          row.projectId = engine.projectId ∧ row.state ≠ .rejected with
      | some existing => exact ih db
      | none =>
        rw [hfound] at hlookup
        have hone := insertCandidate_proposed engine (congrArg Prod.fst hlookup)
        have hinsert : (engine.insertCandidate observation).run db =
            (.ok _, ((engine.insertCandidate observation).run db).2) := rfl
        rw [Script.run_bind_ok hinsert, Script.run_bind_pure]
        exact .head hone (ih _)
    · exact ih db

theorem extract_proposed (observationId : Option ℤ) (db : Db) :
    ReflTransGen Proposed db ((engine.extract observationId).run db).2 := by
  cases observationId with
  | some observationId => exact extractCandidates_proposed engine _ db
  | none => exact extractCandidates_proposed engine _ db

/-- The candidate is there and neither approved, rejected nor ingested. -/
def LearningEngine.IsOpen (candidateId : ℤ) (db : Db) : Prop :=
  ∃ candidate, engine.candidate candidateId db = some candidate ∧
    (candidate.state = .draft ∨ candidate.state = .scored)

/-- A review that follows the test of the state is a move. -/
theorem settle_move {candidateId : ℤ} {candidate : CandidateRow} {db : Db} (memories : Memories)
    {update : CandidateRow → CandidateRow} {review : LearningEngine.Review}
    (hfound : engine.candidate candidateId db = some candidate)
    (hsettles : Settles candidate (update candidate) review.decision) :
    Move db ((engine.settle candidateId update review).run { db with memories }).2 :=
  .settled engine candidate candidateId update review memories hfound hsettles

/-- The first statement of a ruling on an open candidate. -/
theorem rule_step_open {verb : String} {candidateId : ℤ} {state : CandidateState}
    {review : CandidateRow → LearningEngine.Review} {candidate : CandidateRow} {db : Db}
    (hfound : engine.candidate candidateId db = some candidate)
    (hopen : candidate.state = .draft ∨ candidate.state = .scored) :
    (engine.rule verb candidateId state review).step db =
      (engine.settle candidateId (fun row => { row with state }) (review candidate), db) := by
  have hstate : candidate.state ∉ [CandidateState.approved, .rejected, .ingested] := by
    rcases hopen with hopen | hopen <;> simp [hopen]
  simp only [LearningEngine.rule, LearningEngine.openCandidate, LearningEngine.getCandidate,
    Script.select, bind, Script.bind, Script.step, hfound, hstate, if_false, pure]

/-- The first statement of a ruling on any other candidate. -/
theorem rule_step_closed {verb : String} {candidateId : ℤ} {state : CandidateState}
    {review : CandidateRow → LearningEngine.Review} {db : Db}
    (hclosed : ¬ engine.IsOpen candidateId db) :
    ∃ exc, (engine.rule verb candidateId state review).step db = (.raise exc, db) := by
  cases hfound : engine.candidate candidateId db with
  | none =>
    refine ⟨runtimeError ("Candidate " ++ toString candidateId ++ " not found"), ?_⟩
    simp only [LearningEngine.rule, LearningEngine.openCandidate, LearningEngine.getCandidate,
      Script.select, bind, Script.bind, Script.step, hfound, throw, throwThe, MonadExceptOf.throw]
  | some candidate =>
    have hstate : candidate.state ∈ [CandidateState.approved, .rejected, .ingested] := by
      by_contra hopen
      refine hclosed ⟨candidate, hfound, ?_⟩
      cases hcase : candidate.state <;> simp [hcase] at hopen ⊢
    refine ⟨runtimeError ("Cannot " ++ verb ++ " candidate in state '" ++
      candidate.state.name ++ "'"), ?_⟩
    simp only [LearningEngine.rule, LearningEngine.openCandidate, LearningEngine.getCandidate,
      Script.select, bind, Script.bind, Script.step, hfound, hstate, if_true, throw, throwThe,
      MonadExceptOf.throw]

/-- An approval or a rejection is refused, or settles an open candidate. -/
theorem rule_run (verb : String) (candidateId : ℤ) (state : CandidateState)
    (review : CandidateRow → LearningEngine.Review) (db : Db) :
    (∃ exc, (engine.rule verb candidateId state review).run db = (.error exc, db)) ∨
    ∃ candidate, engine.candidate candidateId db = some candidate ∧
      (candidate.state = .draft ∨ candidate.state = .scored) ∧
      (engine.rule verb candidateId state review).run db =
        (engine.settle candidateId (fun row => { row with state }) (review candidate)).run db := by
  rw [Script.run_step]
  by_cases hopen : engine.IsOpen candidateId db
  · obtain ⟨candidate, hfound, hstate⟩ := hopen
    rw [rule_step_open engine hfound hstate]
    exact .inr ⟨candidate, hfound, hstate, rfl⟩
  · obtain ⟨exc, hstep⟩ := rule_step_closed engine hopen
    rw [hstep]
    exact .inl ⟨exc, rfl⟩

theorem rule_move {verb : String} {candidateId : ℤ} {state : CandidateState}
    {review : CandidateRow → LearningEngine.Review} (db : Db)
    (hsettles : ∀ candidate : CandidateRow, candidate.state = .draft ∨ candidate.state = .scored →
      Settles candidate { candidate with state } (review candidate).decision) :
    Move db ((engine.rule verb candidateId state review).run db).2 := by
  rcases rule_run engine verb candidateId state review db with
    ⟨exc, hrun⟩ | ⟨candidate, hfound, hopen, hrun⟩
  · rw [hrun]
    exact .quiet rfl rfl
  · rw [hrun]
    exact settle_move engine db.memories hfound (hsettles candidate hopen)

theorem approve_move (candidateId : ℤ) (reviewer reason : String) (db : Db) :
    Move db ((engine.approve candidateId reviewer reason).run db).2 :=
  rule_move engine db fun _ hopen => .approves hopen rfl

theorem reject_move (candidateId : ℤ) (reason reviewer : String) (db : Db) :
    Move db ((engine.reject candidateId reason reviewer).run db).2 := by
  unfold LearningEngine.reject
  split
  · exact .quiet rfl rfl
  · exact rule_move engine db fun _ hopen => .rejects hopen rfl

/-- The memory after a candidate has been written to it, or has not. -/
def LearningEngine.written (memory : MemoryEngine) (candidate : CandidateRow)
    (memories : Memories) : Memories :=
  if memory.initialized ∧ memory.fault.isNone then engine.remembered candidate memories else memories

/-- Writing to the memory returns an id, whatever becomes of it. -/
theorem writeToMemory_run (memory : MemoryEngine) (candidate : CandidateRow) (db : Db) :
    ∃ memoryId, (engine.writeToMemory memory candidate).run db =
      (.ok memoryId, { db with memories := engine.written memory candidate db.memories }) := by
  obtain ⟨initialized, fault⟩ := memory
  cases initialized with
  | false => exact ⟨_, rfl⟩
  | true =>
    cases fault with
    | none => exact ⟨_, rfl⟩
    | some exc => exact ⟨_, rfl⟩

/-- An approved candidate can be ingested by an engine with a memory. -/
def LearningEngine.Ingestible (candidateId : ℤ) (db : Db) (candidate : CandidateRow)
    (memory : MemoryEngine) : Prop :=
  engine.candidate candidateId db = some candidate ∧ candidate.state = .approved ∧
    engine.memory = some memory

/-- The first statement of an ingestion of an approved candidate. -/
theorem ingest_step_approved {candidateId : ℤ} {db : Db} {candidate : CandidateRow}
    {memory : MemoryEngine} (h : engine.Ingestible candidateId db candidate memory) :
    (engine.ingest candidateId).step db = (engine.writeToMemory memory candidate >>= fun memoryId =>
      engine.settle candidateId (LearningEngine.ingested candidate memoryId)
        (LearningEngine.ingestion candidate memoryId) >>= fun _ =>
          pure (candidate.ingestVersion + 1), db) := by
  obtain ⟨hfound, happroved, hmemory⟩ := h
  simp only [LearningEngine.ingest, LearningEngine.getCandidate, Script.select, bind, Script.bind,
    Script.step, hfound, happroved, ne_eq, not_true_eq_false, if_false, hmemory]

/-- The first statement of any other ingestion. -/
theorem ingest_step_refused {candidateId : ℤ} {db : Db}
    (hrefused : ∀ candidate memory, ¬ engine.Ingestible candidateId db candidate memory) :
    ∃ exc, (engine.ingest candidateId).step db = (.raise exc, db) := by
  cases hfound : engine.candidate candidateId db with
  | none =>
    refine ⟨runtimeError ("Candidate " ++ toString candidateId ++ " not found"), ?_⟩
    simp only [LearningEngine.ingest, LearningEngine.getCandidate, Script.select, bind, Script.bind,
      Script.step, hfound, throw, throwThe, MonadExceptOf.throw]
  | some candidate =>
    by_cases happroved : candidate.state = .approved
    · cases hmemory : engine.memory with
      | some memory => exact absurd ⟨hfound, happroved, hmemory⟩ (hrefused candidate memory)
      | none =>
        refine ⟨runtimeError "Memory engine not available; cannot ingest", ?_⟩
        simp only [LearningEngine.ingest, LearningEngine.getCandidate, Script.select, bind,
          Script.bind, Script.step, hfound, happroved, ne_eq, not_true_eq_false, if_false, hmemory,
          throw, throwThe, MonadExceptOf.throw]
    · refine ⟨runtimeError ("Candidate " ++ toString candidateId ++
        " must be approved (current: " ++ candidate.state.name ++ ")"), ?_⟩
      simp only [LearningEngine.ingest, LearningEngine.getCandidate, Script.select, bind,
        Script.bind, Script.step, hfound, happroved, ne_eq, not_false_eq_true, if_true, throw,
        throwThe, MonadExceptOf.throw]

/-- An ingestion is refused, or settles an approved candidate behind a write
to the memory. -/
theorem ingest_run (candidateId : ℤ) (db : Db) :
    (∃ exc, (engine.ingest candidateId).run db = (.error exc, db)) ∧
      (∀ candidate memory, ¬ engine.Ingestible candidateId db candidate memory) ∨
    ∃ candidate memory memoryId, engine.Ingestible candidateId db candidate memory ∧
      (engine.writeToMemory memory candidate).run db =
        (.ok memoryId, { db with memories := engine.written memory candidate db.memories }) ∧
      ((engine.ingest candidateId).run db).2 =
        ((engine.settle candidateId (LearningEngine.ingested candidate memoryId)
          (LearningEngine.ingestion candidate memoryId)).run
            { db with memories := engine.written memory candidate db.memories }).2 := by
  rw [Script.run_step]
  by_cases hany : ∃ candidate memory, engine.Ingestible candidateId db candidate memory
  · obtain ⟨candidate, memory, h⟩ := hany
    obtain ⟨memoryId, hwrite⟩ := writeToMemory_run engine memory candidate db
    refine .inr ⟨candidate, memory, memoryId, h, hwrite, ?_⟩
    rw [ingest_step_approved engine h, Script.run_bind_ok hwrite, Script.run_bind_pure]
  · have hrefused : ∀ candidate memory, ¬ engine.Ingestible candidateId db candidate memory :=
      fun candidate memory h => hany ⟨candidate, memory, h⟩
    obtain ⟨exc, hstep⟩ := ingest_step_refused engine hrefused
    rw [hstep]
    exact .inl ⟨⟨exc, rfl⟩, hrefused⟩

theorem ingest_move (candidateId : ℤ) (db : Db) :
    Move db ((engine.ingest candidateId).run db).2 := by
  rcases ingest_run engine candidateId db with
    ⟨⟨exc, hrun⟩, -⟩ | ⟨candidate, memory, memoryId, ⟨hfound, happroved, -⟩, -, hrun⟩
  · rw [hrun]
    exact .quiet rfl rfl
  · rw [hrun]
    exact settle_move engine _ hfound (.ingests memoryId happroved rfl)

/-- A call proposes candidates, or settles at most one. -/
theorem perform_moves (request : Request) (db : Db) :
    ReflTransGen Proposed db (engine.perform db request) ∨
      Move db (engine.perform db request) := by
  cases request with
  | observe sourceEvent payload =>
    have hquiet := observe_quiet engine sourceEvent payload db
    exact .inr (.quiet hquiet.1 hquiet.2.1)
  | extract observationId => exact .inl (extract_proposed engine observationId db)
  | approve candidateId reviewer reason =>
    exact .inr (approve_move engine candidateId reviewer reason db)
  | reject candidateId reason reviewer =>
    exact .inr (reject_move engine candidateId reason reviewer db)
  | ingest candidateId => exact .inr (ingest_move engine candidateId db)

end Calls

section Histories

variable {db : Db}

theorem accounted_empty : ({} : Db).Accounted where
  ids := List.nodup_nil
  hashes _ h := absurd h List.not_mem_nil
  verdicts _ h := absurd h List.not_mem_nil
  versions _ h := absurd h List.not_mem_nil
  known _ h := absurd h List.not_mem_nil

theorem proposals_accounted {db' : Db} (hproposed : ReflTransGen Proposed db db')
    (h : db.Accounted) : db'.Accounted := by
  induction hproposed with
  | refl => exact h
  | tail _ hlast ih => exact hlast.accounted ih

theorem proposals_kept {db' : Db} (hproposed : ReflTransGen Proposed db db') {row : CandidateRow}
    (hrow : row ∈ db.candidates) : row ∈ db'.candidates := by
  induction hproposed with
  | refl => exact hrow
  | tail _ hlast ih =>
    obtain ⟨new, -, -, -, -⟩ := hlast
    exact List.mem_append_left _ ih

theorem proposals_ingested {db' : Db} (hproposed : ReflTransGen Proposed db db')
    {row : CandidateRow} (hrow : row ∈ db'.candidates) (hstate : row.state = .ingested) :
    row ∈ db.candidates := by
  induction hproposed with
  | refl => exact hrow
  | tail _ hlast ih =>
    obtain ⟨new, -, hnew, -, -⟩ := hlast
    rcases List.mem_append.mp hrow with hold | hlatest
    · exact ih hold
    · rw [List.mem_singleton.mp hlatest, hnew] at hstate
      cases hstate

theorem perform_accounted (engine : LearningEngine) (request : Request) (h : db.Accounted) :
    (engine.perform db request).Accounted := by
  rcases perform_moves engine request db with hproposed | hmove
  · exact proposals_accounted hproposed h
  · exact hmove.accounted h

theorem perform_kept (engine : LearningEngine) (request : Request) (h : db.Accounted)
    {row : CandidateRow} (hrow : row ∈ db.candidates)
    (hclosed : row.state = .rejected ∨ row.state = .ingested) :
    row ∈ (engine.perform db request).candidates := by
  rcases perform_moves engine request db with hproposed | hmove
  · exact proposals_kept hproposed hrow
  · exact hmove.kept h hrow hclosed

theorem history_accounted (calls : List (LearningEngine × Request)) (h : db.Accounted) :
    (history db calls).Accounted := by
  induction calls generalizing db with
  | nil => exact h
  | cons call rest ih => exact ih (perform_accounted call.1 call.2 h)

theorem history_kept (calls : List (LearningEngine × Request)) (h : db.Accounted)
    {row : CandidateRow} (hrow : row ∈ db.candidates)
    (hclosed : row.state = .rejected ∨ row.state = .ingested) : row ∈ (history db calls).candidates := by
  induction calls generalizing db with
  | nil => exact hrow
  | cons call rest ih =>
    exact ih (perform_accounted call.1 call.2 h) (perform_kept call.1 call.2 h hrow hclosed)

/-- After every history the database is governed: what it rejects or ingests
stays so through every further history, and what the next call ingests has an
approve review already. -/
theorem history_governed (calls : List (LearningEngine × Request)) :
    (history {} calls).Governed ∧
    (∀ later, ∀ row ∈ (history {} calls).candidates, row.state = .rejected ∨ row.state = .ingested →
      row ∈ (history (history {} calls) later).candidates) ∧
    ∀ (engine : LearningEngine) (request : Request),
      ∀ row ∈ (engine.perform (history {} calls) request).candidates, row.state = .ingested →
        row ∈ (history {} calls).candidates ∨
        ∃ review ∈ (history {} calls).reviews,
          review.candidateId = row.id ∧ review.decision = .approve := by
  have haccounted : (history {} calls).Accounted := history_accounted calls accounted_empty
  refine ⟨haccounted.governed, ?_, ?_⟩
  · intro later row hrow hclosed
    exact history_kept later haccounted hrow hclosed
  · intro engine request row hrow hstate
    rcases perform_moves engine request (history {} calls) with hproposed | hmove
    · exact .inl (proposals_ingested hproposed hrow hstate)
    · exact hmove.ingested haccounted hrow hstate

end Histories

end AiosDeck.Learning
