import AiosDeck.Learning.Governance

/-!
# Calls with one statement that fails

The new state of a candidate and the review of it are two statements. A call
that is interrupted before the second leaves the state without the review.
-/

namespace AiosDeck.Learning

open Python Memory Storage

/-- The state that a review leads to. -/
def Decision.state : Decision → CandidateState
  | approve => .approved
  | reject => .rejected
  | ingested => .ingested

/-- A call leaves candidates and reviews alone, or leaves the candidate in the
state that one more review of it names. -/
inductive Atomic (candidateId : ℤ) (db db' : Db) : Prop
  | unchanged (hcandidates : db'.candidates = db.candidates) (hreviews : db'.reviews = db.reviews)
  | recorded (review : ReviewRow) (hreviews : db'.reviews = db.reviews ++ [review])
      (hid : review.candidateId = candidateId)
      (hstate : db'.stateOf candidateId = some review.decision.state)

namespace LearningEngine

/-- The database after a call whose statement behind `n` others fails. -/
def performFailing (engine : LearningEngine) (message : String) (n : ℕ) (db : Db) : Request → Db
  | .observe sourceEvent payload => ((engine.observe sourceEvent payload).runFailing message n db).2
  | .extract observationId => ((engine.extract observationId).runFailing message n db).2
  | .approve candidateId reviewer reason =>
    ((engine.approve candidateId reviewer reason).runFailing message n db).2
  | .reject candidateId reason reviewer =>
    ((engine.reject candidateId reason reviewer).runFailing message n db).2
  | .ingest candidateId => ((engine.ingest candidateId).runFailing message n db).2

/-- The statement behind `n` others is the one that inserts the review. -/
def InsertsReview (engine : LearningEngine) (db : Db) (n : ℕ) : Request → Prop
  | .observe _ _ | .extract _ => False
  | .approve candidateId _ _ => engine.IsOpen candidateId db ∧ n = 2
  | .reject candidateId reason _ => reason ≠ "" ∧ engine.IsOpen candidateId db ∧ n = 2
  | .ingest candidateId => ∃ candidate memory, engine.Ingestible candidateId db candidate memory ∧
      n = if memory.initialized then 3 else 2

end LearningEngine

/-- The candidate that a call is about. -/
def Request.candidateId : Request → Option ℤ
  | .observe _ _ | .extract _ => none
  | .approve candidateId _ _ | .reject candidateId _ _ | .ingest candidateId => some candidateId

section Interrupted

variable {engine : LearningEngine} {candidateId : ℤ} {candidate : CandidateRow} {db : Db}
  {update : CandidateRow → CandidateRow} {review : LearningEngine.Review}

/-- The two statements that settle a candidate are atomic if and only if the
second does not fail. -/
theorem settle_atomic_iff (message : String) (n : ℕ) (memories : Memories)
    (hids : (db.candidates.map CandidateRow.id).Nodup)
    (hfound : engine.candidate candidateId db = some candidate)
    (hid : (update candidate).id = candidate.id)
    (howner : (update candidate).projectId = candidate.projectId)
    (hstate : (update candidate).state = review.decision.state)
    (hchanged : candidate.state ≠ review.decision.state) :
    Atomic candidateId db ((engine.settle candidateId update review).runFailing message n
      { db with memories }).2 ↔ n ≠ 1 := by
  have hnew : (engine.updated candidateId update { db with memories }).stateOf candidateId =
      some review.decision.state := by
    rw [← hstate]
    exact (candidate_updated hids hfound rfl update hid howner).2
  have hbefore : db.stateOf candidateId = some candidate.state := stateOf_found hids hfound
  rcases n with _ | _ | n
  · exact iff_of_true (.unchanged rfl rfl) (by decide)
  · refine iff_of_false ?_ fun h => h rfl
    change ¬ Atomic candidateId db (engine.updated candidateId update { db with memories })
    rintro (⟨hcandidates, -⟩ | ⟨row, hreviews, -, -⟩)
    · unfold Db.stateOf at hnew hbefore
      rw [hcandidates, hbefore] at hnew
      exact hchanged (Option.some.inj hnew)
    · simp [LearningEngine.updated] at hreviews
  · have hrun : ((engine.settle candidateId update review).runFailing message (n + 2)
        { db with memories }).2 =
        engine.reviewed candidateId review (engine.updated candidateId update { db with memories }) :=
      congrArg Prod.snd (Script.runFailing_done message n _ _)
    rw [hrun]
    exact iff_of_true (.recorded _ rfl rfl hnew) (by omega)

theorem atomic_refl (candidateId : ℤ) (db : Db) : Atomic candidateId db db := .unchanged rfl rfl

/-- An approval or a rejection. -/
theorem rule_atomic_iff (message : String) (n : ℕ) (verb : String) {state : CandidateState}
    {review : CandidateRow → LearningEngine.Review}
    (hids : (db.candidates.map CandidateRow.id).Nodup)
    (hstate : ∀ candidate, state = (review candidate).decision.state)
    (hchanged : state ≠ .draft ∧ state ≠ .scored) :
    Atomic candidateId db ((engine.rule verb candidateId state review).runFailing message n db).2 ↔
      ¬ (engine.IsOpen candidateId db ∧ n = 2) := by
  cases n with
  | zero => exact iff_of_true (atomic_refl candidateId db) (by simp)
  | succ n =>
    rw [Script.runFailing_succ]
    by_cases hopen : engine.IsOpen candidateId db
    · obtain ⟨candidate, hfound, hcase⟩ := hopen
      rw [rule_step_open engine hfound hcase]
      have hopenState : candidate.state ≠ (review candidate).decision.state := by
        rw [← hstate candidate]
        rintro rfl
        exact hcase.elim hchanged.1 hchanged.2
      refine (settle_atomic_iff message n db.memories hids hfound rfl rfl (hstate candidate)
        hopenState).trans ?_
      simp only [ne_eq, not_and]
      exact ⟨fun h _ hn => h (by omega), fun h hn => h ⟨candidate, hfound, hcase⟩ (by omega)⟩
    · obtain ⟨exc, hstep⟩ := rule_step_closed engine hopen
      rw [hstep, Script.runFailing_raise]
      exact iff_of_true (atomic_refl candidateId db) fun h => hopen h.1

/-- An ingestion; whether the write to the memory fails does not matter. -/
theorem ingest_atomic_iff (message : String) (n : ℕ)
    (hids : (db.candidates.map CandidateRow.id).Nodup) :
    Atomic candidateId db ((engine.ingest candidateId).runFailing message n db).2 ↔
      ¬ engine.InsertsReview db n (.ingest candidateId) := by
  cases n with
  | zero =>
    refine iff_of_true (atomic_refl candidateId db) ?_
    rintro ⟨candidate, memory, -, hzero⟩
    split at hzero <;> cases hzero
  | succ n =>
    rw [Script.runFailing_succ]
    by_cases hany : ∃ candidate memory, engine.Ingestible candidateId db candidate memory
    · obtain ⟨candidate, memory, h⟩ := hany
      have hinserts : engine.InsertsReview db (n + 1) (.ingest candidateId) ↔
          n = if memory.initialized then 2 else 1 := by
        constructor
        · rintro ⟨other, store, ⟨-, -, hstore⟩, hindex⟩
          rw [Option.some.inj (hstore.symm.trans h.2.2)] at hindex
          split at hindex <;> simp_all
        · intro hindex
          refine ⟨candidate, memory, h, ?_⟩
          split <;> simp_all
      have hsettle : ∀ memoryId k memories,
          Atomic candidateId db (((engine.settle candidateId
            (LearningEngine.ingested candidate memoryId)
            (LearningEngine.ingestion candidate memoryId)).runFailing message k
              { db with memories }).2) ↔ k ≠ 1 := by
        intro memoryId k memories
        have happroved : candidate.state ≠ .ingested := by
          rw [h.2.1]
          decide
        exact settle_atomic_iff message k memories hids h.1 rfl rfl rfl happroved
      rw [ingest_step_approved engine h, hinserts]
      clear hinserts h
      obtain ⟨initialized, fault⟩ := memory
      cases initialized with
      | false =>
        change Atomic candidateId db ((engine.settle candidateId _ _ >>= fun _ =>
          pure (candidate.ingestVersion + 1)).runFailing message n db).2 ↔ _
        rw [Script.runFailing_bind_pure]
        exact hsettle _ n db.memories
      | true =>
        cases n with
        | zero =>
          refine iff_of_true ?_ (by simp)
          change Atomic candidateId db ((engine.settle candidateId _ _ >>= fun _ =>
            pure (candidate.ingestVersion + 1)).run db).2
          rw [Script.run_bind_pure]
          exact (hsettle ("error:" ++ message) 2 db.memories).mpr (by decide)
        | succ n =>
          rw [Script.runFailing_succ]
          have hlast : (n ≠ 1) ↔ ¬ n + 1 = if true then 2 else 1 := by simp
          cases fault with
          | none =>
            change Atomic candidateId db ((engine.settle candidateId _ _ >>= fun _ =>
              pure (candidate.ingestVersion + 1)).runFailing message n
                { db with memories := engine.remembered candidate db.memories }).2 ↔ _
            rw [Script.runFailing_bind_pure]
            exact (hsettle _ n _).trans hlast
          | some exc =>
            change Atomic candidateId db ((engine.settle candidateId _ _ >>= fun _ =>
              pure (candidate.ingestVersion + 1)).runFailing message n db).2 ↔ _
            rw [Script.runFailing_bind_pure]
            exact (hsettle ("error:" ++ exc.message) n db.memories).trans hlast
    · have hrefused : ∀ candidate memory, ¬ engine.Ingestible candidateId db candidate memory :=
        fun candidate memory h => hany ⟨candidate, memory, h⟩
      obtain ⟨exc, hstep⟩ := ingest_step_refused engine hrefused
      rw [hstep, Script.runFailing_raise]
      refine iff_of_true (atomic_refl candidateId db) ?_
      rintro ⟨candidate, memory, h, -⟩
      exact hrefused candidate memory h

end Interrupted

/-- A call on a candidate is atomic if and only if the statement that fails is
not the one that inserts the review. -/
theorem atomic_iff (engine : LearningEngine) {db : Db}
    (hids : (db.candidates.map CandidateRow.id).Nodup) {request : Request} {candidateId : ℤ}
    (hrequest : request.candidateId = some candidateId) (message : String) (n : ℕ) :
    Atomic candidateId db (engine.performFailing message n db request) ↔
      ¬ engine.InsertsReview db n request := by
  cases request with
  | observe | extract => cases hrequest
  | approve id reviewer reason =>
    cases hrequest
    have hsettled : CandidateState.approved ≠ .draft ∧ CandidateState.approved ≠ .scored := by decide
    exact rule_atomic_iff message n "approve" hids (fun _ => rfl) hsettled
  | reject id reason reviewer =>
    cases hrequest
    change Atomic candidateId db ((engine.reject candidateId reason reviewer).runFailing
      message n db).2 ↔ ¬ (reason ≠ "" ∧ engine.IsOpen candidateId db ∧ n = 2)
    unfold LearningEngine.reject
    by_cases hreason : reason = ""
    · rw [if_pos hreason]
      refine iff_of_true ?_ fun h => h.1 hreason
      change Atomic candidateId db (Script.runFailing message n (.raise _) db).2
      rw [Script.runFailing_raise]
      exact atomic_refl candidateId db
    · rw [if_neg hreason]
      have hsettled : CandidateState.rejected ≠ .draft ∧ CandidateState.rejected ≠ .scored := by
        decide
      have hrule : Atomic candidateId db ((engine.rule "reject" candidateId .rejected
          (engine.rejection reason reviewer)).runFailing message n db).2 ↔
            ¬ (engine.IsOpen candidateId db ∧ n = 2) :=
        rule_atomic_iff message n "reject" hids (fun _ => rfl) hsettled
      exact hrule.trans (not_congr (and_iff_right hreason).symm)
  | ingest id =>
    cases hrequest
    exact ingest_atomic_iff message n hids

/-- A database with one draft candidate. -/
def draftDb : Db where
  candidates := [{
    id := 1
    observationId := 1
    content := "Pin the linter version"
    suggestedType := .dependencyNote
    confidence := decimal (4 / 5)
    riskLevel := .low
    evidenceRefs := []
    dedupeHash := []
    state := .draft
    ingestVersion := 0
    ingestedMemoryId := ""
    projectId := "demo"
    createdAt := "" }]

/-- The approval that fails at the update of the state. -/
theorem atomic_draft : Atomic 1 draftDb (LearningEngine.performFailing { projectId := "demo" }
    "database is locked" 1 draftDb (.approve 1 "alice" "")) := by
  have hids : (draftDb.candidates.map CandidateRow.id).Nodup := List.nodup_singleton 1
  refine (atomic_iff { projectId := "demo" } hids rfl "database is locked" 1).mpr ?_
  rintro ⟨-, hlast⟩
  cases hlast

/-- The approval that fails at the insertion of the review. -/
theorem not_atomic_draft : ¬ Atomic 1 draftDb (LearningEngine.performFailing { projectId := "demo" }
    "database is locked" 2 draftDb (.approve 1 "alice" "")) := by
  rintro (⟨hcandidates, -⟩ | ⟨review, hreviews, -, -⟩)
  · have hstate := congrArg (List.map CandidateRow.state) hcandidates
    exact absurd hstate (by decide)
  · cases hreviews

end AiosDeck.Learning
