import AiosDeck.Learning.Governance

/-!
# An approval against a rejection

Two engines on one database, one approving a candidate and one rejecting it,
with their statements in any order. The write is not guarded by the state
that was read, so both succeed when both read before either writes.
-/

namespace AiosDeck.Learning

open Python Storage

/-- An approval or a rejection by an engine. -/
structure Ruling where
  engine : LearningEngine
  verb : String
  state : CandidateState
  review : CandidateRow → LearningEngine.Review

namespace Ruling

/-- The call, before its first statement. -/
def call (ruling : Ruling) (candidateId : ℤ) : Script Db ℤ :=
  ruling.engine.rule ruling.verb candidateId ruling.state ruling.review

/-- The call behind its first statement, when this has read an open candidate. -/
def settle (ruling : Ruling) (candidateId : ℤ) (candidate : CandidateRow) : Script Db ℤ :=
  ruling.engine.settle candidateId (fun row => { row with state := ruling.state })
    (ruling.review candidate)

/-- The call behind its second statement. -/
def record (ruling : Ruling) (candidateId : ℤ) (candidate : CandidateRow) : Script Db ℤ :=
  ruling.engine.insertReview candidateId (ruling.review candidate)

/-- The candidate is read as open, so that nothing stops the call any more. -/
def Certain (ruling : Ruling) (candidateId : ℤ) (candidate : CandidateRow)
    (call : Script Db ℤ) : Prop :=
  call = ruling.settle candidateId candidate ∨ call = ruling.record candidateId candidate ∨
    ∃ reviewId, call = .done reviewId

variable {first second : Ruling} {candidateId : ℤ} {candidate : CandidateRow}

theorem Certain.step {call : Script Db ℤ} (h : first.Certain candidateId candidate call) (db : Db) :
    first.Certain candidateId candidate (call.step db).1 := by
  rcases h with rfl | rfl | ⟨reviewId, rfl⟩
  · exact .inr (.inl rfl)
  · exact .inr (.inr ⟨_, rfl⟩)
  · exact .inr (.inr ⟨reviewId, rfl⟩)

theorem Certain.result {call : Script Db ℤ} (h : first.Certain candidateId candidate call)
    (hended : call.result.isSome) : ∃ reviewId, call.result = some (.ok reviewId) := by
  rcases h with rfl | rfl | ⟨reviewId, rfl⟩
  · cases hended
  · cases hended
  · exact ⟨reviewId, rfl⟩

/-- One call has settled the candidate before the other has read it. -/
structure Ahead (first second : Ruling) (candidateId : ℤ) (candidate : CandidateRow)
    (race : Race Db ℤ ℤ) : Prop where
  closed : ∃ settled, second.engine.candidate candidateId race.db = some settled ∧
    settled.state ∈ [CandidateState.approved, .rejected, .ingested]
  state : race.db.stateOf candidateId = some first.state
  left : race.left = first.record candidateId candidate ∧ race.db.verdicts candidateId = [] ∨
    (∃ reviewId, race.left = .done reviewId) ∧
      race.db.verdicts candidateId = [(first.review candidate).decision]
  right : race.right = second.call candidateId ∨ ∃ exc, race.right = .raise exc

theorem Ahead.step {race : Race Db ℤ ℤ} (h : Ahead first second candidateId candidate race)
    (hverdict : (first.review candidate).decision ≠ .ingested) (side : Bool) :
    Ahead first second candidateId candidate (race.step side) := by
  obtain ⟨left, right, db⟩ := race
  obtain ⟨hclosed, hstate, hleft, hright⟩ := h
  cases side with
  | true =>
    rcases hleft with ⟨hrecord, hnone⟩ | ⟨⟨reviewId, hdone⟩, hone⟩
    · change left = first.record candidateId candidate at hrecord
      subst hrecord
      refine ⟨hclosed, hstate, .inr ⟨⟨_, rfl⟩, ?_⟩, hright⟩
      change (first.engine.reviewed candidateId (first.review candidate) db).verdicts candidateId = _
      change db.verdicts candidateId = [] at hnone
      rw [verdicts_reviewed, if_pos rfl, hnone]
      simp [hverdict]
    · change left = .done reviewId at hdone
      subst hdone
      exact ⟨hclosed, hstate, .inr ⟨⟨reviewId, rfl⟩, hone⟩, hright⟩
  | false =>
    rcases hright with hcall | ⟨exc, hraise⟩
    · obtain ⟨settled, hfound, hsettled⟩ := hclosed
      change right = second.call candidateId at hcall
      have hnot : ¬ second.engine.IsOpen candidateId db := by
        rintro ⟨other, hother, hopen⟩
        rw [Option.some.inj (hfound.symm.trans hother)] at hsettled
        rcases hopen with hopen | hopen <;> simp [hopen] at hsettled
      obtain ⟨exc, hstep⟩ : ∃ exc, (second.call candidateId).step db = (.raise exc, db) :=
        rule_step_closed _ hnot
      have hafter : Race.step ⟨left, right, db⟩ false = ⟨left, .raise exc, db⟩ := by
        subst hcall
        simp only [Race.step, hstep]
      rw [hafter]
      exact ⟨⟨settled, hfound, hsettled⟩, hstate, hleft, .inr ⟨exc, rfl⟩⟩
    · change right = .raise exc at hraise
      subst hraise
      exact ⟨hclosed, hstate, hleft, .inr ⟨exc, rfl⟩⟩

/-- The left call has succeeded and the right one has been refused; the one
verdict on the candidate is that of the left call, and names its state. -/
structure Won (ruling : Ruling) (candidateId : ℤ) (candidate : CandidateRow)
    (race : Race Db ℤ ℤ) : Prop where
  left : ∃ reviewId, race.left.result = some (.ok reviewId)
  right : ∃ exc, race.right.result = some (.error exc)
  verdict : race.db.verdicts candidateId = [(ruling.review candidate).decision]
  state : race.db.stateOf candidateId = some ruling.state

/-- The call that was ahead wins. -/
theorem Ahead.won {race : Race Db ℤ ℤ} (h : Ahead first second candidateId candidate race)
    (hleft : race.left.result.isSome) (hright : race.right.result.isSome) :
    first.Won candidateId candidate race := by
  have hone : (∃ reviewId, race.left = .done reviewId) ∧
      race.db.verdicts candidateId = [(first.review candidate).decision] := by
    rcases h.left with ⟨hrecord, -⟩ | hdone
    · rw [hrecord] at hleft
      cases hleft
    · exact hdone
  have htwo : ∃ exc, race.right = .raise exc := by
    rcases h.right with hcall | hraise
    · rw [hcall] at hright
      cases hright
    · exact hraise
  obtain ⟨⟨reviewId, hdone⟩, hverdict⟩ := hone
  obtain ⟨exc, hraise⟩ := htwo
  exact ⟨⟨reviewId, by rw [hdone]; rfl⟩, ⟨exc, by rw [hraise]; rfl⟩, hverdict, h.state⟩

section Start

variable {db : Db} (hids : (db.candidates.map CandidateRow.id).Nodup)
  (hfound : first.engine.candidate candidateId db = some candidate)
  (hscored : candidate.state = .scored) (hnone : db.verdicts candidateId = [])
  (hproject : second.engine.projectId = first.engine.projectId)
  (hstate : first.state ∈ [CandidateState.approved, .rejected, .ingested])
  (hverdict : (first.review candidate).decision ≠ .ingested)

include hids hfound hnone hproject hstate

/-- With the statement that writes the state a call is ahead. -/
theorem ahead_of_settle {right : Script Db ℤ}
    (hright : right = second.call candidateId ∨ ∃ exc, right = .raise exc) :
    Ahead first second candidateId candidate
      (Race.step ⟨first.settle candidateId candidate, right, db⟩ true) := by
  obtain ⟨hcandidate, hafter⟩ := candidate_updated hids hfound hproject
    (fun row => { row with state := first.state }) rfl rfl
  exact ⟨⟨_, hcandidate, hstate⟩, hafter, .inl ⟨rfl, hnone⟩, hright⟩

include hscored hverdict

/-- A call whose first two statements come first wins. -/
theorem won_of_two {right : Script Db ℤ}
    (hright : right = second.call candidateId ∨ ∃ exc, right = .raise exc) (rest : List Bool)
    (hended : ((Race.mk (first.call candidateId) right db).run
      (true :: true :: rest)).left.result.isSome)
    (hother : ((Race.mk (first.call candidateId) right db).run
      (true :: true :: rest)).right.result.isSome) :
    first.Won candidateId candidate
      ((Race.mk (first.call candidateId) right db).run (true :: true :: rest)) := by
  have hread : Race.step ⟨first.call candidateId, right, db⟩ true =
      ⟨first.settle candidateId candidate, right, db⟩ := by
    have hstep : (first.call candidateId).step db = (first.settle candidateId candidate, db) :=
      rule_step_open _ hfound (.inr hscored)
    simp only [Race.step, hstep]
  have hrun : (Race.mk (first.call candidateId) right db).run (true :: true :: rest) =
      (Race.step ⟨first.settle candidateId candidate, right, db⟩ true).run rest := by
    rw [← hread]
    rfl
  rw [hrun] at hended hother ⊢
  have hahead := ahead_of_settle hids hfound hnone hproject hstate hright
  have hkept := Race.run_invariant (P := Ahead first second candidateId candidate)
    (fun _ hrace side => hrace.step hverdict side) hahead rest
  exact hkept.won hended hother

/-- Against a call that is refused without a statement, a call wins in any
order. -/
theorem won_alone (exc : PyExc) (order : List Bool)
    (hended : ((Race.mk (first.call candidateId) (.raise exc : Script Db ℤ) db).run
      order).left.result.isSome) :
    first.Won candidateId candidate
      ((Race.mk (first.call candidateId) (.raise exc : Script Db ℤ) db).run order) := by
  have hread : (first.call candidateId).step db = (first.settle candidateId candidate, db) :=
    rule_step_open _ hfound (.inr hscored)
  let Alone : Race Db ℤ ℤ → Prop := fun race => race.right = .raise exc ∧
    (race = ⟨first.call candidateId, .raise exc, db⟩ ∨
      race = ⟨first.settle candidateId candidate, .raise exc, db⟩ ∨
      Ahead first second candidateId candidate race)
  have hstep : ∀ race, Alone race → ∀ side, Alone (race.step side) := by
    rintro race ⟨hraise, hphase⟩ side
    have hright : (race.step side).right = .raise exc := by
      cases side with
      | true => exact hraise
      | false =>
        change (race.right.step race.db).1 = .raise exc
        rw [hraise]
        rfl
    refine ⟨hright, ?_⟩
    rcases hphase with rfl | rfl | hahead
    · cases side with
      | true =>
        refine .inr (.inl ?_)
        simp only [Race.step, hread]
      | false => exact .inl rfl
    · cases side with
      | true =>
        exact .inr (.inr (ahead_of_settle hids hfound hnone hproject hstate (.inr ⟨exc, rfl⟩)))
      | false => exact .inr (.inl rfl)
    · exact .inr (.inr (hahead.step hverdict side))
  have hstart : Alone ⟨first.call candidateId, .raise exc, db⟩ := ⟨rfl, .inl rfl⟩
  obtain ⟨hraise, hphase⟩ := Race.run_invariant hstep hstart order
  rcases hphase with hcall | hsettle | hahead
  · rw [hcall] at hended
    cases hended
  · rw [hsettle] at hended
    cases hended
  · refine hahead.won hended ?_
    rw [hraise]
    rfl

end Start

end Ruling

/-- An approval and a rejection of one candidate. -/
structure Dispute where
  approver : LearningEngine
  rejecter : LearningEngine
  candidateId : ℤ
  reviewer : String
  approveReason : String
  rejectReason : String
  rejectReviewer : String

namespace Dispute

variable (dispute : Dispute)

/-- The two calls, before their first statement. -/
def start (db : Db) : Race Db ℤ ℤ where
  left := dispute.approver.approve dispute.candidateId dispute.reviewer dispute.approveReason
  right := dispute.rejecter.reject dispute.candidateId dispute.rejectReason dispute.rejectReviewer
  db := db

/-- One call has succeeded and the other has not; the one verdict on the
candidate is that of the call that has, and names the state. -/
def Decided (race : Race Db ℤ ℤ) : Prop :=
  (∃ reviewId exc, race.left.result = some (.ok reviewId) ∧ race.right.result = some (.error exc) ∧
    race.db.verdicts dispute.candidateId = [.approve] ∧
    race.db.stateOf dispute.candidateId = some .approved) ∨
  ∃ exc reviewId, race.left.result = some (.error exc) ∧ race.right.result = some (.ok reviewId) ∧
    race.db.verdicts dispute.candidateId = [.reject] ∧
    race.db.stateOf dispute.candidateId = some .rejected

/-- The approval of the dispute. -/
def approval : Ruling :=
  ⟨dispute.approver, "approve", .approved,
    dispute.approver.approval dispute.reviewer dispute.approveReason⟩

/-- The rejection of the dispute. -/
def rejection : Ruling :=
  ⟨dispute.rejecter, "reject", .rejected,
    dispute.rejecter.rejection dispute.rejectReason dispute.rejectReviewer⟩

variable {dispute} {db : Db} {candidate : CandidateRow}

/-- Both calls are certain to succeed. -/
def Certain (dispute : Dispute) (candidate : CandidateRow) (race : Race Db ℤ ℤ) : Prop :=
  dispute.approval.Certain dispute.candidateId candidate race.left ∧
    dispute.rejection.Certain dispute.candidateId candidate race.right

theorem Certain.step {race : Race Db ℤ ℤ} (h : dispute.Certain candidate race) (side : Bool) :
    dispute.Certain candidate (race.step side) := by
  cases side with
  | true => exact ⟨h.1.step race.db, h.2⟩
  | false => exact ⟨h.1, h.2.step race.db⟩

/-- Two calls that both succeed leave the dispute undecided. -/
theorem Certain.not_decided {race : Race Db ℤ ℤ} (h : dispute.Certain candidate race)
    (hleft : race.left.result.isSome) (hright : race.right.result.isSome) :
    ¬ dispute.Decided race := by
  obtain ⟨approveId, happroved⟩ := h.1.result hleft
  obtain ⟨rejectId, hrejected⟩ := h.2.result hright
  rintro (⟨reviewId, exc, -, herror, -⟩ | ⟨exc, reviewId, herror, -⟩)
  · rw [hrejected] at herror
    cases herror
  · rw [happroved] at herror
    cases herror

theorem decided_of_approval {race : Race Db ℤ ℤ}
    (h : dispute.approval.Won dispute.candidateId candidate race) : dispute.Decided race := by
  obtain ⟨⟨reviewId, hleft⟩, ⟨exc, hright⟩, hverdict, hstate⟩ := h
  exact .inl ⟨reviewId, exc, hleft, hright, hverdict, hstate⟩

theorem decided_of_rejection {race : Race Db ℤ ℤ}
    (h : dispute.rejection.Won dispute.candidateId candidate race.swap) : dispute.Decided race := by
  obtain ⟨⟨reviewId, hright⟩, ⟨exc, hleft⟩, hverdict, hstate⟩ := h
  exact .inr ⟨exc, reviewId, hleft, hright, hverdict, hstate⟩

/-- With a reason, the rejection reads the candidate as the approval does. -/
theorem start_reason (hreason : dispute.rejectReason ≠ "") :
    dispute.start db = ⟨dispute.approval.call dispute.candidateId,
      dispute.rejection.call dispute.candidateId, db⟩ := by
  unfold start LearningEngine.reject
  rw [if_neg hreason]
  rfl

/-- Exactly one of an approval and a rejection of a scored candidate succeeds
if and only if the rejection gives no reason or one of the two calls issues
the first two statements. -/
theorem decided_iff (hids : (db.candidates.map CandidateRow.id).Nodup)
    (hfound : dispute.approver.candidate dispute.candidateId db = some candidate)
    (hproject : dispute.rejecter.projectId = dispute.approver.projectId)
    (hscored : candidate.state = .scored) (hnone : db.verdicts dispute.candidateId = [])
    (order : List Bool)
    (hleft : ((dispute.start db).run order).left.result.isSome)
    (hright : ((dispute.start db).run order).right.result.isSome) :
    dispute.Decided ((dispute.start db).run order) ↔
      dispute.rejectReason = "" ∨ order.take 2 = [true, true] ∨ order.take 2 = [false, false] := by
  have hother : dispute.rejection.engine.candidate dispute.candidateId db = some candidate := by
    unfold LearningEngine.candidate at hfound ⊢
    rw [← hproject] at hfound
    exact hfound
  have hsame : dispute.rejection.engine.projectId = dispute.approval.engine.projectId := hproject
  have hread : (dispute.approval.call dispute.candidateId).step db =
      (dispute.approval.settle dispute.candidateId candidate, db) :=
    rule_step_open _ hfound (.inr hscored)
  have hreadOther : (dispute.rejection.call dispute.candidateId).step db =
      (dispute.rejection.settle dispute.candidateId candidate, db) :=
    rule_step_open _ hother (.inr hscored)
  have happroved : dispute.approval.state ∈ [CandidateState.approved, .rejected, .ingested] :=
    List.mem_cons_self
  have hrejected : dispute.rejection.state ∈ [CandidateState.approved, .rejected, .ingested] :=
    List.mem_cons_of_mem _ List.mem_cons_self
  have happrove : (dispute.approval.review candidate).decision ≠ .ingested := Decision.noConfusion
  have hreject : (dispute.rejection.review candidate).decision ≠ .ingested := Decision.noConfusion
  by_cases hreason : dispute.rejectReason = ""
  · have hstart : dispute.start db = ⟨dispute.approval.call dispute.candidateId,
        .raise (runtimeError "Reason is required to reject a candidate"), db⟩ := by
      unfold start LearningEngine.reject
      rw [if_pos hreason]
      rfl
    rw [hstart] at hleft ⊢
    exact iff_of_true (decided_of_approval (Ruling.won_alone hids hfound hscored hnone hsame
      happroved happrove _ order hleft)) (.inl hreason)
  · rw [start_reason hreason] at hleft hright ⊢
    let race : Race Db ℤ ℤ := ⟨dispute.approval.call dispute.candidateId,
      dispute.rejection.call dispute.candidateId, db⟩
    let both : Race Db ℤ ℤ := ⟨dispute.approval.settle dispute.candidateId candidate,
      dispute.rejection.settle dispute.candidateId candidate, db⟩
    have hcertain : ∀ rest, (both.run rest).left.result.isSome →
        (both.run rest).right.result.isSome → ¬ dispute.Decided (both.run rest) := by
      intro rest hone htwo
      have hboth : dispute.Certain candidate both := ⟨.inl rfl, .inl rfl⟩
      exact (Race.run_invariant (fun _ h side => h.step side) hboth rest).not_decided hone htwo
    have hone : race.step true = ⟨dispute.approval.settle dispute.candidateId candidate,
        dispute.rejection.call dispute.candidateId, db⟩ := by
      simp only [race, Race.step, hread]
    have htwo : race.step false = ⟨dispute.approval.call dispute.candidateId,
        dispute.rejection.settle dispute.candidateId candidate, db⟩ := by
      simp only [race, Race.step, hreadOther]
    have hcrossed : ∀ side, (race.step side).step (!side) = both := by
      intro side
      cases side with
      | true =>
        rw [hone]
        simp only [both, Race.step, Bool.not_true, hreadOther]
      | false =>
        rw [htwo]
        simp only [both, Race.step, Bool.not_false, hread]
    change dispute.Decided (race.run order) ↔ _
    change (race.run order).left.result.isSome at hleft
    change (race.run order).right.result.isSome at hright
    rcases order with _ | ⟨side, _ | ⟨next, rest⟩⟩
    · cases hleft
    · cases side with
      | true =>
        change (race.step true).right.result.isSome at hright
        rw [hone] at hright
        cases hright
      | false =>
        change (race.step false).left.result.isSome at hleft
        rw [htwo] at hleft
        cases hleft
    · by_cases hnext : next = side
      · subst hnext
        cases next with
        | true =>
          exact iff_of_true (decided_of_approval (Ruling.won_of_two hids hfound hscored hnone hsame
            happroved happrove
            (.inl rfl) rest hleft hright)) (.inr (.inl rfl))
        | false =>
          have hswap : (race.run (false :: false :: rest)).swap =
              race.swap.run (true :: true :: rest.map not) := Race.run_swap race _
          have hwon : dispute.rejection.Won dispute.candidateId candidate
              (race.run (false :: false :: rest)).swap := by
            change (race.run (false :: false :: rest)).swap.right.result.isSome at hleft
            change (race.run (false :: false :: rest)).swap.left.result.isSome at hright
            rw [hswap] at hleft hright ⊢
            exact Ruling.won_of_two hids hother hscored hnone hsame.symm hrejected hreject
              (.inl rfl) _ hright hleft
          exact iff_of_true (decided_of_rejection hwon) (.inr (.inr rfl))
      · have hflip : next = !side := Bool.eq_not_of_ne hnext
        have hrun : race.run (side :: next :: rest) = both.run rest := by
          rw [← hcrossed side, ← hflip]
          rfl
        rw [hrun] at hleft hright ⊢
        refine iff_of_false (hcertain rest hleft hright) ?_
        subst hflip
        cases side <;> simp [hreason]

end Dispute

/-- A database with one scored candidate. -/
def scoredDb : Db where
  candidates := [{
    id := 1
    observationId := 1
    content := "Use type hints"
    suggestedType := .convention
    confidence := decimal (4 / 5)
    riskLevel := .low
    evidenceRefs := []
    dedupeHash := []
    state := .scored
    ingestVersion := 0
    ingestedMemoryId := ""
    projectId := "demo"
    createdAt := "" }]

/-- Two engines that disagree about it. -/
def scoredDispute : Dispute where
  approver := { projectId := "demo" }
  rejecter := { projectId := "demo" }
  candidateId := 1
  reviewer := "alice"
  approveReason := ""
  rejectReason := "too vague"
  rejectReviewer := "bob"

/-- An approval that reads and writes first wins. -/
theorem decided_scored :
    scoredDispute.Decided ((scoredDispute.start scoredDb).run [true, true, false, true]) := by
  have hids : (scoredDb.candidates.map CandidateRow.id).Nodup := List.nodup_singleton 1
  exact (Dispute.decided_iff hids rfl rfl rfl rfl _ rfl rfl).mpr (.inr (.inl rfl))

/-- When both read before either writes, both succeed. -/
theorem not_decided_scored :
    ¬ scoredDispute.Decided
        ((scoredDispute.start scoredDb).run [true, false, true, false, true, false]) ∧
      ((scoredDispute.start scoredDb).run [true, false, true, false, true, false]).db.verdicts 1 =
        [.approve, .reject] := by
  refine ⟨?_, rfl⟩
  have happroved : ((scoredDispute.start scoredDb).run
      [true, false, true, false, true, false]).left.result = some (.ok 1) := rfl
  have hrejected : ((scoredDispute.start scoredDb).run
      [true, false, true, false, true, false]).right.result = some (.ok 2) := rfl
  rintro (⟨reviewId, exc, -, herror, -⟩ | ⟨exc, reviewId, herror, -⟩)
  · rw [hrejected] at herror
    cases herror
  · rw [happroved] at herror
    cases herror

end AiosDeck.Learning
