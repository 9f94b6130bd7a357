import AiosDeck.Workflow.Plans
import AiosDeck.Workflow.TestVerdict

/-!
# Done cards and green tests

A card is done as soon as its developer delivered, with its gate passed. The
tests come later, and a run has many exits in front of them. What the board
says about the tests is therefore decided by the deliveries and the session
of the tester alone.
-/

namespace AiosDeck.Workflow

open Python Agents Security Quality Scheduler Program KanbanState Trace

/-- A call of the developer: the work on a card. -/
def Event.isDevelopment : Event → Bool
  | .agent call => call.site.isDeveloper
  | _ => false

namespace WorkflowEngine

/-- The tests were run and passed, and nothing was developed afterwards. -/
def TestedAfterWork (engine : WorkflowEngine) (sessions : Sessions) (trace : List Event) : Prop :=
  ∃ front call rest attempt, trace = front ++ .agent call :: rest ∧ call.site = .test ∧
    .invoked attempt ∈ call.log ∧ (sessions front attempt).Green engine.testsPath ∧
      ∀ e ∈ rest, e.isDevelopment = false

/-- Each card of the run is done, with its gate passed, only behind green tests. -/
def DoneMeansGreen (engine : WorkflowEngine) (sessions : Sessions) (s : EngineState) : Prop :=
  ∀ board, s.ctx.board = some board → ∀ card ∈ s.kanban.cardsOf board.id,
    card.column = .done → card.tddGate = true → engine.TestedAfterWork sessions s.trace

/-- Every site but the tester. -/
def untested : Footprint := ⟨fun site => site ≠ .test, fun _ => True⟩

/-- Every site but the developer. -/
def undeveloped : Footprint := ⟨fun site => site.isDeveloper = false, fun _ => True⟩

/-- The tester was not called. -/
def NoTest (s : EngineState) : Prop := ∀ e ∈ s.trace, e.isTest = false

/-- The developer was called only before the tester. -/
def TestsLast (s : EngineState) : Prop :=
  Before (fun e => e.isDevelopment = true) (fun front => ∀ e ∈ front, e.isTest = false) s.trace

variable {engine : WorkflowEngine} {world : World} {sessions : Sessions} {α : Type}

theorem NoTest.testsLast {s : EngineState} (h : NoTest s) : TestsLast s := by
  intro front e rest heq _ e' he'
  refine h e' ?_
  rw [heq]
  exact List.mem_append_left _ he'

theorem untested_phase {x : EngineM α} (h : Framed (Extends engine world untested) x) :
    Keeps NoTest x := by
  refine h.keeps fun s t hst hs e he => ?_
  rcases hst.appended.mem he with hold | ⟨hwithin, -⟩
  · exact hs e hold
  · cases e with
    | agent call =>
      have hsite : call.site ≠ .test := hwithin
      simpa [Event.isTest] using hsite
    | _ => rfl

theorem undeveloped_phase {x : EngineM α} (h : Framed (Extends engine world undeveloped) x) :
    Keeps TestsLast x := by
  refine h.keeps fun s t hst hs => ?_
  obtain ⟨more, heq, hmore⟩ := hst.appended
  unfold TestsLast
  rw [heq]
  refine hs.append fun front e rest hsplit hdevelopment => ?_
  have hmem : e ∈ more := by simp [hsplit]
  cases e with
  | agent call =>
    have hsite : call.site.isDeveloper = false := (hmore _ hmem).1
    have hdeveloper : call.site.isDeveloper = true := hdevelopment
    rw [hsite] at hdeveloper
    cases hdeveloper
  | _ => cases hdevelopment

/-- In every run the developer is called only before the tester. -/
theorem pipeline_testsLast (task : Task) (createBranch : Bool) :
    Triple NoTest (pipeline engine world task createBranch) (fun _ => TestsLast)
      (fun _ => TestsLast) := by
  have hearly : ∀ {α : Type} {x : EngineM α}, Framed (Extends engine world untested) x →
      Triple NoTest x (fun _ => NoTest) (fun _ => TestsLast) :=
    fun h => (untested_phase h).conseq (fun _ hs => hs) (fun _ _ hs => hs) fun _ _ hs => hs.testsLast
  have hstarted : Framed (Extends engine world untested) (publishStarted engine world) :=
    Framed.ite (Framed.pure _) (publishQuality_framed _)
  refine Triple.bind (R := fun _ => TestsLast) ?_ fun _ =>
    undeveloped_phase (deliver_framed _ rfl rfl)
  refine (hearly hstarted).bind fun _ => ?_
  refine (hearly (researchPhase_framed _ task (by simp [untested]))).bind fun _ => ?_
  refine (hearly (plannerPhase_framed _ task (by simp [untested]))).bind fun subtasks => ?_
  refine (hearly (branchPhase_framed _ createBranch (by simp [untested]))).bind fun _ => ?_
  refine (hearly (schedulerPhase_framed _ subtasks)).bind fun items => ?_
  refine Triple.bind ((hearly (develop_framed _ items (by simp [untested]))).bind fun _ =>
    hearly (gatePhase_framed _ _ trivial)) fun _ => ?_
  -- behind the developer phase no call is one of the developer
  refine Triple.weaken_pre (P := TestsLast) ?_ fun _ hs => hs.testsLast
  refine (undeveloped_phase (reviewerPhase_framed _ rfl)).bind fun _ => ?_
  refine (undeveloped_phase (gatePhase_framed _ _ trivial)).bind fun _ => ?_
  refine (undeveloped_phase (testerPhase_framed _ rfl)).bind fun failed => ?_
  refine Triple.bind (R := fun _ => TestsLast) (Triple.get fun _ hs => hs) fun s => ?_
  refine (undeveloped_phase (gatePhase_framed _ _ trivial)).bind fun _ => ?_
  refine (undeveloped_phase (documentationPhase_framed _ failed rfl)).bind fun _ => ?_
  refine (undeveloped_phase (gatePhase_framed _ _ trivial)).bind fun _ => ?_
  exact undeveloped_phase (releasePhase_framed _ trivial)

/-- Green tests of such a run came after all work. -/
theorem testedAfterWork_iff {s : EngineState} (h : TestsLast s) :
    engine.TestedAfterWork sessions s.trace ↔ engine.TestedGreen sessions s.trace := by
  constructor
  · rintro ⟨front, call, rest, attempt, heq, hsite, hinvoked, hgreen, -⟩
    exact ⟨front, call, rest, attempt, heq, hsite, hinvoked, hgreen⟩
  · rintro ⟨front, call, rest, attempt, heq, hsite, hinvoked, hgreen⟩
    refine ⟨front, call, rest, attempt, heq, hsite, hinvoked, hgreen, fun e he => ?_⟩
    by_contra hdevelopment
    obtain ⟨middle, last, rfl⟩ := List.append_of_mem he
    have hsplit : s.trace = (front ++ .agent call :: middle) ++ e :: last := by simp [heq]
    have htest := h _ e last hsplit (by simpa using hdevelopment) (.agent call) (by simp)
    simp [Event.isTest, hsite] at htest

end WorkflowEngine

/-- How the rows stand: those of the deliveries are done with their gate
passed, and no other. -/
theorem Partly.done_iff {projectId : String} {fresh rows : List KanbanCard} {developed k : ℕ}
    (h : Partly fresh developed rows) (hfresh : ∀ card ∈ fresh, IsFresh projectId card)
    {card : KanbanCard} (hcard : rows[k]? = some card) :
    (card.column = .done ↔ k < developed) ∧ (k < developed → card.tddGate = true) := by
  have hbetween : ∀ {card}, (mirrored fresh developed)[k]? = some card →
      (card.column = .done ↔ k < developed) ∧ (k < developed → card.tddGate = true) := by
    intro card hrow
    rw [mirrored, List.getElem?_mapIdx] at hrow
    obtain ⟨row, hmem, rfl⟩ := Option.map_eq_some_iff.mp hrow
    by_cases hlt : k < developed
    · rw [if_pos hlt]
      exact ⟨⟨fun _ => hlt, fun _ => rfl⟩, fun _ => rfl⟩
    · rw [if_neg hlt, (hfresh row (List.mem_of_getElem? hmem)).backlog]
      exact ⟨⟨fun h => (by cases h), fun h => absurd h hlt⟩, fun h => absurd h hlt⟩
  -- the card that is worked on was not delivered
  have hworked : ∀ {change : KanbanCard → KanbanCard},
      (∀ card : KanbanCard, (change card).column = .inProgress) →
      ((mirrored fresh developed).modify developed change)[k]? = some card →
      (card.column = .done ↔ k < developed) ∧ (k < developed → card.tddGate = true) := by
    intro change hchange hrow
    rw [List.getElem?_modify] at hrow
    obtain ⟨row, hmem, heq⟩ := Option.map_eq_some_iff.mp hrow
    by_cases hk : developed = k
    · rw [if_pos hk] at heq
      rw [← heq, hchange, hk]
      exact ⟨⟨fun h => (by cases h), fun h => absurd h (lt_irrefl _)⟩,
        fun h => absurd h (lt_irrefl _)⟩
    · rw [if_neg hk] at heq
      rw [← heq]
      exact hbetween hmem
  cases h with
  | between => exact hbetween hcard
  | working => exact hworked (fun _ => rfl) hcard
  | failing => exact hworked (fun _ => rfl) hcard
  | blocked position reason =>
    rw [List.getElem?_modify] at hcard
    obtain ⟨row, hmem, heq⟩ := Option.map_eq_some_iff.mp hcard
    have hrow := hbetween hmem
    rw [← heq]
    by_cases hk : position = k
    · rw [if_pos hk]
      exact hrow
    · rw [if_neg hk]
      exact hrow

/-- A card of the board is done exactly when something was delivered. -/
theorem Standing.done_iff {projectId : String} {listed : List Json → Prop} {s : EngineState}
    (h : Standing projectId listed s) :
    (∃ board, s.ctx.board = some board ∧ ∃ card ∈ s.kanban.cardsOf board.id,
      card.column = .done ∧ card.tddGate = true) ↔ 0 < s.developed := by
  rcases h with h | ⟨items, fresh, -, hfresh, rows, completed, developed, hbound, hpartly, K, board,
    cards, hboarded, hshows⟩
  · rw [h.board, h.developed]
    exact ⟨fun ⟨_, hnone, _⟩ => (by cases hnone), fun h => absurd h (lt_irrefl _)⟩
  · have hrows : s.kanban.cardsOf board.id = rows := by
      rw [hshows.tables.cardsOf_eq, hboarded.stands]
    rw [hshows.board, hshows.developed]
    constructor
    · rintro ⟨found, heq, card, hmem, hdone, -⟩
      cases heq
      rw [hrows] at hmem
      obtain ⟨k, hk⟩ := List.mem_iff_getElem?.mp hmem
      exact Nat.zero_lt_of_lt (((hpartly.done_iff hfresh hk).1).mp hdone)
    · intro hpos
      have hlength : rows.length = items.length := by
        have htitles := congrArg List.length hboarded.titles
        rw [List.length_map, List.length_map] at htitles
        exact htitles.symm
      have hzero : 0 < rows.length := by omega
      have hrow : rows[0]? = some rows[0] := List.getElem?_eq_getElem hzero
      have hdone := hpartly.done_iff hfresh hrow
      refine ⟨board, rfl, rows[0], ?_, hdone.1.mpr hpos, hdone.2 hpos⟩
      rw [hrows]
      exact List.getElem_mem hzero

/-- A run leaves done cards only behind green tests exactly when nothing was
delivered or a session of the tester was green; `sessions` are those that the
tester of the world meets. -/
theorem doneMeansGreen_iff (engine : WorkflowEngine) (world : World) (sessions : Sessions)
    (task : Task) (context : Option Context) (createBranch : Bool) {kanban : KanbanState}
    (hkanban : kanban.Sequenced) (hstore : engine.scheduler.fault = fun _ => none) :
    engine.DoneMeansGreen sessions (engine.execute world task context createBranch kanban).2 ↔
      (engine.execute world task context createBranch kanban).2.developed = 0 ∨
        engine.TestedGreen sessions
          (engine.execute world task context createBranch kanban).2.trace := by
  have hnone : False → Conforming engine world := fun h => h.elim
  have hplans : False → world.Plans .null ∧ WellFormed .null := fun h => h.elim
  have hstart := begin_unboarded engine world task context hkanban False
  have hstanding : Standing engine.scheduler.projectId (fun _ => True)
      (engine.execute world task context createBranch kanban).2 := by
    have hrun : Triple (Holding False Unboarded) (engine.pipeline world task createBranch)
        (fun _ => Standing engine.scheduler.projectId fun _ => True)
        (fun _ => Standing engine.scheduler.projectId fun _ => True) := by
      refine (WorkflowEngine.pipeline_run hnone hplans hstore task createBranch).conseq
        (fun _ hs => hs) (fun _ _ hs => hs.mono fun _ _ => trivial) ?_
      intro stop s hs
      cases stop with
      | returned result => exact Standing.mono (fun _ _ => trivial) hs
      | raised exc => exact hs.2
    rw [WorkflowEngine.execute_state]
    exact hrun.after hstart
  have hlast : WorkflowEngine.TestsLast (engine.execute world task context createBranch kanban).2 := by
    have hnoTest : WorkflowEngine.NoTest (engine.begin world task context kanban) :=
      fun e he => by cases he
    rw [WorkflowEngine.execute_state]
    exact (WorkflowEngine.pipeline_testsLast task createBranch).after hnoTest
  have hdone := hstanding.done_iff
  rw [← WorkflowEngine.testedAfterWork_iff hlast]
  constructor
  · intro h
    rcases Nat.eq_zero_or_pos (engine.execute world task context createBranch kanban).2.developed with
      hzero | hpos
    · exact .inl hzero
    · obtain ⟨board, hboard, card, hmem, hcolumn, hgate⟩ := hdone.mpr hpos
      exact .inr (h board hboard card hmem hcolumn hgate)
  · rintro (hzero | htested) board hboard card hmem hcolumn hgate
    · have hpos := hdone.mp ⟨board, hboard, card, hmem, hcolumn, hgate⟩
      omega
    · exact htested

/-- The tests would pass, but the developer delivers nothing. -/
def undeliveredWorld : World :=
  { testedWorld passingSession with
    agentRun := fun trace site =>
      if site = .developer 0 then answering { success := false }
      else (testedWorld passingSession).agentRun trace site }

/-- No card is done when nothing was delivered. -/
theorem doneMeansGreen_undelivered :
    testedEngine.DoneMeansGreen (fun _ _ => passingSession)
      (testedEngine.execute undeliveredWorld { description := "goal" } none true {}).2 :=
  (doneMeansGreen_iff testedEngine undeliveredWorld (fun _ _ => passingSession)
    { description := "goal" } none true Sequenced.empty rfl).mpr (.inl (by decide +kernel))

/-- A test that fails. -/
def failingSession : TestSession where
  collect := .completed 0 "collected 1 item".toList []
  tests := .completed 1 "1 failed in 0.10s".toList []

/-- The card of a run whose only test fails stays done. -/
theorem not_doneMeansGreen_failing :
    ¬testedEngine.DoneMeansGreen (fun _ _ => failingSession)
      (testedEngine.execute (testedWorld failingSession) { description := "goal" } none true {}).2 := by
  intro h
  have hdone : (testedEngine.execute (testedWorld failingSession) { description := "goal" } none
      true {}).2.ctx.board.any (fun board =>
        ((testedEngine.execute (testedWorld failingSession) { description := "goal" } none true
          {}).2.kanban.cardsOf board.id).any fun card =>
            decide (card.column = .done) && card.tddGate) = true := by decide +kernel
  obtain ⟨board, hboard, hcards⟩ := (Option.any_eq_true _ _).mp hdone
  obtain ⟨card, hmem, hcard⟩ := List.any_eq_true.mp hcards
  obtain ⟨hcolumn, hgate⟩ := Bool.and_eq_true_iff.mp hcard
  obtain ⟨_, _, _, _, -, -, -, ⟨_, hcompletes⟩, -⟩ :=
    h board hboard card hmem (of_decide_eq_true hcolumn) hgate
  obtain ⟨_, _, htests, -⟩ := hcompletes.tests
  cases htests

end AiosDeck.Workflow
