import AiosDeck.Agents.Invocation
import AiosDeck.Agents.Tester
import AiosDeck.Quality.Gates
import AiosDeck.Workflow.Gatekeeping

/-!
# What the test stage lets through

The verdict of the tests reaches the engine only as a number of failures in
a report. Without a report, or with a report that counts none, the stage
succeeds and the run goes on to the commit.
-/

namespace AiosDeck.Workflow

open Python Agents Security Quality Scheduler Program Trace

/-- The sessions of the tester: one for each attempt, after each history. -/
abbrev Sessions := List Event → ℕ → TestSession

/-- Every site but committing, and every gate. -/
def Footprint.uncommitted : Footprint := ⟨fun site => site ≠ .commit, fun _ => True⟩

/-- Whether the tester was called. -/
def Event.isTest : Event → Bool
  | .agent call => call.site == .test
  | _ => false

/-- Git was not asked to commit. -/
def NoCommit (s : EngineState) : Prop := ∀ e ∈ s.trace, e.isCommit = false

namespace WorkflowEngine

/-- The target of the test stage. -/
def testsPath (engine : WorkflowEngine) : String := engine.projectPath ++ "/tests"

/-- The task of the test stage. -/
def testTask (engine : WorkflowEngine) (world : World) (trace : List Event) : AgentTask where
  description := "run test suite"
  taskType := .str "test"
  params := [("target", .str engine.testsPath), ("dry_run", .bool false)]
  taskId := toString (world.uuid trace)

/-- The tester is `TesterAgent`, it meets these sessions, and the project has
a tests directory. -/
structure RunsTester (engine : WorkflowEngine) (world : World) (sessions : Sessions) : Prop where
  tester : engine.tester = some TesterAgent.agent
  testsDir : ∀ trace, world.testsDir trace = true
  behaviour : ∀ trace attempt, (world.agentRun trace .test).behaviour attempt =
    TesterAgent.attempt (sessions trace attempt) (engine.testTask world trace)

/-- A test process that ran to completion with return code zero. -/
def TestedGreen (engine : WorkflowEngine) (sessions : Sessions) (trace : List Event) : Prop :=
  ∃ front call rest attempt, trace = front ++ .agent call :: rest ∧ call.site = .test ∧
    .invoked attempt ∈ call.log ∧ (sessions front attempt).Green engine.testsPath

/-- The executor lets the tester run, and the tests either pass or fail with
a number of failures that can be read off the output. -/
structure Decided (engine : WorkflowEngine) (world : World) (sessions : Sessions)
    (front : List Event) : Prop where
  permitted : ∀ enforcer, engine.executor.enforcer = some enforcer →
    enforcer.validate TesterAgent.agent = .ok ()
  uncancelled : (world.agentRun front .test).cancelled 1 = false
  verdict : (sessions front 1).Green engine.testsPath ∨ (sessions front 1).Red engine.testsPath

/-- Every test call of a run meets a tester that decides. -/
def AllDecided (engine : WorkflowEngine) (world : World) (sessions : Sessions)
    (trace : List Event) : Prop :=
  Before (fun e => e.isTest = true) (Decided engine world sessions) trace

/-- Nothing was committed, and the tests were green if every tester decided. -/
def Tested (engine : WorkflowEngine) (world : World) (sessions : Sessions) (s : EngineState) :
    Prop :=
  NoCommit s ∧ (AllDecided engine world sessions s.trace → TestedGreen engine sessions s.trace)

variable {engine : WorkflowEngine} {world : World} {sessions : Sessions} {footprint : Footprint}

theorem TestedGreen.append {front : List Event} (h : TestedGreen engine sessions front)
    (rest : List Event) : TestedGreen engine sessions (front ++ rest) := by
  obtain ⟨first, call, last, attempt, rfl, hcall⟩ := h
  exact ⟨first, call, last ++ rest, attempt, by simp, hcall⟩

theorem noCommit_extends {s t : EngineState}
    (h : Extends engine world Footprint.uncommitted s t) (hs : NoCommit s) : NoCommit t := by
  intro e he
  rcases h.appended.mem he with hold | ⟨hwithin, -⟩
  · exact hs e hold
  · cases e with
    | agent call =>
      have hsite : call.site ≠ .commit := hwithin
      simpa [Event.isCommit] using hsite
    | _ => rfl

theorem tested_extends {s t : EngineState}
    (h : Extends engine world Footprint.uncommitted s t) (hs : Tested engine world sessions s) :
    Tested engine world sessions t := by
  refine ⟨noCommit_extends h hs.1, fun hall => ?_⟩
  obtain ⟨more, heq, -⟩ := h.appended
  rw [heq] at hall ⊢
  exact (hs.2 (Each.of_append hall)).append more

/-- A part of the run that does not commit keeps the verdict. -/
theorem tested_phase {α : Type} {x : EngineM α}
    (h : Framed (Extends engine world Footprint.uncommitted) x) :
    Triple (Tested engine world sessions) x (fun _ => Tested engine world sessions)
      (fun _ => NoCommit) := by
  have hkeeps : Keeps (Tested engine world sessions) x := h.keeps fun _ _ => tested_extends
  exact hkeeps.conseq (fun _ hs => hs) (fun _ _ hs => hs) (fun _ _ hs => hs.1)

theorem noCommit_phase {α : Type} {x : EngineM α}
    (h : Framed (Extends engine world Footprint.uncommitted) x) : Keeps NoCommit x :=
  h.keeps fun _ _ => noCommit_extends

/-- The task of the test stage is valid, and a permitted call of it admitted. -/
theorem admitted_test (trace : List Event)
    (h : ∀ enforcer, engine.executor.enforcer = some enforcer →
      enforcer.validate TesterAgent.agent = .ok ()) :
    AgentExecutor.Admitted engine.executor
      { agent := TesterAgent.agent, task := engine.testTask world trace } := by
  refine ⟨?_, ?_, fun _ hintent => nomatch hintent⟩
  · have hdescription : isBlank "run test suite" = false := by decide
    simp [validateAgentTask, testTask, hdescription]
  · unfold AgentExecutor.enforceCapabilities
    cases henforcer : engine.executor.enforcer with
    | none => rfl
    | some enforcer => exact h enforcer henforcer

/-- The report that stops the run behind the test stage. -/
def Failing (s : EngineState) : Prop :=
  ∃ n : ℕ, 0 < n ∧ (orEmpty s.ctx.testReport).getD "failed" (.ofNat 0) = .ok (.ofNat n)

/-- A report that counts failures. -/
def Counting (result : AgentResult) : Prop :=
  ∃ report : TestReport, 0 < report.failed ∧ result.output = .json report.toJson

/-- A test call ends with a verdict in the trace, or with counted failures. -/
theorem runAlone_test (h : RunsTester engine world sessions) :
    Triple NoCommit
      (runAlone engine world .test TesterAgent.agent "run test suite" "test"
        [("target", .str (engine.projectPath ++ "/tests")), ("dry_run", .bool false)])
      (fun result s => Tested engine world sessions s ∨ NoCommit s ∧ Counting result)
      (fun _ => NoCommit) := by
  intro s hs
  let request : ExecutionRequest :=
    { agent := TesterAgent.agent, task := engine.testTask world s.trace }
  let call := executorCall engine.executor .test request (world.agentRun s.trace .test)
  let t : EngineState := { s with trace := s.trace ++ [.agent call] }
  have hsite : call.site = .test := executorCall_site _ _ _ _
  have hclean : NoCommit t := by
    intro e he
    rcases List.mem_append.mp he with he | he
    · exact hs e he
    · rcases List.mem_singleton.mp he with rfl
      simp [Event.isCommit, hsite]
  have hrun : runAlone engine world .test TesterAgent.agent "run test suite" "test"
      [("target", .str (engine.projectPath ++ "/tests")), ("dry_run", .bool false)] s =
      answer request call.outcome t := rfl
  rw [hrun]
  have htested : (Decided engine world sessions s.trace →
      TestedGreen engine sessions t.trace) → Tested engine world sessions t := by
    refine fun hdecided => ⟨hclean, fun hall => hdecided ?_⟩
    exact hall s.trace (.agent call) [] rfl (by simp [Event.isTest, hsite])
  by_cases hdecided : Decided engine world sessions s.trace
  · obtain ⟨hpermitted, hcancelled, hgreen | hred⟩ := hdecided
    · have hinvoked : .invoked 1 ∈ call.log := by
        rw [executorCall_log]
        exact AgentExecutor.execute_invokes rfl (admitted_test s.trace hpermitted) hcancelled
      have ht := htested fun _ => ⟨s.trace, call, [], 1, rfl, hsite, hinvoked, hgreen⟩
      cases call.outcome with
      | ok outcome => exact .inl ht
      | error exc => exact hclean
    · obtain ⟨report, result, hpos, houtput, hattempt⟩ :=
        hred.returned (engine.testTask world s.trace) rfl rfl
      have hreturned : (world.agentRun s.trace .test).behaviour 1 = .returned result := by
        rw [h.behaviour]
        exact hattempt
      obtain ⟨outcome, last, hexecute, hresult⟩ := AgentExecutor.execute_returns
        engine.executor request _ rfl (admitted_test s.trace hpermitted) hcancelled hreturned
      have houtcome : call.outcome = .ok outcome := executorCall_outcome hexecute
      rw [houtcome]
      refine .inr ⟨hclean, report, hpos, ?_⟩
      unfold outcomeResult
      rw [hresult]
      exact houtput
  · have ht := htested fun hdec => absurd hdec hdecided
    cases call.outcome with
    | ok outcome => exact .inl ht
    | error exc => exact hclean

/-- The report of an agent that counted failures is a failing report. -/
theorem counting_report {result : AgentResult} (h : Counting result) :
    ∃ document, reportOf result = .ok document ∧ ∃ n : ℕ, 0 < n ∧
      (orEmpty (some document)).getD "failed" (.ofNat 0) = .ok (.ofNat n) := by
  obtain ⟨report, hpos, houtput⟩ := h
  refine ⟨report.toJson, ?_, report.failed, hpos, rfl⟩
  unfold reportOf
  rw [houtput]
  rfl

/-- The test stage has a verdict in the trace, or a failing report. -/
theorem runTests_spec (h : RunsTester engine world sessions) :
    Triple NoCommit (runTests engine world TesterAgent.agent)
      (fun _ s => Tested engine world sessions s ∨ NoCommit s ∧ Failing s) (fun _ => NoCommit) := by
  refine Triple.bind (R := fun _ => NoCommit) (Triple.get fun _ hs => hs) fun s => ?_
  refine Triple.ite (fun _ => ?_) (fun hnone => absurd (h.testsDir s.trace) hnone)
  refine (runAlone_test h).bind fun result => ?_
  rintro t (htested | ⟨hclean, hcounting⟩)
  · have hrest : Framed (Extends engine world Footprint.uncommitted) (do
        let report ← liftPy (reportOf result)
        update fun ctx => { ctx with testReport := some report }) :=
      (liftPy_framed _).bind fun _ => update_framed _
    exact ((tested_phase hrest).strengthen_post fun _ _ hs => .inl hs) t htested
  · obtain ⟨document, hreport, hfailing⟩ := counting_report hcounting
    rw [hreport]
    exact .inr ⟨hclean, hfailing⟩

/-- Behind the test stage the verdict is in the trace. -/
theorem testerPhase_tested (h : RunsTester engine world sessions) :
    Triple NoCommit (testerPhase engine world) (fun _ => Tested engine world sessions)
      (fun _ => NoCommit) := by
  unfold testerPhase
  rw [h.tester]
  refine (runTests_spec h).bind fun _ => ?_
  rintro s (htested | ⟨hclean, n, hpos, hfailed⟩)
  · have hstop : ∀ failed, Framed (Extends engine world Footprint.uncommitted)
        (stopOnFailures engine failed) := fun failed =>
      (liftPy_framed _).bind fun _ => Framed.ite
        ((appendError_framed _).bind fun _ => finish_framed) (Framed.pure _)
    refine tested_phase (Framed.get.bind fun s => (liftPy_framed _).bind fun failed => ?_) s htested
    exact (appendStage_framed _).bind fun _ => (hstop failed).bind fun _ => Framed.pure _
  · refine Triple.bind (R := fun t u => t = s ∧ u = s) (Triple.get fun _ hs => ⟨hs, hs⟩)
      (fun t => ?_) s rfl
    rintro u ⟨rfl, rfl⟩
    rw [hfailed]
    refine Triple.bind (R := fun failed v => failed = Json.ofNat n ∧ NoCommit v)
      (Triple.pure fun _ hv => ⟨rfl, hv⟩) (fun failed => Triple.of_pre ?_) u hclean
    rintro rfl
    have hstage : ∀ stage, Framed (Extends engine world Footprint.uncommitted)
        (appendStage world stage) := appendStage_framed
    have herror : ∀ error, Framed (Extends engine world Footprint.uncommitted)
        (appendError error) := appendError_framed
    refine (noCommit_phase (hstage _)).bind fun _ => ?_
    have hstops : (Json.ofNat n).gtZero = .ok true := by simpa using hpos
    refine Triple.bind (R := fun _ _ => False) ?_ fun _ _ hs => hs.elim
    unfold stopOnFailures
    rw [hstops]
    refine Triple.bind (R := fun stops v => stops = true ∧ NoCommit v)
      (Triple.pure fun _ hv => ⟨rfl, hv⟩) fun stops => Triple.of_pre ?_
    rintro rfl
    refine (noCommit_phase (herror _)).bind fun _ => ?_
    intro v hv
    obtain ⟨w, hrun, -, happ⟩ := finish_run (α := Unit) engine v
    rw [hrun]
    intro e he
    rcases happ.mem he with hold | ⟨event, rfl⟩
    · exact hv e hold
    · rfl

section Run

variable (engine world)

/-- Everything in front of the last git phase ends with a verdict. -/
theorem prepare_tested (h : RunsTester engine world sessions) (task : Task) (createBranch : Bool) :
    Triple NoCommit (prepare engine world task createBranch)
      (fun _ => Tested engine world sessions) (fun _ => NoCommit) := by
  have hstarted : Framed (Extends engine world Footprint.uncommitted) (publishStarted engine world) :=
    Framed.ite (Framed.pure _) (publishQuality_framed _)
  refine (noCommit_phase hstarted).bind fun _ => ?_
  refine (noCommit_phase (researchPhase_framed _ task (by simp [Footprint.uncommitted]))).bind fun _ => ?_
  refine (noCommit_phase (plannerPhase_framed _ task (by simp [Footprint.uncommitted]))).bind
    fun subtasks => ?_
  refine (noCommit_phase (branchPhase_framed _ createBranch (by simp [Footprint.uncommitted]))).bind
    fun _ => ?_
  refine (noCommit_phase (schedulerPhase_framed _ subtasks)).bind fun items => ?_
  refine Triple.bind ((noCommit_phase (develop_framed _ items
    (by simp [Footprint.uncommitted]))).bind fun _ =>
      noCommit_phase (gatePhase_framed _ _ trivial)) fun _ => ?_
  refine (noCommit_phase (reviewerPhase_framed _ (by simp [Footprint.uncommitted]))).bind fun _ => ?_
  refine (noCommit_phase (gatePhase_framed _ _ trivial)).bind fun _ => ?_
  refine (testerPhase_tested h).bind fun failed => ?_
  refine Triple.bind (R := fun _ => Tested engine world sessions) (Triple.get fun _ hs => hs) fun s => ?_
  refine (tested_phase (gatePhase_framed _ _ trivial)).bind fun _ => ?_
  refine (tested_phase (documentationPhase_framed _ failed (by simp [Footprint.uncommitted]))).bind
    fun _ => ?_
  refine (tested_phase (gatePhase_framed _ _ trivial)).bind fun _ => ?_
  exact tested_phase (releasePhase_framed _ trivial)

/-- In every run in which each test call meets a tester that decides, every
commit comes after a test process that ended with return code zero. -/
theorem commit_after_green_tests (engine : WorkflowEngine) (world : World) (sessions : Sessions)
    (task : Task) (context : Option Context) (createBranch : Bool) (kanban : KanbanState)
    (htester : RunsTester engine world sessions)
    (hdecided : AllDecided engine world sessions
      (execute engine world task context createBranch kanban).2.trace) :
    Before (fun e => e.isCommit = true) (TestedGreen engine sessions)
      (execute engine world task context createBranch kanban).2.trace := by
  let Safe (s : EngineState) : Prop := AllDecided engine world sessions s.trace →
    Before (fun e => e.isCommit = true) (TestedGreen engine sessions) s.trace
  have hnone : ∀ s, NoCommit s → Safe s :=
    fun s hs _ => Before.of_none fun e he => by simp [hs e he]
  have hdeliver : Triple (Tested engine world sessions) (deliver engine world) (fun _ => Safe)
      (fun _ => Safe) := by
    refine Triple.of_after fun s hs hall => ?_
    have hframed : Framed (Extends engine world Footprint.calls) (deliver engine world) :=
      deliver_framed _ trivial trivial
    obtain ⟨more, heq, -⟩ := (hframed s).appended
    rw [heq] at hall ⊢
    refine (hnone s hs.1 (Each.of_append hall)).append fun front e rest _ _ => ?_
    exact (hs.2 (Each.of_append hall)).append front
  have hpipeline : Triple NoCommit (pipeline engine world task createBranch) (fun _ => Safe)
      (fun _ => Safe) :=
    ((prepare_tested engine world htester task createBranch).conseq (fun _ hs => hs)
      (fun _ _ hs => hs) (fun _ s hs => hnone s hs)).bind fun _ => hdeliver
  rw [execute_state] at hdecided ⊢
  exact hpipeline.after (fun e he => nomatch he) hdecided

end Run

end WorkflowEngine

/-- Every agent and gate that a commit needs, with the real tester and test gate. -/
def testedEngine : WorkflowEngine :=
  { gatedEngine (("test_gate", fun _ input => TestGate.run input) :: greenGates) with
    tester := some TesterAgent.agent }

/-- The green world, but for the tester, which meets this session. -/
def testedWorld (session : TestSession) : World :=
  { greenWorld with
    agentRun := fun trace site =>
      if site = .test then
        { behaviour := fun _ =>
            TesterAgent.attempt session (testedEngine.testTask greenWorld trace)
          cancelled := fun _ => false }
      else greenWorld.agentRun trace site }

theorem runsTester_testedWorld (session : TestSession) :
    testedEngine.RunsTester (testedWorld session) fun _ _ => session :=
  ⟨rfl, fun _ => rfl, fun _ _ => rfl⟩

/-- Two tests that pass. -/
def passingSession : TestSession where
  collect := .completed 0 "collected 2 items".toList []
  tests := .completed 0 "2 passed in 0.10s".toList []

/-- A run that commits after two tests passed. -/
theorem commit_after_two_passed :
    ((testedEngine.execute (testedWorld passingSession) { description := "goal" } none true
        {}).2.trace.any Event.isCommit = true) ∧
      Before (fun e => e.isCommit = true) (testedEngine.TestedGreen fun _ _ => passingSession)
        (testedEngine.execute (testedWorld passingSession) { description := "goal" } none true
          {}).2.trace := by
  refine ⟨by decide +kernel, ?_⟩
  have hgreen : passingSession.Green testedEngine.testsPath := by
    refine ⟨_, rfl, ⟨_, rfl⟩, rfl, ⟨2, by decide +kernel⟩, _, _, rfl, rfl⟩
  refine WorkflowEngine.commit_after_green_tests _ _ _ _ _ _ _
    (runsTester_testedWorld passingSession) fun front call rest _ _ => ?_
  exact ⟨(fun _ henforcer => nomatch henforcer), rfl, .inl hgreen⟩

/-- A module that cannot be imported: no test runs, and none is counted. -/
def collectionErrorSession : TestSession where
  collect := .completed 2 "collected 0 items / 1 error".toList []
  tests := .completed 2 "1 error in 0.10s".toList []

/-- A collection error is committed: `pytest` exits with 2, no failed test is
counted, and the test gate passes too. -/
theorem not_green_collection_error :
    ¬Before (fun e => e.isCommit = true)
      (testedEngine.TestedGreen fun _ _ => collectionErrorSession)
      (testedEngine.execute (testedWorld collectionErrorSession) { description := "goal" } none true
        {}).2.trace := by
  intro hbefore
  have hcommits : (testedEngine.execute (testedWorld collectionErrorSession)
      { description := "goal" } none true {}).2.trace.any Event.isCommit = true := by
    decide +kernel
  obtain ⟨e, hmem, hcommit⟩ := List.any_eq_true.mp hcommits
  obtain ⟨front, rest, heq⟩ := List.append_of_mem hmem
  obtain ⟨_, _, _, _, -, -, -, _, hcompletes⟩ := hbefore front e rest heq hcommit
  obtain ⟨_, _, htests, -⟩ := hcompletes.tests
  cases htests

end AiosDeck.Workflow
