import AiosDeck.Agents.Invocation
import AiosDeck.Agents.Planner
import AiosDeck.Scheduler.Runs
import AiosDeck.Workflow.Footprint

/-!
# Runs among collaborators that keep their contracts

What the engine may expect of its agents, gates and callbacks. Under these
contracts no phase raises, apart from what the subtasks of the plan make of
it. With or without them, only the scheduler and the developer phase touch
the board.
-/

namespace AiosDeck.Workflow

open Python Agents Security Quality Scheduler Program

/-- The value of a key, when there is one, is a list. -/
def Listed (key : String) (fields : List (String × Json)) : Prop :=
  ∀ value, fields.lookup key = some value → ∃ items, value = .arr items

/-- The value of a key, when there is one, is a text. -/
def Texted (key : String) (fields : List (String × Json)) : Prop :=
  ∀ value, fields.lookup key = some value → ∃ text, value = .str text

/-- The value of a key, when there is one, is a count. -/
def Counted (key : String) (fields : List (String × Json)) : Prop :=
  ∀ value, fields.lookup key = some value → ∃ n : ℕ, value = .ofNat n

/-- The JSON that the agent of a site promises to print. -/
def CallSite.Promises : CallSite → AgentResult → Prop
  | .research, result => result.success = true → ∀ document, result.output = .json document →
      ∃ fields, document = .obj fields ∧ Listed "sources" fields ∧ Listed "findings" fields
  | .createBranch, result | .commit, result => ∀ document, result.output = .json document →
      ∃ fields, document = .obj fields ∧ Texted "stderr" fields
  | .review, result => result.output = .empty ∨ ∃ fields, result.output = .json (.obj fields)
  | .test, result => result.output = .empty ∨
      ∃ fields, result.output = .json (.obj fields) ∧ Counted "failed" fields
  | _, _ => True

/-- The agents that an engine may run. -/
def WorkflowEngine.agents (engine : WorkflowEngine) : List Agent :=
  [engine.planner, engine.developer, engine.reviewer] ++ engine.researcher.toList ++
    engine.tester.toList ++ engine.documentation.toList ++ engine.git.toList

/-- Collaborators that keep their contracts. -/
structure Conforming (engine : WorkflowEngine) (world : World) : Prop where
  rests : ∀ agent ∈ engine.agents, AgentExecutor.Rests agent
  callback : ∀ stage, world.onStage stage = none
  message : ∀ ctx, ∃ message, engine.commitFactory ctx = .ok message
  gates : ∀ name gate, (engine.gates world).lookup name = some gate → ∀ trace input result,
    gate trace input = .returned result →
      ∀ finding ∈ result.findings, ∃ severity, finding.severity = .canonical severity
  answers : ∀ trace site attempt result,
    (world.agentRun trace site).behaviour attempt = .returned result → site.Promises result

/-- What the engine may learn from the result of a call: an empty failure,
or, for a valid task, the success and output of a result that was returned. -/
def Answer (world : World) (site : CallSite) (task : AgentTask) (result : AgentResult) : Prop :=
  result.success = false ∧ result.output = .empty ∨
    validateAgentTask task = [] ∧ ∃ trace attempt returned,
      (world.agentRun trace site).behaviour attempt = .returned returned ∧
        result.success = returned.success ∧ result.output = returned.output

/-- The stored reports have the shape that the later phases read. -/
structure Readable (s : EngineState) : Prop where
  test : ∀ document, s.ctx.testReport = some document →
    ∃ fields, document = .obj fields ∧ Counted "failed" fields
  review : ∀ document, s.ctx.reviewReport = some document → ∃ fields, document = .obj fields

/-- Whether a site is one of the developer. -/
def CallSite.isDeveloper : CallSite → Bool
  | .developer _ => true
  | _ => false

/-- A call of the developer whose result was successful. -/
def Event.isDeveloped : Event → Bool
  | .agent call => call.site.isDeveloper &&
    match call.outcome with
    | .ok outcome => (WorkflowEngine.outcomeResult call.request outcome).success
    | .error _ => false
  | _ => false

/-- The number of subtasks that the developer delivered. -/
def EngineState.developed (s : EngineState) : ℕ := s.trace.countP Event.isDeveloped

/-- The part of the state that only the scheduler and the developer change. -/
def EngineState.boardView (s : EngineState) :
    KanbanState × Option KanbanBoard × List KanbanCard × ℕ × ℕ :=
  (s.kanban, s.ctx.board, s.ctx.cards, s.ctx.completedCount, s.developed)

/-- The reports in the state. -/
def EngineState.reports (s : EngineState) : Option Json × Option Json :=
  (s.ctx.testReport, s.ctx.reviewReport)

/-- An assertion about the board alone. -/
def OnBoard (I : EngineState → Prop) : Prop :=
  ∀ s t : EngineState, t.boardView = s.boardView → I s → I t

/-- A run stops: with a result in one kind of state, or, if a promise was
broken, with an exception in another. -/
def Stopped (promised : Prop) (returned raised : EngineState → Prop) : Stop → EngineState → Prop
  | .returned _, s => returned s
  | .raised _, s => ¬promised ∧ raised s

/-- A run stops in one kind of state, and raises only if a promise was broken. -/
abbrev Ending (promised : Prop) (I : EngineState → Prop) : Stop → EngineState → Prop :=
  Stopped promised I I

/-- An assertion, with reports that can be read if the promise is kept. -/
def Holding (promised : Prop) (I : EngineState → Prop) (s : EngineState) : Prop :=
  I s ∧ (promised → Readable s)

theorem Stopped.mono {promised : Prop} {G G' H H' : EngineState → Prop}
    (hreturned : ∀ s, G s → G' s) (hraised : ∀ s, H s → H' s) :
    ∀ stop s, Stopped promised G H stop s → Stopped promised G' H' stop s := by
  intro stop s hs
  cases stop with
  | returned result => exact hreturned s hs
  | raised exc => exact ⟨hs.1, hraised s hs.2⟩

/-- The result of serializing canonical findings. -/
theorem toDict_of_canonical {result : GateResult}
    (h : ∀ finding ∈ result.findings, ∃ severity, finding.severity = .canonical severity) :
    ∃ serialized, result.toDict = .ok serialized := by
  have hitems : ∀ findings : List GateFinding,
      (∀ finding ∈ findings, ∃ severity, finding.severity = .canonical severity) →
      ∃ items, findings.mapM GateFinding.toDict = .ok items := by
    intro findings
    induction findings with
    | nil => exact fun _ => ⟨[], rfl⟩
    | cons first rest ih =>
      intro hall
      obtain ⟨severity, hseverity⟩ := hall first List.mem_cons_self
      obtain ⟨items, hrest⟩ := ih fun finding hmem => hall finding (List.mem_cons_of_mem _ hmem)
      have hfirst : ∃ head, first.toDict = .ok head := by
        unfold GateFinding.toDict
        rw [hseverity]
        exact ⟨_, rfl⟩
      obtain ⟨head, hhead⟩ := hfirst
      refine ⟨head :: items, ?_⟩
      rw [List.mapM_cons, hhead, hrest]
      rfl
  obtain ⟨items, hmap⟩ := hitems _ h
  unfold GateResult.toDict
  rw [hmap]
  exact ⟨_, rfl⟩

/-- The key of a dictionary, or the default. -/
theorem getD_obj (fields : List (String × Json)) (key : String) (default : Json) :
    (Json.obj fields).getD key default = .ok ((fields.lookup key).getD default) := rfl

theorem listed_nil (key : String) : Listed key [] := by
  intro value hvalue
  cases hvalue

/-- The length of a list in a dictionary can be taken. -/
theorem itemCount_listed {fields : List (String × Json)} {key : String} (h : Listed key fields) :
    ∃ count, WorkflowEngine.itemCount (.obj fields) key = .ok count := by
  unfold WorkflowEngine.itemCount
  rw [getD_obj]
  cases hfound : fields.lookup key with
  | none => exact ⟨0, rfl⟩
  | some value =>
    obtain ⟨items, rfl⟩ := h value hfound
    exact ⟨items.length, rfl⟩

/-- The error of a git operation can be read. -/
theorem gitError_texted {result : AgentResult}
    (h : ∀ document, result.output = .json document →
      ∃ fields, document = .obj fields ∧ Texted "stderr" fields) :
    ∃ error, WorkflowEngine.gitError result = .ok error := by
  unfold WorkflowEngine.gitError WorkflowEngine.gitOperation
  cases houtput : result.output with
  | empty => exact ⟨_, rfl⟩
  | text content =>
    by_cases hempty : content = ""
    · simp [Output.truthy, hempty]
    · simp [Output.truthy, Output.loads, hempty]
  | json document =>
    obtain ⟨fields, rfl, htexted⟩ := h document houtput
    simp only [Output.truthy, Output.loads, if_true]
    split
    · rw [getD_obj]
      cases hfound : fields.lookup "stderr" with
      | none => exact ⟨_, rfl⟩
      | some value =>
        obtain ⟨text, rfl⟩ := htexted value hfound
        simp only [Option.getD_some]
        split <;> exact ⟨_, rfl⟩
    · exact ⟨_, rfl⟩

namespace WorkflowEngine

variable {engine : WorkflowEngine} {world : World} {α β : Type} {I : EngineState → Prop}
  {promised : Prop}

/-- An operation that succeeds hands on its value. -/
theorem liftPy_bind {result : Except PyExc α} {value : α} (h : result = .ok value)
    (f : α → EngineM β) : liftPy result >>= f = f value := by
  subst h
  rfl

/-- A part of a run that keeps an assertion about the board, in whatever way
it ends. It raises only if a promise was broken. -/
def Calm (promised : Prop) (I : EngineState → Prop) (x : EngineM α) : Prop :=
  Triple (Holding promised I) x (fun _ => Holding promised I) (Ending promised I)

namespace Calm

theorem pure (value : α) : Calm promised I (Pure.pure value : EngineM α) :=
  Triple.pure fun _ h => h

theorem get : Calm promised I (MonadState.get : EngineM EngineState) := Triple.get fun _ h => h

theorem bind {x : EngineM α} {f : α → EngineM β} (hx : Calm promised I x)
    (hf : ∀ value, Calm promised I (f value)) : Calm promised I (x >>= f) := Triple.bind hx hf

theorem ite {c : Prop} [Decidable c] {x y : EngineM α} (hx : c → Calm promised I x)
    (hy : ¬c → Calm promised I y) : Calm promised I (if c then x else y) := Triple.ite hx hy

/-- An operation that raises only if a promise was broken. -/
theorem lift {result : Except PyExc α} (hok : promised → ∃ value, result = .ok value)
    {f : α → EngineM β} (hf : ∀ value, result = .ok value → Calm promised I (f value)) :
    Calm promised I (liftPy result >>= f) := by
  cases hresult : result with
  | ok value => exact hf value hresult
  | error exc =>
    refine Triple.bind (R := fun _ _ => False) (Triple.throw fun s hs => ⟨fun h => ?_, hs.1⟩)
      fun _ _ h => h.elim
    obtain ⟨value, hvalue⟩ := hok h
    rw [hresult] at hvalue
    cases hvalue

/-- A calm part of a run whose assertion implies the aim of the whole. -/
theorem ends {G : EngineState → Prop} {x : EngineM α} (hx : Calm promised I x)
    (h : ∀ s, I s → G s) :
    Triple (Holding promised I) x (fun _ => Holding promised I) (Ending promised G) :=
  hx.conseq (fun _ hs => hs) (fun _ _ hs => hs) (Stopped.mono h h)

variable (hI : OnBoard I)
include hI

/-- A step that leaves the board and the reports alone. -/
theorem modify {f : EngineState → EngineState} (hboard : ∀ s, (f s).boardView = s.boardView)
    (hreports : ∀ s, (f s).reports = s.reports) : Calm promised I (modify f : EngineM Unit) := by
  refine Triple.modify fun s h => ⟨hI s _ (hboard s) h.1, fun hpromised => ?_⟩
  obtain ⟨htest, hreview⟩ := Prod.mk.inj (hreports s)
  constructor
  · rw [htest]
    exact (h.2 hpromised).test
  · rw [hreview]
    exact (h.2 hpromised).review

theorem record {e : Event} (he : e.isDeveloped = false) :
    Calm promised I (WorkflowEngine.record e) := by
  refine modify hI (fun s => ?_) fun _ => rfl
  simp [EngineState.boardView, EngineState.developed, he]

/-- An update of the other parts of the execution state. -/
theorem update {change : WorkflowContext → WorkflowContext}
    (hboard : ∀ ctx, ((change ctx).board, (change ctx).cards, (change ctx).completedCount) =
      (ctx.board, ctx.cards, ctx.completedCount))
    (hreports : ∀ ctx, ((change ctx).testReport, (change ctx).reviewReport) =
      (ctx.testReport, ctx.reviewReport)) : Calm promised I (WorkflowEngine.update change) := by
  refine modify hI (fun s => ?_) fun s => hreports s.ctx
  obtain ⟨hboard, hrest⟩ := Prod.mk.inj (hboard s.ctx)
  obtain ⟨hcards, hcompleted⟩ := Prod.mk.inj hrest
  simp [EngineState.boardView, EngineState.developed, hboard, hcards, hcompleted]

theorem appendError (error : String) : Calm promised I (WorkflowEngine.appendError error) :=
  update hI (fun _ => rfl) fun _ => rfl

theorem publishQuality (event : QualityEvent) :
    Calm promised I (WorkflowEngine.publishQuality engine event) :=
  ite (fun _ => record hI rfl) fun _ => pure _

/-- Recording a stage does not end the run. -/
theorem appendStage_goesOn (hworld : promised → Conforming engine world) (stage : WorkflowStage) :
    Triple (Holding promised I) (WorkflowEngine.appendStage world stage)
      (fun _ => Holding promised I) (Stopped promised (fun _ => False) I) := by
  refine Triple.bind (R := fun _ => Holding promised I) ?_ fun _ =>
    Triple.bind (R := fun _ => Holding promised I) ?_ fun _ => ?_
  · refine Triple.modify fun s hs => ⟨hI s _ rfl hs.1, fun h => ?_⟩
    exact ⟨(hs.2 h).test, (hs.2 h).review⟩
  · refine Triple.modify fun s hs => ⟨hI s _ ?_ hs.1, fun h => ⟨(hs.2 h).test, (hs.2 h).review⟩⟩
    simp [EngineState.boardView, EngineState.developed, Event.isDeveloped]
  · cases hstage : world.onStage stage with
    | none => exact Triple.pure fun _ hs => hs
    | some exc =>
      refine Triple.throw fun s hs => ⟨fun h => ?_, hs.1⟩
      rw [(hworld h).callback] at hstage
      cases hstage

theorem appendStage (hworld : promised → Conforming engine world) (stage : WorkflowStage) :
    Calm promised I (WorkflowEngine.appendStage world stage) :=
  (appendStage_goesOn hI hworld stage).conseq (fun _ hs => hs) (fun _ _ hs => hs)
    (Stopped.mono (fun _ h => h.elim) fun _ hs => hs)

/-- A run that finishes does not go on. -/
theorem finish_stops {Q : α → EngineState → Prop} :
    Triple (Holding promised I) (WorkflowEngine.finish engine : EngineM α) Q
      (Ending promised I) := by
  have hupdate : Calm promised I (WorkflowEngine.update engine.enrichStages) := by
    refine update hI (fun ctx => ?_) fun ctx => ?_
    · cases hintent : ctx.intent <;> simp [enrichStages, hintent]
    · cases hintent : ctx.intent <;> simp [enrichStages, hintent]
  have hpublish : ∀ ctx, Calm promised I (publishCompleted engine ctx) :=
    fun ctx => ite (fun _ => publishQuality hI _) fun _ => pure _
  refine Triple.bind hupdate fun _ => Triple.bind get fun s => ?_
  exact Triple.bind (hpublish s.ctx) fun _ => Triple.throw fun _ h => h.1

theorem finish : Calm promised I (WorkflowEngine.finish engine : EngineM α) := finish_stops hI

theorem fail_stops (hworld : promised → Conforming engine world) (stage : WorkflowStage)
    (error : String) {Q : α → EngineState → Prop} :
    Triple (Holding promised I) (WorkflowEngine.fail engine world stage error : EngineM α) Q
      (Ending promised I) :=
  Triple.bind (appendStage hI hworld stage) fun _ =>
    Triple.bind (appendError hI error) fun _ => finish_stops hI

theorem fail (hworld : promised → Conforming engine world) (stage : WorkflowStage)
    (error : String) : Calm promised I (WorkflowEngine.fail engine world stage error : EngineM α) :=
  fail_stops hI hworld stage error

end Calm

/-- The state behind a call. -/
def called (call : AgentCall) (s : EngineState) : EngineState :=
  { s with trace := s.trace ++ [.agent call] }

/-- An agent call returns with an answer of the agent, unless a retry of the
agent cannot sleep. -/
theorem runAgent_run (engine : WorkflowEngine) (site : CallSite) {agent : Agent}
    (hrests : promised → AgentExecutor.Rests agent) (task : AgentTask) (context : Option Context)
    (s : EngineState) :
    ∃ call : AgentCall, call.site = site ∧
      ((∃ outcome, call.outcome = .ok outcome ∧
          Answer world site task (outcomeResult call.request outcome) ∧
          runAgent engine world site agent task context s =
            .ok (outcomeResult call.request outcome) (called call s)) ∨
        ∃ exc, call.outcome = .error exc ∧ ¬promised ∧
          runAgent engine world site agent task context s = .error (.raised exc) (called call s)) := by
  let request : ExecutionRequest :=
    { agent, task, context, intent := context.bind Context.intent }
  let run := world.agentRun s.trace site
  let call := executorCall engine.executor site request run
  have hsite : call.site = site := executorCall_site _ _ _ _
  have hrequest : call.request = request := executorCall_request _ _ _ _
  have hcall : runAgent engine world site agent task context s =
      answer request call.outcome (called call s) := rfl
  refine ⟨call, hsite, ?_⟩
  rw [hcall, hrequest]
  cases hrun : AgentExecutor.execute engine.executor request run {} with
  | error exc last =>
    have houtcome : call.outcome = .error exc := by simp [call, executorCall, hrun]
    rw [houtcome]
    refine .inr ⟨exc, rfl, fun h => ?_, rfl⟩
    obtain ⟨outcome, last', hok, -⟩ := AgentExecutor.execute_total engine.executor request run rfl
      rfl (hrests h)
    rw [hok] at hrun
    cases hrun
  | ok outcome last =>
    have houtcome : call.outcome = .ok outcome := executorCall_outcome hrun
    obtain ⟨hsupplied, hvalid⟩ :=
      (AgentExecutor.execute_supplied engine.executor request run).of_ok trivial hrun
    rw [houtcome]
    refine .inl ⟨outcome, rfl, ?_, rfl⟩
    unfold outcomeResult
    cases hresult : outcome.result with
    | none => exact .inl ⟨rfl, rfl⟩
    | some result =>
      obtain ⟨attempt, returned, hreturned, rfl⟩ := hsupplied result hresult
      exact .inr ⟨hvalid (by simp [hresult]), s.trace, attempt, returned, hreturned, rfl, rfl⟩

/-- A call at another site than the developer's keeps an assertion about the board. -/
theorem runAgent_answer (hI : OnBoard I) {site : CallSite} (hsite : site.isDeveloper = false)
    {agent : Agent} (hrests : promised → AgentExecutor.Rests agent) (task : AgentTask)
    (context : Option Context) :
    Triple (Holding promised I) (runAgent engine world site agent task context)
      (fun result s => Answer world site task result ∧ Holding promised I s)
      (Ending promised I) := by
  intro s hs
  obtain ⟨call, hcall, hrun⟩ := runAgent_run engine site hrests task context s
  have hcalled : Holding promised I (called call s) := by
    have hview : (called call s).boardView = s.boardView := by
      simp [EngineState.boardView, EngineState.developed, called, Event.isDeveloped, hcall, hsite]
    exact ⟨hI s _ hview hs.1, fun h => ⟨(hs.2 h).test, (hs.2 h).review⟩⟩
  rcases hrun with ⟨outcome, -, hanswer, heq⟩ | ⟨exc, -, hbroken, heq⟩
  · rw [heq]
    exact ⟨hanswer, hcalled⟩
  · rw [heq]
    exact ⟨hbroken, hcalled.1⟩

/-- A report that counts its failures can be compared. -/
theorem counted_failed {s : EngineState} (h : Readable s) :
    ∃ n : ℕ, (orEmpty s.ctx.testReport).getD "failed" (.ofNat 0) = .ok (.ofNat n) := by
  cases hreport : s.ctx.testReport with
  | none => exact ⟨0, rfl⟩
  | some document =>
    obtain ⟨fields, rfl, hcounted⟩ := h.test document hreport
    unfold orEmpty
    dsimp only
    split
    · rw [getD_obj]
      cases hfound : fields.lookup "failed" with
      | none => exact ⟨0, rfl⟩
      | some value =>
        obtain ⟨n, rfl⟩ := hcounted value hfound
        exact ⟨n, rfl⟩
    · exact ⟨0, rfl⟩

/-- A report is a dictionary, or counts as an empty one. -/
theorem orEmpty_obj {report : Option Json}
    (h : ∀ document, report = some document → ∃ fields, document = .obj fields) :
    ∃ fields, orEmpty report = .obj fields := by
  cases report with
  | none => exact ⟨[], rfl⟩
  | some document =>
    obtain ⟨fields, rfl⟩ := h document rfl
    unfold orEmpty
    dsimp only
    split
    · exact ⟨fields, rfl⟩
    · exact ⟨[], rfl⟩

section Phases

variable (hI : OnBoard I) (hworld : promised → Conforming engine world)
include hI hworld

/-- A call without the context: what follows may use its answer. -/
theorem runAlone_calm {site : CallSite} (hsite : site.isDeveloper = false) {agent : Agent}
    (hagent : agent ∈ engine.agents)
    (description taskType : String) (params : List (String × Json))
    {f : AgentResult → EngineM β}
    (hf : ∀ task result, Answer world site task result → Calm promised I (f result)) :
    Calm promised I (runAlone engine world site agent description taskType params >>= f) := by
  have hcall : Triple (Holding promised I)
      (runAlone engine world site agent description taskType params)
      (fun result s => (∃ task, Answer world site task result) ∧ Holding promised I s)
      (Ending promised I) := by
    refine Triple.bind (R := fun _ => Holding promised I)
      (Calm.get.bind fun _ => Calm.pure _) fun task => ?_
    refine (runAgent_answer hI hsite (fun h => (hworld h).rests _ hagent) task none).strengthen_post ?_
    exact fun _ _ h => ⟨⟨task, h.1⟩, h.2⟩
  refine hcall.bind fun result => Triple.of_pre ?_
  rintro ⟨task, hanswer⟩
  exact hf task result hanswer

/-- A call with the context: what follows may use its answer. -/
theorem runShared_calm {site : CallSite} (hsite : site.isDeveloper = false) {agent : Agent}
    (hagent : agent ∈ engine.agents) (description : String) (taskType : Json)
    (params : List (String × Json)) (files : List String) (correlationId : String)
    {f : AgentResult → EngineM β} {E : Stop → EngineState → Prop} {Q : β → EngineState → Prop}
    (hE : ∀ stop s, Ending promised I stop s → E stop s)
    (hf : ∀ task result, Answer world site task result →
      Triple (Holding promised I) (f result) Q E) :
    Triple (Holding promised I)
      (runShared engine world site agent description taskType params files correlationId >>= f)
      Q E := by
  have hcall : Triple (Holding promised I)
      (runShared engine world site agent description taskType params files correlationId)
      (fun result s => (∃ task, Answer world site task result) ∧ Holding promised I s)
      (Ending promised I) := by
    refine Triple.bind (R := fun _ => Holding promised I)
      (Calm.get.bind fun _ => Calm.pure _) fun task => ?_
    refine Triple.bind (R := fun _ => Holding promised I) Calm.get fun s => ?_
    refine (runAgent_answer hI hsite (fun h => (hworld h).rests _ hagent) task
      s.context).strengthen_post ?_
    exact fun _ _ h => ⟨⟨task, h.1⟩, h.2⟩
  refine (hcall.conseq (fun _ h => h) (fun _ _ h => h) hE).bind fun result => Triple.of_pre ?_
  rintro ⟨task, hanswer⟩
  exact hf task result hanswer

theorem runGate_calm (name : String) (input : GateInput) :
    Calm promised I (runGate engine world name input) := by
  unfold runGate
  cases hgate : (engine.gates world).lookup name with
  | none => exact (Calm.appendStage hI hworld _).bind fun _ => Calm.pure _
  | some gate =>
    refine (Calm.publishQuality hI _).bind fun _ => Calm.get.bind fun s => ?_
    refine (Calm.record hI rfl).bind fun _ => Calm.lift (fun h => toDict_of_canonical ?_) ?_
    · cases hevaluation : gate s.trace input with
      | returned result => exact (hworld h).gates name gate hgate s.trace input result hevaluation
      | raised exc => exact fun _ hmem => by cases hmem
      | timedOut => exact fun _ hmem => by cases hmem
    intro serialized _
    refine Calm.ite (fun _ => ?_) fun _ => ?_
    · refine (Calm.publishQuality hI _).bind fun _ => ?_
      refine (Calm.appendStage hI hworld _).bind fun _ => ?_
      exact (Calm.appendError hI _).bind fun _ => Calm.pure _
    · refine (Calm.publishQuality hI _).bind fun _ => ?_
      exact (Calm.appendStage hI hworld _).bind fun _ => Calm.pure _

theorem gatePhase_calm (name : String) (input : GateInput) :
    Calm promised I (gatePhase engine world name input) := by
  refine Calm.ite (fun _ => Calm.pure _) fun _ => ?_
  refine (runGate_calm hI hworld name input).bind fun goesOn => ?_
  exact Calm.ite (fun _ => Calm.pure _) fun _ => Calm.finish hI

/-- Research reads the report that the researcher promises, or none. -/
theorem researchPhase_calm (task : Task) : Calm promised I (researchPhase engine world task) := by
  unfold researchPhase
  cases hresearcher : engine.researcher with
  | none => exact Calm.pure _
  | some researcher =>
    have hagent : researcher ∈ engine.agents := by simp [agents, hresearcher]
    refine Calm.get.bind fun s => ?_
    refine runShared_calm hI hworld rfl hagent _ _ _ _ _ (fun _ _ h => h) ?_
    intro request result hanswer
    refine Calm.ite (fun hsuccess => ?_) fun _ => Calm.appendStage hI hworld _
    have hfields : promised → ∀ serialized,
        result.output.loads = .ok serialized ∨ serialized = .obj [] →
        ∃ fields, serialized = .obj fields ∧ Listed "sources" fields ∧ Listed "findings" fields := by
      rintro h serialized (hloads | rfl)
      · have houtput : result.output = .json serialized := by
          cases houtput : result.output with
          | empty => rw [houtput] at hloads; cases hloads
          | text content => rw [houtput] at hloads; cases hloads
          | json document => rw [houtput] at hloads; cases hloads; rfl
        rcases hanswer with ⟨hfailed, -⟩ | ⟨-, trace, attempt, returned, hreturned, hs, ho⟩
        · rw [hfailed] at hsuccess
          cases hsuccess
        · have hpromise := (hworld h).answers trace .research attempt returned hreturned
          exact hpromise (hs ▸ hsuccess) serialized (ho ▸ houtput)
      · exact ⟨[], rfl, listed_nil _, listed_nil _⟩
    have hgetD : ∀ serialized, result.output.loads = .ok serialized ∨ serialized = .obj [] →
        ∀ key default, promised → ∃ value, serialized.getD key default = .ok value := by
      intro serialized hread key default h
      obtain ⟨fields, rfl, -⟩ := hfields h serialized hread
      exact ⟨_, rfl⟩
    have hsources : ∀ serialized, result.output.loads = .ok serialized ∨ serialized = .obj [] →
        promised → ∃ count, itemCount serialized "sources" = .ok count := by
      intro serialized hread h
      obtain ⟨fields, rfl, hlisted, -⟩ := hfields h serialized hread
      exact itemCount_listed hlisted
    have hfindings : ∀ serialized, result.output.loads = .ok serialized ∨ serialized = .obj [] →
        promised → ∃ count, itemCount serialized "findings" = .ok count := by
      intro serialized hread h
      obtain ⟨fields, rfl, -, hlisted⟩ := hfields h serialized hread
      exact itemCount_listed hlisted
    cases hloads : result.output.loads
    all_goals
      first
        | have hread := hgetD _ (.inl hloads)
          have hsources := hsources _ (.inl hloads)
          have hfindings := hfindings _ (.inl hloads)
        | have hread := hgetD _ (.inr rfl)
          have hsources := hsources _ (.inr rfl)
          have hfindings := hfindings _ (.inr rfl)
      refine Calm.bind (Calm.update hI (fun _ => rfl) fun _ => rfl) fun _ => ?_
      refine Calm.bind (Calm.modify hI (fun _ => rfl) fun _ => rfl) fun _ => ?_
      refine Calm.lift (hread "status" .null) fun _ _ => ?_
      refine Calm.lift (hread "summary_short" .null) fun _ _ => ?_
      refine Calm.lift hsources fun _ _ => Calm.lift hfindings fun _ _ => ?_
      refine (Calm.appendStage hI hworld _).bind fun _ => Calm.ite (fun _ => ?_) fun _ => Calm.pure _
      refine Calm.lift (hread "memory_candidates" (.arr [])) fun _ _ => ?_
      exact Calm.lift hfindings fun _ _ => Calm.lift hsources fun _ _ => Calm.record hI rfl

omit hI in
/-- The error of an answer of the git agent can be read. -/
theorem gitError_answer {site : CallSite} (hsite : site = .createBranch ∨ site = .commit)
    {task : AgentTask} {result : AgentResult} (hanswer : Answer world site task result) :
    promised → ∃ error, gitError result = .ok error := by
  intro h
  refine gitError_texted fun document houtput => ?_
  rcases hanswer with ⟨-, hempty⟩ | ⟨-, trace, attempt, returned, hreturned, -, ho⟩
  · rw [hempty] at houtput
    cases houtput
  · have hpromise := (hworld h).answers trace site attempt returned hreturned
    rcases hsite with rfl | rfl
    · exact hpromise document (ho ▸ houtput)
    · exact hpromise document (ho ▸ houtput)

/-- The run branch is created, or the run ends. -/
theorem branchPhase_calm (createBranch : Bool) :
    Calm promised I (branchPhase engine world createBranch) := by
  unfold branchPhase
  split
  · rename_i git hgit
    have hagent : git ∈ engine.agents := by simp [agents, hgit]
    refine Calm.get.bind fun s => runAlone_calm hI hworld rfl hagent _ _ _ ?_
    intro task result hanswer
    refine Calm.lift (gitError_answer hworld (.inl rfl) hanswer) fun _ _ => ?_
    refine Calm.ite (fun _ => ?_) fun _ => Calm.fail hI hworld _ _
    refine (Calm.appendStage hI hworld _).bind fun _ => ?_
    exact Calm.update hI (fun _ => rfl) fun _ => rfl
  · exact Calm.appendStage hI hworld _

/-- The review leaves a readable report. -/
theorem reviewerPhase_calm : Calm promised I (reviewerPhase engine world) := by
  have hagent : engine.reviewer ∈ engine.agents := by simp [agents]
  refine runAlone_calm hI hworld rfl hagent _ _ _ ?_
  intro task result hanswer
  have hreport : promised → ∃ fields, reportOf result = .ok (.obj fields) := by
    intro h
    have hpromise : result.output = .empty ∨ ∃ fields, result.output = .json (.obj fields) := by
      rcases hanswer with ⟨-, hempty⟩ | ⟨-, trace, attempt, returned, hreturned, -, ho⟩
      · exact .inl hempty
      · rw [ho]
        exact (hworld h).answers trace .review attempt returned hreturned
    unfold reportOf
    rcases hpromise with hempty | ⟨fields, hjson⟩
    · rw [hempty]
      exact ⟨[], rfl⟩
    · rw [hjson]
      exact ⟨fields, rfl⟩
  refine Calm.lift (fun h => ?_) fun report hfound => ?_
  · obtain ⟨fields, heq⟩ := hreport h
    exact ⟨_, heq⟩
  refine Calm.bind ?_ fun _ => Calm.appendStage hI hworld _
  refine Triple.modify fun s hs => ⟨hI s _ rfl hs.1, fun h => ⟨(hs.2 h).test, ?_⟩⟩
  intro document hdocument
  obtain ⟨fields, heq⟩ := hreport h
  rw [hfound] at heq
  exact ⟨fields, (Option.some.inj hdocument).symm.trans (Except.ok.inj heq)⟩

omit hworld in
/-- A number of failures ends the run or lets it go on. -/
theorem stopOnFailures_calm {failed : Json} (hcount : promised → ∃ n : ℕ, failed = .ofNat n) :
    Calm promised I (stopOnFailures engine failed) := by
  refine Calm.lift (fun h => ?_) fun stops _ => Calm.ite (fun _ => ?_) fun _ => Calm.pure _
  · obtain ⟨n, rfl⟩ := hcount h
    exact ⟨_, Json.ofNat_gtZero n⟩
  · exact (Calm.appendError hI _).bind fun _ => Calm.finish hI

/-- The test stage reads a count of failures. -/
theorem testerPhase_calm : Calm promised I (testerPhase engine world) := by
  unfold testerPhase
  cases htester : engine.tester with
  | none =>
    refine (Calm.appendStage hI hworld _).bind fun _ => ?_
    exact (stopOnFailures_calm hI fun _ => ⟨0, rfl⟩).bind fun _ => Calm.pure _
  | some tester =>
    have hagent : tester ∈ engine.agents := by simp [agents, htester]
    have htests : Calm promised I (runTests engine world tester) := by
      refine Calm.get.bind fun s => Calm.ite (fun _ => ?_) fun _ => Calm.pure _
      refine runAlone_calm hI hworld rfl hagent _ _ _ ?_
      intro task result hanswer
      have hreport : promised → ∃ fields, reportOf result = .ok (.obj fields) ∧
          Counted "failed" fields := by
        intro h
        have hpromise : result.output = .empty ∨
            ∃ fields, result.output = .json (.obj fields) ∧ Counted "failed" fields := by
          rcases hanswer with ⟨-, hempty⟩ | ⟨-, trace, attempt, returned, hreturned, -, ho⟩
          · exact .inl hempty
          · rw [ho]
            exact (hworld h).answers trace .test attempt returned hreturned
        unfold reportOf
        rcases hpromise with hempty | ⟨fields, hjson, hcounted⟩
        · rw [hempty]
          exact ⟨[], rfl, fun _ hvalue => by cases hvalue⟩
        · rw [hjson]
          exact ⟨fields, rfl, hcounted⟩
      refine Calm.lift (fun h => ?_) fun report hfound => ?_
      · obtain ⟨fields, heq, -⟩ := hreport h
        exact ⟨_, heq⟩
      refine Triple.modify fun s hs => ⟨hI s _ rfl hs.1, fun h => ⟨?_, (hs.2 h).review⟩⟩
      intro document hdocument
      obtain ⟨fields, heq, hcounted⟩ := hreport h
      rw [hfound] at heq
      exact ⟨fields, (Option.some.inj hdocument).symm.trans (Except.ok.inj heq), hcounted⟩
    refine htests.bind fun _ => Triple.fix fun s hs => ?_
    refine Triple.bind (R := fun found t => found = s ∧ Holding promised I t)
      (Triple.get fun t ht => by subst ht; exact ⟨rfl, hs⟩) fun found => ?_
    refine Triple.of_pre fun hfound => ?_
    subst hfound
    refine Calm.lift (fun h => ?_) fun failed hfailed => ?_
    · obtain ⟨n, hn⟩ := counted_failed (hs.2 h)
      exact ⟨_, hn⟩
    refine (Calm.appendStage hI hworld _).bind fun _ => ?_
    refine (stopOnFailures_calm hI fun h => ?_).bind fun _ => Calm.pure _
    obtain ⟨n, hn⟩ := counted_failed (hs.2 h)
    rw [hn] at hfailed
    exact ⟨n, (Except.ok.inj hfailed).symm⟩

/-- Documentation reads the stored reports. -/
theorem documentationPhase_calm (failed : Json) :
    Calm promised I (documentationPhase engine world failed) := by
  unfold documentationPhase
  cases hdocumentation : engine.documentation with
  | none => exact Calm.appendStage hI hworld _
  | some documentation =>
    have hagent : documentation ∈ engine.agents := by simp [agents, hdocumentation]
    refine Triple.fix fun s hs => ?_
    have htest : promised → ∃ fields, orEmpty s.ctx.testReport = .obj fields := by
      intro h
      refine orEmpty_obj fun document hdocument => ?_
      obtain ⟨fields, heq, -⟩ := (hs.2 h).test document hdocument
      exact ⟨fields, heq⟩
    have hreview : promised → ∃ fields, orEmpty s.ctx.reviewReport = .obj fields :=
      fun h => orEmpty_obj (hs.2 h).review
    refine Triple.bind (R := fun found t => found = s ∧ Holding promised I t)
      (Triple.get fun t ht => by subst ht; exact ⟨rfl, hs⟩) fun found => ?_
    refine Triple.of_pre fun hfound => ?_
    subst hfound
    refine Calm.lift (fun h => ?_) fun _ _ => Calm.lift (fun h => ?_) fun _ _ => ?_
    · obtain ⟨fields, heq⟩ := htest h
      rw [heq]
      exact ⟨_, rfl⟩
    · obtain ⟨fields, heq⟩ := hreview h
      rw [heq]
      exact ⟨_, rfl⟩
    · refine runAlone_calm hI hworld rfl hagent _ _ _ ?_
      exact fun _ _ _ => Calm.appendStage hI hworld _

theorem releasePhase_calm : Calm promised I (releasePhase engine world) :=
  Calm.ite (fun _ => gatePhase_calm hI hworld _ _) fun _ => Calm.pure _

/-- Staging and committing. -/
theorem gitPhase_calm : Calm promised I (gitPhase engine world) := by
  unfold gitPhase
  cases hgit : engine.git with
  | none => exact Calm.appendStage hI hworld _
  | some git =>
    have hagent : git ∈ engine.agents := by simp [agents, hgit]
    refine runAlone_calm hI hworld rfl hagent _ _ _ fun _ staged _ => ?_
    refine Calm.bind (Calm.update hI (fun _ => rfl) fun _ => rfl) fun _ => ?_
    refine Calm.get.bind fun s => Calm.lift (fun h => (hworld h).message s.ctx) fun _ _ => ?_
    refine runAlone_calm hI hworld rfl hagent _ _ _ fun task result hanswer => ?_
    refine Calm.bind (Calm.update hI (fun _ => rfl) fun _ => rfl) fun _ => ?_
    refine Calm.lift (gitError_answer hworld (.inr rfl) hanswer) fun _ _ => ?_
    refine (Calm.appendStage hI hworld _).bind fun _ => ?_
    exact Calm.ite (fun _ => Calm.pure _) fun _ => Calm.appendError hI _

/-- The last git phase and the end of the run. -/
theorem deliver_calm : Calm promised I (deliver engine world) :=
  (gitPhase_calm hI hworld).bind fun _ => Calm.finish hI

/-- From the review to the last gate before the commit. -/
theorem examine_calm :
    Calm promised I (do
      reviewerPhase engine world
      gatePhase engine world "security_gate" { projectPath := some engine.projectPath }
      let failed ← testerPhase engine world
      let s ← get
      gatePhase engine world "test_gate" { testReport := s.ctx.testReport }
      documentationPhase engine world failed
      gatePhase engine world "documentation_gate" { projectPath := some engine.projectPath }
      releasePhase engine world) := by
  refine (reviewerPhase_calm hI hworld).bind fun _ => ?_
  refine (gatePhase_calm hI hworld _ _).bind fun _ => (testerPhase_calm hI hworld).bind fun failed => ?_
  refine Calm.get.bind fun s => (gatePhase_calm hI hworld _ _).bind fun _ => ?_
  refine (documentationPhase_calm hI hworld failed).bind fun _ => ?_
  exact (gatePhase_calm hI hworld _ _).bind fun _ => releasePhase_calm hI hworld

end Phases

end WorkflowEngine

end AiosDeck.Workflow
