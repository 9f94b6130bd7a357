import AiosDeck.Logic.Program
import AiosDeck.Logic.Trace
import AiosDeck.Workflow.Engine

/-!
# Footprints of the phases

Which agents and gates a phase can reach, and what every agent call of a
run looks like. Both are proved as frames: they hold however the phase
ends. Claims about the order of events follow from the footprints of the
phases in their order.
-/

namespace AiosDeck.Workflow

open Python Agents Security Quality Scheduler Program Trace

/-- The sites and gates that a part of a run may use. -/
structure Footprint where
  sites : CallSite → Prop
  gates : String → Prop

/-- No agent and no gate. -/
def Footprint.none : Footprint := ⟨fun _ => False, fun _ => False⟩

/-- Every site but staging and committing, and no gate. -/
def Footprint.readOnly : Footprint :=
  ⟨fun site => site ≠ .stage ∧ site ≠ .commit, fun _ => False⟩

/-- Every site, and no gate. -/
def Footprint.calls : Footprint := ⟨fun _ => True, fun _ => False⟩

/-- One footprint is part of another. -/
structure Footprint.le (small large : Footprint) : Prop where
  sites : ∀ site, small.sites site → large.sites site
  gates : ∀ name, small.gates name → large.gates name

/-- The event stays within a footprint. -/
def Event.within (footprint : Footprint) : Event → Prop
  | .agent call => footprint.sites call.site
  | .gate name _ _ => footprint.gates name
  | _ => True

/-- The agent that a call site runs. -/
def WorkflowEngine.siteAgent (engine : WorkflowEngine) : CallSite → Option Agent
  | .research => engine.researcher
  | .planner => some engine.planner
  | .createBranch | .stage | .commit => engine.git
  | .developer _ => some engine.developer
  | .review => some engine.reviewer
  | .test => engine.tester
  | .documentation => engine.documentation

/-- The call sites that pass the context, and with it the intent. -/
def CallSite.passesContext : CallSite → Bool
  | .research | .planner | .developer _ => true
  | _ => false

/-- Intent of the shared context. -/
def EngineState.intent (s : EngineState) : Option IntentPolicy := s.context.bind Context.intent

/-- What every agent call of a run looks like while the context carries
this intent. -/
structure Lawful (engine : WorkflowEngine) (intent : Option IntentPolicy) (call : AgentCall) :
    Prop where
  agent : engine.siteAgent call.site = some call.request.agent
  intent : call.request.intent = if call.site.passesContext then intent else none
  /-- The request overrides nothing and has no progress hook. -/
  plain : call.request.timeout = none ∧ call.request.retryPolicy = none ∧
    call.request.onProgress = none

/-- Events that are neither an agent call nor a gate fit every footprint. -/
def Event.plain : Event → Bool
  | .agent _ | .gate _ _ _ => false
  | _ => true

/-- The event is lawful, when it is an agent call. -/
def Event.lawful (engine : WorkflowEngine) (intent : Option IntentPolicy) : Event → Prop
  | .agent call => Lawful engine intent call
  | _ => True

/-- An agent call is what its executor makes of the agent at this point. -/
def Event.executed (engine : WorkflowEngine) (world : World) (front : List Event) : Event → Prop
  | .agent call => call =
      executorCall engine.executor call.site call.request (world.agentRun front call.site)
  | _ => True

/-- The trace grew within the footprint by lawful events, each call was
executed at its point of the trace, and the intent of the context is what
it was. -/
structure Extends (engine : WorkflowEngine) (world : World) (footprint : Footprint)
    (s t : EngineState) : Prop where
  intent : t.intent = s.intent
  appended : Appends (fun e => e.within footprint ∧ e.lawful engine s.intent) s.trace t.trace
  executed : Each (Event.executed engine world) s.trace → Each (Event.executed engine world) t.trace

namespace WorkflowEngine

variable {engine : WorkflowEngine} {world : World} {footprint : Footprint}

instance : Std.Refl (Extends engine world footprint) where
  refl s := ⟨rfl, Appends.refl s.trace, id⟩

instance : IsTrans EngineState (Extends engine world footprint) where
  trans s t u h h' := by
    refine ⟨h'.intent.trans h.intent, h.appended.trans ?_, fun hs => h'.executed (h.executed hs)⟩
    rw [← h.intent]
    exact h'.appended

/-- A step that leaves the intent and the trace as they are. -/
theorem extends_of_same {s t : EngineState} (hintent : t.intent = s.intent)
    (htrace : t.trace = s.trace) : Extends engine world footprint s t := by
  refine ⟨hintent, ?_, ?_⟩
  · rw [htrace]
    exact Appends.refl s.trace
  · rw [htrace]
    exact id

/-- A step that records one event. -/
theorem extends_of_event {s : EngineState} {e : Event} (hwithin : e.within footprint)
    (hlawful : e.lawful engine s.intent) (hexecuted : e.executed engine world s.trace) :
    Extends engine world footprint s { s with trace := s.trace ++ [e] } :=
  ⟨rfl, Appends.single s.trace ⟨hwithin, hlawful⟩, fun hs => hs.concat hexecuted⟩

theorem extends_mono {s t : EngineState} {large : Footprint}
    (h : Extends engine world footprint s t) (hle : footprint.le large) :
    Extends engine world large s t := by
  refine ⟨h.intent, h.appended.mono fun e he => ⟨?_, he.2⟩, h.executed⟩
  cases e with
  | agent call => exact hle.sites _ he.1
  | gate name input evaluation => exact hle.gates _ he.1
  | _ => trivial

/-- A larger footprint frames the same program. -/
theorem framed_mono {α : Type} {x : EngineM α} {large : Footprint}
    (h : Framed (Extends engine world footprint) x) (hle : footprint.le large) :
    Framed (Extends engine world large) x :=
  fun s => extends_mono (h s) hle

theorem Footprint.none_le : Footprint.none.le footprint :=
  ⟨fun _ h => h.elim, fun _ h => h.elim⟩

/-- Recording an event that is no agent call and no gate. -/
theorem record_framed {e : Event} (hplain : e.plain = true) :
    Framed (Extends engine world footprint) (record e) := by
  intro s
  cases e with
  | agent call => cases hplain
  | gate name input evaluation => cases hplain
  | _ => exact extends_of_event trivial trivial trivial

theorem update_framed (change : WorkflowContext → WorkflowContext) :
    Framed (Extends engine world footprint) (update change) :=
  fun _ => extends_of_same rfl rfl

theorem liftPy_framed {α : Type} (result : Except PyExc α) :
    Framed (Extends engine world footprint) (liftPy result) := by
  cases result with
  | ok value => exact Framed.pure value
  | error exc => exact Framed.throw _

theorem onBoard_framed {α : Type} (operation : CardOperation) (program : KanbanM α) :
    Framed (Extends engine world footprint) (onBoard operation program) := by
  refine Framed.bind (record_framed rfl) fun _ => ?_
  intro s
  have hsame : ∀ kanban, Extends engine world footprint s { s with kanban } :=
    fun _ => extends_of_same rfl rfl
  cases hp : program s.kanban with
  | ok value kanban =>
    simp only [after, bind, EStateM.bind, get, getThe, MonadStateOf.get, EStateM.get, hp]
    exact hsame kanban
  | error exc kanban =>
    simp only [after, bind, EStateM.bind, get, getThe, MonadStateOf.get, EStateM.get, hp]
    exact hsame kanban

theorem publishQuality_framed (event : QualityEvent) :
    Framed (Extends engine world footprint) (publishQuality engine event) := by
  unfold publishQuality
  split
  · exact record_framed rfl
  · exact Framed.pure _

theorem appendStage_framed (stage : WorkflowStage) :
    Framed (Extends engine world footprint) (appendStage world stage) := by
  refine (update_framed _).bind fun _ => (record_framed rfl).bind fun _ => ?_
  cases world.onStage stage with
  | none => exact Framed.pure _
  | some exc => exact Framed.throw _

theorem appendError_framed (error : String) :
    Framed (Extends engine world footprint) (appendError error) := update_framed _

theorem finish_framed {α : Type} :
    Framed (Extends engine world footprint) (finish engine : EngineM α) := by
  refine (update_framed _).bind fun _ => Framed.get.bind fun s => ?_
  refine Framed.bind ?_ fun _ => Framed.throw _
  unfold publishCompleted
  split
  · exact publishQuality_framed _
  · exact Framed.pure _

/-- `finish` leaves the pipeline with the result of the final context. -/
theorem finish_run {α : Type} (engine : WorkflowEngine) (s : EngineState) :
    ∃ t, (finish engine : EngineM α) s =
        .error (.returned (.fromContext (engine.enrichStages s.ctx))) t ∧
      t.ctx = engine.enrichStages s.ctx ∧
      Appends (fun e => ∃ event, e = .quality event) s.trace t.trace := by
  have hrun : (finish engine : EngineM α) s =
      (publishCompleted engine (engine.enrichStages s.ctx) >>= fun _ =>
        throw (.returned (.fromContext (engine.enrichStages s.ctx))))
        { s with ctx := engine.enrichStages s.ctx } := rfl
  rw [hrun]
  unfold publishCompleted publishQuality
  split
  · split
    · exact ⟨_, rfl, rfl, Appends.single s.trace ⟨_, rfl⟩⟩
    · exact ⟨_, rfl, rfl, Appends.refl s.trace⟩
  · exact ⟨_, rfl, rfl, Appends.refl s.trace⟩

theorem fail_framed {α : Type} (stage : WorkflowStage) (error : String) :
    Framed (Extends engine world footprint) (fail engine world stage error : EngineM α) :=
  (appendStage_framed stage).bind fun _ => (appendError_framed error).bind fun _ => finish_framed

theorem newTask_framed (description : String) (taskType : Json) (params : List (String × Json))
    (files : List String) (correlationId : String) :
    Framed (Extends engine world footprint)
      (newTask world description taskType params files correlationId) :=
  Framed.get.bind fun _ => Framed.pure _

@[simp] theorem executorCall_site (executor : AgentExecutor) (site : CallSite)
    (request : ExecutionRequest) (run : AgentRun) :
    (executorCall executor site request run).site = site := by
  unfold executorCall
  split <;> rfl

@[simp] theorem executorCall_request (executor : AgentExecutor) (site : CallSite)
    (request : ExecutionRequest) (run : AgentRun) :
    (executorCall executor site request run).request = request := by
  unfold executorCall
  split <;> rfl

/-- A call keeps all that its execution recorded. -/
theorem executorCall_log (executor : AgentExecutor) (site : CallSite)
    (request : ExecutionRequest) (run : AgentRun) :
    (executorCall executor site request run).log =
      (after (executor.execute request run) {}).events := by
  unfold executorCall after
  split <;> simp_all

theorem executorCall_outcome {executor : AgentExecutor} {site : CallSite}
    {request : ExecutionRequest} {run : AgentRun} {outcome : ExecutionOutcome} {s : ExecState}
    (h : executor.execute request run {} = .ok outcome s) :
    (executorCall executor site request run).outcome = .ok outcome := by
  unfold executorCall
  rw [h]

/-- Running an agent adds one lawful call at its site, when the context it
is given carries the intent that the site passes on. -/
theorem runAgent_extends {site : CallSite} {agent : Agent} {task : AgentTask}
    {context : Option Context} {s : EngineState} (hsite : footprint.sites site)
    (hagent : engine.siteAgent site = some agent)
    (hintent : context.bind Context.intent = if site.passesContext then s.intent else none) :
    Extends engine world footprint s (after (runAgent engine world site agent task context) s) := by
  let request : ExecutionRequest := { agent, task, context, intent := context.bind Context.intent }
  let call := executorCall engine.executor site request (world.agentRun s.trace site)
  have hfields : call.site = site ∧ call.request = request :=
    ⟨executorCall_site _ _ _ _, executorCall_request _ _ _ _⟩
  have hlawful : Lawful engine s.intent call := by
    refine ⟨?_, ?_, ?_⟩
    · rw [hfields.1, hfields.2]
      exact hagent
    · rw [hfields.1, hfields.2]
      exact hintent
    · rw [hfields.2]
      exact ⟨rfl, rfl, rfl⟩
  have hexecuted : (Event.agent call).executed engine world s.trace := by
    dsimp only [Event.executed]
    rw [hfields.1, hfields.2]
  have hwithin : (Event.agent call).within footprint := by
    dsimp only [Event.within]
    rw [hfields.1]
    exact hsite
  have hstate : after (runAgent engine world site agent task context) s =
      { s with trace := s.trace ++ [.agent call] } := by
    have hrun : runAgent engine world site agent task context s =
        answer request call.outcome { s with trace := s.trace ++ [.agent call] } := rfl
    unfold after
    rw [hrun]
    cases call.outcome <;> rfl
  rw [hstate]
  exact extends_of_event hwithin hlawful hexecuted

theorem runAlone_framed {site : CallSite} {agent : Agent} (description taskType : String)
    (params : List (String × Json)) (hsite : footprint.sites site)
    (hagent : engine.siteAgent site = some agent) (hpasses : site.passesContext = false) :
    Framed (Extends engine world footprint)
      (runAlone engine world site agent description taskType params) := by
  refine (newTask_framed _ _ _ _ _).bind fun task => ?_
  intro s
  exact runAgent_extends hsite hagent (by simp [hpasses])

theorem runShared_framed {site : CallSite} {agent : Agent} (description : String)
    (taskType : Json) (params : List (String × Json)) (files : List String)
    (correlationId : String) (hsite : footprint.sites site)
    (hagent : engine.siteAgent site = some agent) (hpasses : site.passesContext = true) :
    Framed (Extends engine world footprint)
      (runShared engine world site agent description taskType params files correlationId) := by
  refine (newTask_framed _ _ _ _ _).bind fun task => ?_
  intro s
  have hafter : Extends engine world footprint s
      (after (runAgent engine world site agent task s.context) s) :=
    runAgent_extends hsite hagent (by simp [hpasses, EngineState.intent])
  exact hafter

/-- A gate adds its evaluation, and nothing but plain events. -/
theorem runGate_framed (name : String) (input : GateInput) (hgate : footprint.gates name) :
    Framed (Extends engine world footprint) (runGate engine world name input) := by
  have hrecord : ∀ evaluation, Framed (Extends engine world footprint)
      (record (.gate name input evaluation)) :=
    fun evaluation s => extends_of_event hgate trivial trivial
  unfold runGate
  split
  · refine (publishQuality_framed _).bind fun _ => Framed.get.bind fun s => ?_
    refine (hrecord _).bind fun _ => (liftPy_framed _).bind fun serialized => ?_
    refine Framed.ite ?_ ?_
    · refine (publishQuality_framed _).bind fun _ => (appendStage_framed _).bind fun _ => ?_
      exact (appendError_framed _).bind fun _ => Framed.pure _
    · refine (publishQuality_framed _).bind fun _ => (appendStage_framed _).bind fun _ => ?_
      exact Framed.pure _
  · exact (appendStage_framed _).bind fun _ => Framed.pure _

theorem gatePhase_framed (name : String) (input : GateInput) (hgate : footprint.gates name) :
    Framed (Extends engine world footprint) (gatePhase engine world name input) := by
  refine Framed.ite (Framed.pure _) ?_
  refine (runGate_framed name input hgate).bind fun goesOn => ?_
  exact Framed.ite (Framed.pure _) finish_framed

section Phases

variable (footprint)

/-- Passing the research on changes the context, but not its intent. -/
theorem shareResearch_framed (serialized : Json) :
    Framed (Extends engine world footprint)
      (modify fun s : EngineState => { s with context := s.context.map fun packet =>
        if packet.settable then { packet with research := serialized } else packet } :
        EngineM Unit) := by
  intro s
  refine extends_of_same ?_ rfl
  cases hc : s.context with
  | none => simp [after, modify, modifyGet, MonadStateOf.modifyGet, EStateM.modifyGet,
      EngineState.intent, hc]
  | some packet =>
    by_cases hset : packet.settable <;>
      simp [after, modify, modifyGet, MonadStateOf.modifyGet, EStateM.modifyGet,
        EngineState.intent, hc, hset]

theorem researchPhase_framed (task : Task) (h : footprint.sites .research) :
    Framed (Extends engine world footprint) (researchPhase engine world task) := by
  unfold researchPhase
  cases hr : engine.researcher with
  | none => exact Framed.pure _
  | some researcher =>
    refine Framed.get.bind fun s => ?_
    refine (runShared_framed _ _ _ _ _ h hr rfl).bind fun result => ?_
    refine Framed.ite ?_ (appendStage_framed _)
    refine (update_framed _).bind fun _ => (shareResearch_framed footprint _).bind fun _ => ?_
    refine (liftPy_framed _).bind fun status => (liftPy_framed _).bind fun summary => ?_
    refine (liftPy_framed _).bind fun sources => (liftPy_framed _).bind fun findings => ?_
    refine (appendStage_framed _).bind fun _ => Framed.ite ?_ (Framed.pure _)
    refine (liftPy_framed _).bind fun _ => (liftPy_framed _).bind fun _ => ?_
    exact (liftPy_framed _).bind fun _ => record_framed rfl

theorem plannerPhase_framed (task : Task) (h : footprint.sites .planner) :
    Framed (Extends engine world footprint) (plannerPhase engine world task) := by
  refine (runShared_framed _ _ _ _ _ h rfl rfl).bind fun result => ?_
  refine Framed.ite ?_ (fail_framed _ _)
  refine (liftPy_framed _).bind fun plan => (update_framed _).bind fun _ => ?_
  refine (liftPy_framed _).bind fun subtasks => (liftPy_framed _).bind fun count => ?_
  exact (update_framed _).bind fun _ => (appendStage_framed _).bind fun _ => Framed.pure _

theorem branchPhase_framed (createBranch : Bool) (h : footprint.sites .createBranch) :
    Framed (Extends engine world footprint) (branchPhase engine world createBranch) := by
  unfold branchPhase
  split
  · rename_i git hgit
    refine Framed.get.bind fun s => ?_
    refine (runAlone_framed _ _ _ h hgit rfl).bind fun result => ?_
    refine (liftPy_framed _).bind fun error => Framed.ite ?_ (fail_framed _ _)
    exact (appendStage_framed _).bind fun _ => update_framed _
  · exact appendStage_framed _

theorem createCards_framed (boardId : ℕ) (subtasks : List Json) :
    Framed (Extends engine world footprint) (createCards engine boardId subtasks) := by
  induction subtasks with
  | nil => exact Framed.pure _
  | cons subtask rest ih =>
    refine (liftPy_framed _).bind fun title => (onBoard_framed _ _).bind fun card => ?_
    exact (update_framed _).bind fun _ => ih

theorem schedulerPhase_framed (subtasks : Json) :
    Framed (Extends engine world footprint) (schedulerPhase engine world subtasks) := by
  refine Framed.get.bind fun s => (onBoard_framed _ _).bind fun board => ?_
  refine (update_framed _).bind fun _ => (liftPy_framed _).bind fun items => ?_
  refine (createCards_framed footprint _ _).bind fun _ => (appendStage_framed _).bind fun _ => ?_
  exact Framed.pure _

theorem changedFiles_framed :
    Framed (Extends engine world footprint) (changedFiles world) :=
  Framed.get.bind fun _ => (record_framed rfl).bind fun _ => Framed.pure _

theorem developSubtask_framed (total index : ℕ) (subtask : Json)
    (h : ∀ index, footprint.sites (.developer index)) :
    Framed (Extends engine world footprint) (developSubtask engine world total index subtask) := by
  refine Framed.get.bind fun s => ?_
  split
  · exact Framed.throw _
  · refine (onBoard_framed _ _).bind fun _ => (liftPy_framed _).bind fun description => ?_
    refine (liftPy_framed _).bind fun taskType => ?_
    split
    · refine (runShared_framed _ _ _ _ _ (h index) rfl rfl).bind fun result => ?_
      refine Framed.ite ?_ ?_
      · refine (onBoard_framed _ _).bind fun _ => (update_framed _).bind fun _ => ?_
        exact appendStage_framed _
      · exact (onBoard_framed _ _).bind fun _ => fail_framed _ _
    · exact Framed.throw _

theorem developSubtasks_framed (total index : ℕ) (subtasks : List Json)
    (h : ∀ index, footprint.sites (.developer index)) :
    Framed (Extends engine world footprint) (developSubtasks engine world total index subtasks) := by
  induction subtasks generalizing index with
  | nil => exact Framed.pure _
  | cons subtask rest ih =>
    exact (developSubtask_framed footprint total index subtask h).bind fun _ => ih (index + 1)

theorem noopPhase_framed (before : List String) :
    Framed (Extends engine world footprint) (noopPhase engine world before) := by
  refine Framed.ite ?_ (Framed.pure _)
  refine (changedFiles_framed footprint).bind fun after => (update_framed _).bind fun _ => ?_
  refine Framed.get.bind fun s => Framed.ite ?_ (Framed.pure _)
  refine Framed.bind ?_ fun _ => fail_framed _ _
  unfold blockLast
  split
  · exact (onBoard_framed _ _).bind fun _ => Framed.pure _
  · exact Framed.pure _

/-- The developer phase before its gate. -/
theorem develop_framed (subtasks : List Json) (h : ∀ index, footprint.sites (.developer index)) :
    Framed (Extends engine world footprint) (develop engine world subtasks) := by
  refine Framed.bind ?_ fun before => ?_
  · exact Framed.ite (changedFiles_framed footprint) (Framed.pure _)
  · exact (developSubtasks_framed footprint _ _ _ h).bind fun _ => noopPhase_framed footprint before

theorem reviewerPhase_framed (h : footprint.sites .review) :
    Framed (Extends engine world footprint) (reviewerPhase engine world) := by
  refine (runAlone_framed _ _ _ h rfl rfl).bind fun result => (liftPy_framed _).bind fun report => ?_
  exact (update_framed _).bind fun _ => appendStage_framed _

theorem testerPhase_framed (h : footprint.sites .test) :
    Framed (Extends engine world footprint) (testerPhase engine world) := by
  have hstop : ∀ failed, Framed (Extends engine world footprint) (stopOnFailures engine failed) := by
    intro failed
    refine (liftPy_framed _).bind fun stops => Framed.ite ?_ (Framed.pure _)
    exact (appendError_framed _).bind fun _ => finish_framed
  unfold testerPhase
  cases ht : engine.tester with
  | none => exact (appendStage_framed _).bind fun _ => (hstop _).bind fun _ => Framed.pure _
  | some tester =>
    refine Framed.bind ?_ fun _ => ?_
    · refine Framed.get.bind fun s => Framed.ite ?_ (Framed.pure _)
      refine (runAlone_framed _ _ _ h ht rfl).bind fun result => ?_
      exact (liftPy_framed _).bind fun report => update_framed _
    · refine Framed.get.bind fun s => (liftPy_framed _).bind fun failed => ?_
      exact (appendStage_framed _).bind fun _ => (hstop _).bind fun _ => Framed.pure _

theorem documentationPhase_framed (failed : Json) (h : footprint.sites .documentation) :
    Framed (Extends engine world footprint) (documentationPhase engine world failed) := by
  unfold documentationPhase
  cases hd : engine.documentation with
  | none => exact appendStage_framed _
  | some documentation =>
    refine Framed.get.bind fun s => (liftPy_framed _).bind fun passed => ?_
    refine (liftPy_framed _).bind fun items => ?_
    exact (runAlone_framed _ _ _ h hd rfl).bind fun result => appendStage_framed _

theorem releasePhase_framed (h : footprint.gates "release_gate") :
    Framed (Extends engine world footprint) (releasePhase engine world) :=
  Framed.ite (gatePhase_framed _ _ h) (Framed.pure _)

theorem gitPhase_framed (hs : footprint.sites .stage) (hc : footprint.sites .commit) :
    Framed (Extends engine world footprint) (gitPhase engine world) := by
  unfold gitPhase
  cases hg : engine.git with
  | none => exact appendStage_framed _
  | some git =>
    refine (runAlone_framed _ _ _ hs hg rfl).bind fun staged => (update_framed _).bind fun _ => ?_
    refine Framed.get.bind fun s => (liftPy_framed _).bind fun message => ?_
    refine (runAlone_framed _ _ _ hc hg rfl).bind fun result => (update_framed _).bind fun _ => ?_
    refine (liftPy_framed _).bind fun error => (appendStage_framed _).bind fun _ => ?_
    exact Framed.ite (Framed.pure _) (appendError_framed _)

/-- The state that `execute` leaves is the one that its pipeline leaves. -/
theorem execute_state (task : Task) (context : Option Context) (createBranch : Bool)
    (kanban : KanbanState) :
    (execute engine world task context createBranch kanban).2 =
      after (pipeline engine world task createBranch) (begin engine world task context kanban) := by
  unfold execute after
  cases pipeline engine world task createBranch (begin engine world task context kanban) with
  | ok value s => rfl
  | error stop s => cases stop <;> rfl

theorem deliver_framed (hs : footprint.sites .stage) (hc : footprint.sites .commit) :
    Framed (Extends engine world footprint) (deliver engine world) :=
  (gitPhase_framed footprint hs hc).bind fun _ => finish_framed

end Phases

end WorkflowEngine

end AiosDeck.Workflow
