import AiosDeck.Workflow.Conformance

/-!
# Walks through a run

An assertion that the elementary steps keep is kept by every phase, from the
planner to the last commit. What a phase does beside its agents, gates and
the end of the run is one kind of step.
-/

namespace AiosDeck.Workflow

open Python Agents Security Quality Scheduler Program

/-- The event is neither a call, nor a gate, nor of the quality pipeline. -/
def Event.quiet : Event → Bool
  | .agent _ | .gate _ _ _ | .quality _ => false
  | _ => true

/-- A step beside agents and gates: at most one other event is recorded, and
the shared context stays as it is. -/
structure Quiet (s t : EngineState) : Prop where
  context : t.context = s.context
  active : t.ctx.qualityActive = s.ctx.qualityActive
  trace : t.trace = s.trace ∨ ∃ e, e.quiet = true ∧ t.trace = s.trace ++ [e]

/-- An assertion that quiet steps keep, and that an exception may end with. -/
structure Undisturbed (I : EngineState → Prop) (E : Stop → EngineState → Prop) : Prop where
  quiet : ∀ s t, Quiet s t → I s → I t
  raised : ∀ exc s, I s → E (.raised exc) s

/-- An assertion that a walk through the run keeps. -/
structure Walk (engine : WorkflowEngine) (world : World) (I : EngineState → Prop)
    (E : Stop → EngineState → Prop) : Prop extends Undisturbed I E where
  called : ∀ s call, call.site ≠ .research →
    (call.site.passesContext = true → call.request.context = s.context) →
      I s → I (WorkflowEngine.called call s)
  gate : ∀ name input, Triple I (WorkflowEngine.gatePhase engine world name input) (fun _ => I) E
  finished : ∀ {α : Type} {Q : α → EngineState → Prop},
    Triple I (WorkflowEngine.finish engine : EngineM α) Q E

/-- A shared call is recorded, with the context that it was given. -/
theorem WorkflowEngine.after_runShared (engine : WorkflowEngine) (world : World) (site : CallSite)
    (agent : Agent) (description : String) (taskType : Json) (params : List (String × Json))
    (files : List String) (s : EngineState) :
    ∃ call : AgentCall, call.site = site ∧ call.request.context = s.context ∧
      after (runShared engine world site agent description taskType params files) s =
        called call s := by
  let task : AgentTask :=
    { description, taskType, files, params, taskId := toString (world.uuid s.trace) }
  let request : ExecutionRequest :=
    { agent, task, context := s.context, intent := s.context.bind Context.intent }
  let call := executorCall engine.executor site request (world.agentRun s.trace site)
  refine ⟨call, executorCall_site _ _ _ _, ?_, ?_⟩
  · have hrequest : call.request = request := executorCall_request _ _ _ _
    rw [hrequest]
  · have hrun : runShared engine world site agent description taskType params files "" s =
        answer request call.outcome (called call s) := rfl
    unfold after
    rw [hrun]
    cases call.outcome with
    | ok outcome => rfl
    | error exc => rfl

namespace Undisturbed

variable {world : World} {I : EngineState → Prop} {E : Stop → EngineState → Prop} {α : Type}
  (h : Undisturbed I E)
include h

theorem pure (value : α) : Triple I (Pure.pure value : EngineM α) (fun _ => I) E :=
  Triple.pure fun _ hs => hs

theorem get : Triple I (MonadState.get : EngineM EngineState) (fun _ => I) E :=
  Triple.get fun _ hs => hs

theorem modify {f : EngineState → EngineState} (hquiet : ∀ s, Quiet s (f s)) :
    Triple I (modify f : EngineM Unit) (fun _ => I) E :=
  Triple.modify fun s hs => h.quiet s _ (hquiet s) hs

theorem raise (exc : PyExc) : Triple I (throw (.raised exc) : EngineM α) (fun _ => I) E :=
  Triple.throw fun s hs => h.raised exc s hs

theorem record {e : Event} (he : e.quiet = true) :
    Triple I (WorkflowEngine.record e) (fun _ => I) E :=
  h.modify fun _ => ⟨rfl, rfl, .inr ⟨e, he, rfl⟩⟩

theorem update {change : WorkflowContext → WorkflowContext}
    (hactive : ∀ ctx, (change ctx).qualityActive = ctx.qualityActive) :
    Triple I (WorkflowEngine.update change) (fun _ => I) E :=
  h.modify fun s => ⟨rfl, hactive s.ctx, .inl rfl⟩

theorem liftPy (result : Except PyExc α) :
    Triple I (WorkflowEngine.liftPy result) (fun _ => I) E := by
  cases result with
  | ok value => exact h.pure value
  | error exc => exact h.raise exc

theorem onBoard (operation : CardOperation) (program : KanbanM α) :
    Triple I (WorkflowEngine.onBoard operation program) (fun _ => I) E := by
  refine Triple.bind (h.record rfl) fun _ => ?_
  intro s hs
  have hkept : ∀ kanban, I { s with kanban } := fun _ => h.quiet s _ ⟨rfl, rfl, .inl rfl⟩ hs
  cases hp : program s.kanban with
  | ok value kanban =>
    simp only [bind, EStateM.bind, MonadState.get, getThe, MonadStateOf.get, EStateM.get, hp]
    exact hkept kanban
  | error exc kanban =>
    simp only [bind, EStateM.bind, MonadState.get, getThe, MonadStateOf.get, EStateM.get, hp]
    exact h.raised exc _ (hkept kanban)

theorem appendStage (stage : WorkflowStage) :
    Triple I (WorkflowEngine.appendStage world stage) (fun _ => I) E := by
  refine Triple.bind (h.update fun _ => rfl) fun _ => Triple.bind (h.record rfl) fun _ => ?_
  cases world.onStage stage with
  | none => exact h.pure _
  | some exc => exact h.raise exc

theorem appendError (error : String) :
    Triple I (WorkflowEngine.appendError error) (fun _ => I) E := h.update fun _ => rfl

/-- A call of an agent, when the assertion outlives its record. -/
theorem runAgent {engine : WorkflowEngine} {s : EngineState} {site : CallSite} (agent : Agent)
    (task : AgentTask) {context : Option Context}
    (hcalled : ∀ call : AgentCall, call.site = site → call.request.context = context →
      I (WorkflowEngine.called call s)) :
    Triple (fun t => t = s) (WorkflowEngine.runAgent engine world site agent task context)
      (fun _ => I) E := by
  rintro t rfl
  let request : ExecutionRequest := { agent, task, context, intent := context.bind Context.intent }
  let call := executorCall engine.executor site request (world.agentRun t.trace site)
  have hrequest : call.request = request := WorkflowEngine.executorCall_request _ _ _ _
  have hkept : I (WorkflowEngine.called call t) :=
    hcalled call (WorkflowEngine.executorCall_site _ _ _ _) (by rw [hrequest])
  have hrun : WorkflowEngine.runAgent engine world site agent task context t =
      WorkflowEngine.answer request call.outcome (WorkflowEngine.called call t) := rfl
  rw [hrun]
  cases call.outcome with
  | ok outcome => exact hkept
  | error exc => exact h.raised exc _ hkept

/-- The research, for an assertion about other things than calls and context. -/
theorem researchPhase {engine : WorkflowEngine}
    (hcalled : ∀ s call, I s → I (WorkflowEngine.called call s))
    (hshared : ∀ (s : EngineState) context, I s → I { s with context }) (task : Task) :
    Triple I (WorkflowEngine.researchPhase engine world task) (fun _ => I) E := by
  unfold WorkflowEngine.researchPhase
  cases engine.researcher with
  | none => exact h.pure _
  | some researcher =>
    refine Triple.bind h.get fun s => Triple.bind (Triple.bind (Triple.bind h.get fun _ =>
      h.pure _) fun task => Triple.bind h.get fun t => Triple.fix fun u hu =>
        h.runAgent researcher task fun call _ _ => hcalled u call hu) fun result => ?_
    refine Triple.ite (fun _ => ?_) fun _ => h.appendStage _
    refine Triple.bind (h.update fun _ => rfl) fun _ => ?_
    refine Triple.bind (R := fun _ => I) (Triple.modify fun t ht => hshared t _ ht) fun _ => ?_
    refine Triple.bind (h.liftPy _) fun status => Triple.bind (h.liftPy _) fun summary => ?_
    refine Triple.bind (h.liftPy _) fun sources => Triple.bind (h.liftPy _) fun findings => ?_
    refine Triple.bind (h.appendStage _) fun _ => Triple.ite (fun _ => ?_) fun _ => h.pure _
    refine Triple.bind (h.liftPy _) fun _ => Triple.bind (h.liftPy _) fun _ => ?_
    exact Triple.bind (h.liftPy _) fun _ => h.record rfl

end Undisturbed

namespace Walk

variable {engine : WorkflowEngine} {world : World} {I : EngineState → Prop}
  {E : Stop → EngineState → Prop} {α : Type} (hwalk : Walk engine world I E)
include hwalk

theorem fail (stage : WorkflowStage) (error : String) :
    Triple I (WorkflowEngine.fail engine world stage error : EngineM α) (fun _ => I) E :=
  Triple.bind (hwalk.appendStage stage) fun _ =>
    Triple.bind (hwalk.appendError error) fun _ => hwalk.finished

/-- A call hands on the context, when its site passes one. -/
theorem runAgent {s : EngineState} (hs : I s) {site : CallSite} (hsite : site ≠ .research)
    (agent : Agent) (task : AgentTask) {context : Option Context}
    (hcontext : site.passesContext = true → context = s.context) :
    Triple (fun t => t = s) (WorkflowEngine.runAgent engine world site agent task context)
      (fun _ => I) E := by
  refine hwalk.toUndisturbed.runAgent agent task fun call hcall hrequest => ?_
  refine hwalk.called s call (hcall ▸ hsite) (fun hpasses => ?_) hs
  rw [hrequest]
  exact hcontext (hcall ▸ hpasses)

theorem runAlone {site : CallSite} (hsite : site ≠ .research) (hpasses : site.passesContext = false)
    (agent : Agent) (description taskType : String) (params : List (String × Json)) :
    Triple I (WorkflowEngine.runAlone engine world site agent description taskType params)
      (fun _ => I) E := by
  refine Triple.bind (Triple.bind hwalk.get fun _ => hwalk.pure _) fun task => ?_
  refine Triple.fix fun s hs => hwalk.runAgent hs hsite agent task fun h => ?_
  rw [hpasses] at h
  cases h

theorem runShared {site : CallSite} (hsite : site ≠ .research) (agent : Agent)
    (description : String) (taskType : Json) (params : List (String × Json)) (files : List String)
    (correlationId : String) :
    Triple I (WorkflowEngine.runShared engine world site agent description taskType params files
      correlationId) (fun _ => I) E := by
  refine Triple.bind (Triple.bind hwalk.get fun _ => hwalk.pure _) fun task => ?_
  refine Triple.bind (R := fun s t => t = s ∧ I s) (Triple.get fun s hs => ⟨rfl, hs⟩) fun s => ?_
  exact (Triple.of_pre fun hs => hwalk.runAgent hs hsite agent task fun _ => rfl).weaken_pre
    fun t ht => ⟨ht.2, ht.1⟩

/-- The planner, from a call that establishes the assertion. -/
theorem plannerPhase_of_call {P : EngineState → Prop} (task : Task)
    (hcall : Triple P (WorkflowEngine.runShared engine world .planner engine.planner
      task.description (.str task.taskType) [] task.files) (fun _ => I) E) :
    Triple P (WorkflowEngine.plannerPhase engine world task) (fun _ => I) E := by
  refine Triple.bind hcall fun result => ?_
  refine Triple.ite (fun _ => ?_) fun _ => hwalk.fail _ _
  refine Triple.bind (hwalk.liftPy _) fun plan => ?_
  refine Triple.bind (hwalk.update fun _ => rfl) fun _ => ?_
  refine Triple.bind (hwalk.liftPy _) fun subtasks => Triple.bind (hwalk.liftPy _) fun count => ?_
  exact Triple.bind (hwalk.update fun _ => rfl) fun _ =>
    Triple.bind (hwalk.appendStage _) fun _ => hwalk.pure _

theorem branchPhase (createBranch : Bool) :
    Triple I (WorkflowEngine.branchPhase engine world createBranch) (fun _ => I) E := by
  have hsite : CallSite.createBranch ≠ .research := fun h => by cases h
  unfold WorkflowEngine.branchPhase
  split
  · refine Triple.bind hwalk.get fun s => ?_
    refine Triple.bind (hwalk.runAlone hsite rfl _ _ _ _) fun result => ?_
    refine Triple.bind (hwalk.liftPy _) fun error => ?_
    refine Triple.ite (fun _ => ?_) fun _ => hwalk.fail _ _
    exact Triple.bind (hwalk.appendStage _) fun _ => hwalk.update fun _ => rfl
  · exact hwalk.appendStage _

theorem createCards (boardId : ℕ) (subtasks : List Json) :
    Triple I (WorkflowEngine.createCards engine boardId subtasks) (fun _ => I) E := by
  induction subtasks with
  | nil => exact hwalk.pure _
  | cons subtask rest ih =>
    refine Triple.bind (hwalk.liftPy _) fun title => Triple.bind (hwalk.onBoard _ _) fun card => ?_
    exact Triple.bind (hwalk.update fun _ => rfl) fun _ => ih

theorem schedulerPhase (subtasks : Json) :
    Triple I (WorkflowEngine.schedulerPhase engine world subtasks) (fun _ => I) E := by
  refine Triple.bind hwalk.get fun s => Triple.bind (hwalk.onBoard _ _) fun board => ?_
  refine Triple.bind (hwalk.update fun _ => rfl) fun _ => ?_
  refine Triple.bind (hwalk.liftPy _) fun items => ?_
  refine Triple.bind (hwalk.createCards _ _) fun _ => Triple.bind (hwalk.appendStage _) fun _ => ?_
  exact hwalk.pure _

theorem changedFiles : Triple I (WorkflowEngine.changedFiles world) (fun _ => I) E :=
  Triple.bind hwalk.get fun _ => Triple.bind (hwalk.record rfl) fun _ => hwalk.pure _

theorem developSubtask (total index : ℕ) (subtask : Json) :
    Triple I (WorkflowEngine.developSubtask engine world total index subtask) (fun _ => I) E := by
  have hsite : CallSite.developer index ≠ .research := fun h => by cases h
  refine Triple.bind hwalk.get fun s => ?_
  split
  · exact hwalk.raise _
  · refine Triple.bind (hwalk.onBoard _ _) fun _ => ?_
    refine Triple.bind (hwalk.liftPy _) fun description => ?_
    refine Triple.bind (hwalk.liftPy _) fun taskType => ?_
    split
    · refine Triple.bind (hwalk.runShared hsite _ _ _ _ _ _) fun result => ?_
      refine Triple.ite (fun _ => ?_) fun _ => ?_
      · refine Triple.bind (hwalk.onBoard _ _) fun _ => ?_
        exact Triple.bind (hwalk.update fun _ => rfl) fun _ => hwalk.appendStage _
      · exact Triple.bind (hwalk.onBoard _ _) fun _ => hwalk.fail _ _
    · exact hwalk.raise _

/-- The loop over the subtasks: by induction, one subtask at a time. -/
theorem developSubtasks (total index : ℕ) (subtasks : List Json) :
    Triple I (WorkflowEngine.developSubtasks engine world total index subtasks) (fun _ => I) E := by
  induction subtasks generalizing index with
  | nil => exact hwalk.pure _
  | cons subtask rest ih =>
    exact Triple.bind (hwalk.developSubtask total index subtask) fun _ => ih (index + 1)

theorem noopPhase (before : List String) :
    Triple I (WorkflowEngine.noopPhase engine world before) (fun _ => I) E := by
  have hblock : ∀ cards reason, Triple I (WorkflowEngine.blockLast engine cards reason)
      (fun _ => I) E := by
    intro cards reason
    unfold WorkflowEngine.blockLast
    split
    · exact Triple.bind (hwalk.onBoard _ _) fun _ => hwalk.pure _
    · exact hwalk.pure _
  refine Triple.ite (fun _ => ?_) fun _ => hwalk.pure _
  refine Triple.bind hwalk.changedFiles fun after => ?_
  refine Triple.bind (hwalk.update fun _ => rfl) fun _ => Triple.bind hwalk.get fun s => ?_
  refine Triple.ite (fun _ => ?_) fun _ => hwalk.pure _
  exact Triple.bind (hblock _ _) fun _ => hwalk.fail _ _

theorem developerPhase (subtasks : List Json) :
    Triple I (WorkflowEngine.developerPhase engine world subtasks) (fun _ => I) E := by
  have hbefore : Triple I (WorkflowEngine.filesBefore engine world) (fun _ => I) E :=
    Triple.ite (fun _ => hwalk.changedFiles) fun _ => hwalk.pure _
  have hdevelop : Triple I (WorkflowEngine.develop engine world subtasks) (fun _ => I) E :=
    Triple.bind hbefore fun before =>
      Triple.bind (hwalk.developSubtasks _ _ _) fun _ => hwalk.noopPhase before
  exact Triple.bind hdevelop fun _ => hwalk.gate _ _

theorem reviewerPhase : Triple I (WorkflowEngine.reviewerPhase engine world) (fun _ => I) E := by
  have hsite : CallSite.review ≠ .research := fun h => by cases h
  refine Triple.bind (hwalk.runAlone hsite rfl _ _ _ _) fun result => ?_
  refine Triple.bind (hwalk.liftPy _) fun report => ?_
  exact Triple.bind (hwalk.update fun _ => rfl) fun _ => hwalk.appendStage _

theorem testerPhase : Triple I (WorkflowEngine.testerPhase engine world) (fun _ => I) E := by
  have hsite : CallSite.test ≠ .research := fun h => by cases h
  have hstop : ∀ failed, Triple I (WorkflowEngine.stopOnFailures engine failed) (fun _ => I) E := by
    intro failed
    refine Triple.bind (hwalk.liftPy _) fun stops => Triple.ite (fun _ => ?_) fun _ => hwalk.pure _
    exact Triple.bind (hwalk.appendError _) fun _ => hwalk.finished
  unfold WorkflowEngine.testerPhase
  cases engine.tester with
  | none =>
    exact Triple.bind (hwalk.appendStage _) fun _ => Triple.bind (hstop _) fun _ => hwalk.pure _
  | some tester =>
    refine Triple.bind (Triple.bind hwalk.get fun s => Triple.ite (fun _ => ?_) fun _ =>
      hwalk.pure _) fun _ => ?_
    · refine Triple.bind (hwalk.runAlone hsite rfl _ _ _ _) fun result => ?_
      exact Triple.bind (hwalk.liftPy _) fun report => hwalk.update fun _ => rfl
    · refine Triple.bind hwalk.get fun s => Triple.bind (hwalk.liftPy _) fun failed => ?_
      exact Triple.bind (hwalk.appendStage _) fun _ => Triple.bind (hstop _) fun _ => hwalk.pure _

theorem documentationPhase (failed : Json) :
    Triple I (WorkflowEngine.documentationPhase engine world failed) (fun _ => I) E := by
  have hsite : CallSite.documentation ≠ .research := fun h => by cases h
  unfold WorkflowEngine.documentationPhase
  cases engine.documentation with
  | none => exact hwalk.appendStage _
  | some documentation =>
    refine Triple.bind hwalk.get fun s => Triple.bind (hwalk.liftPy _) fun passed => ?_
    refine Triple.bind (hwalk.liftPy _) fun items => ?_
    exact Triple.bind (hwalk.runAlone hsite rfl _ _ _ _) fun result => hwalk.appendStage _

theorem releasePhase : Triple I (WorkflowEngine.releasePhase engine world) (fun _ => I) E :=
  Triple.ite (fun _ => hwalk.gate _ _) fun _ => hwalk.pure _

theorem gitPhase : Triple I (WorkflowEngine.gitPhase engine world) (fun _ => I) E := by
  have hstage : CallSite.stage ≠ .research := fun h => by cases h
  have hcommit : CallSite.commit ≠ .research := fun h => by cases h
  unfold WorkflowEngine.gitPhase
  cases engine.git with
  | none => exact hwalk.appendStage _
  | some git =>
    refine Triple.bind (hwalk.runAlone hstage rfl _ _ _ _) fun staged => ?_
    refine Triple.bind (hwalk.update fun _ => rfl) fun _ => Triple.bind hwalk.get fun s => ?_
    refine Triple.bind (hwalk.liftPy _) fun message => ?_
    refine Triple.bind (hwalk.runAlone hcommit rfl _ _ _ _) fun result => ?_
    refine Triple.bind (hwalk.update fun _ => rfl) fun _ => ?_
    refine Triple.bind (hwalk.liftPy _) fun error => ?_
    refine Triple.bind (hwalk.appendStage _) fun _ => ?_
    exact Triple.ite (fun _ => hwalk.pure _) fun _ => hwalk.appendError _

/-- From the planner's subtasks to the last gate. -/
theorem implement (createBranch : Bool) (subtasks : Json) :
    Triple I (WorkflowEngine.implement engine world createBranch subtasks) (fun _ => I) E := by
  refine Triple.bind (hwalk.branchPhase _) fun _ => ?_
  refine Triple.bind (hwalk.schedulerPhase _) fun items => ?_
  refine Triple.bind (hwalk.developerPhase _) fun _ => Triple.bind hwalk.reviewerPhase fun _ => ?_
  refine Triple.bind (hwalk.gate _ _) fun _ => Triple.bind hwalk.testerPhase fun failed => ?_
  refine Triple.bind hwalk.get fun s => Triple.bind (hwalk.gate _ _) fun _ => ?_
  refine Triple.bind (hwalk.documentationPhase _) fun _ => Triple.bind (hwalk.gate _ _) fun _ => ?_
  exact hwalk.releasePhase

/-- The end of a run never goes on. -/
theorem deliver : Triple I (WorkflowEngine.deliver engine world) (fun _ _ => False) E :=
  Triple.bind hwalk.gitPhase fun _ => hwalk.finished

/-- From the planner to the end of the run. -/
theorem afterResearch_of_call {P : EngineState → Prop} (task : Task) (createBranch : Bool)
    (hcall : Triple P (WorkflowEngine.runShared engine world .planner engine.planner
      task.description (.str task.taskType) [] task.files) (fun _ => I) E) :
    Triple P (do
      let subtasks ← WorkflowEngine.plannerPhase engine world task
      WorkflowEngine.implement engine world createBranch subtasks
      WorkflowEngine.deliver engine world) (fun _ _ => False) E :=
  Triple.bind (hwalk.plannerPhase_of_call task hcall) fun subtasks =>
    Triple.bind (hwalk.implement createBranch subtasks) fun _ => hwalk.deliver

theorem afterResearch (task : Task) (createBranch : Bool) :
    Triple I (do
      let subtasks ← WorkflowEngine.plannerPhase engine world task
      WorkflowEngine.implement engine world createBranch subtasks
      WorkflowEngine.deliver engine world) (fun _ _ => False) E := by
  have hsite : CallSite.planner ≠ .research := fun h => by cases h
  exact hwalk.afterResearch_of_call task createBranch (hwalk.runShared hsite _ _ _ _ _ _)

end Walk

/-- The pipeline, with the phases after the research as one. -/
theorem WorkflowEngine.pipeline_phases (engine : WorkflowEngine) (world : World) (task : Task)
    (createBranch : Bool) :
    pipeline engine world task createBranch = (do
      publishStarted engine world
      researchPhase engine world task
      let subtasks ← plannerPhase engine world task
      implement engine world createBranch subtasks
      deliver engine world) := by
  unfold pipeline prepare
  simp only [bind_assoc]

end AiosDeck.Workflow
