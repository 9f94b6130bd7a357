import AiosDeck.Workflow.Gatekeeping

/-!
# The result of a run

A run reports success exactly when it recorded no error, and then its last
stage succeeded and the configured git agent committed. A failed run has
one error, and nothing is done to a collaborator after the failing stage.
-/

namespace AiosDeck.Workflow

open Python Agents Security Quality Scheduler Program Trace

/-- A commit whose agent result was successful. -/
def Event.committed : Event → Prop
  | .agent call => call.site = .commit ∧ ∃ outcome, call.outcome = .ok outcome ∧
      (WorkflowEngine.outcomeResult call.request outcome).success = true
  | _ => False

/-- What the result of a run says about the run. -/
structure Sound (engine : WorkflowEngine) (result : WorkflowResult) (trace : List Event) : Prop where
  errors : result.success = true ↔ result.errors = []
  last : result.success = true ↔
    ∃ stage, result.stages.getLast? = some stage ∧ stage.success = true
  single : result.success = false → ∃ error, result.errors = [error]
  /-- Only quality events follow the stage that made the run fail. -/
  halted : result.success = false → ∃ front stage rest,
    trace = front ++ .stage stage :: rest ∧ stage.success = false ∧
      result.stages.getLast?.map WorkflowStage.name = some stage.name ∧
      ∀ e ∈ rest, ∃ event, e = .quality event
  committed : result.success = true → engine.git.isSome = true → ∃ e ∈ trace, e.committed

/-- No error was recorded yet. -/
def Clean (s : EngineState) : Prop := s.ctx.errors = []

/-- The last stage failed, its error was recorded, and nothing followed. -/
def Halted (s : EngineState) : Prop :=
  (∃ error, s.ctx.errors = [error]) ∧ ∃ stage, s.ctx.stages.getLast? = some stage ∧
    stage.success = false ∧ ∃ front, s.trace = front ++ [.stage stage]

/-- A stage was just recorded in a run without errors. -/
def JustRecorded (stage : WorkflowStage) (s : EngineState) : Prop :=
  Clean s ∧ s.ctx.stages.getLast? = some stage ∧ ∃ front, s.trace = front ++ [.stage stage]

/-- A condition on the result when the run ends with one. -/
def onReturn (condition : WorkflowResult → List Event → Prop) : Stop → EngineState → Prop
  | .returned result, s => condition result s.trace
  | .raised _, _ => True

namespace WorkflowEngine

/-- A part of a run that either goes on without errors, or ends with a sound
result, or raises. -/
def Steady (engine : WorkflowEngine) {α : Type} (x : EngineM α) : Prop :=
  Triple Clean x (fun _ => Clean) (onReturn (Sound engine))

variable {engine : WorkflowEngine} {world : World} {α : Type}

/-- Adding effective permissions changes no name and no success. -/
theorem enrich_name_success (intent : IntentPolicy) (stage : WorkflowStage) :
    (engine.enrich intent stage).name = stage.name ∧
      (engine.enrich intent stage).success = stage.success := by
  unfold enrich
  split
  · exact ⟨rfl, rfl⟩
  · dsimp only
    split <;> exact ⟨rfl, rfl⟩

/-- The last stage keeps its name and success in the finished context. -/
theorem enrichStages_last (engine : WorkflowEngine) (ctx : WorkflowContext) {stage : WorkflowStage}
    (h : ctx.stages.getLast? = some stage) :
    ∃ enriched, (engine.enrichStages ctx).stages.getLast? = some enriched ∧
      enriched.name = stage.name ∧ enriched.success = stage.success := by
  unfold enrichStages
  cases ctx.intent with
  | none => exact ⟨stage, h, rfl, rfl⟩
  | some intent =>
    refine ⟨engine.enrich intent stage, ?_, enrich_name_success intent stage⟩
    simp [h]

theorem enrichStages_errors (ctx : WorkflowContext) :
    (engine.enrichStages ctx).errors = ctx.errors := by
  unfold enrichStages
  cases ctx.intent <;> rfl

/-- A context with one error and a failed last stage makes a sound failure. -/
theorem sound_failed {ctx : WorkflowContext} {trace : List Event} {error : String}
    {stage : WorkflowStage} (herror : ctx.errors = [error]) (hlast : ctx.stages.getLast? = some stage)
    (hfailed : stage.success = false)
    (htrace : ∃ front rest, trace = front ++ .stage stage :: rest ∧
      ∀ e ∈ rest, ∃ event, e = .quality event) :
    Sound engine (.fromContext (engine.enrichStages ctx)) trace := by
  obtain ⟨enriched, henriched, hname, hsuccess⟩ := enrichStages_last engine ctx hlast
  obtain ⟨front, rest, heq, hrest⟩ := htrace
  have herrors : (WorkflowResult.fromContext (engine.enrichStages ctx)).errors = [error] :=
    (enrichStages_errors ctx).trans herror
  have hresult : (WorkflowResult.fromContext (engine.enrichStages ctx)).success = false := by
    change (engine.enrichStages ctx).errors.isEmpty = false
    rw [enrichStages_errors, herror]
    rfl
  have hstages : (WorkflowResult.fromContext (engine.enrichStages ctx)).stages.getLast? =
    some enriched := henriched
  refine ⟨?_, ?_, fun _ => ⟨error, herrors⟩, fun _ => ?_, ?_⟩
  · simp [hresult, herrors]
  · simp [hresult, hstages, hsuccess, hfailed]
  · refine ⟨front, stage, rest, heq, hfailed, ?_, hrest⟩
    rw [hstages, Option.map_some, hname]
  · simp [hresult]

/-- A context without errors and a successful last stage makes a sound
success, when a configured git agent committed. -/
theorem sound_succeeded {ctx : WorkflowContext} {trace : List Event} {stage : WorkflowStage}
    (herror : ctx.errors = []) (hlast : ctx.stages.getLast? = some stage)
    (hsucceeded : stage.success = true)
    (hcommitted : engine.git.isSome = true → ∃ e ∈ trace, e.committed) :
    Sound engine (.fromContext (engine.enrichStages ctx)) trace := by
  obtain ⟨enriched, henriched, -, hsuccess⟩ := enrichStages_last engine ctx hlast
  have herrors : (WorkflowResult.fromContext (engine.enrichStages ctx)).errors = [] :=
    (enrichStages_errors ctx).trans herror
  have hresult : (WorkflowResult.fromContext (engine.enrichStages ctx)).success = true := by
    change (engine.enrichStages ctx).errors.isEmpty = true
    rw [enrichStages_errors, herror]
    rfl
  have hstages : (WorkflowResult.fromContext (engine.enrichStages ctx)).stages.getLast? =
    some enriched := henriched
  refine ⟨?_, ?_, ?_, ?_, fun _ => hcommitted⟩
  · simp [hresult, herrors]
  · simp [hresult, hstages, hsuccess, hsucceeded]
  · simp [hresult]
  · simp [hresult]

/-- A halted run finishes with a sound failure. -/
theorem finish_halted {Q : α → EngineState → Prop} :
    Triple Halted (finish engine) Q (onReturn (Sound engine)) := by
  rintro s ⟨⟨error, herror⟩, stage, hlast, hfailed, front, htrace⟩
  obtain ⟨t, hrun, -, more, happ, hmore⟩ := finish_run (α := α) engine s
  rw [hrun]
  refine sound_failed herror hlast hfailed ⟨front, more, ?_, hmore⟩
  rw [happ, htrace, List.append_assoc]
  rfl

/-- Recording a stage leaves it as the last event and the last stage. -/
theorem appendStage_recorded (stage : WorkflowStage) :
    Triple Clean (appendStage world stage) (fun _ => JustRecorded stage)
      (onReturn (Sound engine)) := by
  refine Triple.bind (R := fun _ s => Clean s ∧ s.ctx.stages.getLast? = some stage) ?_ fun _ => ?_
  · refine Triple.modify fun s h => ⟨h, ?_⟩
    simp
  · refine Triple.bind (R := fun _ => JustRecorded stage) ?_ fun _ => ?_
    · exact Triple.modify fun s h => ⟨h.1, h.2, s.trace, rfl⟩
    · cases world.onStage stage with
      | none => exact Triple.pure fun s h => h
      | some exc => exact Triple.throw fun s _ => trivial

/-- The error of a stage that failed halts the run. -/
theorem appendError_halted {stage : WorkflowStage} (hfailed : stage.success = false)
    (error : String) {E : Stop → EngineState → Prop} :
    Triple (JustRecorded stage) (appendError error) (fun _ => Halted) E := by
  refine Triple.modify fun s h => ⟨⟨error, ?_⟩, stage, h.2.1, hfailed, h.2.2⟩
  have hclean : s.ctx.errors = [] := h.1
  simp [hclean]

theorem fail_steady {stage : WorkflowStage} (hfailed : stage.success = false) (error : String) :
    Steady engine (fail engine world stage error : EngineM α) := by
  refine (appendStage_recorded stage).bind fun _ => ?_
  exact (appendError_halted hfailed error).bind fun _ => finish_halted

namespace Steady

theorem pure (value : α) : Steady engine (Pure.pure value : EngineM α) :=
  Triple.pure fun _ h => h

theorem raise (exc : PyExc) : Steady engine (throw (.raised exc) : EngineM α) :=
  Triple.throw fun _ _ => trivial

theorem get : Steady engine (MonadState.get : EngineM EngineState) := Triple.get fun _ h => h

theorem bind {β : Type} {x : EngineM α} {f : α → EngineM β} (hx : Steady engine x)
    (hf : ∀ value, Steady engine (f value)) : Steady engine (x >>= f) := Triple.bind hx hf

theorem ite {c : Prop} [Decidable c] {x y : EngineM α} (hx : c → Steady engine x)
    (hy : ¬c → Steady engine y) : Steady engine (if c then x else y) := Triple.ite hx hy

/-- A step that keeps the recorded errors. -/
theorem modify {f : EngineState → EngineState} (h : ∀ s, (f s).ctx.errors = s.ctx.errors) :
    Steady engine (modify f : EngineM Unit) :=
  Triple.modify fun s hs => (h s).trans hs

/-- A step of the record. -/
theorem record (e : Event) : Steady engine (WorkflowEngine.record e) := modify fun _ => rfl

/-- An update that keeps the recorded errors. -/
theorem update {change : WorkflowContext → WorkflowContext}
    (h : ∀ ctx, (change ctx).errors = ctx.errors) : Steady engine (WorkflowEngine.update change) :=
  modify fun s => h s.ctx

theorem liftPy (result : Except PyExc α) : Steady engine (WorkflowEngine.liftPy result) := by
  cases result with
  | ok value => exact pure value
  | error exc => exact raise exc

theorem onBoard (operation : CardOperation) (program : KanbanM α) :
    Steady engine (WorkflowEngine.onBoard operation program) := by
  refine bind (modify fun _ => rfl) fun _ => ?_
  intro s hs
  cases hp : program s.kanban with
  | ok value kanban =>
    simp only [Bind.bind, EStateM.bind, MonadState.get, getThe, MonadStateOf.get, EStateM.get, hp]
    exact hs
  | error exc kanban =>
    simp only [Bind.bind, EStateM.bind, MonadState.get, getThe, MonadStateOf.get, EStateM.get, hp]
    trivial

theorem publishQuality (event : QualityEvent) :
    Steady engine (WorkflowEngine.publishQuality engine event) :=
  ite (fun _ => modify fun _ => rfl) (fun _ => pure _)

theorem appendStage (stage : WorkflowStage) :
    Steady engine (WorkflowEngine.appendStage world stage) :=
  (appendStage_recorded stage).strengthen_post fun _ _ h => h.1

theorem runAgent (site : CallSite) (agent : Agent) (task : AgentTask) (context : Option Context) :
    Steady engine (WorkflowEngine.runAgent engine world site agent task context) := by
  refine bind get fun s => bind (modify fun _ => rfl) fun _ => ?_
  split
  · exact pure _
  · exact raise _

theorem runAlone (site : CallSite) (agent : Agent) (description taskType : String)
    (params : List (String × Json)) :
    Steady engine (WorkflowEngine.runAlone engine world site agent description taskType params) :=
  bind (bind get fun _ => pure _) fun task => runAgent site agent task none

theorem runShared (site : CallSite) (agent : Agent) (description : String) (taskType : Json)
    (params : List (String × Json)) (files : List String) (correlationId : String) :
    Steady engine (WorkflowEngine.runShared engine world site agent description taskType params
      files correlationId) :=
  bind (bind get fun _ => pure _) fun task => bind get fun s => runAgent site agent task s.context

end Steady

/-- A gate either lets a run without errors go on, or halts it. -/
theorem runGate_spec (name : String) (input : GateInput) :
    Triple Clean (runGate engine world name input)
      (fun goesOn s => if goesOn = true then Clean s else Halted s) (onReturn (Sound engine)) := by
  unfold runGate
  split
  · refine Triple.bind (Steady.publishQuality _) fun _ => Triple.bind Steady.get fun s => ?_
    refine Triple.bind (Steady.record _) fun _ => Triple.bind (Steady.liftPy _) fun serialized => ?_
    refine Triple.ite (fun _ => ?_) (fun _ => ?_)
    · refine Triple.bind (Steady.publishQuality _) fun _ => (appendStage_recorded _).bind fun _ => ?_
      refine (appendError_halted rfl _).bind fun _ => ?_
      exact Triple.pure fun s h => h
    · refine Triple.bind (Steady.publishQuality _) fun _ => Triple.bind (Steady.appendStage _) fun _ => ?_
      exact Triple.pure fun s h => h
  · exact Triple.bind (Steady.appendStage _) fun _ => Triple.pure fun s h => h

theorem gatePhase_steady (name : String) (input : GateInput) :
    Steady engine (gatePhase engine world name input) := by
  refine Triple.ite (fun _ => Steady.pure _) (fun _ => ?_)
  refine (runGate_spec name input).bind fun goesOn => ?_
  cases goesOn with
  | true => exact Triple.pure fun s h => h
  | false => exact finish_halted

theorem runResearch_steady (researcher : Agent) (task : Task) :
    Steady engine (runResearch engine world researcher task) := by
  refine Steady.get.bind fun s => (Steady.runShared _ _ _ _ _ _ _).bind fun result => ?_
  refine Steady.ite (fun _ => ?_) (fun _ => Steady.appendStage _)
  refine Steady.bind (Steady.update fun _ => rfl) fun _ => ?_
  refine Steady.bind (Steady.modify fun _ => rfl) fun _ => ?_
  refine (Steady.liftPy _).bind fun status => (Steady.liftPy _).bind fun summary => ?_
  refine (Steady.liftPy _).bind fun sources => (Steady.liftPy _).bind fun findings => ?_
  refine (Steady.appendStage _).bind fun _ => ?_
  refine Steady.ite (fun _ => ?_) (fun _ => Steady.pure _)
  refine (Steady.liftPy _).bind fun _ => (Steady.liftPy _).bind fun _ => ?_
  exact (Steady.liftPy _).bind fun _ => Steady.record _

theorem researchPhase_steady (task : Task) : Steady engine (researchPhase engine world task) := by
  unfold researchPhase
  cases engine.researcher with
  | none => exact Steady.pure _
  | some researcher => exact runResearch_steady researcher task

theorem plannerPhase_steady (task : Task) : Steady engine (plannerPhase engine world task) := by
  refine (Steady.runShared _ _ _ _ _ _ _).bind fun result => ?_
  refine Steady.ite (fun _ => ?_) (fun _ => fail_steady rfl _)
  refine (Steady.liftPy _).bind fun plan => Steady.bind (Steady.update fun _ => rfl) fun _ => ?_
  refine (Steady.liftPy _).bind fun subtasks => (Steady.liftPy _).bind fun count => ?_
  refine Steady.bind (Steady.update fun _ => rfl) fun _ => (Steady.appendStage _).bind fun _ => ?_
  exact Steady.pure _

theorem branchPhase_steady (createBranch : Bool) :
    Steady engine (branchPhase engine world createBranch) := by
  unfold branchPhase
  split
  · refine Steady.get.bind fun s => (Steady.runAlone _ _ _ _ _).bind fun result => ?_
    refine (Steady.liftPy _).bind fun error => ?_
    refine Steady.ite (fun _ => ?_) (fun _ => fail_steady rfl _)
    exact (Steady.appendStage _).bind fun _ => Steady.modify fun _ => rfl
  · exact Steady.appendStage _

theorem createCards_steady (boardId : ℕ) (subtasks : List Json) :
    Steady engine (createCards engine boardId subtasks) := by
  induction subtasks with
  | nil => exact Steady.pure _
  | cons subtask rest ih =>
    refine (Steady.liftPy _).bind fun title => (Steady.onBoard _ _).bind fun card => ?_
    exact Steady.bind (Steady.update fun _ => rfl) fun _ => ih

theorem schedulerPhase_steady (subtasks : Json) :
    Steady engine (schedulerPhase engine world subtasks) := by
  refine Steady.get.bind fun s => (Steady.onBoard _ _).bind fun board => ?_
  refine Steady.bind (Steady.update fun _ => rfl) fun _ => (Steady.liftPy _).bind fun items => ?_
  refine (createCards_steady _ _).bind fun _ => (Steady.appendStage _).bind fun _ => ?_
  exact Steady.pure _

theorem developSubtask_steady (total index : ℕ) (subtask : Json) :
    Steady engine (developSubtask engine world total index subtask) := by
  refine Steady.get.bind fun s => ?_
  split
  · exact Steady.raise _
  · refine (Steady.onBoard _ _).bind fun _ => (Steady.liftPy _).bind fun description => ?_
    refine (Steady.liftPy _).bind fun taskType => ?_
    split
    · refine (Steady.runShared _ _ _ _ _ _ _).bind fun result => ?_
      refine Steady.ite (fun _ => ?_) (fun _ => ?_)
      · refine (Steady.onBoard _ _).bind fun _ => Steady.bind (Steady.update fun _ => rfl) fun _ => ?_
        exact Steady.appendStage _
      · exact (Steady.onBoard _ _).bind fun _ => fail_steady rfl _
    · exact Steady.raise _

theorem developSubtasks_steady (total index : ℕ) (subtasks : List Json) :
    Steady engine (developSubtasks engine world total index subtasks) := by
  induction subtasks generalizing index with
  | nil => exact Steady.pure _
  | cons subtask rest ih =>
    exact (developSubtask_steady total index subtask).bind fun _ => ih (index + 1)

theorem changedFiles_steady : Steady engine (changedFiles world) :=
  Steady.get.bind fun _ => (Steady.record _).bind fun _ => Steady.pure _

theorem noopPhase_steady (before : List String) :
    Steady engine (noopPhase engine world before) := by
  refine Steady.ite (fun _ => ?_) (fun _ => Steady.pure _)
  refine changedFiles_steady.bind fun after => Steady.bind (Steady.update fun _ => rfl) fun _ => ?_
  refine Steady.get.bind fun s => Steady.ite (fun _ => ?_) (fun _ => Steady.pure _)
  refine Steady.bind ?_ fun _ => fail_steady rfl _
  unfold blockLast
  split
  · exact (Steady.onBoard _ _).bind fun _ => Steady.pure _
  · exact Steady.pure _

theorem developerPhase_steady (subtasks : List Json) :
    Steady engine (developerPhase engine world subtasks) := by
  refine Steady.bind ?_ fun _ => gatePhase_steady _ _
  refine Steady.bind ?_ fun before => ?_
  · exact Steady.ite (fun _ => changedFiles_steady) (fun _ => Steady.pure _)
  · exact (developSubtasks_steady _ _ _).bind fun _ => noopPhase_steady before

theorem reviewerPhase_steady : Steady engine (reviewerPhase engine world) := by
  refine (Steady.runAlone _ _ _ _ _).bind fun result => (Steady.liftPy _).bind fun report => ?_
  exact Steady.bind (Steady.update fun _ => rfl) fun _ => Steady.appendStage _

/-- A datum greater than zero is not zero. -/
theorem eqZero_of_gtZero {failed : Json} (h : failed.gtZero = .ok true) : failed.eqZero = false := by
  cases failed with
  | bool b => simpa [Json.gtZero, Json.eqZero] using h
  | num x =>
    cases x with
    | int n =>
      have hpos : 0 < n := by simpa [Json.gtZero, PyNum.isPos] using h
      have hne : n ≠ 0 := by omega
      simpa [Json.eqZero, PyNum.isZero] using hne
    | float x =>
      cases x with
      | finite q =>
        have hpos : 0 < q := by simpa [Json.gtZero, PyNum.isPos] using h
        simpa [Json.eqZero, PyNum.isZero] using hpos.ne'
      | _ => rfl
  | _ => rfl

/-- The run stops behind a test stage exactly when that stage failed. -/
theorem stopOnFailures_spec {stage : WorkflowStage} {failed : Json}
    (hstage : stage.success = failed.eqZero) :
    Triple (JustRecorded stage) (stopOnFailures engine failed) (fun _ => Clean)
      (onReturn (Sound engine)) := by
  unfold stopOnFailures
  cases hgt : failed.gtZero with
  | error exc =>
    refine Triple.bind (R := fun _ _ => False) ?_ fun _ _ h => h.elim
    intro s hs
    trivial
  | ok stops =>
    refine Triple.bind (R := fun value s => value = stops ∧ JustRecorded stage s)
      (Triple.pure fun _ h => ⟨rfl, h⟩) fun value => ?_
    rintro s ⟨rfl, hs⟩
    cases value with
    | false => exact hs.1
    | true =>
      have hfailed : stage.success = false := hstage.trans (eqZero_of_gtZero hgt)
      exact ((appendError_halted hfailed _).bind fun _ => finish_halted) s hs

theorem testerPhase_steady : Steady engine (testerPhase engine world) := by
  unfold testerPhase
  cases engine.tester with
  | none =>
    refine (appendStage_recorded _).bind fun _ => ?_
    exact (stopOnFailures_spec (by simp [skippedStage])).bind fun _ => Steady.pure _
  | some tester =>
    refine Steady.bind ?_ fun _ => ?_
    · refine Steady.get.bind fun s => Steady.ite (fun _ => ?_) (fun _ => Steady.pure _)
      refine (Steady.runAlone _ _ _ _ _).bind fun result => (Steady.liftPy _).bind fun report => ?_
      exact Steady.modify fun _ => rfl
    · refine Steady.get.bind fun s => (Steady.liftPy _).bind fun failed => ?_
      refine (appendStage_recorded _).bind fun _ => ?_
      exact (stopOnFailures_spec rfl).bind fun _ => Steady.pure _

theorem documentationPhase_steady (failed : Json) :
    Steady engine (documentationPhase engine world failed) := by
  unfold documentationPhase
  cases engine.documentation with
  | none => exact Steady.appendStage _
  | some documentation =>
    refine Steady.get.bind fun s => (Steady.liftPy _).bind fun passed => ?_
    refine (Steady.liftPy _).bind fun items => ?_
    exact (Steady.runAlone _ _ _ _ _).bind fun result => Steady.appendStage _

theorem prepare_steady (task : Task) (createBranch : Bool) :
    Steady engine (prepare engine world task createBranch) := by
  refine Steady.bind ?_ fun _ => (researchPhase_steady task).bind fun _ => ?_
  · exact Steady.ite (fun _ => Steady.pure _) (fun _ => Steady.publishQuality _)
  refine (plannerPhase_steady task).bind fun subtasks => ?_
  refine (branchPhase_steady createBranch).bind fun _ => ?_
  refine (schedulerPhase_steady subtasks).bind fun items => ?_
  refine (developerPhase_steady items).bind fun _ => reviewerPhase_steady.bind fun _ => ?_
  refine (gatePhase_steady _ _).bind fun _ => testerPhase_steady.bind fun failed => ?_
  refine Steady.get.bind fun s => (gatePhase_steady _ _).bind fun _ => ?_
  refine (documentationPhase_steady failed).bind fun _ => (gatePhase_steady _ _).bind fun _ => ?_
  exact Steady.ite (fun _ => gatePhase_steady _ _) (fun _ => Steady.pure _)

/-- No error was recorded, the last stage succeeded, and a configured git
agent committed. -/
structure Delivered (engine : WorkflowEngine) (s : EngineState) : Prop where
  clean : Clean s
  last : ∃ stage, s.ctx.stages.getLast? = some stage ∧ stage.success = true
  committed : engine.git.isSome = true → ∃ e ∈ s.trace, e.committed

/-- No error was recorded, and if the result is a success the run committed. -/
def Answered (result : AgentResult) (s : EngineState) : Prop :=
  Clean s ∧ (result.success = true → ∃ e ∈ s.trace, e.committed)

/-- The call of the commit stands in the trace with its result. -/
theorem runAlone_commit (git : Agent) (description taskType : String)
    (params : List (String × Json)) :
    Triple Clean (runAlone engine world .commit git description taskType params)
      Answered (onReturn (Sound engine)) := by
  refine Triple.bind (R := fun _ => Clean) (Steady.get.bind fun _ => Steady.pure _) fun task => ?_
  refine Triple.bind (R := fun _ => Clean) Steady.get fun s => ?_
  let request : ExecutionRequest := { agent := git, task }
  let call := executorCall engine.executor .commit request (world.agentRun s.trace .commit)
  refine Triple.bind (R := fun _ t => Clean t ∧ .agent call ∈ t.trace) ?_ fun _ => ?_
  · refine Triple.modify fun t h => ⟨h, ?_⟩
    exact List.mem_append_right _ (List.mem_singleton.mpr rfl)
  · change Triple _ (answer request call.outcome) _ _
    cases houtcome : call.outcome with
    | error exc => exact Triple.throw fun _ _ => trivial
    | ok outcome =>
      refine Triple.pure fun t h => ⟨h.1, fun hsuccess => ⟨.agent call, h.2, ?_⟩⟩
      have hrequest : call.request = request := executorCall_request _ _ _ _
      refine ⟨executorCall_site _ _ _ _, outcome, houtcome, ?_⟩
      rw [hrequest]
      exact hsuccess

/-- Recording a stage forgets no commit. -/
theorem appendStage_answered (result : AgentResult) (stage : WorkflowStage) :
    Triple (Answered result) (appendStage world stage) (fun _ => Answered result)
      (onReturn (Sound engine)) := by
  refine Triple.bind (R := fun _ => Answered result) (Triple.modify fun _ h => h) fun _ => ?_
  refine Triple.bind (R := fun _ => Answered result) ?_ fun _ => ?_
  · refine Triple.modify fun s h => ⟨h.1, fun hsuccess => ?_⟩
    obtain ⟨e, hmem, he⟩ := h.2 hsuccess
    exact ⟨e, List.mem_append_left _ hmem, he⟩
  · cases world.onStage stage with
    | none => exact Triple.pure fun s h => h
    | some exc => exact Triple.throw fun s _ => trivial

/-- The last git phase delivers, or halts with the error of the commit. -/
theorem gitPhase_spec :
    Triple Clean (gitPhase engine world) (fun _ s => Delivered engine s ∨ Halted s)
      (onReturn (Sound engine)) := by
  unfold gitPhase
  cases hgit : engine.git with
  | none =>
    refine (appendStage_recorded _).strengthen_post fun _ s h => .inl ?_
    exact ⟨h.1, ⟨_, h.2.1, rfl⟩, by simp [hgit]⟩
  | some git =>
    refine Triple.bind (Steady.runAlone _ _ _ _ _) fun staged => ?_
    refine Triple.bind (Steady.update fun _ => rfl) fun _ => Triple.bind Steady.get fun s => ?_
    refine Triple.bind (Steady.liftPy _) fun message => ?_
    refine (runAlone_commit git _ _ _).bind fun result => ?_
    refine Triple.bind (R := fun _ => Answered result) (Triple.modify fun _ h => h) fun _ => ?_
    refine Triple.bind (R := fun _ => Answered result) ?_ fun error => ?_
    · cases gitError result with
      | ok error => exact Triple.pure fun _ h => h
      | error exc => exact Triple.throw fun _ _ => trivial
    let stage : WorkflowStage := { name := "git", success := result.success, error }
    have hanswered : Triple (Answered result) (appendStage world stage)
        (fun _ => Answered result) (onReturn (Sound engine)) := appendStage_answered result stage
    have hrecorded : Triple (Answered result) (appendStage world stage)
        (fun _ s => JustRecorded stage s ∧ Answered result s) (onReturn (Sound engine)) :=
      ((appendStage_recorded stage).and hanswered).conseq
        (fun _ h => ⟨h.1, h⟩) (fun _ _ h => h) (fun _ _ h => h.1)
    refine hrecorded.bind fun _ => Triple.ite (fun hsuccess => ?_) (fun hfailed => ?_)
    · refine Triple.pure fun s h => .inl ⟨h.2.1, ⟨stage, h.1.2.1, hsuccess⟩, fun _ => ?_⟩
      exact h.2.2 hsuccess
    · have hstage : stage.success = false := by simpa [stage] using hfailed
      refine ((appendError_halted hstage _).weaken_pre fun s h => h.1).strengthen_post ?_
      exact fun _ s h => .inr h

/-- The last git phase and the end of the run. -/
theorem deliver_finishes :
    Triple Clean (deliver engine world) (fun _ _ => False) (onReturn (Sound engine)) := by
  refine gitPhase_spec.bind fun _ => ?_
  rintro s (hdelivered | hhalted)
  · obtain ⟨t, hrun, -, happ⟩ := finish_run (α := Unit) engine s
    rw [hrun]
    obtain ⟨stage, hlast, hsuccess⟩ := hdelivered.last
    refine sound_succeeded hdelivered.clean hlast hsuccess fun hgit => ?_
    obtain ⟨e, hmem, he⟩ := hdelivered.committed hgit
    exact ⟨e, happ.subset hmem, he⟩
  · exact finish_halted s hhalted

/-- The result of a run: success, no error and a successful last stage are
the same thing; a failure has one error and stops the run at its stage; and
a success with a git agent committed. -/
theorem execute_sound (engine : WorkflowEngine) (world : World) (task : Task)
    (context : Option Context) (createBranch : Bool) (kanban : KanbanState)
    (result : WorkflowResult)
    (h : (execute engine world task context createBranch kanban).1 = .ok result) :
    Sound engine result (execute engine world task context createBranch kanban).2.trace := by
  have hbegin : Clean (begin engine world task context kanban) := rfl
  have hpipeline : Triple Clean (pipeline engine world task createBranch) (fun _ _ => False)
      (onReturn (Sound engine)) :=
    Triple.bind (prepare_steady task createBranch) fun _ => deliver_finishes
  have hrun := hpipeline _ hbegin
  revert h
  unfold execute
  cases hp : pipeline engine world task createBranch (begin engine world task context kanban) with
  | ok value s =>
    rw [hp] at hrun
    exact hrun.elim
  | error stop s =>
    rw [hp] at hrun
    cases stop with
    | returned finished =>
      intro h
      cases h
      exact hrun
    | raised exc => exact fun h => nomatch h

end WorkflowEngine

/-- A run that ends in success, with its commit. -/
theorem execute_sound_green : ∃ result,
    (WorkflowEngine.execute (gatedEngine greenGates) greenWorld { description := "goal" } none
        true {}).1 = .ok result ∧ result.success = true ∧
      Sound (gatedEngine greenGates) result
        (WorkflowEngine.execute (gatedEngine greenGates) greenWorld { description := "goal" } none
          true {}).2.trace := by
  have hsuccess : (WorkflowEngine.execute (gatedEngine greenGates) greenWorld
      { description := "goal" } none true {}).1.toOption.map WorkflowResult.success = some true := by
    decide +kernel
  cases h : (WorkflowEngine.execute (gatedEngine greenGates) greenWorld
      { description := "goal" } none true {}).1 with
  | error exc =>
    rw [h] at hsuccess
    cases hsuccess
  | ok result =>
    rw [h] at hsuccess
    refine ⟨result, rfl, Option.some.inj hsuccess, ?_⟩
    exact WorkflowEngine.execute_sound _ _ _ _ _ _ result h

end AiosDeck.Workflow
