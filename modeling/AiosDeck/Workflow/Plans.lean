import AiosDeck.Workflow.BoardRuns

/-!
# Which plans the engine can execute

The planner accepts a dictionary that has subtasks, whatever they are. The
engine takes their length, makes a card of each description and strips it
when a developer is called. A plan goes through exactly when its subtasks
allow all of this.
-/

namespace AiosDeck.Workflow

open Python Agents Security Quality Scheduler Program KanbanState

/-- The board of the run, when there is one, has one card for each subtask,
with its description as the title, in their order, and no other card. -/
def OneCardEach (plan : Json) (s : EngineState) : Prop :=
  ∀ board, s.ctx.board = some board → ∃ items, Lists plan items ∧
    items.map (fun subtask => subtask.item "description") =
      (s.kanban.cardsOf board.id).map fun card => .ok card.title

/-- Every run on the plan returns a result, with one card for each subtask. -/
def Executable (plan : Json) : Prop :=
  ∀ engine world task context createBranch kanban, Conforming engine world →
    (engine.scheduler.fault = fun _ => none) → kanban.Sequenced → world.Plans plan →
      (∃ result, (engine.execute world task context createBranch kanban).1 = .ok result) ∧
        OneCardEach plan (engine.execute world task context createBranch kanban).2

/-- What the planner accepts can be executed; `loads` is `json.loads`. -/
def PlannerSound (loads : Text → Except PyExc Json) (output : Text) : Prop :=
  ∀ plan, PlannerAgent.Accepts loads output plan → Executable plan

variable {plan : Json}

/-- A board whose rows follow the developer has one card for each item. -/
theorem Standing.oneCardEach {projectId : String} {s : EngineState}
    (h : Standing projectId (Lists plan) s) : OneCardEach plan s := by
  intro board hboard
  rcases h with h | ⟨items, fresh, hlists, -, rows, completed, developed, -, -, K, found, cards,
    hboarded, hshows⟩
  · rw [h.board] at hboard
    cases hboard
  · rw [hshows.board] at hboard
    cases hboard
    refine ⟨items, hlists, ?_⟩
    rw [hshows.tables.cardsOf_eq, hboarded.stands]
    exact hboarded.titles

/-- The state in which a run starts has no board. -/
theorem begin_unboarded (engine : WorkflowEngine) (world : World) (task : Task)
    (context : Option Context) {kanban : KanbanState} (hkanban : kanban.Sequenced)
    (promised : Prop) :
    Holding promised Unboarded (engine.begin world task context kanban) := by
  refine ⟨⟨rfl, rfl, rfl, rfl, hkanban⟩, fun _ => ⟨fun _ h => ?_, fun _ h => ?_⟩⟩
  · cases h
  · cases h

/-- A well-formed plan can be executed. -/
theorem WellFormed.executable (h : WellFormed plan) : Executable plan := by
  intro engine world task context createBranch kanban hworld hstore hkanban hplans
  have hpromised : True → Conforming engine world := fun _ => hworld
  have hrun := WorkflowEngine.pipeline_run hpromised (fun _ => ⟨hplans, h⟩) hstore task createBranch _
    (begin_unboarded engine world task context hkanban True)
  unfold WorkflowEngine.execute
  cases hp : engine.pipeline world task createBranch (engine.begin world task context kanban) with
  | ok value s =>
    rw [hp] at hrun
    exact ⟨⟨_, rfl⟩, (hrun.mono fun _ hlists => hlists trivial).oneCardEach⟩
  | error stop s =>
    rw [hp] at hrun
    cases stop with
    | returned result =>
      have hstanding : Standing engine.scheduler.projectId (fun items => True → Lists plan items) s :=
        hrun
      exact ⟨⟨_, rfl⟩, (hstanding.mono fun _ hlists => hlists trivial).oneCardEach⟩
    | raised exc => exact absurd trivial hrun.1

/-- An engine with the three agents that it must have. -/
def bareEngine : WorkflowEngine where
  planner := plainAgent "planner" []
  developer := plainAgent "developer" []
  reviewer := plainAgent "reviewer" []
  scheduler := { projectId := "/project" }

/-- Every agent succeeds, the planner with this plan. -/
def plannedWorld (plan : Json) : World where
  agentRun := fun _ site =>
    if site = .planner then answering { output := .json plan } else answering {}

/-- The context does not restrict the agents. -/
def Unrestricted (s : EngineState) : Prop := s.context = none

/-- A fact holds, or the run raised. -/
def OrRaised (p : Prop) : Stop → EngineState → Prop
  | .returned _, _ => p
  | .raised _, _ => True

theorem plannedWorld_plans (plan : Json) : (plannedWorld plan).Plans plan := by
  intro trace attempt result hreturned _
  have heq : Attempt.returned { output := .json plan } = Attempt.returned result := hreturned
  cases heq
  rfl

theorem plannedWorld_conforming (plan : Json) : Conforming bareEngine (plannedWorld plan) := by
  have hrests : ∀ name, AgentExecutor.Rests (plainAgent name []) := by
    intro name policy hpolicy attempt hone hlt
    cases hpolicy
    exact absurd hlt (by simp only [not_lt]; exact_mod_cast hone)
  constructor
  · intro agent hmem
    simp only [WorkflowEngine.agents, bareEngine, Option.toList_none, List.append_nil,
      List.mem_cons, List.not_mem_nil, or_false] at hmem
    rcases hmem with rfl | rfl | rfl
    · exact hrests "planner"
    · exact hrests "developer"
    · exact hrests "reviewer"
  · exact fun _ => rfl
  · exact fun ctx => ⟨_, rfl⟩
  · intro name gate hgate
    cases hgate
  · intro trace site attempt result hreturned
    cases site with
    | planner => trivial
    | developer index => trivial
    | documentation => trivial
    | stage => trivial
    | research | createBranch | review | test | commit =>
      have heq : Attempt.returned ({} : AgentResult) = Attempt.returned result := hreturned
      cases heq
      first
        | exact fun _ _ h => by cases h
        | exact fun _ h => by cases h
        | exact .inl rfl

section Needed

variable {E : Stop → EngineState → Prop} {p : Prop}

/-- A call of an engine without enforcer, with a valid task and no context,
answers what the world says. -/
theorem runShared_planned (site : CallSite) (agent : Agent) {description : String}
    (hdescription : isBlank description = false) (taskType : Json) (params : List (String × Json))
    (files : List String) (correlationId : String) :
    Triple Unrestricted
      (WorkflowEngine.runShared bareEngine (plannedWorld plan) site agent description taskType params
        files correlationId)
      (fun result s => (result.success = true ∧
        (site = .planner → result.output = .json plan)) ∧ Unrestricted s) E := by
  intro s hs
  let task : AgentTask :=
    { description, taskType, files, params, taskId := toString s.trace.length, correlationId }
  let request : ExecutionRequest := { agent, task, context := none, intent := none }
  let run := (plannedWorld plan).agentRun s.trace site
  let call := executorCall bareEngine.executor site request run
  have hrun : WorkflowEngine.runShared bareEngine (plannedWorld plan) site agent description taskType
      params files correlationId s =
      WorkflowEngine.answer request call.outcome (WorkflowEngine.called call s) := by
    have hcontext : s.context = none := hs
    have hshared : WorkflowEngine.runShared bareEngine (plannedWorld plan) site agent description
        taskType params files correlationId s =
        WorkflowEngine.runAgent bareEngine (plannedWorld plan) site agent task s.context s := rfl
    rw [hshared, hcontext]
    rfl
  have hadmitted : AgentExecutor.Admitted bareEngine.executor request := by
    refine ⟨?_, rfl, fun _ hintent => by cases hintent⟩
    simp [validateAgentTask, request, task, hdescription]
  have hanswer : ∃ result : AgentResult, run.behaviour 1 = .returned result ∧
      result.success = true ∧ (site = .planner → result.output = .json plan) := by
    by_cases hsite : site = .planner
    · refine ⟨{ output := .json plan }, ?_, rfl, fun _ => rfl⟩
      simp [run, plannedWorld, hsite, answering]
    · refine ⟨{}, ?_, rfl, fun h => absurd h hsite⟩
      simp [run, plannedWorld, hsite, answering]
  have huncancelled : run.cancelled 1 = false := by
    by_cases hsite : site = .planner <;> simp [run, plannedWorld, hsite, answering]
  obtain ⟨result, hreturned, hsuccess, houtput⟩ := hanswer
  obtain ⟨outcome, last, hexecute, hresult⟩ := AgentExecutor.execute_returns bareEngine.executor
    request run rfl hadmitted huncancelled hreturned
  have houtcome : call.outcome = .ok outcome := WorkflowEngine.executorCall_outcome hexecute
  rw [hrun, houtcome]
  have hout : WorkflowEngine.outcomeResult request outcome = AgentExecutor.stamp request result := by
    unfold WorkflowEngine.outcomeResult
    rw [hresult]
  refine ⟨?_, hs⟩
  rw [hout]
  exact ⟨hsuccess, houtput⟩

/-- A fact that is known already needs no run. -/
theorem orRaised_of_known {α : Type} {P : EngineState → Prop} (x : EngineM α) (h : p) :
    Triple P x (fun _ _ => p) (OrRaised p) := by
  refine (Triple.const x fun _ _ => h).conseq (fun _ hs => hs) (fun _ _ hs => hs) ?_
  intro stop s hs
  cases stop with
  | returned result => exact hs
  | raised exc => trivial

theorem orRaised_of_pre {α : Type} (x : EngineM α) :
    Triple (fun _ => p) x (fun _ _ => p) (OrRaised p) := by
  intro s h
  exact orRaised_of_known (P := fun _ => True) x h s trivial

/-- An operation that raises leaves nothing to show. -/
theorem liftPy_needed {α β : Type} {result : Except PyExc α} {f : α → EngineM β}
    {Q : β → EngineState → Prop}
    (hf : ∀ value, result = .ok value → Triple Unrestricted (f value) Q (OrRaised p)) :
    Triple Unrestricted (WorkflowEngine.liftPy result >>= f) Q (OrRaised p) := by
  cases hresult : result with
  | ok value => exact hf value hresult
  | error exc =>
    exact Triple.bind (R := fun _ _ => False) (Triple.throw fun _ _ => trivial) fun _ _ h => h.elim

/-- What a program of the board returns is known of the value. -/
theorem onBoard_needed {α β : Type} {program : KanbanM α} {found : Prop}
    (h : Triple (fun _ => True) program (fun _ _ => found) (fun _ _ => True))
    {operation : CardOperation} {f : α → EngineM β} {Q : β → EngineState → Prop}
    (hf : ∀ value, found → Triple Unrestricted (f value) Q (OrRaised p)) :
    Triple Unrestricted (WorkflowEngine.onBoard operation program >>= f) Q (OrRaised p) := by
  refine Triple.bind (R := fun _ s => found ∧ Unrestricted s) ?_ fun value =>
    Triple.of_pre fun hfound => hf value hfound
  refine Triple.bind (R := fun _ => Unrestricted) (Triple.modify fun _ hs => hs) fun _ => ?_
  intro s hs
  have hprogram := h s.kanban trivial
  cases hrun : program s.kanban with
  | ok value kanban =>
    rw [hrun] at hprogram
    simp only [Bind.bind, EStateM.bind, MonadState.get, getThe, MonadStateOf.get, EStateM.get, hrun]
    exact ⟨hprogram, hs⟩
  | error exc kanban =>
    simp only [Bind.bind, EStateM.bind, MonadState.get, getThe, MonadStateOf.get, EStateM.get, hrun]
    trivial

/-- Recording a stage in a world whose callback never raises. -/
theorem appendStage_needed (plan : Json) (stage : WorkflowStage) :
    Triple Unrestricted (WorkflowEngine.appendStage (plannedWorld plan) stage)
      (fun _ => Unrestricted) E := by
  refine Triple.bind (R := fun _ => Unrestricted) (Triple.modify fun _ hs => hs) fun _ => ?_
  refine Triple.bind (R := fun _ => Unrestricted) (Triple.modify fun _ hs => hs) fun _ => ?_
  exact Triple.pure fun _ hs => hs

/-- Cards were made only of described subtasks. -/
theorem createCards_needed (boardId : ℕ) (rest : List Json) :
    Triple Unrestricted (WorkflowEngine.createCards bareEngine boardId rest)
      (fun _ s => (∀ subtask ∈ rest, Describable subtask) ∧ Unrestricted s) (OrRaised p) := by
  induction rest with
  | nil => exact Triple.pure fun s hs => ⟨(fun _ h => by cases h), hs⟩
  | cons subtask rest ih =>
    refine liftPy_needed fun title htitle => ?_
    refine onBoard_needed (createCard_bound bareEngine.scheduler boardId title) fun card hbound => ?_
    refine Triple.bind (R := fun _ => Unrestricted) (Triple.modify fun _ hs => hs) fun _ => ?_
    refine ih.strengthen_post fun _ s hs => ⟨fun found hmem => ?_, hs.2⟩
    rcases List.mem_cons.mp hmem with rfl | hmem
    · exact ⟨title, htitle, hbound⟩
    · exact hs.1 found hmem

/-- The developers went through the subtasks, or one ended the run; each was
called with a text. -/
theorem developSubtasks_needed (total k : ℕ) (rest : List Json) :
    Triple Unrestricted
      (WorkflowEngine.developSubtasks bareEngine (plannedWorld plan) total k rest)
      (fun _ _ => Workable rest) (OrRaised (Workable rest)) := by
  induction rest generalizing k with
  | nil => exact Triple.pure fun _ _ => trivial
  | cons subtask rest ih =>
    have hgoOn : Workable rest → (∃ text, subtask.item "description" = .ok (.str text)) →
        Workable (subtask :: rest) := fun hrest ⟨text, hitem⟩ => ⟨text, hitem, .inr hrest⟩
    by_cases hblank : ∃ text, subtask.item "description" = .ok (.str text) ∧ isBlank text = true
    · -- the developer refuses a blank description, and nothing behind it is read
      obtain ⟨text, hitem, hisBlank⟩ := hblank
      exact orRaised_of_known _ ⟨text, hitem, .inl hisBlank⟩
    · have hstep : Triple Unrestricted
          (WorkflowEngine.developSubtask bareEngine (plannedWorld plan) total k subtask)
          (fun _ s => (∃ text, subtask.item "description" = .ok (.str text)) ∧ Unrestricted s)
          (OrRaised (Workable (subtask :: rest))) := by
        refine Triple.bind (R := fun _ => Unrestricted) (Triple.get fun _ hs => hs) fun found => ?_
        split
        · exact Triple.throw fun _ _ => trivial
        · rename_i card hcard
          refine onBoard_needed (Triple.any _ _) fun _ _ => ?_
          refine liftPy_needed fun description hdescription => liftPy_needed fun taskType _ => ?_
          split
          · rename_i text
            have hfilled : isBlank text = false := by
              by_contra hnot
              exact hblank ⟨text, hdescription, by simpa using hnot⟩
            refine Triple.bind (runShared_planned (.developer k) _ hfilled _ _ _ _) fun result => ?_
            refine Triple.of_pre fun hresult => ?_
            rw [if_pos hresult.1]
            refine onBoard_needed (Triple.any _ _) fun _ _ => ?_
            refine Triple.bind (R := fun _ => Unrestricted) (Triple.modify fun _ hs => hs) fun _ => ?_
            exact (appendStage_needed plan _).strengthen_post fun _ _ hs => ⟨⟨text, hdescription⟩, hs⟩
          · exact Triple.throw fun _ _ => trivial
      refine hstep.bind fun _ => Triple.of_pre fun hitem => ?_
      refine (ih (k + 1)).conseq (fun _ hs => hs) (fun _ _ hs => hgoOn hs hitem) ?_
      intro stop s hs
      cases stop with
      | returned result => exact hgoOn hs hitem
      | raised exc => trivial

/-- The run of the bare engine shows that the plan is well formed, unless it raises. -/
theorem pipeline_needed (plan : Json) :
    Triple Unrestricted
      (WorkflowEngine.pipeline bareEngine (plannedWorld plan) { description := "goal" } false)
      (fun _ _ => WellFormed plan) (OrRaised (WellFormed plan)) := by
  refine Triple.bind (R := fun _ _ => WellFormed plan) ?_ fun _ => orRaised_of_pre _
  refine Triple.bind (R := fun _ => Unrestricted) (Triple.pure fun _ hs => hs) fun _ => ?_
  refine Triple.bind (R := fun _ => Unrestricted) (Triple.pure fun _ hs => hs) fun _ => ?_
  have hplanner : Triple Unrestricted
      (WorkflowEngine.plannerPhase bareEngine (plannedWorld plan) { description := "goal" })
      (fun subtasks s => plan.getD "subtasks" (.arr []) = .ok subtasks ∧ Unrestricted s)
      (OrRaised (WellFormed plan)) := by
    have hgoal : isBlank "goal" = false := by decide
    refine Triple.bind (runShared_planned .planner _ hgoal _ _ _ _) fun result => ?_
    refine Triple.of_pre fun hresult => ?_
    rw [if_pos hresult.1]
    have hloads : result.output.loads = .ok plan := by
      rw [hresult.2 rfl]
      rfl
    rw [WorkflowEngine.liftPy_bind hloads]
    refine Triple.bind (R := fun _ => Unrestricted) (Triple.modify fun _ hs => hs) fun _ => ?_
    refine liftPy_needed fun subtasks hsubtasks => liftPy_needed fun count _ => ?_
    refine Triple.bind (R := fun _ => Unrestricted) (Triple.modify fun _ hs => hs) fun _ => ?_
    refine Triple.bind (appendStage_needed plan _) fun _ => ?_
    exact Triple.pure fun _ hs => ⟨hsubtasks, hs⟩
  have hscheduler : ∀ subtasks, Triple Unrestricted
      (WorkflowEngine.schedulerPhase bareEngine (plannedWorld plan) subtasks)
      (fun items s => (subtasks.iter = .ok items ∧ ∀ subtask ∈ items, Describable subtask) ∧
        Unrestricted s) (OrRaised (WellFormed plan)) := by
    intro subtasks
    refine Triple.bind (R := fun _ => Unrestricted) (Triple.get fun _ hs => hs) fun found => ?_
    refine onBoard_needed (Triple.any _ _) fun board _ => ?_
    refine Triple.bind (R := fun _ => Unrestricted) (Triple.modify fun _ hs => hs) fun _ => ?_
    refine liftPy_needed fun items hitems => ?_
    refine Triple.bind (createCards_needed board.id items) fun _ => Triple.of_pre fun hall => ?_
    refine Triple.bind (appendStage_needed plan _) fun _ => ?_
    exact Triple.pure fun _ hs => ⟨⟨hitems, hall⟩, hs⟩
  have hbranch : Triple Unrestricted (WorkflowEngine.branchPhase bareEngine (plannedWorld plan) false)
      (fun _ => Unrestricted) (OrRaised (WellFormed plan)) := appendStage_needed plan _
  refine Triple.bind hplanner fun subtasks => Triple.of_pre fun hsubtasks => ?_
  refine Triple.bind hbranch fun _ => ?_
  refine Triple.bind (hscheduler subtasks) fun items => Triple.of_pre fun hitems => ?_
  have hwellFormed : Workable items → WellFormed plan :=
    fun h => ⟨items, ⟨subtasks, hsubtasks, hitems.1⟩, hitems.2, h⟩
  refine Triple.bind (R := fun _ _ => WellFormed plan) ?_ fun _ => orRaised_of_pre _
  refine Triple.bind (R := fun _ _ => WellFormed plan) ?_ fun _ => orRaised_of_pre _
  refine Triple.bind (R := fun _ => Unrestricted) (Triple.pure fun _ hs => hs) fun before => ?_
  refine Triple.bind (R := fun _ _ => WellFormed plan) ?_ fun _ => orRaised_of_pre _
  refine (developSubtasks_needed items.length 0 items).conseq (fun _ hs => hs)
    (fun _ _ hs => hwellFormed hs) ?_
  intro stop s hs
  cases stop with
  | returned result => exact hwellFormed hs
  | raised exc => trivial

end Needed

/-- A plan that can be executed is well formed. -/
theorem Executable.wellFormed (h : Executable plan) : WellFormed plan := by
  obtain ⟨⟨result, hresult⟩, -⟩ := h bareEngine (plannedWorld plan) { description := "goal" } none
    false {} (plannedWorld_conforming plan) rfl Sequenced.empty (plannedWorld_plans plan)
  have hrun := pipeline_needed plan
    (bareEngine.begin (plannedWorld plan) { description := "goal" } none {}) rfl
  unfold WorkflowEngine.execute at hresult
  cases hp : bareEngine.pipeline (plannedWorld plan) { description := "goal" } false
      (bareEngine.begin (plannedWorld plan) { description := "goal" } none {}) with
  | ok value s =>
    rw [hp] at hrun
    exact hrun
  | error stop s =>
    rw [hp] at hrun hresult
    cases stop with
    | returned finished => exact hrun
    | raised exc => cases hresult

/-- What the planner accepts can be executed exactly when every plan it
accepts is well formed. -/
theorem plannerSound_iff (loads : Text → Except PyExc Json) (output : Text) :
    PlannerSound loads output ↔ ∀ plan, PlannerAgent.Accepts loads output plan → WellFormed plan := by
  constructor
  · exact fun h plan haccepts => (h plan haccepts).wellFormed
  · exact fun h plan haccepts => (h plan haccepts).executable

/-- The output of a model whose subtasks are null. -/
def nullOutput : Text := "\x7b\"subtasks\": null\x7d".toList

/-- The dictionary that `nullOutput` denotes. -/
def nullPlan : Json := .obj [("subtasks", .null)]

/-- `json.loads`, on this output. -/
def loadsNull (text : Text) : Except PyExc Json :=
  if text = nullOutput then .ok nullPlan
  else .error ⟨.jsonDecodeError, "Expecting value: line 1 column 1 (char 0)"⟩

/-- Null subtasks are accepted, and the run raises on their length. -/
theorem not_plannerSound_null : ¬PlannerSound loadsNull nullOutput := by
  intro h
  have hextract : PlannerAgent.extractJson nullOutput = nullOutput := by decide
  have hnonempty : nullOutput ≠ [] := by decide
  have haccepts : PlannerAgent.Accepts loadsNull nullOutput nullPlan := by
    refine ⟨{ output := .json nullPlan }, ?_, rfl, rfl⟩
    unfold PlannerAgent.parsePlan loadsNull
    rw [hextract, if_neg hnonempty, if_pos rfl]
    rfl
  obtain ⟨items, ⟨subtasks, hsubtasks, hiter⟩, -⟩ := (h nullPlan haccepts).wellFormed
  cases hsubtasks
  cases hiter

end AiosDeck.Workflow
