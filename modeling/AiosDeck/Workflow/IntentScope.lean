import AiosDeck.Agents.Invocation
import AiosDeck.Workflow.Gatekeeping

/-!
# How far the intent of a run reaches

Three call sites pass the context, and with it the intent, to the executor;
the others run their agent without one. Where the intent arrives, the
executor only tests that some action is effective.
-/

namespace AiosDeck.Workflow

open Python Agents Security Quality Scheduler Program Trace

/-- Every site and every gate. -/
def Footprint.any : Footprint := ⟨fun _ => True, fun _ => True⟩

/-- The action that the operation of a call site performs. -/
def CallSite.action : CallSite → String
  | .research | .planner | .review => FILESYSTEM_READ_ACTION
  | .developer _ | .documentation => FILESYSTEM_WRITE_ACTION
  | .test => SHELL_EXECUTE
  | .createBranch => GIT_BRANCH
  | .stage | .commit => GIT_COMMIT

/-- What the intent leaves of the capabilities of the called agent. -/
def AgentCall.effective (intent : IntentPolicy) (call : AgentCall) : Finset String :=
  effectivePermissions intent call.request.agent.capabilities

/-- The agent is invoked only after the intent was checked against it, and
only with an effective action. -/
def AgentCall.Enforces (intent : IntentPolicy) (call : AgentCall) : Prop :=
  (∃ attempt, .invoked attempt ∈ call.log) →
    (∃ decision, .checked intent decision ∈ call.log) ∧
      call.site.action ∈ call.effective intent

namespace WorkflowEngine

/-- The call would go ahead without an intent: its task is valid, the agent
is within its grants, and nobody cancelled before the first attempt. -/
def GoesAhead (engine : WorkflowEngine) (world : World) (front : List Event) (call : AgentCall) :
    Prop :=
  validateAgentTask call.request.task = [] ∧
    AgentExecutor.enforceCapabilities engine.executor call.request = .ok () ∧
    (world.agentRun front call.site).cancelled 1 = false

/-- A call that goes ahead is at a site that passes the context, and its
action is effective or no action is. -/
def Scoped (engine : WorkflowEngine) (world : World) (intent : IntentPolicy) (front : List Event) :
    Event → Prop
  | .agent call => engine.GoesAhead world front call →
      call.site.passesContext = true ∧
        (call.site.action ∈ call.effective intent ∨ call.effective intent = ∅)
  | _ => True

variable {engine : WorkflowEngine} {world : World}

/-- Everything a run does, as one frame. -/
theorem pipeline_framed (engine : WorkflowEngine) (world : World) (task : Task)
    (createBranch : Bool) :
    Framed (Extends engine world Footprint.any) (pipeline engine world task createBranch) := by
  have hstarted : Framed (Extends engine world Footprint.any) (publishStarted engine world) :=
    Framed.ite (Framed.pure _) (publishQuality_framed _)
  refine Framed.bind ?_ fun _ => deliver_framed _ trivial trivial
  refine hstarted.bind fun _ => (researchPhase_framed _ task trivial).bind fun _ => ?_
  refine (plannerPhase_framed _ task trivial).bind fun subtasks => ?_
  refine (branchPhase_framed _ createBranch trivial).bind fun _ => ?_
  refine (schedulerPhase_framed _ subtasks).bind fun items => ?_
  refine Framed.bind ?_ fun _ => ?_
  · exact (develop_framed _ items fun _ => trivial).bind fun _ => gatePhase_framed _ _ trivial
  refine (reviewerPhase_framed _ trivial).bind fun _ => (gatePhase_framed _ _ trivial).bind fun _ => ?_
  refine (testerPhase_framed _ trivial).bind fun failed => Framed.get.bind fun s => ?_
  refine (gatePhase_framed _ _ trivial).bind fun _ => ?_
  refine (documentationPhase_framed _ failed trivial).bind fun _ => ?_
  exact (gatePhase_framed _ _ trivial).bind fun _ => releasePhase_framed _ trivial

/-- The context of a run with an intent keeps that intent. -/
theorem begin_intent (task : Task) (packet : Context) (intent : IntentPolicy)
    (kanban : KanbanState) :
    (begin engine world task (some { packet with intent := some intent }) kanban).intent =
      some intent := by
  simp [begin, applyWorkflowIntent, EngineState.intent]

/-- One lawful call enforces the intent exactly when it is scoped. -/
theorem enforces_iff_scoped {intent : IntentPolicy} {front : List Event} {call : AgentCall}
    (hlawful : Lawful engine (some intent) call)
    (hexecuted : (Event.agent call).executed engine world front) :
    call.Enforces intent ↔ engine.Scoped world intent front (.agent call) := by
  have hp : call.request.onProgress = none := hlawful.plain.2.2
  have hlog : call.log = (after (engine.executor.execute call.request
      (world.agentRun front call.site)) {}).events :=
    (congrArg AgentCall.log hexecuted).trans (executorCall_log _ _ _ _)
  have hinvoked := AgentExecutor.execute_invoked_iff engine.executor call.request
    (world.agentRun front call.site) hp
  have hchecked := AgentExecutor.execute_checked_iff engine.executor call.request
    (world.agentRun front call.site) hp intent
  have hintent := hlawful.intent
  unfold AgentCall.Enforces
  rw [hlog, hinvoked]
  simp only [hchecked]
  cases hpasses : call.site.passesContext with
  | false =>
    have hnone : call.request.intent = none := by simpa [hpasses] using hintent
    constructor
    · rintro henforces ⟨htask, hcap, hcancelled⟩
      obtain ⟨⟨_, -, -, hsome, -⟩, -⟩ := henforces ⟨⟨htask, hcap, by simp [hnone]⟩, hcancelled⟩
      rw [hnone] at hsome
      cases hsome
    · rintro hscoped ⟨⟨htask, hcap, -⟩, hcancelled⟩
      have hpassed := (hscoped ⟨htask, hcap, hcancelled⟩).1
      rw [hpasses] at hpassed
      cases hpassed
  | true =>
    have hsome : call.request.intent = some intent := by simpa [hpasses] using hintent
    have hallowed := validateIntent_allowed intent call.request.agent.capabilities
    constructor
    · rintro henforces ⟨htask, hcap, hcancelled⟩
      refine ⟨hpasses, ?_⟩
      by_cases hempty : call.effective intent = ∅
      · exact .inr hempty
      · refine .inl (henforces ⟨⟨htask, hcap, fun other hother => ?_⟩, hcancelled⟩).2
        rw [hsome] at hother
        cases hother
        exact hallowed.mpr hempty
    · rintro hscoped ⟨⟨htask, hcap, hadmits⟩, hcancelled⟩
      refine ⟨⟨_, htask, hcap, hsome, rfl⟩, ?_⟩
      rcases (hscoped ⟨htask, hcap, hcancelled⟩).2 with haction | hempty
      · exact haction
      · exact absurd hempty (hallowed.mp (hadmits intent hsome))

/-- In every run under an intent, every agent operation is checked against it
and performs an effective action exactly when every call that goes ahead is
at a site that passes the context, with an effective action or with none. -/
theorem execute_enforces_iff (engine : WorkflowEngine) (world : World) (task : Task)
    (packet : Context) (intent : IntentPolicy) (createBranch : Bool) (kanban : KanbanState) :
    (∀ call, .agent call ∈ (execute engine world task (some { packet with intent := some intent })
        createBranch kanban).2.trace → call.Enforces intent) ↔
      Each (engine.Scoped world intent)
        (execute engine world task (some { packet with intent := some intent }) createBranch
          kanban).2.trace := by
  rw [execute_state]
  have hextends := pipeline_framed engine world task createBranch
    (begin engine world task (some { packet with intent := some intent }) kanban)
  revert hextends
  generalize after (pipeline engine world task createBranch)
    (begin engine world task (some { packet with intent := some intent }) kanban) = t
  intro hextends
  have hexecuted : Each (Event.executed engine world) t.trace :=
    hextends.executed fun front e rest heq => by simp [begin] at heq
  have hlawful : ∀ call, .agent call ∈ t.trace → Lawful engine (some intent) call := by
    intro call hmem
    rcases hextends.appended.mem hmem with hold | ⟨-, hnew⟩
    · cases hold
    · rw [begin_intent] at hnew
      exact hnew
  constructor
  · intro hall front e rest heq
    cases e with
    | agent call =>
      have hmem : .agent call ∈ t.trace := by simp [heq]
      have hiff := enforces_iff_scoped (hlawful call hmem) (hexecuted front _ rest heq)
      exact hiff.mp (hall call hmem)
    | _ => trivial
  · intro hall call hmem
    obtain ⟨front, rest, heq⟩ := List.append_of_mem hmem
    have hiff := enforces_iff_scoped (hlawful call hmem) (hexecuted front _ rest heq)
    exact hiff.mpr (hall front _ rest heq)

end WorkflowEngine

/-- An intent that may read, write and run commands, but not touch git. -/
def withoutGit : IntentPolicy where
  name := "develop"
  actions := {FILESYSTEM_READ_ACTION, FILESYSTEM_WRITE_ACTION, SHELL_EXECUTE}

/-- The state after a run under that intent. -/
def withoutGitRun : EngineState :=
  ((gatedEngine greenGates).execute greenWorld { description := "goal" }
    (some { { : Context } with intent := some withoutGit }) true {}).2

/-- Git commits under an intent that does not grant `git.commit`. -/
theorem not_enforced_commit :
    ¬∀ call, .agent call ∈ withoutGitRun.trace → call.Enforces withoutGit := by
  intro hall
  have hcommits : withoutGitRun.trace.any (fun
      | .agent call => call.site == .commit && call.log.any ExecEvent.isInvoked
      | _ => false) = true := by
    decide +kernel
  obtain ⟨e, hmem, he⟩ := List.any_eq_true.mp hcommits
  cases e with
  | agent call =>
    obtain ⟨hsite, hinvoked⟩ : call.site = .commit ∧ ∃ event ∈ call.log,
        event.isInvoked = true := by simpa using he
    obtain ⟨event, hlog, hevent⟩ := hinvoked
    cases event with
    | invoked attempt =>
      have haction := (hall call hmem ⟨attempt, hlog⟩).2
      rw [hsite] at haction
      simp only [AgentCall.effective, effectivePermissions, withoutGit, CallSite.action,
        Finset.sdiff_empty, Finset.mem_inter] at haction
      exact absurd haction.1 (by decide)
    | _ => cases hevent
  | _ => cases he

end AiosDeck.Workflow
