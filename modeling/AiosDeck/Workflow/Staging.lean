import AiosDeck.Workflow.Conformance
import AiosDeck.Workflow.Results

/-!
# Staging in front of the commit

The last git phase runs two agent executions. The result of the first is
kept in the state and replaced by that of the second before anything reads
it, so that only the commit decides what the run reports.
-/

namespace AiosDeck.Workflow

open Python Agents Security Quality Scheduler Program Trace

/-- The call came back with a successful result. -/
def AgentCall.succeeded (call : AgentCall) : Bool :=
  match call.outcome with
  | .ok outcome => (WorkflowEngine.outcomeResult call.request outcome).success
  | .error _ => false

/-- The agent of the call was run at least once. -/
def AgentCall.Invoked (call : AgentCall) : Prop := ∃ attempt, .invoked attempt ∈ call.log

/-- Commits are invoked only behind a successful staging, and a run with an
unsuccessful one does not report success. -/
structure StagesFirst (outcome : Except PyExc WorkflowResult) (trace : List Event) : Prop where
  commits : ∀ front call rest, trace = front ++ .agent call :: rest → call.site = .commit →
    call.Invoked → ∃ staged, .agent staged ∈ front ∧ staged.site = .stage ∧ staged.succeeded = true
  reports : ∀ result, outcome = .ok result → result.success = true →
    ∀ staged, .agent staged ∈ trace → staged.site = .stage → staged.succeeded = true

/-- The trace with this call in it: in front of it nothing is staged or
committed, and behind it nothing is staged again. -/
def OnceStaged (call : AgentCall) (trace : List Event) : Prop :=
  ∃ quiet more, trace = quiet ++ .agent call :: more ∧ (∀ e ∈ quiet, ¬e.gitWrite) ∧
    ∀ other, .agent other ∈ more → other.site = .commit

/-- The only staging of such a trace. -/
theorem OnceStaged.eq {call other : AgentCall} {trace : List Event} (h : OnceStaged call trace)
    (hmem : .agent other ∈ trace) (hsite : other.site = .stage) : other = call := by
  obtain ⟨quiet, more, rfl, hquiet, hmore⟩ := h
  rcases List.mem_append.mp hmem with hold | hnew
  · exact absurd (.inl hsite) (hquiet _ hold)
  · rcases List.mem_cons.mp hnew with hcall | hlater
    · exact Event.agent.inj hcall
    · have hcommit := hmore other hlater
      rw [hsite] at hcommit
      cases hcommit

/-- Every commit of such a trace is behind the staging. -/
theorem OnceStaged.front {call commit : AgentCall} {trace front rest : List Event}
    (h : OnceStaged call trace) (hcall : call.site = .stage)
    (htrace : trace = front ++ .agent commit :: rest) (hsite : commit.site = .commit) :
    .agent call ∈ front := by
  obtain ⟨quiet, more, rfl, hquiet, hmore⟩ := h
  rcases List.append_eq_append_iff.mp htrace with ⟨middle, hfront, hrest⟩ | ⟨middle, hold, hrest⟩
  · cases middle with
    | nil =>
      obtain ⟨hsame, -⟩ := List.cons.inj hrest
      cases hsame
      rw [hcall] at hsite
      cases hsite
    | cons first middle =>
      obtain ⟨rfl, -⟩ := List.cons.inj hrest
      rw [hfront]
      exact List.mem_append_right _ List.mem_cons_self
  · cases middle with
    | nil =>
      obtain ⟨hsame, -⟩ := List.cons.inj hrest
      cases hsame
      rw [hcall] at hsite
      cases hsite
    | cons first middle =>
      obtain ⟨rfl, -⟩ := List.cons.inj hrest
      have hmem : .agent commit ∈ quiet := by
        rw [hold]
        exact List.mem_append_right _ List.mem_cons_self
      exact absurd (.inr hsite) (hquiet _ hmem)

/-- What staging first says of such a trace. -/
theorem OnceStaged.stagesFirst {call : AgentCall} {trace : List Event}
    {outcome : Except PyExc WorkflowResult} (h : OnceStaged call trace) (hcall : call.site = .stage) :
    StagesFirst outcome trace ↔ (call.succeeded = false →
      (∀ commit, .agent commit ∈ trace → commit.site = .commit → ¬commit.Invoked) ∧
        ∀ result, outcome = .ok result → result.success = false) := by
  have hmem : .agent call ∈ trace := by
    obtain ⟨quiet, more, rfl, -⟩ := h
    exact List.mem_append_right _ List.mem_cons_self
  constructor
  · refine fun hfirst hfailed => ⟨fun commit hcommit hsite hinvoked => ?_, fun result hresult => ?_⟩
    · obtain ⟨front, rest, htrace⟩ := List.append_of_mem hcommit
      obtain ⟨staged, hfront, hstage, hsucceeded⟩ :=
        hfirst.commits front commit rest htrace hsite hinvoked
      have hstaged : .agent staged ∈ trace := by
        rw [htrace]
        exact List.mem_append_left _ hfront
      rw [h.eq hstaged hstage, hfailed] at hsucceeded
      cases hsucceeded
    · by_contra hsuccess
      have hsucceeded := hfirst.reports result hresult (by simpa using hsuccess) call hmem hcall
      rw [hfailed] at hsucceeded
      cases hsucceeded
  · intro hfailed
    cases hsucceeded : call.succeeded with
    | true =>
      refine ⟨fun front commit rest htrace hsite _ => ?_, fun result _ _ staged hstaged hstage => ?_⟩
      · exact ⟨call, h.front hcall htrace hsite, hcall, hsucceeded⟩
      · rw [h.eq hstaged hstage]
        exact hsucceeded
    | false =>
      obtain ⟨huncommitted, hunreported⟩ := hfailed hsucceeded
      refine ⟨fun front commit rest htrace hsite hinvoked => ?_, fun result hresult hsuccess => ?_⟩
      · have hcommit : .agent commit ∈ trace := by
          rw [htrace]
          exact List.mem_append_right _ List.mem_cons_self
        exact absurd hinvoked (huncommitted commit hcommit hsite)
      · rw [hunreported result hresult] at hsuccess
        cases hsuccess

namespace WorkflowEngine

section Git

variable (engine : WorkflowEngine) (world : World) (git : Agent)

/-- The request that stages the changes. -/
def stageRequest (s : EngineState) : ExecutionRequest where
  agent := git
  task :=
    { description := "stage changes", taskType := .str "stage", taskId := toString (world.uuid s.trace) }

/-- The call that stages the changes. -/
def stageCall (s : EngineState) : AgentCall :=
  executorCall engine.executor .stage (stageRequest world git s) (world.agentRun s.trace .stage)

/-- The request that commits with this message. -/
def commitRequest (message : String) (s : EngineState) : ExecutionRequest where
  agent := git
  task :=
    { description := "commit changes", taskType := .str "commit", params := [("message", .str message)]
      taskId := toString (world.uuid s.trace) }

/-- The call that commits with this message. -/
def commitCall (message : String) (s : EngineState) : AgentCall :=
  executorCall engine.executor .commit (commitRequest world git message s)
    (world.agentRun s.trace .commit)

/-- The state behind staging with this result. -/
def staged (result : AgentResult) (s : EngineState) : EngineState :=
  { called (stageCall engine world git s) s with
    ctx := { s.ctx with commit := gitOperation result } }

/-- The commit of this state is not let run: there is no message, or the
executor does not admit the commit, or it was cancelled before. -/
def Uncommitted (t : EngineState) : Prop :=
  ∀ message, engine.commitFactory t.ctx = .ok message →
    ¬(AgentExecutor.Admitted engine.executor (commitRequest world git message t) ∧
      (world.agentRun t.trace .commit).cancelled 1 = false)

/-- In this state, if staging comes back unsuccessful, then the commit
behind it is not let run. -/
def StagesSafely (s : EngineState) : Prop :=
  ∀ outcome, (stageCall engine world git s).outcome = .ok outcome →
    (outcomeResult (stageRequest world git s) outcome).success = false →
      Uncommitted engine world git
        (staged engine world git (outcomeResult (stageRequest world git s) outcome) s)

end Git

variable {engine : WorkflowEngine} {world : World} {git : Agent}

/-- The git phase behind the answer of the commit. -/
def concluding (engine : WorkflowEngine) (world : World) (commitResult : AgentResult) :
    EngineM Unit := do
  update fun ctx => { ctx with commit := gitOperation commitResult }
  let error ← liftPy (gitError commitResult)
  appendStage world { name := "git", success := commitResult.success, error }
  if commitResult.success then pure ()
  else appendError ("Git: commit failed: " ++ errorText error)

/-- The run behind staging. -/
def committing (engine : WorkflowEngine) (world : World) (git : Agent) : EngineM Unit := do
  let s ← get
  let message ← liftPy (engine.commitFactory s.ctx)
  let commitResult ← runAlone engine world .commit git "commit changes" "commit"
    [("message", .str message)]
  concluding engine world commitResult
  finish engine

/-- The last git phase as its first call and the rest. -/
theorem deliver_staged (hgit : engine.git = some git) (s : EngineState) :
    deliver engine world s =
      match (stageCall engine world git s).outcome with
      | .error exc => .error (.raised exc) (called (stageCall engine world git s) s)
      | .ok outcome => committing engine world git
          (staged engine world git (outcomeResult (stageRequest world git s) outcome) s) := by
  have hcall : runAlone engine world .stage git "stage changes" "stage" [] s =
      answer (stageRequest world git s) (stageCall engine world git s).outcome
        (called (stageCall engine world git s) s) := rfl
  have hdeliver : deliver engine world = (do
      let stageResult ← runAlone engine world .stage git "stage changes" "stage" []
      update fun ctx => { ctx with commit := gitOperation stageResult }
      committing engine world git) := by
    unfold deliver gitPhase committing concluding
    rw [hgit]
    simp only [bind_assoc]
  rw [hdeliver]
  simp only [Bind.bind, EStateM.bind, hcall]
  cases houtcome : (stageCall engine world git s).outcome with
  | error exc => rfl
  | ok outcome => rfl

/-- The rest as the commit message, the commit and the end of the run. -/
theorem committing_eq (t : EngineState) :
    committing engine world git t =
      match engine.commitFactory t.ctx with
      | .error exc => .error (.raised exc) t
      | .ok message =>
        match (commitCall engine world git message t).outcome with
        | .error exc => .error (.raised exc) (called (commitCall engine world git message t) t)
        | .ok outcome =>
          (concluding engine world (outcomeResult (commitRequest world git message t) outcome) >>=
            fun _ => finish engine) (called (commitCall engine world git message t) t) := by
  unfold committing
  cases hmessage : engine.commitFactory t.ctx with
  | error exc => simp [Bind.bind, EStateM.bind, get, getThe, MonadStateOf.get, EStateM.get, liftPy, hmessage]; rfl
  | ok message =>
    have hcall : runAlone engine world .commit git "commit changes" "commit"
        [("message", .str message)] t =
        answer (commitRequest world git message t) (commitCall engine world git message t).outcome
          (called (commitCall engine world git message t) t) := rfl
    have hget : (get : EngineM EngineState) t = .ok t t := rfl
    have hlift : (liftPy (engine.commitFactory t.ctx)) t = .ok message t := by
      rw [hmessage]
      rfl
    simp only [Bind.bind, EStateM.bind, hget, hlift, hcall]
    cases houtcome : (commitCall engine world git message t).outcome with
    | error exc => rfl
    | ok outcome => rfl

theorem concluding_framed (commitResult : AgentResult) :
    Framed (Extends engine world .none) (concluding engine world commitResult) := by
  refine (update_framed _).bind fun _ => (liftPy_framed _).bind fun error => ?_
  exact (appendStage_framed _).bind fun _ => Framed.ite (Framed.pure _) (appendError_framed _)

/-- The event is a commit with the message of this state. -/
def CommitsAt (engine : WorkflowEngine) (world : World) (git : Agent) (t : EngineState) : Event → Prop
  | .agent call => ∃ message, engine.commitFactory t.ctx = .ok message ∧
      call = commitCall engine world git message t
  | _ => True

/-- Behind staging no agent but the commit is called. -/
theorem committing_appends (t : EngineState) :
    Appends (CommitsAt engine world git t) t.trace (after (committing engine world git) t).trace := by
  unfold after
  rw [committing_eq]
  cases hmessage : engine.commitFactory t.ctx with
  | error exc => exact Appends.refl t.trace
  | ok message =>
    have hcalled : Appends (CommitsAt engine world git t) t.trace
        (called (commitCall engine world git message t) t).trace :=
      Appends.single t.trace ⟨message, hmessage, rfl⟩
    dsimp only
    cases houtcome : (commitCall engine world git message t).outcome with
    | error exc => exact hcalled
    | ok outcome =>
      have hframed : Framed (Extends engine world .none)
          (concluding engine world (outcomeResult (commitRequest world git message t) outcome) >>=
            fun _ => finish engine (α := Unit)) := (concluding_framed _).bind fun _ => finish_framed
      refine hcalled.trans ((hframed _).appended.mono fun e he => ?_)
      cases e with
      | agent call => exact he.1.elim
      | _ => trivial

/-- With a message, the commit is called. -/
theorem committing_calls {t : EngineState} {message : String}
    (hmessage : engine.commitFactory t.ctx = .ok message) :
    .agent (commitCall engine world git message t) ∈
      (after (committing engine world git) t).trace := by
  have hcalled : .agent (commitCall engine world git message t) ∈
      (called (commitCall engine world git message t) t).trace :=
    List.mem_append_right _ (List.mem_singleton_self _)
  unfold after
  rw [committing_eq, hmessage]
  dsimp only
  cases houtcome : (commitCall engine world git message t).outcome with
  | error exc => exact hcalled
  | ok outcome =>
    have hframed : Framed (Extends engine world .none)
        (concluding engine world (outcomeResult (commitRequest world git message t) outcome) >>=
          fun _ => finish engine (α := Unit)) := (concluding_framed _).bind fun _ => finish_framed
    exact (hframed _).appended.subset hcalled

/-- Everything but staging and committing. -/
def unstaged : Footprint := ⟨fun site => site ≠ .stage ∧ site ≠ .commit, fun _ => True⟩

/-- In front of the last git phase nothing is staged and nothing committed. -/
theorem prepare_unstaged (task : Task) (createBranch : Bool) :
    Framed (Extends engine world unstaged) (prepare engine world task createBranch) := by
  have hgate : ∀ name input, Framed (Extends engine world unstaged) (gatePhase engine world name input) :=
    fun name input => gatePhase_framed name input trivial
  refine Framed.bind (Framed.ite (Framed.pure _) (publishQuality_framed _)) fun _ => ?_
  refine (researchPhase_framed unstaged task ⟨by simp, by simp⟩).bind fun _ => ?_
  refine (plannerPhase_framed unstaged task ⟨by simp, by simp⟩).bind fun subtasks => ?_
  refine (branchPhase_framed unstaged createBranch ⟨by simp, by simp⟩).bind fun _ => ?_
  refine (schedulerPhase_framed unstaged subtasks).bind fun items => ?_
  refine Framed.bind ((develop_framed unstaged items fun _ => ⟨by simp, by simp⟩).bind fun _ => hgate _ _)
    fun _ => ?_
  refine (reviewerPhase_framed unstaged ⟨by simp, by simp⟩).bind fun _ => (hgate _ _).bind fun _ => ?_
  refine (testerPhase_framed unstaged ⟨by simp, by simp⟩).bind fun failed => Framed.get.bind fun s => ?_
  refine (hgate _ _).bind fun _ => (documentationPhase_framed unstaged failed ⟨by simp, by simp⟩).bind
    fun _ => ?_
  exact (hgate _ _).bind fun _ => releasePhase_framed unstaged trivial

/-- A run that ends in this way reports no success. -/
def Unsuccessful : Stop → EngineState → Prop
  | .returned result, _ => result.success = false
  | .raised _, _ => True

theorem liftPy_unsuccessful {α : Type} (result : Except PyExc α) :
    Triple (fun _ => True) (liftPy result) (fun _ _ => True) Unsuccessful := by
  cases result with
  | ok value => exact Triple.pure fun _ h => h
  | error exc => exact Triple.throw fun _ _ => trivial

theorem appendStage_unsuccessful (stage : WorkflowStage) :
    Triple (fun _ => True) (appendStage world stage) (fun _ _ => True) Unsuccessful := by
  refine Triple.bind (R := fun _ _ => True) (Triple.modify fun _ h => h) fun _ => ?_
  refine Triple.bind (R := fun _ _ => True) (Triple.modify fun _ h => h) fun _ => ?_
  cases world.onStage stage with
  | none => exact Triple.pure fun _ h => h
  | some exc => exact Triple.throw fun _ _ => trivial

theorem finish_unsuccessful :
    Triple (fun s => s.ctx.errors ≠ []) (finish engine : EngineM Unit) (fun _ _ => False)
      Unsuccessful := by
  intro s hs
  obtain ⟨t, hrun, -⟩ := finish_run (α := Unit) engine s
  rw [hrun]
  change (engine.enrichStages s.ctx).errors.isEmpty = false
  rw [enrichStages_errors]
  simpa using hs

/-- A run whose commit came back unsuccessful reports no success. -/
theorem concluding_unsuccessful {commitResult : AgentResult} (h : commitResult.success = false) :
    Triple (fun _ => True) (concluding engine world commitResult >>= fun _ => finish engine)
      (fun (_ : Unit) _ => False) Unsuccessful := by
  refine Triple.bind (R := fun _ s => s.ctx.errors ≠ []) ?_ fun _ => finish_unsuccessful
  refine Triple.bind (R := fun _ _ => True) (Triple.modify fun _ h => h) fun _ => ?_
  refine (liftPy_unsuccessful _).bind fun error => (appendStage_unsuccessful _).bind fun _ => ?_
  rw [h]
  exact Triple.modify fun s _ => by simp

/-- An executor that does not run the agent has no successful result. -/
theorem commitCall_unsuccessful {t : EngineState} (huncommitted : Uncommitted engine world git t)
    {message : String} (hmessage : engine.commitFactory t.ctx = .ok message)
    {outcome : ExecutionOutcome}
    (houtcome : (commitCall engine world git message t).outcome = .ok outcome) :
    (outcomeResult (commitRequest world git message t) outcome).success = false := by
  have hidle : AgentExecutor.Admitted engine.executor (commitRequest world git message t) →
      (world.agentRun t.trace .commit).cancelled 1 = true := by
    intro hadmitted
    by_contra hcancelled
    exact huncommitted message hmessage ⟨hadmitted, by simpa using hcancelled⟩
  have hresult : outcome.result = none := by
    cases hrun : AgentExecutor.execute engine.executor (commitRequest world git message t)
        (world.agentRun t.trace .commit) {} with
    | error exc last =>
      have hother : (commitCall engine world git message t).outcome = .error exc := by
        simp [commitCall, executorCall, hrun]
      rw [hother] at houtcome
      cases houtcome
    | ok other last =>
      have hother : (commitCall engine world git message t).outcome = .ok other :=
        executorCall_outcome hrun
      rw [hother] at houtcome
      cases houtcome
      exact (AgentExecutor.execute_resultless hidle).of_ok trivial hrun
  unfold outcomeResult
  rw [hresult]
  rfl

/-- A run whose commit is not let run reports no success. -/
theorem committing_unsuccessful {t : EngineState} (huncommitted : Uncommitted engine world git t) :
    Triple (fun u => u = t) (committing engine world git) (fun _ _ => False) Unsuccessful := by
  rintro u rfl
  rw [committing_eq]
  cases hmessage : engine.commitFactory u.ctx with
  | error exc => trivial
  | ok message =>
    dsimp only
    cases houtcome : (commitCall engine world git message u).outcome with
    | error exc => trivial
    | ok outcome =>
      exact concluding_unsuccessful (commitCall_unsuccessful huncommitted hmessage houtcome) _ trivial

/-- The calls of the commit that ran the agent. -/
theorem uncommitted_iff (t : EngineState) :
    Uncommitted engine world git t ↔ ∀ message, engine.commitFactory t.ctx = .ok message →
      ¬(commitCall engine world git message t).Invoked := by
  refine forall_congr' fun message => imp_congr_right fun _ => not_congr ?_
  unfold AgentCall.Invoked commitCall
  rw [executorCall_log]
  exact (AgentExecutor.execute_invoked_iff _ _ _ rfl).symm

/-- A run that came to its last git phase goes on with it. -/
theorem pipeline_delivered {task : Task} {context : Option Context} {createBranch : Bool}
    {kanban : KanbanState} {s : EngineState}
    (hreach : engine.prepare world task createBranch (engine.begin world task context kanban) =
      .ok () s) :
    engine.pipeline world task createBranch (engine.begin world task context kanban) =
      deliver engine world s := by
  unfold pipeline
  simp only [Bind.bind, EStateM.bind, hreach]

/-- A run that came to its last git phase has staged and committed nothing. -/
theorem noGitWrite_prepared {task : Task} {context : Option Context} {createBranch : Bool}
    {kanban : KanbanState} {s : EngineState}
    (hreach : engine.prepare world task createBranch (engine.begin world task context kanban) =
      .ok () s) : NoGitWrite s := by
  have hframed : Extends engine world unstaged (engine.begin world task context kanban)
      (after (engine.prepare world task createBranch) (engine.begin world task context kanban)) :=
    prepare_unstaged task createBranch _
  have hafter : after (engine.prepare world task createBranch)
      (engine.begin world task context kanban) = s := by
    unfold after
    rw [hreach]
  rw [hafter] at hframed
  exact noGitWrite_extends hframed (fun h => h.1 rfl) (fun h => h.2 rfl) fun e he => by cases he

/-- Whether staging succeeded, from what the executor made of it. -/
theorem stageCall_succeeded {s : EngineState} {outcome : ExecutionOutcome}
    (houtcome : (stageCall engine world git s).outcome = .ok outcome) :
    (stageCall engine world git s).succeeded =
      (outcomeResult (stageRequest world git s) outcome).success := by
  have hrequest : (stageCall engine world git s).request = stageRequest world git s :=
    executorCall_request _ _ _ _
  unfold AgentCall.succeeded
  rw [houtcome, hrequest]

/-- The trace of a run that goes on behind staging. -/
theorem onceStaged_committing {s t : EngineState} (hquiet : NoGitWrite s)
    (htrace : t.trace = s.trace ++ [.agent (stageCall engine world git s)]) :
    OnceStaged (stageCall engine world git s) (after (committing engine world git) t).trace := by
  have happends : Appends (CommitsAt engine world git t) t.trace
      (after (committing engine world git) t).trace := committing_appends t
  obtain ⟨more, heq, hmore⟩ := happends
  refine ⟨s.trace, more, ?_, hquiet, fun call hcall => ?_⟩
  · rw [heq, htrace, List.append_assoc]
    rfl
  · obtain ⟨message, -, rfl⟩ := hmore _ hcall
    exact executorCall_site _ _ _ _

/-- Up to staging nothing is committed. -/
theorem not_commit_staged {s : EngineState} (hquiet : NoGitWrite s) {commit : AgentCall}
    (hmem : .agent commit ∈ s.trace ++ [.agent (stageCall engine world git s)]) :
    commit.site ≠ .commit := by
  intro hsite
  rcases List.mem_append.mp hmem with hearlier | hstage
  · exact hquiet _ hearlier (.inr hsite)
  · cases List.mem_singleton.mp hstage
    have hstaged : (stageCall engine world git s).site = .stage := executorCall_site _ _ _ _
    rw [hstaged] at hsite
    cases hsite

/-- Commits of a run behind a staging. -/
theorem committing_commits {s t : EngineState} (hquiet : NoGitWrite s)
    (htrace : t.trace = s.trace ++ [.agent (stageCall engine world git s)]) :
    (∀ commit, .agent commit ∈ (after (committing engine world git) t).trace →
        commit.site = .commit → ¬commit.Invoked) ↔ Uncommitted engine world git t := by
  rw [uncommitted_iff]
  constructor
  · intro hall message hmessage
    exact hall _ (committing_calls hmessage) (executorCall_site _ _ _ _)
  · intro hnone commit hmem hsite
    rcases (committing_appends t).mem hmem with hold | ⟨message, hmessage, rfl⟩
    · rw [htrace] at hold
      exact (not_commit_staged hquiet hold hsite).elim
    · exact hnone message hmessage

end WorkflowEngine

/-- A run that reaches its last git phase commits only behind a successful
staging, and reports no success without one, exactly when an unsuccessful
staging is followed by a commit that is not let run. -/
theorem stagesFirst_iff (engine : WorkflowEngine) (world : World) (task : Task)
    (context : Option Context) (createBranch : Bool) (kanban : KanbanState) {git : Agent}
    (hgit : engine.git = some git) {s : EngineState}
    (hreach : engine.prepare world task createBranch (engine.begin world task context kanban) =
      .ok () s) :
    StagesFirst (engine.execute world task context createBranch kanban).1
        (engine.execute world task context createBranch kanban).2.trace ↔
      engine.StagesSafely world git s := by
  have hquiet : NoGitWrite s := WorkflowEngine.noGitWrite_prepared hreach
  have hsite : (engine.stageCall world git s).site = .stage :=
    WorkflowEngine.executorCall_site _ _ _ _
  have hrun := (WorkflowEngine.pipeline_delivered hreach).trans
    (WorkflowEngine.deliver_staged hgit s)
  have hstate : (engine.execute world task context createBranch kanban).2 =
      after (engine.pipeline world task createBranch) (engine.begin world task context kanban) :=
    WorkflowEngine.execute_state task context createBranch kanban
  unfold WorkflowEngine.StagesSafely
  cases houtcome : (engine.stageCall world git s).outcome with
  | error exc =>
    rw [houtcome] at hrun
    have hfailed : (engine.stageCall world git s).succeeded = false := by
      unfold AgentCall.succeeded
      rw [houtcome]
    have hstaged : OnceStaged (engine.stageCall world git s)
        (WorkflowEngine.called (engine.stageCall world git s) s).trace :=
      ⟨s.trace, [], rfl, hquiet, fun other h => by cases h⟩
    unfold WorkflowEngine.execute
    rw [hrun]
    refine iff_of_true ((hstaged.stagesFirst hsite).mpr fun _ => ⟨?_, fun result h => by cases h⟩)
      fun outcome h => by cases h
    exact fun commit hcommit hcommitted =>
      (WorkflowEngine.not_commit_staged hquiet hcommit hcommitted).elim
  | ok outcome =>
    rw [houtcome] at hrun
    dsimp only at hrun
    have htrace : (engine.staged world git
        (WorkflowEngine.outcomeResult (WorkflowEngine.stageRequest world git s) outcome) s).trace =
          s.trace ++ [.agent (engine.stageCall world git s)] := rfl
    have hbehind : StagesFirst (engine.execute world task context createBranch kanban).1
          (engine.execute world task context createBranch kanban).2.trace ↔
        ((WorkflowEngine.outcomeResult (WorkflowEngine.stageRequest world git s) outcome).success =
            false → engine.Uncommitted world git (engine.staged world git
          (WorkflowEngine.outcomeResult (WorkflowEngine.stageRequest world git s) outcome) s)) := by
      generalize engine.staged world git
        (WorkflowEngine.outcomeResult (WorkflowEngine.stageRequest world git s) outcome) s = t
          at hrun htrace
      have hafter : (engine.execute world task context createBranch kanban).2 =
          after (engine.committing world git) t := by
        rw [hstate]
        unfold after
        rw [hrun]
      rw [hafter, (WorkflowEngine.onceStaged_committing hquiet htrace).stagesFirst hsite,
        WorkflowEngine.stageCall_succeeded houtcome]
      refine imp_congr_right fun _ => ?_
      rw [WorkflowEngine.committing_commits hquiet htrace]
      refine and_iff_left_of_imp fun huncommitted result hresult => ?_
      have hends := WorkflowEngine.committing_unsuccessful huncommitted t rfl
      unfold WorkflowEngine.execute at hresult
      rw [hrun] at hresult
      cases hcommitting : engine.committing world git t with
      | ok value u =>
        rw [hcommitting] at hends
        exact hends.elim
      | error stop u =>
        rw [hcommitting] at hends hresult
        cases stop with
        | returned returned =>
          cases hresult
          exact hends
        | raised exc => cases hresult
    refine hbehind.trans ⟨fun h other hother => ?_, fun h => h outcome rfl⟩
    cases hother
    exact h

theorem stagesFirst_iff_green : ∃ s,
    (gatedEngine greenGates).prepare greenWorld { description := "goal" } true
      ((gatedEngine greenGates).begin greenWorld { description := "goal" } none {}) = .ok () s ∧
    (StagesFirst ((gatedEngine greenGates).execute greenWorld { description := "goal" } none true {}).1
        ((gatedEngine greenGates).execute greenWorld { description := "goal" } none true {}).2.trace ↔
      (gatedEngine greenGates).StagesSafely greenWorld (plainAgent "git" ["git"]) s) := by
  have hok : (match (gatedEngine greenGates).prepare greenWorld { description := "goal" } true
      ((gatedEngine greenGates).begin greenWorld { description := "goal" } none {}) with
    | .ok _ _ => true
    | .error _ _ => false) = true := by decide +kernel
  cases hreach : (gatedEngine greenGates).prepare greenWorld { description := "goal" } true
      ((gatedEngine greenGates).begin greenWorld { description := "goal" } none {}) with
  | ok value s =>
    exact ⟨s, rfl, stagesFirst_iff (gatedEngine greenGates) greenWorld { description := "goal" } none
      true {} rfl hreach⟩
  | error stop s =>
    rw [hreach] at hok
    cases hok

/-- Staging exits with an error, and the commit behind it goes through. -/
def unstagedWorld : World :=
  { greenWorld with agentRun := fun trace site =>
      if site = .stage then answering { success := false } else greenWorld.agentRun trace site }

/-- An unsuccessful staging. -/
def Event.stagingFailed : Event → Bool
  | .agent call => call.site == .stage && !call.succeeded
  | _ => false

theorem not_stagesFirst_unstaged :
    ¬StagesFirst
        ((gatedEngine greenGates).execute unstagedWorld { description := "goal" } none true {}).1
      ((gatedEngine greenGates).execute unstagedWorld { description := "goal" } none true {}).2.trace := by
  intro hfirst
  have hsuccess : ((gatedEngine greenGates).execute unstagedWorld { description := "goal" } none true
      {}).1.toOption.map WorkflowResult.success = some true := by decide +kernel
  have hfailed : ((gatedEngine greenGates).execute unstagedWorld { description := "goal" } none true
      {}).2.trace.any Event.stagingFailed = true := by decide +kernel
  obtain ⟨e, hmem, he⟩ := List.any_eq_true.mp hfailed
  cases hresult : ((gatedEngine greenGates).execute unstagedWorld { description := "goal" } none true
      {}).1 with
  | error exc =>
    rw [hresult] at hsuccess
    cases hsuccess
  | ok result =>
    rw [hresult] at hsuccess
    cases e with
    | agent call =>
      have hcall : call.site = .stage ∧ call.succeeded = false := by
        simpa [Event.stagingFailed] using he
      have hsucceeded := hfirst.reports result hresult (Option.some.inj hsuccess) call hmem hcall.1
      rw [hcall.2] at hsucceeded
      cases hsucceeded
    | _ => cases he

end AiosDeck.Workflow
