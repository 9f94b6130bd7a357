import AiosDeck.Workflow.Staging
import AiosDeck.Workflow.Walk

/-!
# Research shared between runs

Several runs share one context. A successful research step replaces the
research in it; a failed one leaves what an earlier run has put there, and
planner and developer see that.
-/

namespace AiosDeck.Workflow

open Python Agents Security Quality Scheduler Program Trace

/-- One of several runs with the same context. -/
structure SharedRun where
  engine : WorkflowEngine
  world : World
  task : Task
  createBranch : Bool
  kanban : KanbanState

/-- What the engine makes of the output of a research agent. -/
def researchDocument (output : Output) : Json :=
  match output.loads with
  | .ok document => document
  | .error _ => .obj []

/-- The research agent of this record answered with success, and the engine
made this document of it. -/
def Produced (trace : List Event) (document : Json) : Prop :=
  ∃ call outcome, .agent call ∈ trace ∧ call.site = .research ∧ call.outcome = .ok outcome ∧
    (WorkflowEngine.outcomeResult call.request outcome).success = true ∧
    researchDocument (WorkflowEngine.outcomeResult call.request outcome).output = document

/-- The calls of planner and developer. -/
def CallSite.readsResearch : CallSite → Bool
  | .planner | .developer _ => true
  | _ => false

/-- The packet carries no research, as its readers test it. -/
def Unresearched (context : Option Context) : Prop :=
  ∀ packet, context = some packet → packet.research.truthy = false

/-- Planner and developer saw the research of this run, or none. -/
def Unleaked (trace : List Event) : Prop :=
  ∀ call packet, .agent call ∈ trace → call.site.readsResearch = true →
    call.request.context = some packet →
      packet.research.truthy = false ∨ Produced trace packet.research

/-- The packet takes the research that is assigned to it, or carries none. -/
def Attachable (context : Option Context) : Prop :=
  ∀ packet, context = some packet → packet.settable = true ∨ packet.research.truthy = false

namespace SharedRun

variable (run : SharedRun) (context : Option Context)

/-- The state that the run leaves. -/
def left : EngineState :=
  (run.engine.execute run.world run.task context run.createBranch run.kanban).2

/-- The state in which its research starts. -/
def opened : EngineState :=
  after (run.engine.publishStarted run.world)
    (run.engine.begin run.world run.task context run.kanban)

/-- The call of its research agent. -/
def research (researcher : Agent) : EngineM AgentResult :=
  run.engine.runShared run.world .research researcher run.task.description (.str "research")
    [("scope", .str "mixed")] [] (toString (run.opened context).ctx.runId)

/-- The stage of a failed research step. -/
def failedStage (result : AgentResult) : WorkflowStage :=
  { name := "research", success := false
    error := some (WorkflowEngine.firstError result "Research failed") }

/-- The research agent reports a failure, and the callback takes its stage. -/
def ResearchFails : Prop :=
  ∃ researcher result s, run.engine.researcher = some researcher ∧
    run.research context researcher (run.opened context) = .ok result s ∧
    result.success = false ∧ run.world.onStage (failedStage result) = none

/-- The research does not fail on a context that carries some. -/
def Fresh : Prop := run.ResearchFails context → Unresearched context

/-- `holds` of every run of a sequence, with the context that it is given. -/
def Across (holds : SharedRun → Option Context → Prop) : Option Context → List SharedRun → Prop
  | _, [] => True
  | context, run :: rest => holds run context ∧ Across holds (run.left context).context rest

end SharedRun

/-- A call other than of the research that is given this context, when its
site passes one. -/
def Event.sees (context : Option Context) : Event → Prop
  | .agent call => call.site ≠ .research ∧
    (call.site.passesContext = true → call.request.context = context)
  | _ => True

/-- The context is as it was, and all later calls have seen it. -/
structure Since (s t : EngineState) : Prop where
  context : t.context = s.context
  trace : Appends (Event.sees s.context) s.trace t.trace

section Sharing

variable {engine : WorkflowEngine} {world : World} {s t : EngineState}

theorem Since.rfl : Since s s := ⟨Eq.refl _, Appends.refl _⟩

theorem Since.event (h : Since s t) {e : Event} (he : e.sees s.context) :
    Since s { t with trace := t.trace ++ [e] } :=
  ⟨h.context, h.trace.trans (Appends.single _ he)⟩

theorem since_undisturbed : Undisturbed (Since s) fun _ => Since s where
  quiet t u h ht := by
    refine ⟨h.context.trans ht.context, ht.trace.trans ?_⟩
    obtain hsame | ⟨e, he, happend⟩ := h.trace
    · rw [hsame]
      exact Appends.refl _
    · rw [happend]
      refine Appends.single _ ?_
      cases e with
      | agent call => cases he
      | _ => exact True.intro
  raised _ _ ht := ht

theorem since_publishQuality (event : QualityEvent) :
    Triple (Since s) (WorkflowEngine.publishQuality engine event) (fun _ => Since s)
      fun _ => Since s :=
  Triple.ite (fun _ => Triple.modify fun _ ht => ht.event True.intro) fun _ =>
    since_undisturbed.pure _

theorem since_finish {α : Type} {Q : α → EngineState → Prop} :
    Triple (Since s) (WorkflowEngine.finish engine : EngineM α) Q fun _ => Since s := by
  have henrich : ∀ ctx, (engine.enrichStages ctx).qualityActive = ctx.qualityActive := by
    intro ctx
    unfold WorkflowEngine.enrichStages
    split
    · rfl
    · rfl
  refine Triple.bind (since_undisturbed.update henrich) fun _ => ?_
  refine Triple.bind since_undisturbed.get fun t => ?_
  refine Triple.bind (Triple.ite (fun _ => since_publishQuality _) fun _ =>
    since_undisturbed.pure _) fun _ => Triple.throw fun _ ht => ht

theorem since_gatePhase (name : String) (input : GateInput) :
    Triple (Since s) (WorkflowEngine.gatePhase engine world name input) (fun _ => Since s)
      fun _ => Since s := by
  refine Triple.ite (fun _ => since_undisturbed.pure _) fun _ => ?_
  refine Triple.bind (R := fun _ => Since s) ?_ fun goesOn =>
    Triple.ite (fun _ => since_undisturbed.pure _) fun _ => since_finish
  unfold WorkflowEngine.runGate
  split
  · refine Triple.bind (since_publishQuality _) fun _ => ?_
    refine Triple.bind since_undisturbed.get fun t => ?_
    refine Triple.bind (R := fun _ => Since s)
      (Triple.modify fun _ ht => ht.event True.intro) fun _ => ?_
    refine Triple.bind (since_undisturbed.liftPy _) fun serialized => ?_
    refine Triple.ite (fun _ => ?_) fun _ => ?_
    · refine Triple.bind (since_publishQuality _) fun _ => ?_
      refine Triple.bind (since_undisturbed.appendStage _) fun _ => ?_
      exact Triple.bind (since_undisturbed.appendError _) fun _ => since_undisturbed.pure _
    · refine Triple.bind (since_publishQuality _) fun _ => ?_
      exact Triple.bind (since_undisturbed.appendStage _) fun _ => since_undisturbed.pure _
  · exact Triple.bind (since_undisturbed.appendStage _) fun _ => since_undisturbed.pure _

theorem since_walk : Walk engine world (Since s) fun _ => Since s where
  toUndisturbed := since_undisturbed
  called t call hsite hcontext ht :=
    ht.event ⟨hsite, fun hpasses => (hcontext hpasses).trans ht.context⟩
  gate := since_gatePhase
  finished := since_finish

/-- Planner and developer see what the context carries after the research. -/
theorem Since.unleaked (h : Since s t)
    (hcalls : ∀ call, .agent call ∈ s.trace → call.site = .research)
    (hseen : ∀ packet, s.context = some packet →
      packet.research.truthy = false ∨ Produced s.trace packet.research) : Unleaked t.trace := by
  obtain ⟨more, hmore, hsees⟩ := h.trace
  intro call packet hcall hreads hpacket
  rw [hmore] at hcall ⊢
  obtain hold | hnew := List.mem_append.mp hcall
  · rw [hcalls call hold] at hreads
    cases hreads
  · have hpasses : call.site.passesContext = true := by
      cases hsite : call.site with
      | planner => rfl
      | developer index => rfl
      | _ =>
        rw [hsite] at hreads
        cases hreads
    rw [(hsees _ hnew).2 hpasses] at hpacket
    refine (hseen packet hpacket).imp_right ?_
    rintro ⟨source, outcome, hsource, hrest⟩
    exact ⟨source, outcome, List.mem_append_left _ hsource, hrest⟩

end Sharing

namespace WorkflowEngine

/-- What the engine does with the answer of the research agent. -/
def takeResearch (engine : WorkflowEngine) (world : World) (result : AgentResult) : EngineM Unit :=
  if result.success then do
    let serialized := researchDocument result.output
    update fun ctx => { ctx with researchResult := some serialized }
    modify fun s => { s with context := s.context.map fun packet =>
      if packet.settable then { packet with research := serialized } else packet }
    let status ← liftPy (serialized.getD "status" .null)
    let summary ← liftPy (serialized.getD "summary_short" .null)
    let sources ← liftPy (itemCount serialized "sources")
    let findings ← liftPy (itemCount serialized "findings")
    appendStage world
      { name := "research", success := true
        details := [("status", status), ("summary_short", summary), ("sources", .ofNat sources),
          ("findings", .ofNat findings)] }
    publishResearch engine serialized
  else appendStage world (SharedRun.failedStage result)

theorem runResearch_eq (engine : WorkflowEngine) (world : World) (researcher : Agent)
    (task : Task) :
    runResearch engine world researcher task = (do
      let s ← get
      let result ← runShared engine world .research researcher task.description (.str "research")
        [("scope", .str "mixed")] [] (toString s.ctx.runId)
      takeResearch engine world result) := rfl

end WorkflowEngine

/-- The context behind a successful research step. -/
def attach (document : Json) (context : Option Context) : Option Context :=
  context.map fun packet => if packet.settable then { packet with research := document } else packet

/-- The state in which a research document was attached. -/
def attached (document : Json) (s : EngineState) : EngineState :=
  { s with
    ctx := { s.ctx with researchResult := some document }
    context := attach document s.context }

/-- A successful answer is attached before anything else. -/
theorem takeResearch_since {engine : WorkflowEngine} {world : World} {result : AgentResult}
    (hsuccess : result.success = true) (s : EngineState) :
    Triple (fun t => t = s) (WorkflowEngine.takeResearch engine world result)
      (fun _ => Since (attached (researchDocument result.output) s))
      fun _ => Since (attached (researchDocument result.output) s) := by
  unfold WorkflowEngine.takeResearch
  rw [if_pos hsuccess]
  refine Triple.bind (R := fun _ t => t = { s with
    ctx := { s.ctx with researchResult := some (researchDocument result.output) } })
    (Triple.modify fun t ht => by rw [ht]) fun _ => ?_
  refine Triple.bind (R := fun _ => Since (attached (researchDocument result.output) s))
    (Triple.modify fun t ht => by rw [ht]; exact Since.rfl) fun _ => ?_
  refine Triple.bind (since_undisturbed.liftPy _) fun status => ?_
  refine Triple.bind (since_undisturbed.liftPy _) fun summary => ?_
  refine Triple.bind (since_undisturbed.liftPy _) fun sources => ?_
  refine Triple.bind (since_undisturbed.liftPy _) fun findings => ?_
  refine Triple.bind (since_undisturbed.appendStage _) fun _ => ?_
  refine Triple.ite (fun _ => ?_) fun _ => since_undisturbed.pure _
  refine Triple.bind (since_undisturbed.liftPy _) fun _ => ?_
  refine Triple.bind (since_undisturbed.liftPy _) fun _ => ?_
  exact Triple.bind (since_undisturbed.liftPy _) fun _ => since_undisturbed.record rfl

/-- The state with one more stage. -/
def EngineState.noted (s : EngineState) (stage : WorkflowStage) : EngineState :=
  { s with
    ctx := { s.ctx with stages := s.ctx.stages ++ [stage] }
    trace := s.trace ++ [.stage stage] }

theorem appendStage_taken {world : World} {stage : WorkflowStage} (h : world.onStage stage = none)
    (s : EngineState) : WorkflowEngine.appendStage world stage s = .ok () (s.noted stage) := by
  unfold WorkflowEngine.appendStage
  rw [h]
  rfl

theorem appendStage_refused {world : World} {stage : WorkflowStage} {exc : PyExc}
    (h : world.onStage stage = some exc) (s : EngineState) :
    WorkflowEngine.appendStage world stage s = .error (.raised exc) (s.noted stage) := by
  unfold WorkflowEngine.appendStage
  rw [h]
  rfl

namespace SharedRun

variable {run : SharedRun} {context : Option Context}

/-- The first quality event is published in every case. -/
theorem started_run (s : EngineState) : run.engine.publishStarted run.world s =
    .ok () (after (run.engine.publishStarted run.world) s) := by
  unfold WorkflowEngine.publishStarted WorkflowEngine.publishQuality
  split
  · rfl
  · split
    · rfl
    · rfl

/-- No agent was called before the research. -/
theorem opened_calls (call : AgentCall) : .agent call ∉ (run.opened context).trace := by
  unfold opened WorkflowEngine.publishStarted WorkflowEngine.publishQuality
  intro hmem
  split at hmem
  · cases hmem
  · split at hmem
    · cases List.mem_singleton.mp hmem
    · cases hmem

theorem opened_context :
    (run.opened context).context = WorkflowEngine.applyWorkflowIntent context := by
  unfold opened WorkflowEngine.publishStarted WorkflowEngine.publishQuality
  split
  · rfl
  · split
    · rfl
    · rfl

/-- The run, from its research on. -/
theorem left_eq {researcher : Agent} (hresearcher : run.engine.researcher = some researcher) :
    run.left context = after (do
      let result ← run.research context researcher
      run.engine.takeResearch run.world result
      let subtasks ← run.engine.plannerPhase run.world run.task
      run.engine.implement run.world run.createBranch subtasks
      run.engine.deliver run.world) (run.opened context) := by
  have hphase : run.engine.researchPhase run.world run.task =
      run.engine.runResearch run.world researcher run.task := by
    unfold WorkflowEngine.researchPhase
    rw [hresearcher]
  have hstate : run.left context =
      after (run.engine.pipeline run.world run.task run.createBranch)
        (run.engine.begin run.world run.task context run.kanban) :=
    WorkflowEngine.execute_state _ _ _ _
  rw [hstate, WorkflowEngine.pipeline_phases, hphase, WorkflowEngine.runResearch_eq]
  rw [after_bind_ok (started_run _)]
  simp only [bind_assoc]
  rfl

/-- A call of the research agent: it is recorded, and raises or answers. -/
theorem research_run (context : Option Context) (researcher : Agent) :
    ∃ call : AgentCall, call.site = .research ∧
      ((∃ outcome, call.outcome = .ok outcome ∧
        run.research context researcher (run.opened context) =
          .ok (WorkflowEngine.outcomeResult call.request outcome)
            (WorkflowEngine.called call (run.opened context))) ∨
        ∃ stop, run.research context researcher (run.opened context) =
          .error stop (WorkflowEngine.called call (run.opened context))) := by
  obtain ⟨call, hsite, hrun⟩ := @WorkflowEngine.runAgent_run run.world False run.engine .research
    researcher (fun h => h.elim)
    { description := run.task.description, taskType := .str "research"
      params := [("scope", .str "mixed")]
      taskId := toString (run.world.uuid (run.opened context).trace)
      correlationId := toString (run.opened context).ctx.runId } (run.opened context).context
    (run.opened context)
  refine ⟨call, hsite, hrun.imp ?_ ?_⟩
  · rintro ⟨outcome, houtcome, -, heq⟩
    exact ⟨outcome, houtcome, heq⟩
  · rintro ⟨exc, -, -, heq⟩
    exact ⟨_, heq⟩

/-- Behind a call of the research agent, that is the only call. -/
theorem called_research {call other : AgentCall} (hsite : call.site = .research)
    (hother : .agent other ∈ (WorkflowEngine.called call (run.opened context)).trace) :
    other = call := by
  obtain hold | hnew := List.mem_append.mp hother
  · exact absurd hold (opened_calls other)
  · cases List.mem_singleton.mp hnew
    rfl

/-- The rest of a run, with what the research has left. -/
theorem since_left {researcher : Agent} (hresearcher : run.engine.researcher = some researcher)
    {result : AgentResult} {s t : EngineState}
    (hrun : run.research context researcher (run.opened context) = .ok result s)
    (htaken : Triple (fun u => u = s) (run.engine.takeResearch run.world result)
      (fun _ => Since t) fun _ => Since t) : Since t (run.left context) := by
  have hrest : Triple (fun u => u = s) (run.engine.takeResearch run.world result >>= fun _ => do
      let subtasks ← run.engine.plannerPhase run.world run.task
      run.engine.implement run.world run.createBranch subtasks
      run.engine.deliver run.world) (fun _ => Since t) fun _ => Since t :=
    Triple.bind htaken fun _ =>
      (since_walk.afterResearch run.task run.createBranch).strengthen_post fun _ _ h => h.elim
  rw [left_eq hresearcher, after_bind_ok hrun]
  exact hrest.after rfl

/-- What is done with a failed answer. -/
theorem takeResearch_failed {result : AgentResult} (hfailed : result.success = false) :
    run.engine.takeResearch run.world result =
      WorkflowEngine.appendStage run.world (failedStage result) := by
  unfold WorkflowEngine.takeResearch
  rw [hfailed]
  exact if_neg Bool.false_ne_true

/-- A reported failure leaves the context alone, and the planner sees it. -/
theorem failed_left {researcher : Agent} (hresearcher : run.engine.researcher = some researcher)
    {result : AgentResult} {s : EngineState}
    (hrun : run.research context researcher (run.opened context) = .ok result s)
    (hfailed : result.success = false) (htaken : run.world.onStage (failedStage result) = none) :
    Since s (run.left context) ∧ ∃ call, .agent call ∈ (run.left context).trace ∧
      call.site = .planner ∧ call.request.context = s.context := by
  constructor
  · refine since_left hresearcher hrun ?_
    rw [takeResearch_failed hfailed]
    exact (since_undisturbed.appendStage _).weaken_pre fun t ht => by rw [ht]; exact Since.rfl
  · rw [left_eq hresearcher, after_bind_ok hrun, takeResearch_failed hfailed]
    rw [after_bind_ok (appendStage_taken htaken s)]
    generalize ht : s.noted (failedStage result) = t
    have hcontext : t.context = s.context := by
      rw [← ht]
      rfl
    obtain ⟨call, hsite, hrequest, hafter⟩ := WorkflowEngine.after_runShared run.engine run.world
      .planner run.engine.planner run.task.description (.str run.task.taskType) [] run.task.files t
    have hcall : Triple (fun u => u = t) (run.engine.runShared run.world .planner run.engine.planner
        run.task.description (.str run.task.taskType) [] run.task.files)
        (fun _ => Since (WorkflowEngine.called call t))
        fun _ => Since (WorkflowEngine.called call t) := by
      refine Triple.of_after fun u hu => ?_
      rw [hu, hafter]
      exact Since.rfl
    have hrest : Triple (fun u => u = t) (do
        let subtasks ← run.engine.plannerPhase run.world run.task
        run.engine.implement run.world run.createBranch subtasks
        run.engine.deliver run.world) (fun _ => Since (WorkflowEngine.called call t))
        fun _ => Since (WorkflowEngine.called call t) :=
      (since_walk.afterResearch_of_call run.task run.createBranch hcall).strengthen_post
        fun _ _ h => h.elim
    have hlast := hrest.after rfl
    refine ⟨call, hlast.trace.subset ?_, hsite, hrequest.trans hcontext⟩
    exact List.mem_append_right _ (List.mem_singleton.mpr rfl)

/-- A failure that the callback does not take ends the run. -/
theorem refused_left {researcher : Agent} (hresearcher : run.engine.researcher = some researcher)
    {result : AgentResult} {s : EngineState}
    (hrun : run.research context researcher (run.opened context) = .ok result s)
    (hfailed : result.success = false) {exc : PyExc}
    (hrefused : run.world.onStage (failedStage result) = some exc) :
    (run.left context).context = s.context ∧ ∀ call, .agent call ∈ (run.left context).trace →
      .agent call ∈ s.trace := by
  rw [left_eq hresearcher, after_bind_ok hrun, takeResearch_failed hfailed,
    after_bind_error (appendStage_refused hrefused s)]
  refine ⟨rfl, fun call hcall => ?_⟩
  obtain hold | hnew := List.mem_append.mp hcall
  · exact hold
  · cases List.mem_singleton.mp hnew

theorem raised_left {researcher : Agent} (hresearcher : run.engine.researcher = some researcher)
    {stop : Stop} {s : EngineState}
    (hrun : run.research context researcher (run.opened context) = .error stop s) :
    run.left context = s := by
  rw [left_eq hresearcher, after_bind_error hrun]

/-- A run that called the research agent alone leaks nothing. -/
theorem unleaked_of_research {trace : List Event}
    (h : ∀ call, .agent call ∈ trace → call.site = .research) : Unleaked trace := by
  intro call packet hcall hreads
  rw [h call hcall] at hreads
  cases hreads

/-- The context in which the research starts carries what the run was given. -/
theorem opened_packet {packet : Context} (h : (run.opened context).context = some packet) :
    ∃ given, context = some given ∧ packet.research = given.research ∧
      packet.settable = given.settable := by
  rw [opened_context] at h
  obtain ⟨given, hgiven, rfl⟩ := Option.map_eq_some_iff.mp h
  refine ⟨given, hgiven, ?_, ?_⟩
  · split
    · rfl
    · rfl
  · split
    · rfl
    · rfl

/-- The research fails, by the answer of its agent. -/
theorem researchFails_iff {researcher : Agent}
    (hresearcher : run.engine.researcher = some researcher) {result : AgentResult} {s : EngineState}
    (hrun : run.research context researcher (run.opened context) = .ok result s) :
    run.ResearchFails context ↔
      result.success = false ∧ run.world.onStage (failedStage result) = none := by
  constructor
  · rintro ⟨other, answer, t, hother, hanswer, hfailed, htaken⟩
    rw [hresearcher] at hother
    cases hother
    rw [hrun] at hanswer
    cases hanswer
    exact ⟨hfailed, htaken⟩
  · rintro ⟨hfailed, htaken⟩
    exact ⟨researcher, result, s, hresearcher, hrun, hfailed, htaken⟩

/-- What a successful research step leaves in the context is its own. -/
theorem succeeded_left {researcher : Agent} (hresearcher : run.engine.researcher = some researcher)
    {call : AgentCall} {outcome : ExecutionOutcome} (hsite : call.site = .research)
    (houtcome : call.outcome = .ok outcome)
    (hrun : run.research context researcher (run.opened context) =
      .ok (WorkflowEngine.outcomeResult call.request outcome)
        (WorkflowEngine.called call (run.opened context)))
    (hsuccess : (WorkflowEngine.outcomeResult call.request outcome).success = true)
    (hopened : Attachable (run.opened context).context) :
    Attachable (run.left context).context ∧ Unleaked (run.left context).trace := by
  have hsince := since_left hresearcher hrun (takeResearch_since hsuccess _)
  constructor
  · rw [hsince.context]
    intro packet hpacket
    obtain ⟨given, hgiven, rfl⟩ := Option.map_eq_some_iff.mp hpacket
    split
    · next hsettable => exact .inl hsettable
    · exact hopened given hgiven
  · refine hsince.unleaked (fun other hother => ?_) fun packet hpacket => ?_
    · rw [called_research hsite hother, hsite]
    · obtain ⟨given, hgiven, rfl⟩ := Option.map_eq_some_iff.mp hpacket
      split
      · exact .inr ⟨call, outcome, List.mem_append_right _ (List.mem_singleton.mpr rfl), hsite,
          houtcome, hsuccess, rfl⟩
      · next hsettable => exact .inl ((hopened given hgiven).resolve_left hsettable)

/-- Behind a failed research step nothing was produced. -/
theorem not_produced {call : AgentCall} {outcome : ExecutionOutcome} {t : EngineState}
    {document : Json} (hsite : call.site = .research) (houtcome : call.outcome = .ok outcome)
    (hfailed : (WorkflowEngine.outcomeResult call.request outcome).success = false)
    (hsince : Since (WorkflowEngine.called call (run.opened context)) t) :
    ¬Produced t.trace document := by
  rintro ⟨source, answer, hsource, hresearch, hanswer, hsuccess, -⟩
  obtain ⟨more, hmore, hsees⟩ := hsince.trace
  rw [hmore] at hsource
  obtain hold | hnew := List.mem_append.mp hsource
  · rw [called_research hsite hold] at hanswer hsuccess
    rw [houtcome] at hanswer
    cases hanswer
    rw [hfailed] at hsuccess
    cases hsuccess
  · exact (hsees _ hnew).1 hresearch

/-- A run leaks no research exactly when it is fresh. -/
theorem run_unleaked_iff (hresearcher : run.engine.researcher.isSome = true)
    (hcontext : Attachable context) : Attachable (run.left context).context ∧
      (Unleaked (run.left context).trace ↔ run.Fresh context) := by
  obtain ⟨researcher, hresearcher⟩ := Option.isSome_iff_exists.mp hresearcher
  have hopened : Attachable (run.opened context).context := by
    intro packet hpacket
    obtain ⟨given, hgiven, hresearch, hsettable⟩ := opened_packet hpacket
    rw [hresearch, hsettable]
    exact hcontext given hgiven
  obtain ⟨call, hsite, ⟨outcome, houtcome, hrun⟩ | ⟨stop, hrun⟩⟩ := research_run context researcher
  · have hfails := researchFails_iff hresearcher hrun
    have hcalls : ∀ other, .agent other ∈ (WorkflowEngine.called call (run.opened context)).trace →
        other.site = .research := fun other hother => by
      rw [called_research hsite hother, hsite]
    cases hsuccess : (WorkflowEngine.outcomeResult call.request outcome).success with
    | true =>
      obtain ⟨hattachable, hunleaked⟩ :=
        succeeded_left hresearcher hsite houtcome hrun hsuccess hopened
      refine ⟨hattachable, iff_of_true hunleaked fun h => ?_⟩
      have hfailed := (hfails.mp h).1
      rw [hsuccess] at hfailed
      cases hfailed
    | false =>
      cases hstage : run.world.onStage
          (failedStage (WorkflowEngine.outcomeResult call.request outcome)) with
      | none =>
        obtain ⟨hsince, planned, hmem, hplanner, hrequest⟩ :=
          failed_left hresearcher hrun hsuccess hstage
        refine ⟨hsince.context ▸ hopened, fun hunleaked _ packet hpacket => ?_, fun hfresh => ?_⟩
        · have hpassed : planned.request.context = some
              (if packet.intent.isNone ∧ packet.settable then
                { packet with intent := some WORKFLOW_INTENT } else packet) := by
            rw [hrequest]
            change (run.opened context).context = _
            rw [opened_context, hpacket]
            rfl
          have hseen := (hunleaked planned _ hmem (by rw [hplanner]; rfl) hpassed).resolve_right
            (not_produced hsite houtcome hsuccess hsince)
          split at hseen
          · exact hseen
          · exact hseen
        · refine hsince.unleaked hcalls fun packet hpacket => .inl ?_
          obtain ⟨given, hgiven, hresearch, -⟩ := opened_packet hpacket
          rw [hresearch]
          exact hfresh (hfails.mpr ⟨hsuccess, hstage⟩) given hgiven
      | some exc =>
        obtain ⟨hsame, hold⟩ := refused_left hresearcher hrun hsuccess hstage
        refine ⟨hsame ▸ hopened, iff_of_true (unleaked_of_research fun other hother =>
          hcalls other (hold other hother)) fun h => ?_⟩
        have htaken := (hfails.mp h).2
        rw [hstage] at htaken
        cases htaken
  · have hleft := raised_left hresearcher hrun
    rw [hleft]
    refine ⟨hopened, iff_of_true (unleaked_of_research fun other hother => ?_) ?_⟩
    · rw [called_research hsite hother, hsite]
    · rintro ⟨other, result, s, hother, hanswer, -⟩
      rw [hresearcher] at hother
      cases hother
      rw [hrun] at hanswer
      cases hanswer

/-- No run of a sequence leaks research exactly when every run is fresh: its
research does not fail on a context that carries some. -/
theorem across_unleaked_iff (runs : List SharedRun)
    (hresearchers : ∀ run ∈ runs, run.engine.researcher.isSome = true)
    (hcontext : Attachable context) :
    Across (fun run context => Unleaked (run.left context).trace) context runs ↔
      Across Fresh context runs := by
  induction runs generalizing context with
  | nil => exact Iff.rfl
  | cons run rest ih =>
    obtain ⟨hnext, hiff⟩ := run_unleaked_iff (hresearchers run List.mem_cons_self) hcontext
    exact and_congr hiff
      (ih (fun other hother => hresearchers other (List.mem_cons_of_mem _ hother)) hnext)

end SharedRun

/-- A run of an engine with a research agent that answers with this result. -/
def researchRun (answer : AgentResult) : SharedRun where
  engine := { gatedEngine greenGates with
    researcher := some (plainAgent "research" ["filesystem_read"]) }
  world := { greenWorld with agentRun := fun trace site =>
    if site = .research then answering answer else greenWorld.agentRun trace site }
  task := { description := "goal" }
  createBranch := false
  kanban := {}

/-- Research that found something. -/
def foundResearch : AgentResult :=
  { output := .json (.obj [("status", .str "ok"), ("summary_short", .str "use a queue")]) }

/-- Research that failed. -/
def failedResearch : AgentResult := { success := false, errors := ["no network"] }

theorem researchRun_researchers (answers : List AgentResult) :
    ∀ run ∈ answers.map researchRun, run.engine.researcher.isSome = true := by
  intro run hrun
  obtain ⟨answer, -, rfl⟩ := List.mem_map.mp hrun
  rfl

/-- A failure in front of a success leaks nothing. -/
theorem across_unleaked_failedFirst :
    SharedRun.Across (fun run context => Unleaked (run.left context).trace) (some {})
      ([failedResearch, foundResearch].map researchRun) := by
  have hcontext : Attachable (some {}) := fun packet hpacket => by
    cases hpacket
    exact .inl rfl
  have hfirst : (researchRun failedResearch).Fresh (some {}) := fun _ packet hpacket => by
    cases hpacket
    rfl
  have hsecond : (researchRun foundResearch).Fresh
      ((researchRun failedResearch).left (some {})).context := by
    intro _ packet hpacket
    have hnull : ((researchRun failedResearch).left (some {})).context.map
        (fun packet => packet.research.truthy) = some false := by decide +kernel
    rw [hpacket] at hnull
    exact Option.some.inj hnull
  exact (SharedRun.across_unleaked_iff _ (researchRun_researchers _) hcontext).mpr
    ⟨hfirst, hsecond, True.intro⟩

/-- The call of planner or developer sees research. -/
def AgentCall.seesResearch (call : AgentCall) : Bool :=
  call.site.readsResearch && call.request.context.any fun packet => packet.research.truthy

/-- The calls in a trace. -/
def callsOf (trace : List Event) : List AgentCall :=
  trace.filterMap fun e =>
    match e with
    | .agent call => some call
    | _ => none

theorem mem_callsOf {trace : List Event} {call : AgentCall} :
    call ∈ callsOf trace ↔ .agent call ∈ trace := by
  unfold callsOf
  rw [List.mem_filterMap]
  constructor
  · rintro ⟨e, hmem, he⟩
    split at he
    · cases he
      exact hmem
    · cases he
  · exact fun hmem => ⟨_, hmem, rfl⟩

/-- A failure behind a success: planner and developer of the second run see
the research of the first. -/
theorem not_unleaked_failedSecond :
    ¬SharedRun.Across (fun run context => Unleaked (run.left context).trace) (some {})
      ([foundResearch, failedResearch].map researchRun) := by
  rintro ⟨-, hunleaked, -⟩
  have hseen : (callsOf ((researchRun failedResearch).left
      ((researchRun foundResearch).left (some {})).context).trace).any AgentCall.seesResearch =
        true := by decide +kernel
  have hfailed : (callsOf ((researchRun failedResearch).left
      ((researchRun foundResearch).left (some {})).context).trace).all
        (fun call => call.site != .research || !call.succeeded) = true := by decide +kernel
  obtain ⟨call, hmem, hsees⟩ := List.any_eq_true.mp hseen
  obtain ⟨hreads, hcarries⟩ := Bool.and_eq_true_iff.mp hsees
  obtain ⟨packet, hpacket, htruthy⟩ : ∃ packet, call.request.context = some packet ∧
      packet.research.truthy = true := by
    cases hcontext : call.request.context with
    | none =>
      rw [hcontext] at hcarries
      cases hcarries
    | some packet =>
      rw [hcontext] at hcarries
      exact ⟨packet, rfl, hcarries⟩
  obtain hnone | ⟨source, outcome, hsource, hsite, houtcome, hsuccess, -⟩ :=
    hunleaked call packet (mem_callsOf.mp hmem) hreads hpacket
  · rw [htruthy] at hnone
    cases hnone
  · have hsilent := List.all_eq_true.mp hfailed source (mem_callsOf.mpr hsource)
    rw [hsite] at hsilent
    have hsucceeded : source.succeeded = true := by
      unfold AgentCall.succeeded
      rw [houtcome]
      exact hsuccess
    rw [hsucceeded] at hsilent
    cases hsilent

end AiosDeck.Workflow
