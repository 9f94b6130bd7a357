import AiosDeck.Workflow.Footprint

/-!
# Gates in front of the commit

A run asks git to stage or commit only after every required gate was
evaluated, in order, and let the run pass. What lets a run pass a gate is
decided from the severities of its findings, so a failed gate that reports
no finding at all does not stop the run.
-/

namespace AiosDeck.Workflow

open Python Agents Security Quality Scheduler Program Trace

/-- Names of the five gates, in the order of the pipeline. -/
def GATE_NAMES : List String :=
  ["code_gate", "security_gate", "test_gate", "documentation_gate", "release_gate"]

/-- The gates that a run in this environment has to pass. -/
def requiredGates (environment : String) : List String :=
  ["code_gate", "security_gate", "test_gate", "documentation_gate"] ++
    if environment = "release" then ["release_gate"] else []

/-- Git is asked to stage or to commit. -/
def Event.gitWrite : Event → Prop
  | .agent call => call.site = .stage ∨ call.site = .commit
  | _ => False

/-- The gate evaluations of a trace, by gate name. -/
def gateRuns (trace : List Event) : List (String × GateEvaluation) :=
  trace.filterMap fun
    | .gate name _ evaluation => some (name, evaluation)
    | _ => none

@[simp] theorem gateRuns_append (xs ys : List Event) :
    gateRuns (xs ++ ys) = gateRuns xs ++ gateRuns ys := List.filterMap_append

/-- Git was asked neither to stage nor to commit. -/
def NoGitWrite (s : EngineState) : Prop := ∀ e ∈ s.trace, ¬e.gitWrite

namespace WorkflowEngine

/-- An override names this gate and the environment of the engine. -/
def Overridden (engine : WorkflowEngine) (name : String) : Prop :=
  ∃ override ∈ (engine.qualityConfig.map QualityConfig.overrides).getD [],
    override.appliesTo name engine.environment = true

/-- `resolve_decision` classifies the result as `BLOCK`, overrides apart. -/
def Blocking (engine : WorkflowEngine) (name : String) (result : GateResult) : Prop :=
  (resolveDecision (result.findings.map GateFinding.severity) name engine.environment
    ((engine.qualityConfig.map QualityConfig.policy).getD []) []).decision = .block

/-- The evaluation is no error, and no failure that blocks without override. -/
def Passes (engine : WorkflowEngine) (name : String) (evaluation : GateEvaluation) : Prop :=
  (evaluateGate evaluation).status ≠ .error ∧
    ((evaluateGate evaluation).status = .failed →
      ¬(engine.Blocking name (evaluateGate evaluation) ∧ ¬engine.Overridden name))

/-- The gates of these names were evaluated, in this order, and passed;
nothing was staged or committed yet. -/
structure Gated (engine : WorkflowEngine) (names : List String) (s : EngineState) : Prop where
  order : (gateRuns s.trace).map Prod.fst = names
  passed : ∀ entry ∈ gateRuns s.trace, engine.Passes entry.1 entry.2
  noGitWrite : NoGitWrite s

variable {engine : WorkflowEngine} {world : World} {footprint : Footprint} {names : List String}

/-- Without a gate in its footprint a part of a run evaluates none. -/
theorem gateRuns_extends {s t : EngineState} (h : Extends engine world footprint s t)
    (hgates : ∀ name, ¬footprint.gates name) : gateRuns t.trace = gateRuns s.trace := by
  obtain ⟨more, heq, hmore⟩ := h.appended
  have hnone : gateRuns more = [] := by
    refine List.filterMap_eq_nil_iff.mpr fun e he => ?_
    cases e with
    | gate name input evaluation => exact absurd (hmore _ he).1 (hgates name)
    | _ => rfl
  rw [heq, gateRuns_append, hnone, List.append_nil]

/-- Without the two sites in its footprint a part of a run writes nothing. -/
theorem noGitWrite_extends {s t : EngineState} (h : Extends engine world footprint s t)
    (hs : ¬footprint.sites .stage) (hc : ¬footprint.sites .commit) (hn : NoGitWrite s) :
    NoGitWrite t := by
  intro e he hw
  rcases h.appended.mem he with hold | ⟨hwithin, -⟩
  · exact hn e hold hw
  · cases e with
    | agent call =>
      rcases hw with hsite | hsite
      · exact hs (hsite ▸ hwithin)
      · exact hc (hsite ▸ hwithin)
    | _ => exact hw

/-- A part of a run without gates and git writes keeps what was passed. -/
theorem gated_keeps {α : Type} {x : EngineM α} (h : Framed (Extends engine world footprint) x)
    (hgates : ∀ name, ¬footprint.gates name) (hs : ¬footprint.sites .stage)
    (hc : ¬footprint.sites .commit) : Keeps (Gated engine names) x := by
  refine h.keeps fun s t hext hg => ?_
  have hruns := gateRuns_extends hext hgates
  refine ⟨?_, ?_, noGitWrite_extends hext hs hc hg.noGitWrite⟩
  · rw [hruns]
    exact hg.order
  · rw [hruns]
    exact hg.passed

/-- The same for the end of a run, of which only the absence of git writes
is needed. -/
theorem gated_phase {α : Type} {x : EngineM α} (h : Framed (Extends engine world footprint) x)
    (hgates : ∀ name, ¬footprint.gates name) (hs : ¬footprint.sites .stage)
    (hc : ¬footprint.sites .commit) :
    Triple (Gated engine names) x (fun _ => Gated engine names) (fun _ => NoGitWrite) :=
  (gated_keeps h hgates hs hc).conseq (fun _ hp => hp) (fun _ _ hq => hq)
    (fun _ _ he => he.noGitWrite)

/-- Everything but staging, committing and the gates keeps what was passed. -/
theorem gated_readOnly {α : Type} {x : EngineM α}
    (h : Framed (Extends engine world Footprint.readOnly) x) :
    Triple (Gated engine names) x (fun _ => Gated engine names) (fun _ => NoGitWrite) :=
  gated_phase h (fun _ hf => hf) (fun hs => hs.1 rfl) (fun hc => hc.2 rfl)

/-- Without an override for the gate there is no reason to lift a block. -/
theorem findOverrideReason_of_not_overridden {name : String} (h : ¬engine.Overridden name) :
    findOverrideReason name engine.environment
      ((engine.qualityConfig.map QualityConfig.overrides).getD []) = "" := by
  refine findOverrideReason_eq_empty fun override hmem => ?_
  by_contra happlies
  exact h ⟨override, hmem, by simpa using happlies⟩

/-- A verdict that does not block is a pass. -/
theorem passes_of_not_blocked {name : String} {evaluation : GateEvaluation}
    (h : (engine.gateVerdict name (evaluateGate evaluation)).blocked = false) :
    engine.Passes name evaluation := by
  unfold gateVerdict at h
  cases hstatus : (evaluateGate evaluation).status with
  | error => simp [hstatus] at h
  | failed =>
    refine ⟨by simp [hstatus], fun _ => ?_⟩
    rintro ⟨hblock, hno⟩
    have hbase := resolveDecision_nil
      ((evaluateGate evaluation).findings.map GateFinding.severity) name engine.environment
      ((engine.qualityConfig.map QualityConfig.policy).getD [])
    have hreason := findOverrideReason_of_not_overridden hno
    have hblocks : (engine.resolveGate name (evaluateGate evaluation)).blocks = true :=
      (resolveDecision_blocks _ _ _ _ _).mpr ⟨hbase.symm.trans hblock, hreason⟩
    simp [hstatus, hblocks] at h
  | passed => exact ⟨by simp [hstatus], by simp [hstatus]⟩
  | skipped => exact ⟨by simp [hstatus], by simp [hstatus]⟩

/-- The trace after a gate was evaluated: its run is the last one. -/
structure Evaluated (engine : WorkflowEngine) (names : List String) (name : String)
    (evaluation : GateEvaluation) (s : EngineState) : Prop where
  runs : ∃ earlier, gateRuns s.trace = earlier ++ [(name, evaluation)] ∧
    earlier.map Prod.fst = names ∧ ∀ entry ∈ earlier, engine.Passes entry.1 entry.2
  noGitWrite : NoGitWrite s

/-- After its evaluation the rest of a gate runs no gate and no agent. -/
theorem evaluated_phase {α : Type} {x : EngineM α} {name : String} {evaluation : GateEvaluation}
    (h : Framed (Extends engine world Footprint.none) x) :
    Triple (Evaluated engine names name evaluation) x
      (fun _ => Evaluated engine names name evaluation) (fun _ => NoGitWrite) := by
  have hkeeps : Keeps (Evaluated engine names name evaluation) x := by
    refine h.keeps fun s t hext hev => ⟨?_, ?_⟩
    · rw [gateRuns_extends hext fun _ hf => hf]
      exact hev.runs
    · exact noGitWrite_extends hext (fun hf => hf) (fun hf => hf) hev.noGitWrite
  exact hkeeps.conseq (fun _ hp => hp) (fun _ _ hq => hq) (fun _ _ he => he.noGitWrite)

/-- A configured gate that lets the run go on is one more gate passed. -/
theorem runConfiguredGate_gated (name : String) (gate : Gate) (input : GateInput) :
    Triple (Gated engine names) (runConfiguredGate engine world name gate input)
      (fun goesOn s => (goesOn = true → Gated engine (names ++ [name]) s) ∧ NoGitWrite s)
      (fun _ => NoGitWrite) := by
  have hstarted : Framed (Extends engine world Footprint.none)
      (publishQuality engine (.gateStarted name)) := publishQuality_framed _
  refine (gated_phase hstarted (fun _ h => h) (fun h => h) (fun h => h)).bind fun _ => ?_
  refine Triple.fix fun s hgated => Triple.bind (R := fun t u => u = s ∧ t = s) ?_ fun t => ?_
  · exact Triple.get fun _ h => ⟨h, h⟩
  rintro _ ⟨rfl, rfl⟩
  revert hgated
  generalize gate t.trace input = evaluation
  intro hgated
  have hrecord : Triple (Gated engine names) (record (.gate name input evaluation))
      (fun _ => Evaluated engine names name evaluation) (fun _ => NoGitWrite) := by
    refine Triple.modify fun s h => ⟨⟨gateRuns s.trace, ?_, h.order, h.passed⟩, ?_⟩
    · rw [gateRuns_append]
      rfl
    · intro e he
      rcases List.mem_append.mp he with he | he
      · exact h.noGitWrite e he
      · rcases List.mem_singleton.mp he with rfl
        exact fun hw => hw
  have hrest : ∀ {α : Type} {x : EngineM α}, Framed (Extends engine world Footprint.none) x →
      Triple (Evaluated engine names name evaluation) x
        (fun _ => Evaluated engine names name evaluation) (fun _ => NoGitWrite) :=
    fun h => evaluated_phase h
  refine (hrecord.bind fun _ => (hrest (liftPy_framed _)).bind fun serialized => ?_) t hgated
  refine Triple.ite (fun _ => ?_) (fun hopen => ?_)
  · refine (hrest (publishQuality_framed _)).bind fun _ => ?_
    refine (hrest (appendStage_framed _)).bind fun _ => (hrest (appendError_framed _)).bind fun _ => ?_
    exact Triple.pure fun s h => ⟨fun hfalse => absurd hfalse Bool.false_ne_true, h.noGitWrite⟩
  · refine (hrest (publishQuality_framed _)).bind fun _ => (hrest (appendStage_framed _)).bind fun _ => ?_
    refine Triple.pure fun s h => ⟨fun _ => ?_, h.noGitWrite⟩
    obtain ⟨earlier, hruns, horder, hpassed⟩ := h.runs
    have hpasses : engine.Passes name evaluation := passes_of_not_blocked (by simpa using hopen)
    refine ⟨by simp [hruns, horder], fun entry hentry => ?_, h.noGitWrite⟩
    rw [hruns] at hentry
    rcases List.mem_append.mp hentry with hentry | hentry
    · exact hpassed entry hentry
    · rcases List.mem_singleton.mp hentry with rfl
      exact hpasses

/-- A finished run never goes on. -/
theorem finish_noGitWrite {α : Type} {Q : α → EngineState → Prop} :
    Triple NoGitWrite (finish engine : EngineM α) Q (fun _ => NoGitWrite) := by
  intro s hs
  obtain ⟨t, hrun, -, happ⟩ := finish_run (α := α) engine s
  rw [hrun]
  intro e he hw
  rcases happ.mem he with hold | ⟨event, rfl⟩
  · exact hs e hold hw
  · exact hw

/-- The phase of a configured gate: passed, or the end of the run. -/
theorem gatePhase_gated (name : String) (input : GateInput)
    (hconf : ((engine.gates world).lookup name).isSome = true) :
    Triple (Gated engine names) (gatePhase engine world name input)
      (fun _ => Gated engine (names ++ [name])) (fun _ => NoGitWrite) := by
  refine Triple.ite (fun hempty => ?_) (fun _ => ?_)
  · rw [List.isEmpty_iff.mp hempty] at hconf
    cases hconf
  · unfold runGate
    cases hlookup : (engine.gates world).lookup name with
    | none => simp [hlookup] at hconf
    | some gate =>
      refine (runConfiguredGate_gated name gate input).bind fun goesOn => ?_
      cases goesOn with
      | true => exact Triple.pure fun s h => h.1 rfl
      | false => exact finish_noGitWrite.weaken_pre fun s h => h.2

/-- What was evaluated and passed in a part of the trace. -/
def GatesPassed (engine : WorkflowEngine) (names : List String) (front : List Event) : Prop :=
  (gateRuns front).map Prod.fst = names ∧
    ∀ entry ∈ gateRuns front, engine.Passes entry.1 entry.2

/-- Whatever is written after the gates has the gates in front of it. -/
theorem before_of_gated {s t : EngineState} (hg : Gated engine names s)
    (h : Extends engine world footprint s t) (hgates : ∀ name, ¬footprint.gates name) :
    Before Event.gitWrite (GatesPassed engine names) t.trace := by
  obtain ⟨more, heq, hmore⟩ := h.appended
  rw [heq]
  refine (Before.of_none hg.noGitWrite).append fun front e rest hsplit _ => ?_
  have hnone : gateRuns front = [] := by
    refine List.filterMap_eq_nil_iff.mpr fun e' he' => ?_
    have hmem : e' ∈ more := by
      rw [hsplit]
      exact List.mem_append_left _ he'
    cases e' with
    | gate name input evaluation => exact absurd (hmore _ hmem).1 (hgates name)
    | _ => rfl
  have hruns : gateRuns (s.trace ++ front) = gateRuns s.trace := by
    rw [gateRuns_append, hnone, List.append_nil]
  refine ⟨?_, ?_⟩
  · rw [hruns]
    exact hg.order
  · rw [hruns]
    exact hg.passed

/-- Without a git write nothing needs gates in front of it. -/
theorem before_of_noGitWrite {s : EngineState} (h : NoGitWrite s) :
    Before Event.gitWrite (GatesPassed engine names) s.trace := Before.of_none h

section Run

variable (engine world)

/-- From the planner's subtasks on, every required gate is passed. -/
theorem implement_gated
    (hall : ∀ name ∈ GATE_NAMES, ((engine.gates world).lookup name).isSome = true)
    (henabled : engine.qualityConfig.isSome = true) (createBranch : Bool) (subtasks : Json) :
    Triple (Gated engine []) (implement engine world createBranch subtasks)
      (fun _ => Gated engine (requiredGates engine.environment)) (fun _ => NoGitWrite) := by
  have hcode := hall "code_gate" (by simp [GATE_NAMES])
  have hsecurity := hall "security_gate" (by simp [GATE_NAMES])
  have htest := hall "test_gate" (by simp [GATE_NAMES])
  have hdocumentation := hall "documentation_gate" (by simp [GATE_NAMES])
  have hrelease := hall "release_gate" (by simp [GATE_NAMES])
  refine (gated_readOnly (branchPhase_framed _ createBranch ⟨by simp, by simp⟩)).bind fun _ => ?_
  refine (gated_readOnly (schedulerPhase_framed _ subtasks)).bind fun items => ?_
  refine Triple.bind ((gated_readOnly (develop_framed _ items fun _ => ⟨by simp, by simp⟩)).bind fun _ =>
    gatePhase_gated "code_gate" _ hcode) fun _ => ?_
  refine (gated_readOnly (reviewerPhase_framed _ ⟨by simp, by simp⟩)).bind fun _ => ?_
  refine (gatePhase_gated "security_gate" _ hsecurity).bind fun _ => ?_
  refine (gated_readOnly (testerPhase_framed _ ⟨by simp, by simp⟩)).bind fun failed => ?_
  refine Triple.bind (Triple.get (Q := fun _ => Gated engine _) fun _ h => h) fun s => ?_
  refine (gatePhase_gated "test_gate" _ htest).bind fun _ => ?_
  refine (gated_readOnly (documentationPhase_framed _ failed ⟨by simp, by simp⟩)).bind fun _ => ?_
  refine (gatePhase_gated "documentation_gate" _ hdocumentation).bind fun _ => ?_
  by_cases henv : engine.environment = "release"
  · have hsome : engine.qualityConfig.isSome = true ∧ engine.environment = "release" :=
      ⟨henabled, henv⟩
    simp only [releasePhase, if_pos hsome, requiredGates, if_pos henv]
    exact gatePhase_gated "release_gate" _ hrelease
  · have hnone : ¬(engine.qualityConfig.isSome = true ∧ engine.environment = "release") :=
      fun h => henv h.2
    simp only [releasePhase, if_neg hnone, requiredGates, if_neg henv]
    exact Triple.pure fun s h => h

/-- The state in which a run begins has passed no gate yet. -/
theorem gated_begin (task : Task) (context : Option Context) (kanban : KanbanState) :
    Gated engine [] (begin engine world task context kanban) :=
  ⟨rfl, (fun _ h => nomatch h), (fun _ h => nomatch h)⟩

/-- In every run with the five gates configured, staging and committing come
after all required gates, evaluated in their order, none of them an error
and none a blocking failure without an override. -/
theorem commit_after_gates (engine : WorkflowEngine) (world : World) (task : Task)
    (context : Option Context) (createBranch : Bool) (kanban : KanbanState)
    (henabled : engine.qualityEnabled = true)
    (hall : ∀ name ∈ GATE_NAMES, ((engine.gates world).lookup name).isSome = true) :
    Before Event.gitWrite (GatesPassed engine (requiredGates engine.environment))
      (execute engine world task context createBranch kanban).2.trace := by
  have hsome : engine.qualityConfig.isSome = true := by
    unfold qualityEnabled at henabled
    cases hconfig : engine.qualityConfig with
    | none => simp [hconfig] at henabled
    | some config => rfl
  have hstarted : Framed (Extends engine world Footprint.readOnly) (publishStarted engine world) :=
    Framed.ite (Framed.pure _) (publishQuality_framed _)
  have hprepare : Triple (Gated engine []) (prepare engine world task createBranch)
      (fun _ => Gated engine (requiredGates engine.environment)) (fun _ => NoGitWrite) := by
    refine (gated_readOnly hstarted).bind fun _ => ?_
    refine (gated_readOnly (researchPhase_framed _ task ⟨by simp, by simp⟩)).bind fun _ => ?_
    refine (gated_readOnly (plannerPhase_framed _ task ⟨by simp, by simp⟩)).bind fun subtasks => ?_
    exact implement_gated engine world hall hsome createBranch subtasks
  have hdeliver : Triple (Gated engine (requiredGates engine.environment)) (deliver engine world)
      (fun _ s => Before Event.gitWrite (GatesPassed engine (requiredGates engine.environment)) s.trace)
      (fun _ s => Before Event.gitWrite (GatesPassed engine (requiredGates engine.environment))
        s.trace) := by
    refine Triple.of_after fun s hs => ?_
    have hframed : Framed (Extends engine world Footprint.calls) (deliver engine world) :=
      deliver_framed _ trivial trivial
    exact before_of_gated hs (hframed s) fun _ hf => hf
  have hpipeline := (hprepare.conseq (fun _ h => h) (fun _ _ h => h)
    (fun _ _ h => before_of_noGitWrite h)).bind fun _ => hdeliver
  rw [execute_state]
  exact hpipeline.after (gated_begin engine world task context kanban)

end Run

end WorkflowEngine

/-- An agent with these capabilities and default metadata. -/
def plainAgent (name : String) (permissions : List String) : Agent :=
  { name, metadata := { name }, capabilities := { permissions } }

/-- An engine with every agent that a commit needs, and these gates. -/
def gatedEngine (gates : List (String × Gate)) : WorkflowEngine where
  planner := plainAgent "planner" ["filesystem_read"]
  developer := plainAgent "developer" ["filesystem_read", "filesystem_write", "shell"]
  reviewer := plainAgent "reviewer" ["filesystem_read"]
  tester := some (plainAgent "tester" ["filesystem_read", "shell"])
  git := some (plainAgent "git" ["git"])
  scheduler := { projectId := "/project" }
  qualityConfig := some {}
  qualityGates := some gates

/-- The five gates, all green. -/
def greenGates : List (String × Gate) :=
  GATE_NAMES.map fun name => (name, fun _ _ => .returned { status := .passed })

/-- Agents that answer every attempt with this result. -/
def answering (result : AgentResult) : AgentRun where
  behaviour := fun _ => .returned result
  cancelled := fun _ => false

/-- A plan with one subtask. -/
def oneSubtask : Json := .obj [("subtasks", .arr [.obj [("description", .str "add a module")]])]

/-- Every agent succeeds, and a file under `src/` appears while they work. -/
def greenWorld : World where
  agentRun := fun _ site =>
    if site = .planner then answering { output := .json oneSubtask } else answering {}
  changedFiles := fun trace => .ok (if trace.length < 8 then [] else ["src/module.py"])

/-- Whether git was asked to commit. -/
def Event.isCommit : Event → Bool
  | .agent call => call.site == .commit
  | _ => false

/-- A run that commits behind five green gates. -/
theorem commit_after_green_gates :
    ((WorkflowEngine.execute (gatedEngine greenGates) greenWorld { description := "goal" } none
        true {}).2.trace.any Event.isCommit = true) ∧
      Before Event.gitWrite
        (WorkflowEngine.GatesPassed (gatedEngine greenGates) (requiredGates "dev"))
        (WorkflowEngine.execute (gatedEngine greenGates) greenWorld { description := "goal" } none
          true {}).2.trace :=
  ⟨by decide +kernel,
    WorkflowEngine.commit_after_gates (gatedEngine greenGates) greenWorld _ _ _ _ rfl (by decide)⟩

end AiosDeck.Workflow
