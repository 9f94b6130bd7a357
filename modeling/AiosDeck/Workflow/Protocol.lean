import AiosDeck.Workflow.Gatekeeping
import AiosDeck.Workflow.Walk

/-!
# The quality events of a run

From the start to the completion, gate by gate: each gate is started and then
either completed or blocked, and nothing but the completion follows a blocked
gate.
-/

namespace AiosDeck.Workflow

open Python Agents Security Quality Scheduler Program

/-- The quality event that was published, if it is one. -/
def Event.quality? : Event → Option QualityEvent
  | .quality event => some event
  | _ => none

/-- The quality events so far. -/
def EngineState.qualities (s : EngineState) : List QualityEvent := s.trace.filterMap Event.quality?

/-- A gate from its start to its terminal event. -/
def GateVerdict.episode (verdict : GateVerdict) : List QualityEvent :=
  [.gateStarted verdict.gate,
    if verdict.blocked then .gateBlocked verdict else .gateCompleted verdict]

/-- The word of a finished run: one episode for each gate, and only the last
of them blocked. -/
def QualityWord (environment : String) (result : WorkflowResult) (word : List QualityEvent) :
    Prop :=
  ∃ verdicts : List GateVerdict,
    word = .started environment :: verdicts.flatMap GateVerdict.episode ++
      [.completed result.success result.errors] ∧
    ∀ verdict ∈ verdicts.dropLast, verdict.blocked = false

/-- The word so far, up to these gates and what follows them. -/
structure Spoken (environment : String) (verdicts : List GateVerdict) (rest : List QualityEvent)
    (s : EngineState) : Prop where
  active : s.ctx.qualityActive = true
  word : s.qualities = .started environment :: verdicts.flatMap GateVerdict.episode ++ rest

/-- No gate was blocked so far. -/
def Open (environment : String) (s : EngineState) : Prop :=
  ∃ verdicts, Spoken environment verdicts [] s ∧ ∀ verdict ∈ verdicts, verdict.blocked = false

/-- No gate but the last was blocked so far. -/
def Said (environment : String) (s : EngineState) : Prop :=
  ∃ verdicts, Spoken environment verdicts [] s ∧ ∀ verdict ∈ verdicts.dropLast,
    verdict.blocked = false

/-- A run that returned has spoken its whole word. -/
def Complete (environment : String) : Stop → EngineState → Prop
  | .returned result, s => QualityWord environment result s.qualities
  | .raised _, _ => True

variable {environment : String} {verdicts : List GateVerdict} {rest : List QualityEvent}
  {s t : EngineState}

theorem Quiet.qualities (h : Quiet s t) : t.qualities = s.qualities := by
  unfold EngineState.qualities
  obtain hsame | ⟨e, he, happend⟩ := h.trace
  · rw [hsame]
  · have hnone : e.quality? = none := by
      cases e with
      | quality event => cases he
      | _ => rfl
    rw [happend, List.filterMap_append, List.filterMap_cons_none hnone, List.filterMap_nil,
      List.append_nil]

theorem Spoken.quiet (hs : Spoken environment verdicts rest s) (h : Quiet s t) :
    Spoken environment verdicts rest t := by
  constructor
  · rw [h.active]
    exact hs.active
  · rw [h.qualities]
    exact hs.word

/-- One more event. -/
theorem Spoken.publish (hs : Spoken environment verdicts rest s) (event : QualityEvent) :
    Spoken environment verdicts (rest ++ [event])
      { s with trace := s.trace ++ [.quality event] } := by
  refine ⟨hs.active, ?_⟩
  have hword := hs.word
  unfold EngineState.qualities at hword ⊢
  rw [List.filterMap_append, hword, List.append_assoc]
  rfl

/-- A gate that came to its end. -/
theorem Spoken.ended {verdict : GateVerdict} (hs : Spoken environment verdicts verdict.episode s) :
    Spoken environment (verdicts ++ [verdict]) [] s := by
  refine ⟨hs.active, ?_⟩
  rw [hs.word, List.flatMap_append, List.flatMap_singleton, List.append_nil]
  rfl

theorem Open.said (h : Open environment s) : Said environment s := by
  obtain ⟨verdicts, hspoken, hopen⟩ := h
  exact ⟨verdicts, hspoken, fun verdict hverdict =>
    hopen verdict (List.mem_of_mem_dropLast hverdict)⟩

theorem spoken_undisturbed :
    Undisturbed (Spoken environment verdicts rest) (Complete environment) where
  quiet _ _ h hs := hs.quiet h
  raised _ _ _ := True.intro

theorem open_undisturbed : Undisturbed (Open environment) (Complete environment) where
  quiet _ _ h hs := hs.imp fun _ hs => ⟨hs.1.quiet h, hs.2⟩
  raised _ _ _ := True.intro

theorem said_undisturbed : Undisturbed (Said environment) (Complete environment) where
  quiet _ _ h hs := hs.imp fun _ hs => ⟨hs.1.quiet h, hs.2⟩
  raised _ _ _ := True.intro

namespace WorkflowEngine

variable {engine : WorkflowEngine} {world : World}

/-- Publishing on an attached bus. -/
theorem publishQuality_spoken (hbus : engine.bus = true) (event : QualityEvent) :
    Triple (Spoken environment verdicts rest) (publishQuality engine event)
      (fun _ => Spoken environment verdicts (rest ++ [event])) (Complete environment) := by
  unfold publishQuality
  rw [if_pos hbus]
  exact Triple.modify fun s hs => hs.publish event

/-- The end of a run completes the word, with the success of its result. -/
theorem finish_complete (hbus : engine.bus = true) {α : Type} {Q : α → EngineState → Prop} :
    Triple (Said environment) (finish engine : EngineM α) Q (Complete environment) := by
  have henrich : ∀ ctx, (engine.enrichStages ctx).qualityActive = ctx.qualityActive := by
    intro ctx
    unfold enrichStages
    split
    · rfl
    · rfl
  refine Triple.bind (said_undisturbed.update henrich) fun _ => ?_
  refine Triple.bind (R := fun s t => t = s ∧ Said environment s)
    (Triple.get fun s hs => ⟨rfl, hs⟩) fun s => ?_
  refine Triple.bind (R := fun _ t => QualityWord environment (.fromContext s.ctx) t.qualities)
    ?_ fun _ => ?_
  on_goal 2 => exact Triple.throw fun t ht => ht
  rintro t ⟨rfl, verdicts, hspoken, hlast⟩
  have hpublish : publishCompleted engine t.ctx =
      publishQuality engine (.completed t.ctx.errors.isEmpty t.ctx.errors) := by
    unfold publishCompleted
    rw [if_pos hspoken.active]
  rw [hpublish]
  refine ((publishQuality_spoken hbus _).strengthen_post fun _ u hu => ?_) t hspoken
  exact ⟨verdicts, hu.word, hlast⟩

/-- A gate that was started comes to its terminal event, unless it raises. -/
theorem runConfiguredGate_spoken (hbus : engine.bus = true) (name : String) (gate : Gate)
    (input : GateInput) :
    Triple (Open environment) (runConfiguredGate engine world name gate input)
      (fun goesOn s => if goesOn then Open environment s else Said environment s)
      (Complete environment) := by
  refine Triple.fix fun s hs => ?_
  obtain ⟨verdicts, hspoken, hopen⟩ := hs
  have hstart : Triple (Spoken environment verdicts []) (publishQuality engine (.gateStarted name))
      (fun _ => Spoken environment verdicts [.gateStarted name]) (Complete environment) :=
    publishQuality_spoken hbus _
  have hrecord : ∀ evaluation, Triple (Spoken environment verdicts [.gateStarted name])
      (record (.gate name input evaluation))
      (fun _ => Spoken environment verdicts [.gateStarted name]) (Complete environment) := by
    intro evaluation
    refine Triple.modify fun t ht => ⟨ht.active, ?_⟩
    have hword := ht.word
    unfold EngineState.qualities at hword ⊢
    rw [List.filterMap_append, hword]
    exact List.append_nil _
  refine Triple.weaken_pre ?_ fun t ht => (by rw [ht]; exact hspoken :
    Spoken environment verdicts [] t)
  refine Triple.bind hstart fun _ => Triple.bind spoken_undisturbed.get fun t => ?_
  refine Triple.bind (hrecord _) fun _ => Triple.bind (spoken_undisturbed.liftPy _) fun _ => ?_
  refine Triple.ite (fun hblocked => ?_) fun hpassed => ?_
  · refine Triple.bind (R := fun _ => Said environment) ?_ fun _ => ?_
    · refine (publishQuality_spoken hbus _).strengthen_post fun _ u hu => ?_
      refine ⟨verdicts ++ [engine.gateVerdict name (evaluateGate (gate t.trace input))],
        Spoken.ended ?_, ?_⟩
      · unfold GateVerdict.episode
        rw [if_pos hblocked]
        exact hu
      · rw [List.dropLast_concat]
        exact hopen
    · refine Triple.bind (said_undisturbed.appendStage _) fun _ => ?_
      exact Triple.bind (said_undisturbed.appendError _) fun _ => Triple.pure fun _ hs => hs
  · refine Triple.bind (R := fun _ => Open environment) ?_ fun _ => ?_
    · refine (publishQuality_spoken hbus _).strengthen_post fun _ u hu => ?_
      refine ⟨verdicts ++ [engine.gateVerdict name (evaluateGate (gate t.trace input))],
        Spoken.ended ?_, ?_⟩
      · unfold GateVerdict.episode
        rw [if_neg hpassed]
        exact hu
      · intro verdict hverdict
        obtain hold | hnew := List.mem_append.mp hverdict
        · exact hopen verdict hold
        · rw [List.mem_singleton.mp hnew]
          exact Bool.eq_false_iff.mpr hpassed
    · exact Triple.bind (open_undisturbed.appendStage _) fun _ => Triple.pure fun _ hs => hs

theorem gatePhase_spoken (hbus : engine.bus = true) (name : String) (input : GateInput) :
    Triple (Open environment) (gatePhase engine world name input) (fun _ => Open environment)
      (Complete environment) := by
  refine Triple.ite (fun _ => open_undisturbed.pure _) fun _ => ?_
  refine Triple.bind (R := fun goesOn s => if goesOn then Open environment s
    else Said environment s) ?_ fun goesOn => ?_
  · unfold runGate
    split
    · exact runConfiguredGate_spoken hbus _ _ _
    · exact Triple.bind (open_undisturbed.appendStage _) fun _ => Triple.pure fun _ hs => hs
  · cases goesOn with
    | true => exact Triple.pure fun _ hs => hs
    | false => exact finish_complete hbus

/-- A call says nothing of the quality. -/
theorem open_called (call : AgentCall) (hs : Open environment s) :
    Open environment (WorkflowEngine.called call s) := by
  obtain ⟨verdicts, hspoken, hopen⟩ := hs
  refine ⟨verdicts, ⟨hspoken.active, ?_⟩, hopen⟩
  have hword := hspoken.word
  unfold EngineState.qualities at hword ⊢
  unfold WorkflowEngine.called
  rw [List.filterMap_append, hword]
  exact List.append_nil _

theorem open_walk (hbus : engine.bus = true) :
    Walk engine world (Open environment) (Complete environment) where
  toUndisturbed := open_undisturbed
  called _ call _ _ hs := open_called call hs
  gate name input := gatePhase_spoken hbus name input
  finished := (finish_complete hbus).weaken_pre fun _ hs => hs.said

/-- A run of the pipeline with active gates speaks its whole word, and ends
with a result or an exception. -/
theorem pipeline_complete (hbus : engine.bus = true)
    (hactive : (engine.gates world).isEmpty = false) (task : Task) (context : Option Context)
    (createBranch : Bool) (kanban : KanbanState) :
    Triple (fun s => s = begin engine world task context kanban)
      (pipeline engine world task createBranch) (fun _ _ => False)
      (Complete engine.environment) := by
  have hstarted : Triple (fun s => s = begin engine world task context kanban)
      (publishStarted engine world) (fun _ => Open engine.environment)
      (Complete engine.environment) := by
    unfold publishStarted publishQuality
    rw [if_neg (by rw [hactive]; exact Bool.false_ne_true), if_pos hbus]
    refine Triple.modify fun s hs => ⟨[], ⟨?_, ?_⟩, fun _ h => by cases h⟩
    · rw [hs]
      exact congrArg (!·) hactive
    · rw [hs]
      rfl
  rw [pipeline_phases]
  refine Triple.bind hstarted fun _ => Triple.bind ?_ fun _ =>
    (open_walk hbus).afterResearch task createBranch
  exact open_undisturbed.researchPhase (fun _ call hs => open_called call hs)
    (fun _ _ hs => hs.imp fun _ hs => ⟨⟨hs.1.active, hs.1.word⟩, hs.2⟩) task

/-- Every run with active gates that returns a result has published the word
of the gates, with the success of that result. -/
theorem execute_qualityWord (hbus : engine.bus = true)
    (hactive : (engine.gates world).isEmpty = false) (task : Task) (context : Option Context)
    (createBranch : Bool) (kanban : KanbanState) {result : WorkflowResult}
    (hreturned : (execute engine world task context createBranch kanban).1 = .ok result) :
    QualityWord engine.environment result
      (execute engine world task context createBranch kanban).2.qualities := by
  have hrun := pipeline_complete hbus hactive task context createBranch kanban _ rfl
  unfold execute at hreturned ⊢
  cases hp : pipeline engine world task createBranch (begin engine world task context kanban) with
  | ok value s =>
    rw [hp] at hrun
    exact hrun.elim
  | error stop s =>
    rw [hp] at hrun hreturned
    cases stop with
    | returned final =>
      cases hreturned
      exact hrun
    | raised exc => cases hreturned

end WorkflowEngine

/-- An engine with a bus whose test gate crashes. -/
def crashingEngine : WorkflowEngine :=
  { gatedEngine (("test_gate", fun _ _ => .raised ⟨.valueError, "no report"⟩) :: greenGates) with
    bus := true }

theorem qualityWord_crashingGate : ∃ result,
    (crashingEngine.execute greenWorld { description := "goal" } none true {}).1 = .ok result ∧
      QualityWord "dev" result
        (crashingEngine.execute greenWorld { description := "goal" } none true {}).2.qualities := by
  have hok : (crashingEngine.execute greenWorld { description := "goal" } none true
      {}).1.toOption.isSome = true := by decide +kernel
  cases hresult : (crashingEngine.execute greenWorld { description := "goal" } none true {}).1 with
  | ok result =>
    exact ⟨result, rfl, WorkflowEngine.execute_qualityWord rfl rfl _ _ _ _ hresult⟩
  | error exc =>
    rw [hresult] at hok
    cases hok

end AiosDeck.Workflow
