import AiosDeck.Workflow.Plans

/-!
# The board and the developer stages

The developer phase records a stage for each subtask that it works. When the
phase ends without the no-op verdict, the board and the number of completed
subtasks say the same as these stages.
-/

namespace AiosDeck.Workflow

open Python Agents Security Quality Scheduler Program KanbanState

/-- Names and outcomes of the stages that a developer recorded. -/
def developerStages (stages : List WorkflowStage) : List (String × Bool) :=
  (stages.filter fun stage => startsWith stage.name "developer:").map
    fun stage => (stage.name, stage.success)

/-- The number of completed subtasks and the developer stages. -/
def EngineState.tally (s : EngineState) : ℕ × List (String × Bool) :=
  (s.ctx.completedCount, developerStages s.ctx.stages)

/-- The stage of the subtask at this position. -/
def developerStage (index : ℕ) : String := "developer:" ++ toString (index + 1)

/-- The stages of the first subtasks, all of them successful. -/
def delivered (completed : ℕ) : List (String × Bool) :=
  (List.range completed).map fun index => (developerStage index, true)

/-- The stages do not belong to a developer, or the tally is the same. -/
def SameTally (s t : EngineState) : Prop := t.tally = s.tally

instance : Std.Refl SameTally where
  refl _ := rfl

instance : IsTrans EngineState SameTally where
  trans _ _ _ h h' := Eq.trans h' h

theorem developerStages_append (stages : List WorkflowStage) (stage : WorkflowStage) :
    developerStages (stages ++ [stage]) = developerStages stages ++
      if startsWith stage.name "developer:" then [(stage.name, stage.success)] else [] := by
  unfold developerStages
  rw [List.filter_append, List.map_append]
  by_cases hname : startsWith stage.name "developer:" = true <;> simp [hname]

/-- A change of the stages that keeps their names and outcomes. -/
theorem developerStages_map {stages : List WorkflowStage} {change : WorkflowStage → WorkflowStage}
    (h : ∀ stage, (change stage).name = stage.name ∧ (change stage).success = stage.success) :
    developerStages (stages.map change) = developerStages stages := by
  unfold developerStages
  rw [List.filter_map, List.map_map]
  have hfilter : (stages.filter ((fun stage => startsWith stage.name "developer:") ∘ change)) =
      stages.filter fun stage => startsWith stage.name "developer:" :=
    List.filter_congr fun stage _ => by simp only [Function.comp, (h stage).1]
  rw [hfilter]
  refine List.map_congr_left fun stage _ => ?_
  simp only [Function.comp, (h stage).1, (h stage).2]

theorem delivered_succ (completed : ℕ) :
    delivered (completed + 1) = delivered completed ++ [(developerStage completed, true)] := by
  unfold delivered
  rw [List.range_succ, List.map_append]
  rfl

theorem startsWith_developerStage (index : ℕ) :
    startsWith (developerStage index) "developer:" = true := by
  unfold startsWith developerStage
  rw [String.toList_append, List.isPrefixOf_iff_prefix]
  exact List.prefix_append _ _

namespace WorkflowEngine

variable {engine : WorkflowEngine} {world : World}

theorem record_tally (event : Event) : Framed SameTally (record event) :=
  Framed.modify fun _ => rfl

theorem update_tally {change : WorkflowContext → WorkflowContext}
    (h : ∀ ctx, (change ctx).completedCount = ctx.completedCount ∧ (change ctx).stages = ctx.stages) :
    Framed SameTally (update change) := by
  refine Framed.modify fun s => ?_
  unfold SameTally EngineState.tally
  rw [(h s.ctx).1, (h s.ctx).2]

theorem liftPy_tally {α : Type} (result : Except PyExc α) : Framed SameTally (liftPy result) := by
  cases result with
  | ok value => exact Framed.pure value
  | error exc => exact Framed.throw _

theorem onBoard_tally {α : Type} (operation : CardOperation) (program : KanbanM α) :
    Framed SameTally (onBoard operation program) := by
  refine (record_tally _).bind fun _ s => ?_
  unfold after
  simp only [Bind.bind, EStateM.bind, MonadState.get, getThe, MonadStateOf.get, EStateM.get]
  cases program s.kanban <;> rfl

theorem publishQuality_tally (event : QualityEvent) :
    Framed SameTally (publishQuality engine event) :=
  Framed.ite (record_tally _) (Framed.pure _)

/-- The stage of another agent. -/
theorem appendStage_tally {stage : WorkflowStage}
    (h : startsWith stage.name "developer:" = false) : Framed SameTally (appendStage world stage) := by
  refine Framed.bind (Framed.modify fun s => ?_) fun _ => (record_tally _).bind fun _ => ?_
  · unfold SameTally EngineState.tally
    rw [developerStages_append, h]
    exact congrArg (Prod.mk _) (List.append_nil _)
  · cases world.onStage stage with
    | none => exact Framed.pure _
    | some exc => exact Framed.throw _

theorem finish_tally {α : Type} : Framed SameTally (finish engine : EngineM α) := by
  have henrich : Framed SameTally (update engine.enrichStages) := by
    refine Framed.modify fun s => ?_
    unfold SameTally EngineState.tally enrichStages
    cases s.ctx.intent with
    | none => rfl
    | some intent =>
      exact congrArg (Prod.mk _) (developerStages_map (enrich_name_success intent))
  refine henrich.bind fun _ => Framed.get.bind fun s => ?_
  refine Framed.bind ?_ fun _ => Framed.throw _
  exact Framed.ite (publishQuality_tally _) (Framed.pure _)

theorem fail_tally {α : Type} {stage : WorkflowStage}
    (h : startsWith stage.name "developer:" = false) (error : String) :
    Framed SameTally (fail engine world stage error : EngineM α) :=
  (appendStage_tally h).bind fun _ =>
    Framed.bind (update_tally fun _ => ⟨rfl, rfl⟩) fun _ => finish_tally

theorem runAgent_tally (site : CallSite) (agent : Agent) (task : AgentTask)
    (context : Option Context) : Framed SameTally (runAgent engine world site agent task context) := by
  refine Framed.get.bind fun s => (record_tally _).bind fun _ => ?_
  split
  · exact Framed.pure _
  · exact Framed.throw _

theorem runAlone_tally (site : CallSite) (agent : Agent) (description taskType : String)
    (params : List (String × Json)) :
    Framed SameTally (runAlone engine world site agent description taskType params) :=
  Framed.bind (Framed.get.bind fun _ => Framed.pure _) fun _ => runAgent_tally _ _ _ _

theorem runShared_tally (site : CallSite) (agent : Agent) (description : String) (taskType : Json)
    (params : List (String × Json)) (files : List String) (correlationId : String) :
    Framed SameTally
      (runShared engine world site agent description taskType params files correlationId) :=
  Framed.bind (Framed.get.bind fun _ => Framed.pure _) fun _ =>
    Framed.get.bind fun _ => runAgent_tally _ _ _ _

theorem runGate_tally {name : String} (h : startsWith name "developer:" = false) (input : GateInput) :
    Framed SameTally (runGate engine world name input) := by
  unfold runGate
  split
  · refine (publishQuality_tally _).bind fun _ => Framed.get.bind fun s => ?_
    refine (record_tally _).bind fun _ => (liftPy_tally _).bind fun serialized => ?_
    refine Framed.ite ?_ ?_
    · refine (publishQuality_tally _).bind fun _ => (appendStage_tally h).bind fun _ => ?_
      exact Framed.bind (update_tally fun _ => ⟨rfl, rfl⟩) fun _ => Framed.pure _
    · exact (publishQuality_tally _).bind fun _ => (appendStage_tally h).bind fun _ => Framed.pure _
  · exact (appendStage_tally h).bind fun _ => Framed.pure _

theorem gatePhase_tally {name : String} (h : startsWith name "developer:" = false)
    (input : GateInput) : Framed SameTally (gatePhase engine world name input) := by
  refine Framed.ite (Framed.pure _) ((runGate_tally h input).bind fun goesOn => ?_)
  exact Framed.ite (Framed.pure _) finish_tally

theorem researchPhase_tally (task : Task) : Framed SameTally (researchPhase engine world task) := by
  have hname : startsWith "research" "developer:" = false := by decide
  unfold researchPhase
  split
  · refine Framed.get.bind fun s => (runShared_tally _ _ _ _ _ _ _).bind fun result => ?_
    refine Framed.ite ?_ (appendStage_tally hname)
    refine Framed.bind (update_tally fun _ => ⟨rfl, rfl⟩) fun _ => ?_
    refine Framed.bind (Framed.modify fun _ => rfl) fun _ => ?_
    refine (liftPy_tally _).bind fun status => (liftPy_tally _).bind fun summary => ?_
    refine (liftPy_tally _).bind fun sources => (liftPy_tally _).bind fun findings => ?_
    refine (appendStage_tally hname).bind fun _ => Framed.ite ?_ (Framed.pure _)
    refine (liftPy_tally _).bind fun _ => (liftPy_tally _).bind fun _ => ?_
    exact (liftPy_tally _).bind fun _ => record_tally _
  · exact Framed.pure _

theorem plannerPhase_tally (task : Task) : Framed SameTally (plannerPhase engine world task) := by
  have hname : startsWith "planner" "developer:" = false := by decide
  refine (runShared_tally _ _ _ _ _ _ _).bind fun result => Framed.ite ?_ (fail_tally hname _)
  refine (liftPy_tally _).bind fun plan => Framed.bind (update_tally fun _ => ⟨rfl, rfl⟩) fun _ => ?_
  refine (liftPy_tally _).bind fun subtasks => (liftPy_tally _).bind fun count => ?_
  refine Framed.bind (update_tally fun _ => ⟨rfl, rfl⟩) fun _ => ?_
  exact (appendStage_tally hname).bind fun _ => Framed.pure _

theorem branchPhase_tally (createBranch : Bool) :
    Framed SameTally (branchPhase engine world createBranch) := by
  have hname : startsWith "git" "developer:" = false := by decide
  unfold branchPhase
  split
  · refine Framed.get.bind fun s => (runAlone_tally _ _ _ _ _).bind fun result => ?_
    refine (liftPy_tally _).bind fun error => Framed.ite ?_ (fail_tally hname _)
    exact (appendStage_tally hname).bind fun _ => update_tally fun _ => ⟨rfl, rfl⟩
  · exact appendStage_tally hname

theorem createCards_tally (boardId : ℕ) (subtasks : List Json) :
    Framed SameTally (createCards engine boardId subtasks) := by
  induction subtasks with
  | nil => exact Framed.pure _
  | cons subtask rest ih =>
    refine (liftPy_tally _).bind fun title => (onBoard_tally _ _).bind fun card => ?_
    exact Framed.bind (update_tally fun _ => ⟨rfl, rfl⟩) fun _ => ih

theorem schedulerPhase_tally (subtasks : Json) :
    Framed SameTally (schedulerPhase engine world subtasks) := by
  refine Framed.get.bind fun s => (onBoard_tally _ _).bind fun board => ?_
  refine Framed.bind (update_tally fun _ => ⟨rfl, rfl⟩) fun _ => (liftPy_tally _).bind fun items => ?_
  refine (createCards_tally _ _).bind fun _ => ?_
  exact (appendStage_tally (by decide)).bind fun _ => Framed.pure _

theorem changedFiles_tally : Framed SameTally (changedFiles world) :=
  Framed.get.bind fun _ => (record_tally _).bind fun _ => Framed.pure _

/-- What the tally is after a run that does not raise. -/
def Tallies (tally : ℕ × List (String × Bool)) (s : EngineState) : Prop := s.tally = tally

/-- A program that keeps the tally, as a triple. -/
theorem keeps_tally {α : Type} {x : EngineM α} (h : Framed SameTally x)
    (tally : ℕ × List (String × Bool)) : Keeps (Tallies tally) x :=
  h.keeps fun _ _ ht hs => Eq.trans ht hs

/-- The exit of a failing subtask at some position. -/
def FailedStage : EngineState → Prop :=
  fun s => ∃ k, s.tally = (k, delivered k ++ [(developerStage k, false)])

/-- The stage of a developer is added to the tally. -/
theorem appendStage_developer (world : World) (index : ℕ) {stage : WorkflowStage}
    (h : stage.name = developerStage index) (completed : ℕ) (stages : List (String × Bool)) :
    Triple (Tallies (completed, stages)) (appendStage world stage)
      (fun _ => Tallies (completed, stages ++ [(developerStage index, stage.success)]))
      (Stopped False (fun _ => False) fun _ => True) := by
  refine Triple.bind (R := fun _ =>
    Tallies (completed, stages ++ [(developerStage index, stage.success)])) ?_ fun _ => ?_
  · refine Triple.modify fun s hs => ?_
    obtain ⟨hcompleted, hstages⟩ := Prod.mk.inj hs
    refine Prod.ext hcompleted ?_
    change developerStages (s.ctx.stages ++ [stage]) = _
    rw [developerStages_append, h, startsWith_developerStage, if_pos rfl, hstages]
  · refine Triple.bind (R := fun _ =>
      Tallies (completed, stages ++ [(developerStage index, stage.success)])) ?_ fun _ => ?_
    · exact Triple.modify fun _ hs => hs
    · cases world.onStage stage with
      | none => exact Triple.pure fun _ hs => hs
      | some exc => exact Triple.throw fun _ _ => ⟨id, trivial⟩

/-- A program that does not end the run with a result. -/
def GoesOn {α : Type} (x : EngineM α) : Prop :=
  Triple (fun _ => True) x (fun _ _ => True) (Stopped False (fun _ => False) fun _ => True)

theorem liftPy_goesOn {α : Type} (result : Except PyExc α) : GoesOn (liftPy result) := by
  cases result with
  | ok value => exact Triple.pure fun _ _ => trivial
  | error exc => exact Triple.throw fun _ _ => ⟨id, trivial⟩

theorem onBoard_goesOn {α : Type} (operation : CardOperation) (program : KanbanM α) :
    GoesOn (onBoard operation program) := by
  refine Triple.bind (R := fun _ _ => True) (Triple.modify fun _ _ => trivial) fun _ s _ => ?_
  simp only [Bind.bind, EStateM.bind, MonadState.get, getThe, MonadStateOf.get, EStateM.get]
  cases program s.kanban with
  | ok value kanban => trivial
  | error exc kanban => exact ⟨id, trivial⟩

theorem runShared_goesOn (site : CallSite) (agent : Agent) (description : String) (taskType : Json)
    (params : List (String × Json)) (files : List String) (correlationId : String) :
    GoesOn (runShared engine world site agent description taskType params files correlationId) := by
  refine Triple.bind (R := fun _ _ => True) (Triple.bind (R := fun _ _ => True)
    (Triple.get fun _ _ => trivial) fun _ => Triple.pure fun _ _ => trivial) fun task => ?_
  refine Triple.bind (R := fun _ _ => True) (Triple.get fun _ _ => trivial) fun s => ?_
  refine Triple.bind (R := fun _ _ => True) (Triple.get fun _ _ => trivial) fun t => ?_
  refine Triple.bind (R := fun _ _ => True) (Triple.modify fun _ _ => trivial) fun _ => ?_
  split
  · exact Triple.pure fun _ _ => trivial
  · exact Triple.throw fun _ _ => ⟨id, trivial⟩

/-- A run that is finished keeps the tally and does not go on. -/
theorem finish_stopped {α : Type} (tally : ℕ × List (String × Bool))
    {Q : α → EngineState → Prop} :
    Triple (Tallies tally) (finish engine : EngineM α) Q
      (Stopped False (Tallies tally) fun _ => True) := by
  intro s hs
  obtain ⟨t, hrun, -⟩ := finish_run (α := α) engine s
  have hframed : Framed SameTally (finish engine : EngineM α) := finish_tally
  have hkeeps := keeps_tally hframed tally s hs
  rw [hrun] at hkeeps ⊢
  exact hkeeps

/-- A step in front of the rest keeps the tally. -/
theorem GoesOn.then {α β : Type} {x : EngineM α} {f : α → EngineM β} (hx : GoesOn x)
    (hframed : Framed SameTally x) {tally : ℕ × List (String × Bool)}
    {Q : β → EngineState → Prop} {G : EngineState → Prop}
    (hf : ∀ value, Triple (Tallies tally) (f value) Q (Stopped False G fun _ => True)) :
    Triple (Tallies tally) (x >>= f) Q (Stopped False G fun _ => True) := by
  refine Triple.bind ((hx.and (keeps_tally hframed tally)).conseq (fun _ hs => ⟨trivial, hs⟩)
    (fun _ _ hs => hs.2) ?_) hf
  rintro stop s ⟨hstop, -⟩
  cases stop with
  | returned result => exact hstop.elim
  | raised exc => exact ⟨id, trivial⟩

/-- One subtask adds one stage, and completes the subtask if it is successful. -/
theorem developSubtask_tally (total k : ℕ) (subtask : Json) :
    Triple (Tallies (k, delivered k)) (developSubtask engine world total k subtask)
      (fun _ => Tallies (k + 1, delivered (k + 1)))
      (Stopped False FailedStage fun _ => True) := by
  refine Triple.bind (R := fun _ => Tallies (k, delivered k)) (Triple.get fun _ hs => hs) fun s => ?_
  split
  · exact Triple.throw fun _ _ => ⟨id, trivial⟩
  refine (onBoard_goesOn _ _).then (onBoard_tally _ _) fun _ => ?_
  refine (liftPy_goesOn _).then (liftPy_tally _) fun description => ?_
  refine (liftPy_goesOn _).then (liftPy_tally _) fun taskType => ?_
  split
  · refine (runShared_goesOn _ _ _ _ _ _ _).then (runShared_tally _ _ _ _ _ _ _) fun result => ?_
    refine Triple.ite (fun _ => ?_) fun _ => ?_
    · refine (onBoard_goesOn _ _).then (onBoard_tally _ _) fun _ => ?_
      refine Triple.bind (R := fun _ => Tallies (k + 1, delivered k)) ?_ fun _ => ?_
      · refine Triple.modify fun s hs => ?_
        obtain ⟨hcompleted, hstages⟩ := Prod.mk.inj hs
        exact Prod.ext (congrArg (· + 1) hcompleted) hstages
      · rw [delivered_succ]
        refine (appendStage_developer world k rfl (k + 1) (delivered k)).conseq
          (fun _ hs => hs) (fun _ _ hs => hs) (Stopped.mono (fun _ h => h.elim) fun _ hs => hs)
    · refine (onBoard_goesOn _ _).then (onBoard_tally _ _) fun _ => ?_
      refine Triple.bind (R := fun _ => Tallies (k, delivered k ++ [(developerStage k, false)]))
        ?_ fun _ => ?_
      · refine (appendStage_developer world k rfl k (delivered k)).conseq
          (fun _ hs => hs) (fun _ _ hs => hs) (Stopped.mono (fun _ h => h.elim) fun _ hs => hs)
      · refine Triple.bind (R := fun _ => Tallies (k, delivered k ++ [(developerStage k, false)]))
          (Triple.modify fun _ hs => hs) fun _ => ?_
        refine (finish_stopped _).conseq (fun _ hs => hs) (fun _ _ hs => hs)
          (Stopped.mono (fun s hs => ⟨k, hs⟩) fun _ hs => hs)
  · exact Triple.throw fun _ _ => ⟨id, trivial⟩

/-- The subtasks from position `k` on add their stages in order. -/
theorem developSubtasks_tally (total k : ℕ) (rest : List Json) :
    Triple (Tallies (k, delivered k)) (developSubtasks engine world total k rest)
      (fun _ => Tallies (k + rest.length, delivered (k + rest.length)))
      (Stopped False FailedStage fun _ => True) := by
  induction rest generalizing k with
  | nil => exact Triple.pure fun _ hs => hs
  | cons subtask rest ih =>
    have hnext := ih (k + 1)
    rw [Nat.add_right_comm] at hnext
    exact (developSubtask_tally total k subtask).bind fun _ => hnext

/-- The no-op verdict was recorded. -/
def NoopRecorded (s : EngineState) : Prop := ∃ stage ∈ s.ctx.stages, stage.name = "developer:noop"

/-- The no-op check keeps the tally, or records its verdict and ends the run. -/
theorem noopPhase_tally (before : List String) (tally : ℕ × List (String × Bool)) :
    Triple (Tallies tally) (noopPhase engine world before) (fun _ => Tallies tally)
      (Stopped False NoopRecorded fun _ => True) := by
  have hblock : ∀ cards reason, GoesOn (blockLast engine cards reason) := by
    intro cards reason
    unfold blockLast
    split
    · exact Triple.bind (onBoard_goesOn _ _) fun _ => Triple.pure fun _ _ => trivial
    · exact Triple.pure fun _ _ => trivial
  have hchanged : GoesOn (changedFiles world) :=
    Triple.bind (R := fun _ _ => True) (Triple.get fun _ _ => trivial) fun _ =>
      Triple.bind (R := fun _ _ => True) (Triple.modify fun _ _ => trivial) fun _ =>
        Triple.pure fun _ _ => trivial
  refine Triple.ite (fun _ => ?_) fun _ => Triple.pure fun _ hs => hs
  refine hchanged.then changedFiles_tally fun after => ?_
  refine Triple.bind (R := fun _ => Tallies tally) ?_ fun _ => ?_
  · refine Triple.modify fun s hs => ?_
    have hmap : developerStages (s.ctx.stages.map (withFiles (computeProducedFiles before after))) =
        developerStages s.ctx.stages := by
      refine developerStages_map fun stage => ?_
      unfold withFiles
      split <;> exact ⟨rfl, rfl⟩
    obtain ⟨hcompleted, hstages⟩ := Prod.mk.inj hs
    exact Prod.ext hcompleted (hmap.trans hstages)
  refine Triple.bind (R := fun _ => Tallies tally) (Triple.get fun _ hs => hs) fun s => ?_
  refine Triple.ite (fun _ => ?_) fun _ => Triple.pure fun _ hs => hs
  refine Triple.bind (R := fun _ _ => True) ((hblock _ _).conseq (fun _ _ => trivial)
    (fun _ _ hs => hs) (Stopped.mono (fun _ h => h.elim) fun _ hs => hs)) fun _ => ?_
  refine (fail_recorded _ _).conseq (fun _ hs => hs) (fun _ _ hs => hs) ?_
  intro stop t hrecorded
  cases stop with
  | returned result => exact hrecorded result rfl
  | raised exc => exact ⟨id, trivial⟩

end WorkflowEngine

/-- The board and the stages tell one story about the subtasks. The first
cards are done and green, as many as were completed; the next one, when there
is one, is the card of the failing subtask, in progress and blocked; the
others are as they were created. -/
structure Mirrors (projectId : String) (items : List Json) (s : EngineState) : Prop where
  board : ∃ board, s.ctx.board = some board ∧
    s.ctx.cards.map KanbanCard.id = (s.kanban.cardsOf board.id).map KanbanCard.id ∧
    items.map (fun subtask => subtask.item "description") =
      (s.kanban.cardsOf board.id).map (fun card => .ok card.title) ∧
    ∀ k card, (s.kanban.cardsOf board.id)[k]? = some card →
      (k < s.ctx.completedCount →
        card.column = .done ∧ card.tddGate = true ∧ card.blocked = false) ∧
      (k = s.ctx.completedCount →
        card.column = .inProgress ∧ card.blocked = true ∧ card.tddGate = false) ∧
      (s.ctx.completedCount < k → IsFresh projectId card)
  stages : developerStages s.ctx.stages = delivered s.ctx.completedCount ++
    if s.ctx.completedCount < items.length then [(developerStage s.ctx.completedCount, false)] else []
  bound : s.ctx.completedCount ≤ items.length

section Mirrors

variable {projectId : String} {items : List Json} {fresh : List KanbanCard} {s : EngineState}

/-- The rows that the developer completed, and the others. -/
theorem mirrored_row (hfresh : ∀ card ∈ fresh, IsFresh projectId card) {completed k : ℕ}
    {card : KanbanCard} (h : (mirrored fresh completed)[k]? = some card) :
    (k < completed → card.column = .done ∧ card.tddGate = true ∧ card.blocked = false) ∧
      (completed ≤ k → IsFresh projectId card) := by
  rw [mirrored, List.getElem?_mapIdx] at h
  obtain ⟨row, hrow, rfl⟩ := Option.map_eq_some_iff.mp h
  have hrowFresh := hfresh row (List.mem_of_getElem? hrow)
  constructor
  · intro hlt
    rw [if_pos hlt, hrowFresh]
    exact ⟨rfl, rfl, rfl⟩
  · intro hle
    rw [if_neg (by omega)]
    exact hrowFresh

theorem mirrors_delivered (hfresh : ∀ card ∈ fresh, IsFresh projectId card)
    (h : OnRows projectId items (mirrored fresh items.length) items.length items.length s)
    (htally : s.tally = (items.length, delivered items.length)) : Mirrors projectId items s := by
  obtain ⟨K, board, cards, hboarded, hshows⟩ := h
  obtain ⟨hcompleted, hstages⟩ := Prod.mk.inj htally
  have hrows : s.kanban.cardsOf board.id = mirrored fresh items.length := by
    rw [hshows.tables.cardsOf_eq, hboarded.stands]
  have hlength : (mirrored fresh items.length).length = items.length := by
    have htitles := congrArg List.length hboarded.titles
    rw [List.length_map, List.length_map] at htitles
    exact htitles.symm
  refine ⟨⟨board, hshows.board, ?_, ?_, fun k card hcard => ?_⟩, ?_, hcompleted.le⟩
  · rw [hshows.cards, hrows, hboarded.ids]
  · rw [hrows, hboarded.titles]
  · rw [hrows] at hcard
    have hk := (List.getElem?_eq_some_iff.mp hcard).1
    rw [hlength] at hk
    rw [hcompleted]
    exact ⟨fun _ => (mirrored_row hfresh hcard).1 hk, fun heq => by omega, fun hlt => by omega⟩
  · rw [hstages, hcompleted, if_neg (lt_irrefl _), List.append_nil]

theorem mirrors_failed (hfresh : ∀ card ∈ fresh, IsFresh projectId card)
    (h : Failed projectId items fresh s) (htally : WorkflowEngine.FailedStage s) :
    Mirrors projectId items s := by
  obtain ⟨k, hk, K, board, cards, hboarded, hshows⟩ := h
  obtain ⟨k', htally⟩ := htally
  obtain ⟨hcompleted, hstages⟩ := Prod.mk.inj htally
  obtain rfl : k = k' := hshows.completed.symm.trans hcompleted
  have hrows : s.kanban.cardsOf board.id = (mirrored fresh k).modify k failing := by
    rw [hshows.tables.cardsOf_eq, hboarded.stands]
  refine ⟨⟨board, hshows.board, ?_, ?_, fun position card hcard => ?_⟩, ?_, ?_⟩
  · rw [hshows.cards, hrows, hboarded.ids]
  · rw [hrows, hboarded.titles]
  · rw [hrows, List.getElem?_modify] at hcard
    obtain ⟨row, hrow, heq⟩ := Option.map_eq_some_iff.mp hcard
    have hmirrored := mirrored_row hfresh hrow
    rw [hcompleted]
    refine ⟨fun hlt => ?_, fun hsame => ?_, fun hlt => ?_⟩
    · rw [if_neg (by omega)] at heq
      rw [← heq]
      exact hmirrored.1 hlt
    · rw [if_pos hsame.symm, hmirrored.2 hsame.ge] at heq
      rw [← heq]
      exact ⟨rfl, rfl, rfl⟩
    · rw [if_neg (by omega)] at heq
      rw [← heq]
      exact hmirrored.2 hlt.le
  · rw [hstages, hcompleted, if_pos hk]
  · rw [hcompleted]
    exact hk.le

end Mirrors

namespace WorkflowEngine

variable {engine : WorkflowEngine} {world : World}

/-- The run in front of the scheduler: the subtasks of the plan. -/
def planned (engine : WorkflowEngine) (world : World) (task : Task) (createBranch : Bool) :
    EngineM Json := do
  publishStarted engine world
  researchPhase engine world task
  let subtasks ← plannerPhase engine world task
  branchPhase engine world createBranch
  return subtasks

/-- The scheduler and the developer phase. -/
def worked (engine : WorkflowEngine) (world : World) (subtasks : Json) : EngineM Unit := do
  let items ← schedulerPhase engine world subtasks
  developerPhase engine world items

/-- The two are the first part of a run. -/
theorem pipeline_eq (engine : WorkflowEngine) (world : World) (task : Task) (createBranch : Bool) :
    ∃ rest : EngineM Unit, pipeline engine world task createBranch =
      planned engine world task createBranch >>= fun subtasks =>
        worked engine world subtasks >>= fun _ => rest := by
  refine ⟨do
    reviewerPhase engine world
    gatePhase engine world "security_gate" { projectPath := some engine.projectPath }
    let failed ← testerPhase engine world
    let s ← get
    gatePhase engine world "test_gate" { testReport := s.ctx.testReport }
    documentationPhase engine world failed
    gatePhase engine world "documentation_gate" { projectPath := some engine.projectPath }
    releasePhase engine world
    deliver engine world, ?_⟩
  simp only [pipeline, prepare, implement, planned, worked, bind_assoc, pure_bind]

/-- In front of the scheduler there is no board and no developer stage. -/
theorem planned_start {task : Task} {context : Option Context} {createBranch : Bool}
    {kanban : KanbanState} (hkanban : kanban.Sequenced) {subtasks : Json} {s : EngineState}
    (h : planned engine world task createBranch (begin engine world task context kanban) =
      .ok subtasks s) : Unboarded s ∧ Tallies (0, []) s := by
  have hstart : Holding False Unboarded (begin engine world task context kanban) :=
    ⟨⟨rfl, rfl, rfl, rfl, hkanban⟩, fun h => h.elim⟩
  have hframed : Framed SameTally (planned engine world task createBranch) := by
    refine Framed.bind (Framed.ite (Framed.pure _) (publishQuality_tally _)) fun _ => ?_
    refine (researchPhase_tally task).bind fun _ => (plannerPhase_tally task).bind fun subtasks => ?_
    exact (branchPhase_tally createBranch).bind fun _ => Framed.pure _
  have hcalm : Triple (Holding False Unboarded) (planned engine world task createBranch)
      (fun _ => Holding False Unboarded) (Ending False Unboarded) := by
    have hnone : False → Conforming engine world := fun h => h.elim
    refine Triple.bind (R := fun _ => Holding False Unboarded)
      (Calm.ite (fun _ => Calm.pure _) fun _ => Calm.publishQuality unboarded_onBoard _) fun _ => ?_
    refine Triple.bind (researchPhase_calm unboarded_onBoard hnone task) fun _ => ?_
    have hplans : False → world.Plans .null ∧ WellFormed .null := fun h => h.elim
    refine Triple.bind (plannerPhase_run hnone hplans task) fun subtasks => ?_
    refine Triple.bind (R := fun _ => Holding False Unboarded) ?_ fun _ => Triple.pure fun _ hs => hs
    exact (branchPhase_calm unboarded_onBoard hnone createBranch).weaken_pre fun _ hs => hs.2
  have htally : Tallies (0, []) (begin engine world task context kanban) := rfl
  exact ⟨(hcalm.of_ok hstart h).1, (keeps_tally hframed (0, [])).of_ok htally h⟩

/-- However the developers fare, the phase ends with the board as its stages say. -/
theorem worked_mirrors (hstore : engine.scheduler.fault = fun _ => none) (subtasks : Json) :
    Triple (fun s => Unboarded s ∧ Tallies (0, []) s) (worked engine world subtasks)
      (fun _ s => ∃ items, subtasks.iter = .ok items ∧ Mirrors engine.scheduler.projectId items s)
      (Stopped False (fun s => NoopRecorded s ∨ ∃ items, subtasks.iter = .ok items ∧
        Mirrors engine.scheduler.projectId items s) fun _ => True) := by
  have hnone : False → Conforming engine world := fun h => h.elim
  have hrows : Triple (Holding False Unboarded) (schedulerPhase engine world subtasks) _ _ :=
    schedulerPhase_run hnone hstore fun h => h.elim
  have hkept : Keeps (Tallies (0, [])) (schedulerPhase engine world subtasks) :=
    keeps_tally (schedulerPhase_tally subtasks) (0, [])
  refine Triple.bind ((hrows.and hkept).conseq (fun _ hs => ⟨⟨hs.1, fun h => h.elim⟩, hs.2⟩)
    (fun _ _ hs => hs) ?_) fun items => ?_
  · rintro stop s ⟨hstop, -⟩
    cases stop with
    | returned result => exact hstop.elim
    | raised exc => exact ⟨id, trivial⟩
  rintro s ⟨⟨hitems, ⟨board, K, cards, fresh, hfresh, hboarded, hshows⟩, -⟩, htally⟩
  have hbacklog : ∀ card ∈ fresh, card.column = .backlog := fun card hcard => (hfresh card hcard).backlog
  have hends : ∀ t, Mirrors engine.scheduler.projectId items t →
      ∃ items, subtasks.iter = .ok items ∧ Mirrors engine.scheduler.projectId items t :=
    fun t ht => ⟨items, hitems, ht⟩
  have hfiles : Triple (fun s => Holding False (OnRows engine.scheduler.projectId items fresh 0 0) s ∧
        Tallies (0, delivered 0) s) (filesBefore engine world)
      (fun _ s => Holding False (OnRows engine.scheduler.projectId items fresh 0 0) s ∧
        Tallies (0, delivered 0) s) (Stopped False (fun _ => False) fun _ => True) := by
    refine Triple.ite (fun _ => ?_) fun _ => Triple.pure fun _ hs => hs
    refine ((changedFiles_goesOn (onRows_onBoard _ items fresh 0 0) (E := fun _ _ => False)).and
      (keeps_tally changedFiles_tally _)).conseq (fun _ hs => hs) (fun _ _ hs => hs) ?_
    exact fun stop s hs => hs.1.elim
  have hstages : Triple (Tallies (0, delivered 0))
      (developSubtasks engine world items.length 0 items) _ _ :=
    developSubtasks_tally items.length 0 items
  have hsubtasks := (developSubtasks_run hnone hstore hbacklog items.length items 0
    List.drop_zero (fun h => h.elim) (Nat.zero_le _)).and hstages
  rw [mirrored_zero, Nat.zero_add] at hsubtasks
  have hdevelop : Triple (fun s =>
        Holding False (OnRows engine.scheduler.projectId items fresh 0 0) s ∧
          Tallies (0, delivered 0) s) (developerPhase engine world items)
      (fun _ s => ∃ items, subtasks.iter = .ok items ∧ Mirrors engine.scheduler.projectId items s)
      (Stopped False (fun s => NoopRecorded s ∨ ∃ items, subtasks.iter = .ok items ∧
        Mirrors engine.scheduler.projectId items s) fun _ => True) := by
    refine Triple.bind (R := fun _ s => Holding False (OnRows engine.scheduler.projectId items
      (mirrored fresh items.length) items.length items.length) s ∧
        Tallies (items.length, delivered items.length) s) ?_ fun _ => ?_
    · refine Triple.bind (hfiles.conseq (fun _ hs => hs) (fun _ _ hs => hs)
        (Stopped.mono (fun _ h => h.elim) fun _ hs => hs)) fun before => ?_
      refine Triple.bind (hsubtasks.conseq (fun _ hs => hs) (fun _ _ hs => hs) ?_) fun _ => ?_
      · rintro stop t ⟨hrows, hstages⟩
        cases stop with
        | returned result => exact .inr (hends t (mirrors_failed hfresh hrows hstages))
        | raised exc => exact ⟨id, trivial⟩
      · refine ((noopPhase_run hnone hstore before).and (noopPhase_tally before _)).conseq
          (fun _ hs => hs) (fun _ _ hs => hs) ?_
        rintro stop t ⟨-, hnoop⟩
        cases stop with
        | returned result => exact .inl hnoop
        | raised exc => exact ⟨id, trivial⟩
    · refine ((gatePhase_calm (onRows_onBoard _ items _ _ _) hnone "code_gate" _).and
        (keeps_tally (gatePhase_tally (by decide) _) _)).conseq (fun _ hs => hs) ?_ ?_
      · exact fun _ t ht => hends t (mirrors_delivered hfresh ht.1.1 ht.2)
      · rintro stop t ⟨hrows, htally⟩
        cases stop with
        | returned result => exact .inr (hends t (mirrors_delivered hfresh hrows htally))
        | raised exc => exact ⟨id, trivial⟩
  exact hdevelop s ⟨⟨⟨K, board, cards, hboarded, hshows⟩, fun h => h.elim⟩, htally⟩

end WorkflowEngine

/-- What is known when the developer phase ended in this way: the no-op
verdict, or a board that mirrors the stages. Nothing, when it raised. -/
def EndsMirrored (projectId : String) (subtasks : Json) :
    EStateM.Result Stop EngineState Unit → Prop
  | .ok _ s | .error (.returned _) s =>
    WorkflowEngine.NoopRecorded s ∨ ∃ items, subtasks.iter = .ok items ∧ Mirrors projectId items s
  | .error (.raised _) _ => True

/-- In every run that reaches the scheduler with these subtasks, the
developer phase ends with the no-op verdict or with a board as its stages say. -/
theorem developerPhase_mirrors (engine : WorkflowEngine) (world : World) (task : Task)
    (context : Option Context) (createBranch : Bool) {kanban : KanbanState}
    (hkanban : kanban.Sequenced) (hstore : engine.scheduler.fault = fun _ => none)
    {subtasks : Json} {s : EngineState}
    (hplanned : engine.planned world task createBranch (engine.begin world task context kanban) =
      .ok subtasks s) :
    EndsMirrored engine.scheduler.projectId subtasks (engine.worked world subtasks s) := by
  have htriple : Triple _ (engine.worked world subtasks) _ _ :=
    WorkflowEngine.worked_mirrors hstore subtasks
  have hworked := htriple s (WorkflowEngine.planned_start hkanban hplanned)
  cases hrun : engine.worked world subtasks s with
  | ok value t =>
    rw [hrun] at hworked
    exact .inr hworked
  | error stop t =>
    rw [hrun] at hworked
    cases stop with
    | returned result => exact hworked
    | raised exc => trivial

/-- Two subtasks, of which the second developer fails. -/
def halfWorld : World where
  agentRun := fun _ site =>
    match site with
    | .planner => answering { output := .json (.obj [("subtasks", .arr
        [.obj [("description", .str "first")], .obj [("description", .str "second")]])]) }
    | .developer 1 => answering { success := false }
    | _ => answering {}

theorem developerPhase_mirrors_half : ∃ subtasks s,
    bareEngine.planned halfWorld { description := "goal" } false
      (bareEngine.begin halfWorld { description := "goal" } none {}) = .ok subtasks s ∧
    EndsMirrored "/project" subtasks (bareEngine.worked halfWorld subtasks s) := by
  have hok : (match bareEngine.planned halfWorld { description := "goal" } false
      (bareEngine.begin halfWorld { description := "goal" } none {}) with
    | .ok _ _ => true
    | .error _ _ => false) = true := by decide
  cases hplanned : bareEngine.planned halfWorld { description := "goal" } false
      (bareEngine.begin halfWorld { description := "goal" } none {}) with
  | ok subtasks s =>
    exact ⟨subtasks, s, rfl, developerPhase_mirrors bareEngine halfWorld { description := "goal" }
      none false Sequenced.empty rfl hplanned⟩
  | error stop s =>
    rw [hplanned] at hok
    cases hok

end AiosDeck.Workflow
