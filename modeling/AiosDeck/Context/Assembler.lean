import AiosDeck.Context.Budgeting
import AiosDeck.Skills.Retrieval

/-!
# The context assembler

A collector for each kind of layer; one that fails has no layers. The layers are ordered,
deduplicated and fitted into the budget of the agent, and those that were retrieved keep the
trace of their source.
-/

namespace AiosDeck.Context

open Python Retrieval Selection

section Packet

/-- `ProjectKnowledge`, by the texts that a prompt shows. -/
structure ProjectKnowledge where
  /-- The rules of the conventions. -/
  conventions : List Text := []
  /-- The titles of the decisions. -/
  decisions : List Text := []
  /-- The names of the patterns. -/
  patterns : List Text := []
  /-- The descriptions of the mistakes. -/
  mistakes : List Text := []

/-- `ProjectKnowledge.is_empty`. -/
def ProjectKnowledge.isEmpty (k : ProjectKnowledge) : Bool :=
  k.conventions.isEmpty && k.decisions.isEmpty && k.patterns.isEmpty && k.mistakes.isEmpty

/-- What layers and prompts read of a `ContextPacket`. -/
structure ContextPacket extends Skills.ContextPacket where
  root : Text := []
  gitBranch : Text := []
  gitStatus : Text := "unknown".toList
  skills : List Text := []
  memory : Option ProjectKnowledge := none
  research : Json := .null

/-- `text or default`. -/
def orText (text : Text) (default : String) : Text := if text = [] then default.toList else text

/-- The summary of the research: `[]` where there is none. -/
def ContextPacket.summary (packet : ContextPacket) : Except PyExc Json :=
  if packet.research.truthy then packet.research.getD "summary_short" (.str "") else .ok (.str "")

end Packet

section Collectors

/-- The trace of a retrieved layer. -/
structure LayerTrace where
  sourceId : Text
  sourcePath : Text
  score : PyFloat
  position : ℕ

/-- A layer with its trace. -/
structure TracedLayer where
  layer : Layer
  trace : Option LayerTrace := none

/-- A layer whose tokens are its words. -/
def wordLayer (type : LayerType) (content source : Text) (guardrail : Bool) : TracedLayer :=
  { layer := { type, content, source, guardrail, tokens := (words content).length } }

/-- `_build_project_layers`. -/
def buildProjectLayers : Option ContextPacket → List TracedLayer
  | none => []
  | some packet =>
    let lines := ["Language: ".toList ++ packet.language, "Root: ".toList ++ packet.root,
      "Name: ".toList ++ packet.name, "Linter: ".toList ++ orText packet.linter "none",
      "Formatter: ".toList ++ orText packet.formatter "none",
      "Test runner: ".toList ++ orText packet.testRunner "none",
      "Git branch: ".toList ++ orText packet.gitBranch "unknown",
      "Git status: ".toList ++ packet.gitStatus]
    let skills := if packet.skills = [] then [] else
      ["Skills: ".toList ++ ", ".toList.intercalate packet.skills]
    [wordLayer .project (Knowledge.joinLines (lines ++ skills)) "packet".toList false]

/-- `_build_task_layers`. -/
def buildTaskLayers (description : Text) : List TracedLayer :=
  if strip description = [] then [] else [wordLayer .task (strip description) "task".toList true]

/-- `_build_research_layers`. -/
def buildResearchLayers : Option ContextPacket → Except PyExc (List TracedLayer)
  | none => .ok []
  | some packet => do
    let summary ← packet.summary
    if !summary.truthy then return []
    match summary with
    | .str s => return [wordLayer .research s.toList "packet.research".toList false]
    | _ => throw ⟨.attributeError, "object has no attribute 'split'"⟩

/-- `round(x, 3)`. -/
def roundThree : PyFloat → PyFloat
  | .finite q => .ofRat (roundHalfEven (q * 1000) / 1000)
  | other => other

/-- A retrieved chunk as a layer. -/
def retrievedLayer (scored : ScoredResult) : TracedLayer where
  layer :=
    { type := .retrieved
      content := scored.result.content
      source := "selector".toList
      tokens := scored.result.tokenEstimate }
  trace := some
    { sourceId := scored.result.sourceId
      sourcePath := scored.result.sourcePath
      score := roundThree scored.score
      position := scored.result.position }

/-- `ContextAssembler`; `retrieve` of the knowledge engine is a function of the query, the agent
and the limit. -/
structure ContextAssembler where
  knowledge : Option (Text → Text → ℤ → Except PyExc (List ScoredResult)) := none
  budget : ContextBudget := {}

/-- `_build_retrieved_layers`. -/
def ContextAssembler.buildRetrievedLayers (assembler : ContextAssembler) (description agent : Text) :
    Except PyExc (List TracedLayer) :=
  match assembler.knowledge with
  | none => .ok []
  | some retrieve => do
    let chunks ← retrieve description agent 20
    return (chunks.filter fun scored =>
      scored.result.sourceType ∉ Skills.SKILL_SOURCE_TYPES).map retrievedLayer

/-- `_collect`: a collector that raises has no layers. -/
def collect (builder : Except PyExc (List TracedLayer)) : List TracedLayer :=
  match builder with
  | .ok layers => layers
  | .error _ => []

/-- The layers of all collectors. -/
def ContextAssembler.collected (assembler : ContextAssembler) (description : Text)
    (packet : Option ContextPacket) (agent : Text) : List TracedLayer :=
  buildProjectLayers packet ++ buildTaskLayers description ++ collect (buildResearchLayers packet) ++
    collect (assembler.buildRetrievedLayers description agent)

end Collectors

section Assembly

-- `str.lower`, by the case tables of the interpreter
variable (lower : Text → Text)

/-- `order_layers`, each layer with its trace. -/
def orderTraced (layers : List TracedLayer) : List TracedLayer :=
  layers.insertionSort fun l other => LAYER_PRECEDENCE other.layer.type ≤ LAYER_PRECEDENCE l.layer.type

/-- The first layer of each content, cut to its cap. -/
def cappedTraced (layers : List TracedLayer) (caps : Caps) : List TracedLayer :=
  (firsts (fun l : TracedLayer => contentDigest lower l.layer.content) (orderTraced layers)).map
    fun l => { l with layer := capLayer caps.orDefault l.layer }

/-- What is kept of some layers when this much of the budget is left. -/
def fittedTraced : ℤ → List TracedLayer → List TracedLayer
  | _, [] => []
  | left, l :: rest =>
    ((fitWithin left l.layer).toList.map fun layer => { l with layer }) ++
      fittedTraced (budgetBehind left [l.layer]) rest

/-- The layers of `assemble_layers`, each with its trace. -/
def keptTraced (layers : List TracedLayer) (budgetTotal : ℤ) (caps : Caps) : List TracedLayer :=
  fittedTraced (unguarded lower (layers.map TracedLayer.layer) budgetTotal)
    (cappedTraced lower layers caps)

/-- `ContextAssemblyResult`, but for its audit. -/
structure LayeredContext where
  layers : List TracedLayer
  totalTokens : ℤ
  budgetTokens : ℤ
  truncated : Bool
  droppedDuplicates : ℕ

/-- `ContextAssembler.assemble`. -/
def ContextAssembler.assemble (assembler : ContextAssembler) (description : Text)
    (packet : Option ContextPacket) (agent : Text) : LayeredContext :=
  let layers := assembler.collected description packet agent
  let budgetTotal := assembler.budget.forAgent agent
  let result := assembleLayers lower (layers.map TracedLayer.layer) budgetTotal DEFAULT_LAYER_CAPS
  { layers := keptTraced lower layers budgetTotal DEFAULT_LAYER_CAPS
    totalTokens := result.totalTokens
    budgetTokens := result.budgetTokens
    truncated := result.truncated
    droppedDuplicates := result.droppedDuplicates }

end Assembly

section Traces

variable (lower : Text → Text) (layers : List TracedLayer)

theorem orderTraced_layers :
    (orderTraced layers).map TracedLayer.layer = orderLayers (layers.map TracedLayer.layer) :=
  List.map_insertionSort _ _ _ _ fun _ _ _ _ => Iff.rfl

theorem cappedTraced_layers (caps : Caps) : (cappedTraced lower layers caps).map TracedLayer.layer =
    cappedLayers lower (layers.map TracedLayer.layer) caps := by
  unfold cappedTraced cappedLayers firstCopies firsts
  rw [List.map_map, ← orderTraced_layers,
    ← map_firstsFrom TracedLayer.layer (fun layer => contentDigest lower layer.content), List.map_map]
  rfl

theorem fittedTraced_layers (left : ℤ) :
    (fittedTraced left layers).map TracedLayer.layer = fitted left (layers.map TracedLayer.layer) := by
  induction layers generalizing left with
  | nil => rfl
  | cons l rest ih =>
    rw [fittedTraced, List.map_append, ih, List.map_cons, fitted, List.map_map]
    exact congrArg (· ++ _) (List.map_id _)

/-- The traces go along with the layers that are kept. -/
theorem keptTraced_layers (budgetTotal : ℤ) (caps : Caps) :
    (keptTraced lower layers budgetTotal caps).map TracedLayer.layer =
      (assembleLayers lower (layers.map TracedLayer.layer) budgetTotal caps).layers := by
  unfold keptTraced
  rw [fittedTraced_layers, cappedTraced_layers, assembleLayers_fitted]

end Traces

section Cuts

/-- All of a content, or its first words. -/
def Cut (content shown : Text) : Prop :=
  shown = content ∨ ∃ n, shown = joinWords ((words content).take n)

theorem Cut.truncate (content : Text) (maxTokens : ℤ) :
    Cut content (truncateToTokens content maxTokens) := by
  unfold truncateToTokens
  split_ifs with hnone hfits
  · exact .inr ⟨0, rfl⟩
  · exact .inl rfl
  · exact .inr ⟨maxTokens.toNat, rfl⟩

/-- The first words of the first words. -/
theorem Cut.trans {content shown other : Text} (h : Cut content shown) (hother : Cut shown other) :
    Cut content other := by
  obtain rfl | ⟨n, rfl⟩ := h
  · exact hother
  · obtain rfl | ⟨m, rfl⟩ := hother
    · exact .inr ⟨n, rfl⟩
    · have hwords : words (joinWords ((words content).take n)) = (words content).take n :=
        words_joinWords fun word hword => words_isWord (List.mem_of_mem_take hword)
      refine .inr ⟨min m n, ?_⟩
      rw [hwords, List.take_take]

/-- What is kept of a layer: its type and its trace, and as much of its content as fits. -/
structure KeptOf (l kept : TracedLayer) : Prop where
  trace : kept.trace = l.trace
  type : kept.layer.type = l.layer.type
  content : Cut l.layer.content kept.layer.content
  counted : l.layer.tokens = (words l.layer.content).length →
    kept.layer.tokens = (words kept.layer.content).length

theorem KeptOf.trans {l kept last : TracedLayer} (h : KeptOf l kept) (hlast : KeptOf kept last) :
    KeptOf l last where
  trace := hlast.trace.trans h.trace
  type := hlast.type.trans h.type
  content := h.content.trans hlast.content
  counted := fun hcounted => hlast.counted (h.counted hcounted)

theorem KeptOf.whole (l : TracedLayer) : KeptOf l l :=
  ⟨rfl, rfl, .inl rfl, id⟩

theorem KeptOf.cut (l : TracedLayer) (maxTokens : ℤ) :
    KeptOf l { l with layer := l.layer.cutTo maxTokens } :=
  ⟨rfl, rfl, .truncate _ _, fun _ => rfl⟩

end Cuts

section Collected

variable {assembler : ContextAssembler} {description agent : Text} {packet : Option ContextPacket}
  {l : TracedLayer}

/-- The layer of a task. -/
def taskLayer (description : Text) : TracedLayer :=
  wordLayer .task (strip description) "task".toList true

theorem mem_buildTaskLayers :
    l ∈ buildTaskLayers description ↔ strip description ≠ [] ∧ l = taskLayer description := by
  unfold buildTaskLayers
  split_ifs with hblank
  · simp [hblank]
  · simp [hblank, taskLayer]

/-- The layers of project and research have the tokens of their words and no guardrail. -/
def Plain (l : TracedLayer) : Prop :=
  ∃ type content source, type ≠ .task ∧ type ≠ .retrieved ∧ l = wordLayer type content source false

theorem mem_buildProjectLayers (h : l ∈ buildProjectLayers packet) : Plain l := by
  unfold buildProjectLayers at h
  cases packet with
  | none => cases h
  | some packet => exact ⟨.project, _, _, by decide, by decide, List.mem_singleton.mp h⟩

theorem mem_buildResearchLayers (h : l ∈ collect (buildResearchLayers packet)) : Plain l := by
  cases packet with
  | none => cases h
  | some packet =>
    unfold buildResearchLayers at h
    cases hsummary : packet.summary with
    | error exc =>
      simp only [hsummary, bind, Except.bind] at h
      cases h
    | ok summary =>
      simp only [hsummary, bind, Except.bind, pure, Except.pure] at h
      split at h
      · cases h
      · cases summary with
        | str s => exact ⟨.research, _, _, by decide, by decide, List.mem_singleton.mp h⟩
        | _ => cases h

theorem mem_buildRetrievedLayers
    (h : l ∈ collect (assembler.buildRetrievedLayers description agent)) :
    ∃ retrieve chunks scored, assembler.knowledge = some retrieve ∧
      retrieve description agent 20 = .ok chunks ∧ scored ∈ chunks ∧
      scored.result.sourceType ∉ Skills.SKILL_SOURCE_TYPES ∧ l = retrievedLayer scored := by
  unfold ContextAssembler.buildRetrievedLayers at h
  cases hknowledge : assembler.knowledge with
  | none =>
    rw [hknowledge] at h
    cases h
  | some retrieve =>
    rw [hknowledge] at h
    dsimp only at h
    cases hchunks : retrieve description agent 20 with
    | error exc =>
      rw [hchunks] at h
      cases h
    | ok chunks =>
      rw [hchunks] at h
      obtain ⟨scored, hscored, hlayer⟩ := List.mem_map.mp h
      obtain ⟨hmem, htype⟩ := List.mem_filter.mp hscored
      exact ⟨retrieve, chunks, scored, rfl, hchunks, hmem, of_decide_eq_true htype, hlayer.symm⟩

/-- Where a collected layer comes from. -/
theorem mem_collected (h : l ∈ assembler.collected description packet agent) :
    Plain l ∨ (strip description ≠ [] ∧ l = taskLayer description) ∨
      ∃ retrieve chunks scored, assembler.knowledge = some retrieve ∧
        retrieve description agent 20 = .ok chunks ∧ scored ∈ chunks ∧
        scored.result.sourceType ∉ Skills.SKILL_SOURCE_TYPES ∧ l = retrievedLayer scored := by
  unfold ContextAssembler.collected at h
  simp only [List.mem_append] at h
  obtain ((hproject | htask) | hresearch) | hretrieved := h
  · exact .inl (mem_buildProjectLayers hproject)
  · exact .inr (.inl (mem_buildTaskLayers.mp htask))
  · exact .inl (mem_buildResearchLayers hresearch)
  · exact .inr (.inr (mem_buildRetrievedLayers hretrieved))

theorem task_collected (h : strip description ≠ []) :
    taskLayer description ∈ assembler.collected description packet agent := by
  unfold ContextAssembler.collected
  simp only [List.mem_append]
  exact .inl (.inl (.inr (mem_buildTaskLayers.mpr ⟨h, rfl⟩)))

/-- The only guardrail is the task. -/
theorem guardrails_collected :
    ((assembler.collected description packet agent).map TracedLayer.layer).filter Layer.isGuardrail =
      (buildTaskLayers description).map TracedLayer.layer := by
  have hplain : ∀ layers : List TracedLayer, (∀ l ∈ layers, Plain l) →
      (layers.map TracedLayer.layer).filter Layer.isGuardrail = [] := by
    intro layers hlayers
    refine List.filter_eq_nil_iff.mpr fun layer hlayer => ?_
    obtain ⟨l, hl, rfl⟩ := List.mem_map.mp hlayer
    obtain ⟨type, content, source, htask, -, rfl⟩ := hlayers l hl
    simp [wordLayer, Layer.isGuardrail, GUARDRAIL_LAYERS, htask]
  have hretrieved : ((collect (assembler.buildRetrievedLayers description agent)).map
      TracedLayer.layer).filter Layer.isGuardrail = [] := by
    refine List.filter_eq_nil_iff.mpr fun layer hlayer => ?_
    obtain ⟨l, hl, rfl⟩ := List.mem_map.mp hlayer
    obtain ⟨-, -, scored, -, -, -, -, rfl⟩ := mem_buildRetrievedLayers hl
    simp [retrievedLayer, Layer.isGuardrail, GUARDRAIL_LAYERS]
  have htask : ((buildTaskLayers description).map TracedLayer.layer).filter Layer.isGuardrail =
      (buildTaskLayers description).map TracedLayer.layer := by
    refine List.filter_eq_self.mpr fun layer hlayer => ?_
    obtain ⟨l, hl, rfl⟩ := List.mem_map.mp hlayer
    rw [(mem_buildTaskLayers.mp hl).2]
    rfl
  unfold ContextAssembler.collected
  simp only [List.map_append, List.filter_append]
  rw [hplain _ fun l hl => mem_buildProjectLayers hl, hplain _ fun l hl => mem_buildResearchLayers hl,
    htask, hretrieved, List.nil_append, List.append_nil, List.append_nil]

end Collected

section Kept

variable {lower : Text → Text} {layers : List TracedLayer} {budgetTotal : ℤ} {caps : Caps}
  {kept task : TracedLayer}

theorem mem_fittedTraced {left : ℤ} (h : kept ∈ fittedTraced left layers) :
    ∃ l ∈ layers, KeptOf l kept := by
  induction layers generalizing left with
  | nil => cases h
  | cons l rest ih =>
    rw [fittedTraced, List.mem_append] at h
    obtain hfirst | hlater := h
    · obtain ⟨layer, hlayer, rfl⟩ := List.mem_map.mp hfirst
      have hfits : fitWithin left l.layer = some layer := Option.mem_toList.mp hlayer
      refine ⟨l, List.mem_cons_self, ?_⟩
      unfold fitWithin at hfits
      split_ifs at hfits with hguard hroom hleft
      · rw [← Option.some.inj hfits]
        exact .whole l
      · rw [← Option.some.inj hfits]
        exact .whole l
      · rw [← Option.some.inj hfits]
        exact .cut l left
    · obtain ⟨other, hother, hsame⟩ := ih hlater
      exact ⟨other, List.mem_cons_of_mem _ hother, hsame⟩

/-- Every layer that is kept is what is kept of a collected one. -/
theorem mem_keptTraced (h : kept ∈ keptTraced lower layers budgetTotal caps) :
    ∃ l ∈ layers, KeptOf l kept := by
  obtain ⟨capped, hcapped, hkept⟩ := mem_fittedTraced h
  obtain ⟨l, hl, rfl⟩ := List.mem_map.mp hcapped
  have hmem : l ∈ layers :=
    (List.mem_insertionSort _).mp ((firstsFrom_sublist _ _ _).subset hl)
  have hcap : KeptOf l { l with layer := capLayer caps.orDefault l.layer } := by
    unfold capLayer
    split
    · exact .cut l _
    · exact .whole l
  exact ⟨l, hmem, hcap.trans hkept⟩

/-- The only layer of a task comes first, as it is. -/
theorem keptTraced_task (hmem : task ∈ layers) (htype : task.layer.type = .task)
    (honly : ∀ l ∈ layers, l.layer.type = .task → l = task) :
    ∃ rest, keptTraced lower layers budgetTotal caps = task :: rest := by
  have htop : ∀ type : LayerType, LAYER_PRECEDENCE .task ≤ LAYER_PRECEDENCE type → type = .task := by
    intro type
    cases type <;> decide
  have hguard : task.layer.isGuardrail = true := by simp [Layer.isGuardrail, htype, GUARDRAIL_LAYERS]
  have hsorted : ((orderTraced layers).map TracedLayer.layer).Pairwise fun layer later =>
      LAYER_PRECEDENCE later.type ≤ LAYER_PRECEDENCE layer.type := by
    rw [orderTraced_layers]
    exact orderLayers_ordered _
  have hfirst : ∃ rest, orderTraced layers = task :: rest := by
    have hin : task ∈ orderTraced layers := (List.mem_insertionSort _).mpr hmem
    cases hlist : orderTraced layers with
    | nil =>
      rw [hlist] at hin
      cases hin
    | cons head rest =>
      have hhead : head ∈ layers := by
        refine (List.mem_insertionSort _).mp (?_ : head ∈ orderTraced layers)
        rw [hlist]
        exact List.mem_cons_self
      rw [hlist] at hin hsorted
      rw [List.map_cons, List.pairwise_cons] at hsorted
      have hsame : head.layer.type = .task := by
        obtain heq | hlater := List.mem_cons.mp hin
        · rw [← heq]
          exact htype
        · refine htop _ (htype ▸ hsorted.1 task.layer ?_)
          exact List.mem_map_of_mem hlater
      exact ⟨rest, by rw [honly head hhead hsame]⟩
  obtain ⟨rest, horder⟩ := hfirst
  have hnew : contentDigest lower task.layer.content ∉ ([] : List Text) := List.not_mem_nil
  have hwhole : ({ task with layer := capLayer caps.orDefault task.layer } : TracedLayer) = task := by
    rw [capLayer_guardrail hguard]
  have hfits : ∀ left, fitWithin left task.layer = some task.layer := by
    intro left
    unfold fitWithin
    rw [if_pos hguard]
  unfold keptTraced cappedTraced firsts
  rw [horder, @firstsFrom_new _ _ _ (fun l : TracedLayer => contentDigest lower l.layer.content) [] _ _
    hnew, List.map_cons, hwhole, fittedTraced, hfits]
  exact ⟨_, rfl⟩

/-- The tokens of all that is kept are within the budget, which only guardrails can overdraw. -/
theorem keptTraced_within :
    totalTokens ((keptTraced lower layers budgetTotal caps).map TracedLayer.layer) ≤
      max budgetTotal (totalTokens (((keptTraced lower layers budgetTotal caps).map
        TracedLayer.layer).filter Layer.isGuardrail)) := by
  rw [keptTraced_layers, assembleLayers_fitted]
  generalize hcapped : cappedLayers lower (layers.map TracedLayer.layer) caps = capped
  have hguards : (capped.filter Layer.isGuardrail) =
      (firstCopies lower (layers.map TracedLayer.layer)).filter Layer.isGuardrail := by
    rw [← hcapped, cappedLayers_guardrails]
  have hothers := fitted_within (le_max_left 0 (budgetTotal - totalTokens ((firstCopies lower
    (layers.map TracedLayer.layer)).filter Layer.isGuardrail))) capped
  have hsplit : ∀ some : List Layer, totalTokens some = totalTokens (some.filter Layer.isGuardrail) +
      totalTokens (some.filter fun layer => !layer.isGuardrail) := by
    intro some
    have hperm := ((List.filter_append_perm Layer.isGuardrail some).map Layer.tokens).sum_eq
    rw [List.map_append, List.sum_append] at hperm
    exact hperm.symm
  rw [hsplit, fitted_guardrails, hguards]
  unfold unguarded
  omega

/-- The guardrails that are kept are among those that were collected. -/
theorem keptTraced_guardrails (htokens : ∀ l ∈ layers, 0 ≤ l.layer.tokens) :
    totalTokens (((keptTraced lower layers budgetTotal caps).map TracedLayer.layer).filter
        Layer.isGuardrail) ≤
      totalTokens ((layers.map TracedLayer.layer).filter Layer.isGuardrail) := by
  rw [keptTraced_layers, assembleLayers_fitted, fitted_guardrails, cappedLayers_guardrails]
  have hpart : (firstCopies lower (layers.map TracedLayer.layer)).Sublist
      (orderLayers (layers.map TracedLayer.layer)) := firstsFrom_sublist _ _ _
  have hsame : (orderLayers (layers.map TracedLayer.layer)).Perm (layers.map TracedLayer.layer) :=
    List.perm_insertionSort _ _
  have hsum := ((hsame.filter Layer.isGuardrail).map Layer.tokens).sum_eq
  unfold totalTokens
  rw [← hsum]
  refine ((hpart.filter Layer.isGuardrail).map Layer.tokens).sum_le_sum fun tokens hmem => ?_
  obtain ⟨layer, hlayer, rfl⟩ := List.mem_map.mp hmem
  obtain ⟨l, hl, rfl⟩ := List.mem_map.mp (mem_orderLayers.mp (List.mem_of_mem_filter hlayer))
  exact htokens l hl

end Kept

end AiosDeck.Context
