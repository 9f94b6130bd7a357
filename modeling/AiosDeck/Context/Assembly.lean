import AiosDeck.Python.Sha256
import AiosDeck.Retrieval.Selector

/-!
# Layer assembly

The layers of a context are ordered by precedence, each content is kept once,
and what is left is fitted into the budget of the agent. Layers under a
guardrail are exempt from the caps and from the budget, but not from the
search for duplicates.
-/

namespace AiosDeck.Context

open Python Retrieval Selection

/-- `LayerType`. -/
inductive LayerType where
  | global
  | user
  | project
  | task
  | research
  | retrieved
  deriving DecidableEq, Repr

/-- The value of a layer type. -/
def LayerType.value : LayerType → String
  | .global => "global"
  | .user => "user"
  | .project => "project"
  | .task => "task"
  | .research => "research"
  | .retrieved => "retrieved"

/-- `LAYER_PRECEDENCE`. -/
def LAYER_PRECEDENCE : LayerType → ℕ
  | .retrieved => 0
  | .research => 1
  | .global => 2
  | .project => 3
  | .user => 4
  | .task => 5

/-- `GUARDRAIL_LAYERS`. -/
def GUARDRAIL_LAYERS : List LayerType := [.task]

/-- `Layer`, as far as the assembly reads it. -/
structure Layer where
  type : LayerType
  content : Text
  source : Text := []
  guardrail : Bool := false
  tokens : ℤ := 0
  deriving DecidableEq

namespace Layer

/-- `Layer.is_guardrail`. -/
def isGuardrail (layer : Layer) : Bool := layer.guardrail || layer.type ∈ GUARDRAIL_LAYERS

/-- The layer with its content cut to this many tokens. -/
def cutTo (maxTokens : ℤ) (layer : Layer) : Layer :=
  let content := truncateToTokens layer.content maxTokens
  { layer with content, tokens := (words content).length }

@[simp] theorem cutTo_type (maxTokens : ℤ) (layer : Layer) : (layer.cutTo maxTokens).type = layer.type :=
  rfl

@[simp] theorem cutTo_isGuardrail (maxTokens : ℤ) (layer : Layer) :
    (layer.cutTo maxTokens).isGuardrail = layer.isGuardrail := rfl

theorem cutTo_tokens_nonneg (maxTokens : ℤ) (layer : Layer) : 0 ≤ (layer.cutTo maxTokens).tokens :=
  Int.natCast_nonneg _

theorem cutTo_tokens_le {maxTokens : ℤ} (h : 0 ≤ maxTokens) (layer : Layer) :
    (layer.cutTo maxTokens).tokens ≤ maxTokens := length_truncateToTokens layer.content h

end Layer

/-- An entry of the audit. -/
structure AuditEntry where
  action : String
  layerType : LayerType
  source : Text
  tokensBefore : ℤ
  tokensAfter : ℤ
  reason : String
  deriving DecidableEq

/-- `_audit_entry`. -/
def auditEntry (action : String) (layer : Layer) (before after : ℤ) (reason : String) : AuditEntry where
  action := action
  layerType := layer.type
  source := layer.source
  tokensBefore := before
  tokensAfter := after
  reason := reason

/-- A table of caps. -/
abbrev Caps := List (LayerType × ℤ)

/-- `DEFAULT_LAYER_CAPS`. -/
def DEFAULT_LAYER_CAPS : Caps :=
  [(.retrieved, 0), (.research, 1500), (.global, 4000), (.project, 4000), (.user, 4000), (.task, 0)]

/-- `caps or DEFAULT_LAYER_CAPS`. -/
def Caps.orDefault (caps : Caps) : Caps := if caps.isEmpty then DEFAULT_LAYER_CAPS else caps

/-- `caps.get(layer.type, 0)`. -/
def Caps.cap (caps : Caps) (layer : Layer) : ℤ := (caps.lookup layer.type).getD 0

/-- `order_layers`. -/
def orderLayers (layers : List Layer) : List Layer :=
  layers.insertionSort fun layer other => LAYER_PRECEDENCE other.type ≤ LAYER_PRECEDENCE layer.type

section Duplicates

-- `str.lower`, by the case tables of the interpreter
variable (lower : Text → Text)

/-- The text whose digest tells duplicates. -/
def normalized (content : Text) : Text := lower (joinWords (words content))

/-- `_content_digest`. -/
def contentDigest (content : Text) : Text := sha256 (normalized lower content)

/-- The variables of the loop of `dedupe_layers`. -/
structure Deduping where
  seen : List Text := []
  kept : List Layer := []
  dropped : ℕ := 0
  audit : List AuditEntry := []

/-- The loop of `dedupe_layers` on one layer. -/
def dedupeLayer (state : Deduping) (layer : Layer) : Deduping :=
  let digest := contentDigest lower layer.content
  if digest ∈ state.seen then
    { state with
      dropped := state.dropped + 1
      audit := state.audit ++ [auditEntry "dropped_duplicate" layer layer.tokens 0
        "duplicate content; higher precedence wins"] }
  else { state with seen := digest :: state.seen, kept := state.kept ++ [layer] }

/-- `dedupe_layers`. -/
def dedupeLayers (ordered : List Layer) (audit : List AuditEntry) : Deduping :=
  ordered.foldl (dedupeLayer lower) { audit := audit }

end Duplicates

/-- The layer is cut to its cap. -/
def overCap (caps : Caps) (layer : Layer) : Bool :=
  let cap := caps.cap layer
  cap ≠ 0 && !layer.isGuardrail && cap < layer.tokens

/-- A layer behind the loop over the caps. -/
def capLayer (caps : Caps) (layer : Layer) : Layer :=
  if overCap caps layer then layer.cutTo (caps.cap layer) else layer

/-- What that loop records of a layer. -/
def capEntry (caps : Caps) (layer : Layer) : Option AuditEntry :=
  if overCap caps layer then
    some (auditEntry "truncated" layer layer.tokens (layer.cutTo (caps.cap layer)).tokens
      ("layer cap " ++ toString (caps.cap layer) ++ " tokens"))
  else none

/-- The variables of the loop over the budget. -/
structure Fitting where
  kept : List Layer := []
  budgetLeft : ℤ
  truncated : Bool
  audit : List AuditEntry

/-- The loop over the budget on one layer. -/
def fitLayer (fit : Fitting) (layer : Layer) : Fitting :=
  if layer.isGuardrail then { fit with kept := fit.kept ++ [layer] }
  else if layer.tokens ≤ fit.budgetLeft then
    { fit with kept := fit.kept ++ [layer], budgetLeft := fit.budgetLeft - layer.tokens }
  else if 0 < fit.budgetLeft then
    let cut := layer.cutTo fit.budgetLeft
    { kept := fit.kept ++ [cut]
      budgetLeft := 0
      truncated := true
      audit := fit.audit ++ [auditEntry "truncated" layer layer.tokens cut.tokens
        ("over budget; truncated to " ++ toString fit.budgetLeft ++ " tokens")] }
  else
    { fit with
      truncated := true
      audit := fit.audit ++ [auditEntry "dropped" layer layer.tokens 0 "over budget; dropped"] }

/-- The tokens of some layers, together. -/
def totalTokens (layers : List Layer) : ℤ := (layers.map Layer.tokens).sum

/-- The loop over the budget, before its first layer. -/
def startFitting (capped : List Layer) (budgetTotal : ℤ) (truncated : Bool)
    (audit : List AuditEntry) : Fitting where
  budgetLeft := max 0 (budgetTotal - totalTokens (capped.filter Layer.isGuardrail))
  truncated := truncated
  audit := audit

/-- `truncate_layers`. -/
def truncateLayers (ordered : List Layer) (budgetTotal : ℤ) (caps : Caps)
    (audit : List AuditEntry) : Fitting :=
  let caps := caps.orDefault
  let ordered := orderLayers ordered
  let capped := ordered.map (capLayer caps)
  capped.foldl fitLayer (startFitting capped budgetTotal (ordered.any (overCap caps))
    (audit ++ ordered.filterMap (capEntry caps)))

/-- `ContextAssemblyResult`. -/
structure ContextAssemblyResult where
  layers : List Layer := []
  totalTokens : ℤ := 0
  budgetTokens : ℤ := 0
  truncated : Bool := false
  droppedDuplicates : ℕ := 0
  audit : List AuditEntry := []
  deriving DecidableEq

/-- `assemble_layers`. -/
def assembleLayers (lower : Text → Text) (layers : List Layer) (budgetTotal : ℤ) (caps : Caps) :
    ContextAssemblyResult :=
  let ordered := orderLayers layers
  let deduped := dedupeLayers lower ordered []
  let audit := deduped.audit ++ deduped.kept.map fun layer =>
    auditEntry "added" layer layer.tokens layer.tokens "retained"
  let fitted := truncateLayers deduped.kept budgetTotal caps audit
  { layers := fitted.kept
    totalTokens := totalTokens fitted.kept
    budgetTokens := budgetTotal
    truncated := fitted.truncated
    droppedDuplicates := deduped.dropped
    audit := fitted.audit }

section Structure

/-- The order of precedence. -/
def Ordered (layers : List Layer) : Prop :=
  layers.Pairwise fun layer later => LAYER_PRECEDENCE later.type ≤ LAYER_PRECEDENCE layer.type

theorem orderLayers_ordered (layers : List Layer) : Ordered (orderLayers layers) := by
  have hplaces : (orderLayers layers).map (fun layer => LAYER_PRECEDENCE layer.type) =
      (layers.map fun layer => LAYER_PRECEDENCE layer.type).insertionSort fun a b => b ≤ a :=
    List.map_insertionSort _ (fun a b : ℕ => b ≤ a) _ _ fun _ _ _ _ => Iff.rfl
  have hsorted : ((orderLayers layers).map fun layer => LAYER_PRECEDENCE layer.type).Pairwise
      fun a b => b ≤ a := by
    rw [hplaces]
    exact List.pairwise_insertionSort _ _
  exact List.pairwise_map.mp hsorted

/-- Layers that are in order stay as they are. -/
theorem orderLayers_eq {layers : List Layer} (h : Ordered layers) : orderLayers layers = layers :=
  List.Pairwise.insertionSort_eq h

theorem mem_orderLayers {layers : List Layer} {layer : Layer} :
    layer ∈ orderLayers layers ↔ layer ∈ layers := List.mem_insertionSort _

/-- The layers that are not dropped as duplicates: the first of each digest in
the order of precedence. -/
def firstCopies (lower : Text → Text) (layers : List Layer) : List Layer :=
  firsts (fun layer => contentDigest lower layer.content) (orderLayers layers)

theorem dedupe_kept (lower : Text → Text) (ordered : List Layer) (state : Deduping) :
    (ordered.foldl (dedupeLayer lower) state).kept = state.kept ++
      firstsFrom (fun layer => contentDigest lower layer.content) state.seen ordered := by
  induction ordered generalizing state with
  | nil => simp [firstsFrom]
  | cons layer rest ih =>
    rw [List.foldl_cons, ih]
    by_cases h : contentDigest lower layer.content ∈ state.seen
    · simp [dedupeLayer, firstsFrom, h]
    · simp [dedupeLayer, firstsFrom, h]

theorem firstCopies_ordered (lower : Text → Text) (layers : List Layer) :
    Ordered (firstCopies lower layers) :=
  (orderLayers_ordered layers).sublist (firstsFrom_sublist _ _ _)

@[simp] theorem capLayer_type (caps : Caps) (layer : Layer) : (capLayer caps layer).type = layer.type := by
  unfold capLayer
  split
  · rfl
  · rfl

@[simp] theorem capLayer_isGuardrail (caps : Caps) (layer : Layer) :
    (capLayer caps layer).isGuardrail = layer.isGuardrail := by
  unfold capLayer
  split
  · rfl
  · rfl

/-- A guardrail has no cap. -/
theorem capLayer_guardrail {caps : Caps} {layer : Layer} (h : layer.isGuardrail = true) :
    capLayer caps layer = layer := by
  have hunder : overCap caps layer = false := by simp [overCap, h]
  rw [capLayer, hunder]
  rfl

/-- The layers that are fitted into the budget. -/
def cappedLayers (lower : Text → Text) (layers : List Layer) (caps : Caps) : List Layer :=
  (firstCopies lower layers).map (capLayer caps.orDefault)

/-- The audit in front of the loop over the budget. -/
def auditBefore (lower : Text → Text) (layers : List Layer) (caps : Caps) : List AuditEntry :=
  (dedupeLayers lower (orderLayers layers) []).audit ++ ((firstCopies lower layers).map fun layer =>
    auditEntry "added" layer layer.tokens layer.tokens "retained") ++
    (firstCopies lower layers).filterMap (capEntry caps.orDefault)

/-- The loop over the budget behind the layers that are done. -/
def fittingAfter (lower : Text → Text) (layers : List Layer) (budgetTotal : ℤ) (caps : Caps)
    (done : List Layer) : Fitting :=
  done.foldl fitLayer (startFitting (cappedLayers lower layers caps) budgetTotal
    ((firstCopies lower layers).any (overCap caps.orDefault)) (auditBefore lower layers caps))

/-- The assembly is the loop over the budget on the capped first copies. -/
theorem assembleLayers_layers (lower : Text → Text) (layers : List Layer) (budgetTotal : ℤ)
    (caps : Caps) : (assembleLayers lower layers budgetTotal caps).layers =
      (fittingAfter lower layers budgetTotal caps (cappedLayers lower layers caps)).kept := by
  have hkept : (dedupeLayers lower (orderLayers layers) []).kept = firstCopies lower layers :=
    dedupe_kept lower (orderLayers layers) {}
  have horder : orderLayers (firstCopies lower layers) = firstCopies lower layers :=
    orderLayers_eq (firstCopies_ordered lower layers)
  dsimp only [assembleLayers, truncateLayers]
  rw [hkept, horder]
  rfl

end Structure

end AiosDeck.Context
