import AiosDeck.Context.Assembly

/-!
# What the assembly keeps

The layers that are kept stay in order and within the budget, which only the
guardrails can overdraw. A guardrail is never cut. But a copy of its content
with a higher precedence takes its place, and such a copy can be cut.
-/

namespace AiosDeck.Context

open Python Retrieval Selection

section Loop

/-- What is kept of a layer when this much of the budget is left. -/
def fitWithin (left : ℤ) (layer : Layer) : Option Layer :=
  if layer.isGuardrail then some layer
  else if layer.tokens ≤ left then some layer
  else if 0 < left then some (layer.cutTo left)
  else none

/-- What the layers take from the budget. -/
def costs (layers : List Layer) : List ℤ :=
  (layers.filter fun layer => !layer.isGuardrail).map Layer.tokens

/-- What is left of the budget behind some layers. -/
def budgetBehind (left : ℤ) (layers : List Layer) : ℤ := room left (costs layers)

theorem budgetBehind_append (left : ℤ) (layers more : List Layer) :
    budgetBehind left (layers ++ more) = budgetBehind (budgetBehind left layers) more := by
  unfold budgetBehind costs
  rw [List.filter_append, List.map_append, room_append]

theorem budgetBehind_nonneg {left : ℤ} (h : 0 ≤ left) (layers : List Layer) :
    0 ≤ budgetBehind left layers := room_nonneg h _

/-- One layer of the loop. -/
theorem fitLayer_spec {fit : Fitting} (h : 0 ≤ fit.budgetLeft) (layer : Layer) :
    (fitLayer fit layer).kept = fit.kept ++ (fitWithin fit.budgetLeft layer).toList ∧
      (fitLayer fit layer).budgetLeft = budgetBehind fit.budgetLeft [layer] := by
  unfold fitLayer fitWithin budgetBehind costs room
  by_cases hguard : layer.isGuardrail = true
  · simp [hguard]
  · by_cases hfits : layer.tokens ≤ fit.budgetLeft
    · simp [hguard, hfits]
    · by_cases hleft : 0 < fit.budgetLeft
      · simp [hguard, hfits, hleft]
        omega
      · simp [hguard, hfits, hleft]
        omega

/-- What is kept of a run of layers. -/
def fitted : ℤ → List Layer → List Layer
  | _, [] => []
  | left, layer :: rest => (fitWithin left layer).toList ++ fitted (budgetBehind left [layer]) rest

/-- The loop keeps what fits, one layer after the other. -/
theorem foldl_fitLayer {fit : Fitting} (h : 0 ≤ fit.budgetLeft) (layers : List Layer) :
    (layers.foldl fitLayer fit).kept = fit.kept ++ fitted fit.budgetLeft layers ∧
      (layers.foldl fitLayer fit).budgetLeft = budgetBehind fit.budgetLeft layers := by
  induction layers generalizing fit with
  | nil => exact ⟨(List.append_nil _).symm, rfl⟩
  | cons layer rest ih =>
    obtain ⟨hkept, hleft⟩ := fitLayer_spec h layer
    have hnonneg : 0 ≤ (fitLayer fit layer).budgetLeft := by
      rw [hleft]
      exact budgetBehind_nonneg h _
    obtain ⟨hkepts, hlefts⟩ := ih hnonneg
    have hsplit : budgetBehind fit.budgetLeft (layer :: rest) =
        budgetBehind (budgetBehind fit.budgetLeft [layer]) rest :=
      budgetBehind_append fit.budgetLeft [layer] rest
    constructor
    · rw [List.foldl_cons, hkepts, hkept, hleft, fitted, List.append_assoc]
    · rw [List.foldl_cons, hlefts, hleft, hsplit]

theorem fitted_append (left : ℤ) (layers more : List Layer) :
    fitted left (layers ++ more) = fitted left layers ++ fitted (budgetBehind left layers) more := by
  induction layers generalizing left with
  | nil => rfl
  | cons layer rest ih =>
    have hsplit : budgetBehind left (layer :: rest) = budgetBehind (budgetBehind left [layer]) rest :=
      budgetBehind_append left [layer] rest
    rw [List.cons_append, fitted, fitted, ih, hsplit, List.append_assoc]

/-- A layer is kept as what fits of some layer into the budget behind those before it. -/
theorem mem_fitted {left : ℤ} {layers : List Layer} {layer : Layer} :
    layer ∈ fitted left layers ↔ ∃ before copy after, layers = before ++ copy :: after ∧
      fitWithin (budgetBehind left before) copy = some layer := by
  constructor
  · intro h
    induction layers generalizing left with
    | nil => cases h
    | cons copy rest ih =>
      rw [fitted, List.mem_append, Option.mem_toList] at h
      obtain hfirst | hlater := h
      · exact ⟨[], copy, rest, rfl, hfirst⟩
      · obtain ⟨before, other, after, rfl, hfits⟩ := ih hlater
        refine ⟨copy :: before, other, after, rfl, ?_⟩
        have hsplit : budgetBehind left (copy :: before) =
            budgetBehind (budgetBehind left [copy]) before :=
          budgetBehind_append left [copy] before
        rw [hsplit]
        exact hfits
  · rintro ⟨before, copy, after, rfl, hfits⟩
    rw [fitted_append, fitted, hfits]
    exact List.mem_append_right _ (List.mem_append_left _ List.mem_cons_self)

/-- A layer is kept with its type and its guardrail. -/
theorem fitWithin_same {left : ℤ} {copy layer : Layer} (h : fitWithin left copy = some layer) :
    layer.type = copy.type ∧ layer.isGuardrail = copy.isGuardrail := by
  unfold fitWithin at h
  split at h
  · cases h
    exact ⟨rfl, rfl⟩
  · split at h
    · cases h
      exact ⟨rfl, rfl⟩
    · split at h
      · cases h
        exact ⟨rfl, rfl⟩
      · cases h

/-- The types that are kept are those of a part of the layers. -/
theorem fitted_types (left : ℤ) (layers : List Layer) :
    ((fitted left layers).map Layer.type).Sublist (layers.map Layer.type) := by
  induction layers generalizing left with
  | nil => exact List.Sublist.refl _
  | cons layer rest ih =>
    rw [fitted, List.map_cons]
    cases hfits : fitWithin left layer with
    | none => exact (ih _).cons _
    | some kept =>
      have htype : kept.type = layer.type := (fitWithin_same hfits).1
      rw [Option.toList_some, List.singleton_append, List.map_cons, htype]
      exact (ih _).cons_cons _

/-- Every guardrail is kept as it is. -/
theorem fitted_guardrails (left : ℤ) (layers : List Layer) :
    (fitted left layers).filter Layer.isGuardrail = layers.filter Layer.isGuardrail := by
  induction layers generalizing left with
  | nil => rfl
  | cons layer rest ih =>
    rw [fitted, List.filter_append, ih]
    by_cases hguard : layer.isGuardrail = true
    · have hkept : fitWithin left layer = some layer := by simp [fitWithin, hguard]
      simp [hkept, hguard]
    · cases hfits : fitWithin left layer with
      | none => simp [hguard]
      | some kept =>
        have hsame : kept.isGuardrail = layer.isGuardrail := (fitWithin_same hfits).2
        simp [hsame, hguard]

/-- The other layers that are kept take no more than the budget that is left. -/
theorem fitted_within {left : ℤ} (hleft : 0 ≤ left) (layers : List Layer) :
    totalTokens ((fitted left layers).filter fun layer => !layer.isGuardrail) ≤ left := by
  induction layers generalizing left with
  | nil => exact hleft
  | cons layer rest ih =>
    have hrest := ih (budgetBehind_nonneg hleft [layer])
    have hsum : ∀ some more : List Layer, totalTokens (some ++ more) =
        totalTokens some + totalTokens more := by
      intro some more
      simp [totalTokens]
    rw [fitted, List.filter_append, hsum]
    by_cases hguard : layer.isGuardrail = true
    · have hkept : fitWithin left layer = some layer := by simp [fitWithin, hguard]
      have hsame : budgetBehind left [layer] = left := by simp [budgetBehind, costs, room, hguard]
      rw [hsame] at hrest ⊢
      simpa [hkept, hguard, totalTokens] using hrest
    · have hbehind : budgetBehind left [layer] = max 0 (left - layer.tokens) := by
        simp [budgetBehind, costs, room, hguard]
      rw [hbehind] at hrest ⊢
      by_cases hfits : layer.tokens ≤ left
      · have hkept : fitWithin left layer = some layer := by simp [fitWithin, hguard, hfits]
        have hone : totalTokens ((some layer).toList.filter fun layer => !layer.isGuardrail) =
            layer.tokens := by simp [totalTokens, hguard]
        rw [hkept, hone]
        omega
      · by_cases hpos : 0 < left
        · have hkept : fitWithin left layer = some (layer.cutTo left) := by
            simp [fitWithin, hguard, hfits, hpos]
          have hone : totalTokens ((some (layer.cutTo left)).toList.filter fun layer =>
              !layer.isGuardrail) = (layer.cutTo left).tokens := by simp [totalTokens, hguard]
          have hcut := Layer.cutTo_tokens_le hleft layer
          rw [hkept, hone]
          omega
        · have hkept : fitWithin left layer = none := by simp [fitWithin, hguard, hfits, hpos]
          have hone : totalTokens ((none : Option Layer).toList.filter fun layer =>
              !layer.isGuardrail) = 0 := rfl
          rw [hkept, hone]
          omega

/-- Without budget only layers without tokens are kept, and guardrails. -/
theorem fitted_exhausted {layers : List Layer} (h : ∀ layer ∈ layers, 0 ≤ layer.tokens) :
    ∀ layer ∈ fitted 0 layers, layer.isGuardrail = false → layer.tokens ≤ 0 := by
  intro layer hlayer hguard
  obtain ⟨before, copy, after, rfl, hfits⟩ := mem_fitted.mp hlayer
  have hcosts : ∀ cost ∈ costs before, 0 ≤ cost := by
    intro cost hcost
    obtain ⟨other, hother, rfl⟩ := List.mem_map.mp hcost
    exact h other (List.mem_append_left _ (List.mem_of_mem_filter hother))
  have hnone : budgetBehind 0 before = 0 := room_zero hcosts
  have hcopy : copy.isGuardrail = false := (fitWithin_same hfits).2 ▸ hguard
  rw [hnone] at hfits
  simp only [fitWithin, hcopy, Bool.false_eq_true, if_false, lt_irrefl] at hfits
  split at hfits
  · rename_i htokens
    cases hfits
    exact htokens
  · cases hfits

/-- The loop records a layer when it cuts or drops it for the budget. -/
theorem fitLayer_audit {fit : Fitting} {layer : Layer} (h : (fitLayer fit layer).audit ≠ fit.audit) :
    layer.isGuardrail = false ∧ fit.budgetLeft < layer.tokens := by
  by_cases hguard : layer.isGuardrail = true
  · exact absurd (by simp [fitLayer, hguard]) h
  · by_cases hfits : layer.tokens ≤ fit.budgetLeft
    · exact absurd (by simp [fitLayer, hguard, hfits]) h
    · exact ⟨by simpa using hguard, by omega⟩

end Loop

section Assembly

variable (lower : Text → Text) (layers : List Layer) (budgetTotal : ℤ) (caps : Caps)

/-- What the guardrails leave of the budget. -/
def unguarded : ℤ :=
  max 0 (budgetTotal - totalTokens ((firstCopies lower layers).filter Layer.isGuardrail))

/-- The caps leave the guardrails alone. -/
theorem cappedLayers_guardrails : (cappedLayers lower layers caps).filter Layer.isGuardrail =
    (firstCopies lower layers).filter Layer.isGuardrail := by
  unfold cappedLayers
  generalize firstCopies lower layers = copies
  induction copies with
  | nil => rfl
  | cons copy rest ih =>
    by_cases hguard : copy.isGuardrail = true
    · rw [List.map_cons, capLayer_guardrail hguard, List.filter_cons_of_pos hguard,
        List.filter_cons_of_pos hguard, ih]
    · have hcapped : ¬(capLayer caps.orDefault copy).isGuardrail = true := by simpa using hguard
      rw [List.map_cons, List.filter_cons_of_neg hcapped, List.filter_cons_of_neg hguard, ih]

theorem fittingAfter_spec (done : List Layer) :
    (fittingAfter lower layers budgetTotal caps done).kept =
        fitted (unguarded lower layers budgetTotal) done ∧
      (fittingAfter lower layers budgetTotal caps done).budgetLeft =
        budgetBehind (unguarded lower layers budgetTotal) done := by
  have hstart := cappedLayers_guardrails lower layers caps
  unfold fittingAfter unguarded
  rw [← hstart]
  exact foldl_fitLayer (le_max_left 0 _) done

/-- The assembly keeps what fits of the capped first copies. -/
theorem assembleLayers_fitted : (assembleLayers lower layers budgetTotal caps).layers =
    fitted (unguarded lower layers budgetTotal) (cappedLayers lower layers caps) := by
  rw [assembleLayers_layers]
  exact (fittingAfter_spec lower layers budgetTotal caps _).1

/-- The layers that are kept are in the order of precedence and within the
budget or the guardrails. Behind a layer that the loop over the budget cut or
dropped only guardrails and layers without tokens are kept. -/
theorem assembleLayers_budgeted (htokens : ∀ layer ∈ layers, 0 ≤ layer.tokens) :
    let result := assembleLayers lower layers budgetTotal caps
    let after := fittingAfter lower layers budgetTotal caps
    Ordered result.layers ∧
      totalTokens result.layers ≤
        max budgetTotal (totalTokens (result.layers.filter Layer.isGuardrail)) ∧
      ∀ before layer behind, cappedLayers lower layers caps = before ++ layer :: behind →
        (after (before ++ [layer])).audit ≠ (after before).audit →
        ∃ later, result.layers = (after (before ++ [layer])).kept ++ later ∧
          ∀ kept ∈ later, kept.isGuardrail = false → kept.tokens ≤ 0 := by
  intro result after
  have hresult : result.layers =
      fitted (unguarded lower layers budgetTotal) (cappedLayers lower layers caps) :=
    assembleLayers_fitted lower layers budgetTotal caps
  have hroom : 0 ≤ unguarded lower layers budgetTotal := le_max_left 0 _
  refine ⟨?_, ?_, ?_⟩
  · have hordered : ((cappedLayers lower layers caps).map Layer.type).Pairwise
        fun type later => LAYER_PRECEDENCE later ≤ LAYER_PRECEDENCE type := by
      have hsame : (cappedLayers lower layers caps).map Layer.type =
          (firstCopies lower layers).map Layer.type := by
        simp [cappedLayers]
      rw [hsame]
      exact List.pairwise_map.mpr (firstCopies_ordered lower layers)
    rw [hresult]
    exact List.pairwise_map.mp (hordered.sublist (fitted_types _ _))
  · have hguards : result.layers.filter Layer.isGuardrail =
        (firstCopies lower layers).filter Layer.isGuardrail := by
      rw [hresult, fitted_guardrails, cappedLayers_guardrails]
    have hothers := fitted_within hroom (cappedLayers lower layers caps)
    rw [← hresult] at hothers
    have hsplit : totalTokens result.layers =
        totalTokens (result.layers.filter Layer.isGuardrail) +
          totalTokens (result.layers.filter fun layer => !layer.isGuardrail) := by
      unfold totalTokens
      have hperm := (List.filter_append_perm Layer.isGuardrail result.layers).map Layer.tokens
      rw [← hperm.sum_eq, List.map_append, List.sum_append]
    have hunguarded : unguarded lower layers budgetTotal =
        max 0 (budgetTotal - totalTokens (result.layers.filter Layer.isGuardrail)) := by
      rw [hguards]
      rfl
    omega
  · intro before layer behind hcapped hcut
    have hspec := fittingAfter_spec lower layers budgetTotal caps
    have hstep : after (before ++ [layer]) = fitLayer (after before) layer := by
      simp [after, fittingAfter]
    rw [hstep] at hcut
    obtain ⟨hguard, hover⟩ := fitLayer_audit hcut
    have hused : budgetBehind (unguarded lower layers budgetTotal) (before ++ [layer]) = 0 := by
      have hleft : budgetBehind (unguarded lower layers budgetTotal) before < layer.tokens :=
        (hspec before).2 ▸ hover
      have hlast : budgetBehind (budgetBehind (unguarded lower layers budgetTotal) before) [layer] =
          max 0 (budgetBehind (unguarded lower layers budgetTotal) before - layer.tokens) := by
        generalize budgetBehind (unguarded lower layers budgetTotal) before = left
        simp [budgetBehind, costs, room, hguard]
      rw [budgetBehind_append, hlast]
      omega
    have htail : cappedLayers lower layers caps = (before ++ [layer]) ++ behind := by
      rw [hcapped]
      simp
    refine ⟨fitted 0 behind, ?_, ?_⟩
    · rw [hresult, htail, fitted_append, hused, (hspec (before ++ [layer])).1]
    · refine fitted_exhausted fun other hother => ?_
      have hmem : other ∈ cappedLayers lower layers caps := by
        rw [htail]
        exact List.mem_append_right _ hother
      obtain ⟨copy, hcopy, rfl⟩ := List.mem_map.mp hmem
      have hinput : copy ∈ layers := mem_orderLayers.mp ((firstsFrom_sublist _ _ _).subset hcopy)
      unfold capLayer
      split
      · exact Layer.cutTo_tokens_nonneg _ _
      · exact htokens copy hinput

/-- The content of every guardrail is in some layer of the result. -/
def GuardrailsKept : Prop :=
  ∀ guard ∈ layers, guard.isGuardrail = true →
    ∃ layer ∈ (assembleLayers lower layers budgetTotal caps).layers,
      normalized lower layer.content = normalized lower guard.content

/-- What is shown of the first copy of a content, behind the copies before it:
a guardrail as it is, another layer cut to its cap and to the budget that is left. -/
def shown (before : List Layer) (copy : Layer) : Option Layer :=
  fitWithin (budgetBehind (unguarded lower layers budgetTotal) (before.map (capLayer caps.orDefault)))
    (capLayer caps.orDefault copy)

/-- For every guardrail there is a first copy that still shows its content. -/
def CopiesSurvive : Prop :=
  ∀ guard ∈ layers, guard.isGuardrail = true →
    ∃ before copy behind layer, firstCopies lower layers = before ++ copy :: behind ∧
      shown lower layers budgetTotal caps before copy = some layer ∧
      normalized lower layer.content = normalized lower guard.content

/-- A layer of the result is what is shown of a first copy. -/
theorem mem_assembleLayers {layer : Layer} :
    layer ∈ (assembleLayers lower layers budgetTotal caps).layers ↔
      ∃ before copy behind, firstCopies lower layers = before ++ copy :: behind ∧
        shown lower layers budgetTotal caps before copy = some layer := by
  rw [assembleLayers_fitted, mem_fitted]
  constructor
  · rintro ⟨before, capped, behind, hsplit, hfits⟩
    obtain ⟨copies, rest, hcopies, rfl, hrest⟩ := List.map_eq_append_iff.mp hsplit
    obtain ⟨copy, others, rfl, rfl, rfl⟩ := List.map_eq_cons_iff.mp hrest
    exact ⟨copies, copy, others, hcopies, hfits⟩
  · rintro ⟨before, copy, behind, hsplit, hshown⟩
    refine ⟨before.map (capLayer caps.orDefault), capLayer caps.orDefault copy,
      behind.map (capLayer caps.orDefault), ?_, hshown⟩
    unfold cappedLayers
    rw [hsplit, List.map_append, List.map_cons]

/-- The contents of the guardrails are kept exactly when a first copy of each
survives the caps and the budget. -/
theorem guardrailsKept_iff : GuardrailsKept lower layers budgetTotal caps ↔
    CopiesSurvive lower layers budgetTotal caps := by
  constructor
  · intro h guard hguard hflag
    obtain ⟨layer, hlayer, hcontent⟩ := h guard hguard hflag
    obtain ⟨before, copy, behind, hsplit, hshown⟩ :=
      (mem_assembleLayers lower layers budgetTotal caps).mp hlayer
    exact ⟨before, copy, behind, layer, hsplit, hshown, hcontent⟩
  · intro h guard hguard hflag
    obtain ⟨before, copy, behind, layer, hsplit, hshown, hcontent⟩ := h guard hguard hflag
    refine ⟨layer, (mem_assembleLayers lower layers budgetTotal caps).mpr ?_, hcontent⟩
    exact ⟨before, copy, behind, hsplit, hshown⟩

/-- A guardrail that is the first of its digest is kept as it is. -/
theorem firstCopy_kept {guard : Layer} (h : guard ∈ firstCopies lower layers)
    (hflag : guard.isGuardrail = true) :
    guard ∈ (assembleLayers lower layers budgetTotal caps).layers := by
  obtain ⟨before, behind, hsplit⟩ := List.append_of_mem h
  refine (mem_assembleLayers lower layers budgetTotal caps).mpr ⟨before, guard, behind, hsplit, ?_⟩
  have hsame : capLayer caps.orDefault guard = guard := capLayer_guardrail hflag
  simp [shown, hsame, fitWithin, hflag]

end Assembly

/-- A layer of the user without a guardrail and one of the project under a
guardrail, of one content. -/
def sampleLayers : List Layer :=
  [{ type := .user, content := "never push".toList, tokens := 2 },
    { type := .project, content := "Never push".toList, guardrail := true, tokens := 2 }]

/-- Lower case of ASCII text. -/
def lowerAscii (text : Text) : Text := text.map Char.toLower

theorem sampleLayers_lost : ¬GuardrailsKept lowerAscii sampleLayers 1 [] := by
  have hlayers : (assembleLayers lowerAscii sampleLayers 1 []).layers =
      [{ type := .user, content := "never".toList, tokens := 1 }] := by decide +kernel
  intro h
  obtain ⟨layer, hlayer, hcontent⟩ := h
    { type := .project, content := "Never push".toList, guardrail := true, tokens := 2 }
    (by decide) (by decide)
  rw [hlayers, List.mem_singleton] at hlayer
  rw [hlayer] at hcontent
  exact absurd hcontent (by decide)

theorem sampleLayers_budgeted :
    totalTokens (assembleLayers lowerAscii sampleLayers 1 []).layers ≤
      max 1 (totalTokens ((assembleLayers lowerAscii sampleLayers 1 []).layers.filter
        Layer.isGuardrail)) :=
  (assembleLayers_budgeted lowerAscii sampleLayers 1 [] (by decide)).2.1

end AiosDeck.Context
