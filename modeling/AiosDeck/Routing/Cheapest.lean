import Mathlib
import AiosDeck.Routing.Engine

/-!
# The re-route under the cost cap

A model over the cap is exchanged for the first fallback that fits. It raises exactly
when none fits; the fallback is the cheapest one exactly when no later one that fits
costs less.
-/

namespace AiosDeck.Routing

open Python

namespace RouteConfig

variable {config : RouteConfig} {input : RouteInput}

/-- A fallback is estimated at this cost, within the cap. -/
def Fits (config : RouteConfig) (input : RouteInput) (fallback : Fallback) (cost : PyFloat) : Prop :=
  estimateCost fallback.model input.complexity input.contextSize = .ok cost ∧
    cost.leNum config.costCap = true

/-- The rule that matches names a model that is estimated above the cap. -/
structure Dear (config : RouteConfig) (input : RouteInput) (rule : RouteRule) (idx : ℕ)
    (cost : PyFloat) : Prop where
  noOverride : input.modelOverride = ""
  matching : config.matchingRule input = some (rule, idx)
  capped : config.costCap.isPos
  estimate : estimateCost (config.ruleModel rule) input.complexity input.contextSize = .ok cost
  above : cost.leNum config.costCap = false

/-- The router goes over to a fallback within the cap that no other fallback within the
cap undercuts, and raises exactly when none is within it. -/
structure CheapestReroute (config : RouteConfig) (input : RouteInput) (chain : List Fallback) :
    Prop where
  reroutes : ∀ decision, config.route input = .ok decision → ∃ fallback ∈ chain,
    decision.provider = fallback.provider ∧ decision.model = fallback.model ∧
      config.Fits input fallback decision.estimatedCost ∧
        ∀ other ∈ chain, ∀ cost, config.Fits input other cost → decision.estimatedCost.le cost = true
  raises : (∃ exc, config.route input = .error exc) ↔
    ∀ other ∈ chain, ∀ cost, ¬config.Fits input other cost

/-- No fallback behind the first one that fits fits at a lower cost. -/
def FirstIsCheapest (config : RouteConfig) (input : RouteInput) (chain : List Fallback) : Prop :=
  ∀ before first behind cost, chain = before ++ first :: behind →
    (∀ earlier ∈ before, ∀ price, ¬config.Fits input earlier price) →
    config.Fits input first cost →
      ∀ later ∈ behind, ∀ price, config.Fits input later price → cost.le price = true

/-- A float within a cap is at most itself. -/
theorem le_self_of_leNum {x : PyFloat} {cap : PyNum} (h : x.leNum cap = true) : x.le x = true := by
  cases x with
  | finite q => exact decide_eq_true le_rfl
  | posInf => rfl
  | negInf => rfl
  | nan =>
    unfold PyFloat.leNum at h
    cases cap with
    | int n => cases h
    | float y => cases y <;> cases h

/-- Beside a model whose cost is not zero every model is estimated. -/
theorem estimateCost_ok {model other complexity : String} {contextSize : ℤ} {cost : PyFloat}
    (h : estimateCost model complexity contextSize = .ok cost) (hcost : cost ≠ .finite 0) :
    ∃ price, estimateCost other complexity contextSize = .ok price := by
  have htokens : (∃ tokens, ofInt (max contextSize 1 * 4) = .ok tokens) ∧
      ∃ tokens, ofInt ((complexityTokens.lookup complexity).getD 1000) = .ok tokens := by
    unfold estimateCost at h
    dsimp only at h
    split at h
    · cases h
      exact absurd rfl hcost
    · cases hinput : ofInt (max contextSize 1 * 4) with
      | error exc =>
        rw [hinput] at h
        cases h
      | ok inputTokens =>
        rw [hinput] at h
        cases houtput : ofInt ((complexityTokens.lookup complexity).getD 1000) with
        | error exc =>
          rw [houtput] at h
          cases h
        | ok outputTokens => exact ⟨⟨inputTokens, rfl⟩, ⟨outputTokens, rfl⟩⟩
  obtain ⟨⟨inputTokens, hinput⟩, ⟨outputTokens, houtput⟩⟩ := htokens
  unfold estimateCost
  dsimp only
  split
  · exact ⟨_, rfl⟩
  · rw [hinput, houtput]
    exact ⟨_, rfl⟩

/-- Nothing is within the cap that no cost is above. -/
theorem leNum_zero {cap : PyNum} (h : cap.isPos = true) : (PyFloat.finite 0).leNum cap = true := by
  unfold PyNum.isPos at h
  split at h
  · rename_i n
    have hpos : 0 < n := of_decide_eq_true h
    exact decide_eq_true (by exact_mod_cast hpos.le)
  · exact decide_eq_true (of_decide_eq_true h).le
  · rfl
  · cases h

theorem Dear.estimates {rule : RouteRule} {idx : ℕ} {cost : PyFloat}
    (h : config.Dear input rule idx cost) (model : String) :
    ∃ price, estimateCost model input.complexity input.contextSize = .ok price := by
  refine estimateCost_ok h.estimate fun hzero => ?_
  have habove := h.above
  rw [hzero, leNum_zero h.capped] at habove
  cases habove

/-- The search ends at the first fallback that fits, or at none. -/
theorem firstFitting_spec {chain : List Fallback}
    (h : ∀ model, ∃ price, estimateCost model input.complexity input.contextSize = .ok price) :
    (config.firstFitting input chain = .ok none ∧
        ∀ other ∈ chain, ∀ price, ¬config.Fits input other price) ∨
      ∃ before first behind cost, chain = before ++ first :: behind ∧
        (∀ earlier ∈ before, ∀ price, ¬config.Fits input earlier price) ∧
        config.Fits input first cost ∧
        config.firstFitting input chain = .ok (some (first, cost)) := by
  induction chain with
  | nil => exact Or.inl ⟨rfl, fun other hother => absurd hother List.not_mem_nil⟩
  | cons head rest ih =>
    obtain ⟨cost, hcost⟩ := h head.model
    have hstep : config.firstFitting input (head :: rest) =
        if cost.leNum config.costCap then .ok (some (head, cost))
        else config.firstFitting input rest := by
      rw [firstFitting, hcost]
      rfl
    cases hle : cost.leNum config.costCap with
    | true =>
      refine Or.inr ⟨[], head, rest, cost, rfl, fun earlier hmem => absurd hmem List.not_mem_nil,
        ⟨hcost, hle⟩, ?_⟩
      rw [hstep, hle]
      rfl
    | false =>
      have hhead : ∀ price, ¬config.Fits input head price := by
        rintro price ⟨hprice, hfits⟩
        rw [hcost] at hprice
        cases hprice
        rw [hle] at hfits
        cases hfits
      have hrest : config.firstFitting input (head :: rest) = config.firstFitting input rest := by
        rw [hstep, hle]
        rfl
      rw [hrest]
      rcases ih with ⟨hnone, hall⟩ | ⟨before, first, behind, price, hsplit, hbefore, hfits, hfound⟩
      · refine Or.inl ⟨hnone, fun other hother => ?_⟩
        rcases List.mem_cons.mp hother with rfl | hmem
        · exact hhead
        · exact hall other hmem
      · refine Or.inr ⟨head :: before, first, behind, price, by rw [hsplit]; rfl,
          fun earlier hearlier => ?_, hfits, hfound⟩
        rcases List.mem_cons.mp hearlier with rfl | hmem
        · exact hhead
        · exact hbefore earlier hmem

theorem firstFitting_of_split {before : List Fallback} {first : Fallback} {cost : PyFloat}
    (h : ∀ model, ∃ price, estimateCost model input.complexity input.contextSize = .ok price)
    (behind : List Fallback) (hbefore : ∀ earlier ∈ before, ∀ price, ¬config.Fits input earlier price)
    (hfits : config.Fits input first cost) :
    config.firstFitting input (before ++ first :: behind) = .ok (some (first, cost)) := by
  induction before with
  | nil =>
    rw [List.nil_append, firstFitting, hfits.1]
    change (if cost.leNum config.costCap then _ else _) = _
    rw [hfits.2]
    rfl
  | cons head rest ih =>
    obtain ⟨price, hprice⟩ := h head.model
    have habove : price.leNum config.costCap = false :=
      Bool.eq_false_of_not_eq_true fun hle => hbefore head List.mem_cons_self price ⟨hprice, hle⟩
    rw [List.cons_append, firstFitting, hprice]
    change (if price.leNum config.costCap then _ else _) = _
    rw [habove]
    exact ih fun earlier hmem => hbefore earlier (List.mem_cons_of_mem _ hmem)

/-- The chain of a rule. -/
def ruleChain (config : RouteConfig) (rule : RouteRule) : List Fallback :=
  config.fallbackChain (config.ruleProvider rule)

/-- Above the cap the route is decided by the search. -/
theorem Dear.route_eq {rule : RouteRule} {idx : ℕ} {cost : PyFloat}
    (h : config.Dear input rule idx cost) :
    (config.firstFitting input (config.ruleChain rule) = .ok none →
        ∃ exc, config.route input = .error exc) ∧
      ∀ first price, config.firstFitting input (config.ruleChain rule) = .ok (some (first, price)) →
        ∃ decision, config.route input = .ok decision ∧ decision.provider = first.provider ∧
          decision.model = first.model ∧ decision.estimatedCost = price := by
  have hpositive : config.costCap.leZero = false := PyNum.not_leZero h.capped
  have hroute : config.route input = config.decisionFromRule rule idx input >>= fun decision =>
      config.applyCostCap input decision idx := by
    unfold route
    rw [if_neg (fun hne => hne h.noOverride), h.matching]
  unfold decisionFromRule applyCostCap at hroute
  simp only [bind, Except.bind, pure, Except.pure, h.estimate, hpositive, Bool.false_or, h.above,
    Bool.false_eq_true, if_false] at hroute
  unfold ruleChain
  constructor
  · intro hnone
    rw [hnone] at hroute
    exact ⟨_, hroute⟩
  · intro first price hfound
    rw [hfound] at hroute
    exact ⟨_, hroute, rfl, rfl, rfl⟩

/-- The re-route is the cheapest one exactly when no fallback behind the first one that
fits fits at a lower cost. -/
theorem route_cheapest_iff (rule : RouteRule) (idx : ℕ) (cost : PyFloat)
    (h : config.Dear input rule idx cost) :
    config.CheapestReroute input (config.ruleChain rule) ↔
      config.FirstIsCheapest input (config.ruleChain rule) := by
  obtain ⟨hraises, hreroutes⟩ := h.route_eq
  rcases @firstFitting_spec config input (config.ruleChain rule) h.estimates with
    ⟨hnone, hall⟩ | ⟨before, first, behind, price, hsplit, hbefore, hfits, hfound⟩
  · obtain ⟨exc, hexc⟩ := hraises hnone
    refine iff_of_true ⟨fun decision hdecision => ?_, iff_of_true ⟨exc, hexc⟩ hall⟩ ?_
    · rw [hexc] at hdecision
      cases hdecision
    · intro before first behind price hsplit _ hfits
      refine absurd hfits (hall first ?_ price)
      rw [hsplit]
      exact List.mem_append_right _ List.mem_cons_self
  · obtain ⟨decision, hdecision, hprovider, hmodel, hprice⟩ := hreroutes first price hfound
    have hmem : first ∈ config.ruleChain rule := by
      rw [hsplit]
      exact List.mem_append_right _ List.mem_cons_self
    have hraise : (∃ exc, config.route input = .error exc) ↔
        ∀ other ∈ config.ruleChain rule, ∀ cost, ¬config.Fits input other cost := by
      refine iff_of_false ?_ fun hall => hall first hmem price hfits
      rintro ⟨exc, hexc⟩
      rw [hdecision] at hexc
      cases hexc
    constructor
    · intro hcheapest
      obtain ⟨chosen, -, -, -, -, hminimal⟩ := hcheapest.reroutes decision hdecision
      rw [hprice] at hminimal
      intro before' first' behind' price' hsplit' hbefore' hfits' later hlater other hother
      -- The search ends at the first fallback that fits, wherever the chain is split.
      have hfound' := firstFitting_of_split h.estimates behind' hbefore' hfits'
      rw [← hsplit', hfound] at hfound'
      cases hfound'
      refine hminimal later ?_ other hother
      rw [hsplit']
      exact List.mem_append_right _ (List.mem_cons_of_mem _ hlater)
    · intro hfirst
      refine ⟨fun other hother => ?_, hraise⟩
      rw [hdecision] at hother
      cases hother
      refine ⟨first, hmem, hprovider, hmodel, hprice ▸ hfits, fun other hother cost hcost => ?_⟩
      rw [hprice]
      rw [hsplit, List.mem_append, List.mem_cons] at hother
      rcases hother with hearlier | rfl | hlater
      · exact absurd hcost (hbefore other hearlier cost)
      · have hsame := Except.ok.inj (hfits.1.symm.trans hcost.1)
        rw [← hsame]
        exact le_self_of_leNum hfits.2
      · exact hfirst before first behind price hsplit hbefore hfits other hlater cost hcost

theorem exists_estimate {model complexity : String} {contextSize : ℤ} {cap : PyNum} {fits : Bool}
    (h : (estimateCost model complexity contextSize).toOption.map (fun cost => cost.leNum cap) =
      some fits) :
    ∃ cost, estimateCost model complexity contextSize = .ok cost ∧ cost.leNum cap = fits := by
  cases hcost : estimateCost model complexity contextSize with
  | error exc =>
    rw [hcost] at h
    cases h
  | ok cost =>
    rw [hcost] at h
    exact ⟨cost, rfl, Option.some.inj h⟩

/-- The planner goes to a dear model. -/
def dearRule : RouteRule :=
  { agent := some "planner", provider := some "anthropic", model := some "claude-opus" }

/-- A dear model under a cap, with these fallbacks. -/
def dearFirst (fallbackProviders : List FallbackProvider) : RouteConfig where
  rules := [dearRule]
  costCap := .float (decimal 0.01)
  fallbackProviders := fallbackProviders

theorem dearFirst_dear (fallbackProviders : List FallbackProvider)
    (hrule : (dearFirst fallbackProviders).ruleModel dearRule = "anthropic/claude-opus") :
    ∃ cost, (dearFirst fallbackProviders).Dear { agent := "planner" } dearRule 0 cost := by
  have hdear : ((estimateCost "anthropic/claude-opus" "medium" 0).toOption.map fun cost =>
      cost.leNum (.float (decimal 0.01))) = some false := by decide +kernel
  obtain ⟨cost, hcost, habove⟩ := exists_estimate hdear
  have hcapped : (PyNum.float (decimal 0.01)).isPos = true := by decide +kernel
  refine ⟨cost, rfl, rfl, hcapped, ?_, habove⟩
  rw [hrule]
  exact hcost

/-- With one fallback within the cap the re-route goes there. -/
theorem dearFirst_cheapest :
    (dearFirst [{ provider := some "ollama" }]).CheapestReroute { agent := "planner" }
      ((dearFirst [{ provider := some "ollama" }]).ruleChain dearRule) := by
  obtain ⟨cost, hdear⟩ := dearFirst_dear [{ provider := some "ollama" }] (by decide)
  refine (route_cheapest_iff dearRule 0 cost hdear).mpr ?_
  intro before first behind price hsplit _ _ later hlater
  have hone : ((dearFirst [{ provider := some "ollama" }]).ruleChain dearRule).length = 1 := by
    decide
  have hpositive := List.length_pos_of_mem hlater
  rw [hsplit, List.length_append, List.length_cons] at hone
  omega

/-- Behind a fallback within the cap there is one that costs nothing, and the router
does not take it. -/
theorem dearFirst_not_cheapest :
    ¬∀ (config : RouteConfig) (input : RouteInput) (rule : RouteRule) (idx : ℕ) (cost : PyFloat),
      config.Dear input rule idx cost → config.CheapestReroute input (config.ruleChain rule) := by
  intro h
  let config := dearFirst
    [{ provider := some "openai", model := some "gpt-4o" }, { provider := some "ollama" }]
  obtain ⟨cost, hdear⟩ := dearFirst_dear
    [{ provider := some "openai", model := some "gpt-4o" }, { provider := some "ollama" }]
    (by decide)
  have hcheapest := h config { agent := "planner" } dearRule 0 cost hdear
  have hroute : ((config.route { agent := "planner" }).toOption.map fun decision =>
      decision.estimatedCost.le (.finite 0)) = some false := by decide +kernel
  cases hdecision : config.route { agent := "planner" } with
  | error exc =>
    rw [hdecision] at hroute
    cases hroute
  | ok decision =>
    rw [hdecision] at hroute
    obtain ⟨-, -, -, -, -, hminimal⟩ := hcheapest.reroutes decision hdecision
    have hfree : (⟨"ollama", "ollama/llama3", ""⟩ : Fallback) ∈ config.ruleChain dearRule := by
      decide
    have hzero : estimateCost "ollama/llama3" "medium" 0 = .ok (.finite 0) := by decide +kernel
    have hle := hminimal _ hfree (.finite 0) ⟨hzero, by decide +kernel⟩
    have habove : decision.estimatedCost.le (.finite 0) = false := Option.some.inj hroute
    rw [habove] at hle
    cases hle

end RouteConfig

end AiosDeck.Routing
