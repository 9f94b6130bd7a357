import AiosDeck.Runtime.Engine

/-!
# The cost cap over the models that run

The cap holds for the model that a rule chooses. The default model and the
fallbacks that the runtime goes on to are not held against it.
-/

namespace AiosDeck.Runtime

open Python Routing

/-- The router estimates the cost of a model, and it is at most the cap. -/
def Affordable (config : RouteConfig) (input : RouteInput) (model : String) : Prop :=
  ∃ cost, estimateCost model input.complexity input.contextSize = .ok cost ∧
    cost.leNum config.costCap

/-- Every model that is handed to the adapter is affordable. -/
def Capped (config : RouteConfig) (request : RuntimeRequest) (adapter : Adapter) : Prop :=
  ∀ attempt ∈ (execute request adapter (some config)).handed,
    Affordable config (routeInput request) attempt.model

/-- Every fallback that is reached is affordable: the adapter fails on the
model before the chain and on the fallbacks before it. -/
def FallbacksFit (config : RouteConfig) (input : RouteInput) (adapter : Adapter)
    (chain : List Fallback) : Prop :=
  ∀ (n : ℕ) (fallback : Fallback), chain[n]? = some fallback →
    (∀ earlier ≤ n, adapter.Fails earlier) → Affordable config input fallback.model

/-- What keeps an execution under the cap: without a matching rule, that the
default model and the fallbacks reached are affordable; with one, that the
fallbacks reached are, behind the model of the rule or, when this is over the
cap, behind the first fallback that is not. -/
def KeepsUnder (config : RouteConfig) (input : RouteInput) (adapter : Adapter) : Prop :=
  match config.matchingRule input with
  | none => ∀ cost, estimateCost config.defaultModelId input.complexity input.contextSize = .ok cost →
      cost.leNum config.costCap ∧
        FallbacksFit config input adapter (config.fallbackChain config.defaultProvider)
  | some (rule, _) =>
    let chain := config.fallbackChain (config.ruleProvider rule)
    ∀ cost, estimateCost (config.ruleModel rule) input.complexity input.contextSize = .ok cost →
      if cost.leNum config.costCap then FallbacksFit config input adapter chain
      else ∀ fitting price, config.firstFitting input chain = .ok (some (fitting, price)) →
        FallbacksFit config input adapter
          (chain.filter fun entry => entry.provider ≠ fitting.provider)

section Loop

variable {request : RuntimeRequest} {adapter : Adapter} {source : String}

/-- A model is handed to the adapter when the adapter has failed on all
models before it. -/
theorem mem_handed (models : List ModelAttempt) (n : ℕ) (lastError : Option PyExc)
    (attempt : ModelAttempt) :
    attempt ∈ (tryModels request adapter source n lastError models).handed ↔
      ∃ k, models[k]? = some attempt ∧ ∀ earlier < k, adapter.Fails (n + earlier) := by
  induction models generalizing n lastError with
  | nil => simp [tryModels]
  | cons first rest ih =>
    have hhead : attempt = first →
        ∃ k, (first :: rest)[k]? = some attempt ∧ ∀ earlier < k, adapter.Fails (n + earlier) :=
      fun h => ⟨0, by rw [h]; rfl, fun earlier h => absurd h (Nat.not_lt_zero _)⟩
    have hstop : ¬ adapter.Fails n →
        (∃ k, (first :: rest)[k]? = some attempt ∧ ∀ earlier < k, adapter.Fails (n + earlier)) →
          attempt = first := by
      rintro hnot ⟨k, hk, hfails⟩
      cases k with
      | zero => exact (Option.some.inj hk).symm
      | succ k => exact absurd (hfails 0 (Nat.succ_pos k)) hnot
    unfold tryModels
    cases hanswer : adapter n with
    | ok raw =>
      have hnot : ¬ adapter.Fails n := by
        rintro ⟨exc, herror, -⟩
        rw [hanswer] at herror
        cases herror
      exact List.mem_singleton.trans ⟨hhead, hstop hnot⟩
    | error exc =>
      by_cases hcaught : isCaught exc
      · simp only [hcaught, if_true, List.mem_cons, ih]
        constructor
        · rintro (h | ⟨k, hk, hfails⟩)
          · exact hhead h
          · refine ⟨k + 1, hk, fun earlier hlt => ?_⟩
            cases earlier with
            | zero => exact ⟨exc, hanswer, hcaught⟩
            | succ earlier =>
              have hlater := hfails earlier (Nat.lt_of_succ_lt_succ hlt)
              rwa [Nat.add_right_comm] at hlater
        · rintro ⟨k, hk, hfails⟩
          cases k with
          | zero => exact .inl (Option.some.inj hk).symm
          | succ k =>
            refine .inr ⟨k, hk, fun earlier hlt => ?_⟩
            have hlater := hfails (earlier + 1) (Nat.succ_lt_succ hlt)
            rwa [Nat.add_right_comm]
      · have hnot : ¬ adapter.Fails n := by
          rintro ⟨other, herror, hother⟩
          rw [hanswer] at herror
          cases herror
          exact hcaught hother
        simp only [hcaught]
        exact List.mem_singleton.trans ⟨hhead, hstop hnot⟩

/-- The models of a decision are affordable if and only if its own model and
the fallbacks reached are. -/
theorem handed_affordable_iff (config : RouteConfig) (input : RouteInput) (attempt : ModelAttempt)
    (chain : List Fallback) :
    (∀ handed ∈ (tryModels request adapter source 0 none
      (attempt :: chain.map ofFallback)).handed, Affordable config input handed.model) ↔
      Affordable config input attempt.model ∧ FallbacksFit config input adapter chain := by
  simp only [mem_handed, Nat.zero_add]
  constructor
  · intro h
    refine ⟨h attempt ⟨0, rfl, fun earlier hlt => absurd hlt (Nat.not_lt_zero _)⟩, ?_⟩
    intro n fallback hfallback hfails
    refine h (ofFallback fallback) ⟨n + 1, ?_, fun earlier hlt => hfails earlier (Nat.le_of_lt_succ hlt)⟩
    rw [List.getElem?_cons_succ, List.getElem?_map, hfallback]
    rfl
  · rintro ⟨hfirst, hchain⟩ handed ⟨k, hk, hfails⟩
    cases k with
    | zero =>
      rw [← Option.some.inj hk]
      exact hfirst
    | succ k =>
      rw [List.getElem?_cons_succ, List.getElem?_map] at hk
      obtain ⟨fallback, hfallback, rfl⟩ := Option.map_eq_some_iff.mp hk
      exact hchain k fallback hfallback fun earlier hle => hfails earlier (Nat.lt_succ_of_le hle)

end Loop

section Route

variable {config : RouteConfig} {input : RouteInput}

theorem affordable_of_estimate {model : String} {cost : PyFloat}
    (h : estimateCost model input.complexity input.contextSize = .ok cost) :
    Affordable config input model ↔ cost.leNum config.costCap := by
  constructor
  · rintro ⟨other, hother, hle⟩
    rw [h] at hother
    rw [Except.ok.inj hother]
    exact hle
  · exact fun hle => ⟨cost, h, hle⟩

/-- The fallback that the router chooses for its cost is affordable. -/
theorem firstFitting_affordable {chain : List Fallback} {fitting : Fallback} {price : PyFloat}
    (h : config.firstFitting input chain = .ok (some (fitting, price))) :
    Affordable config input fitting.model := by
  induction chain with
  | nil => cases h
  | cons first rest ih =>
    unfold RouteConfig.firstFitting at h
    cases hcost : estimateCost first.model input.complexity input.contextSize with
    | error exc =>
      rw [hcost] at h
      cases h
    | ok cost =>
      rw [hcost] at h
      by_cases hle : cost.leNum config.costCap
      · have hsome : (some (first, cost) : Option (Fallback × PyFloat)) = some (fitting, price) := by
          simpa [bind, Except.bind, hle, pure, Except.pure] using h
        cases hsome
        exact ⟨price, hcost, hle⟩
      · refine ih ?_
        simpa [bind, Except.bind, hle] using h

/-- The model of a decision and the fallbacks reached behind it are affordable. -/
def Sound (config : RouteConfig) (input : RouteInput) (adapter : Adapter)
    (decision : RouteDecision) : Prop :=
  Affordable config input decision.model ∧
    FallbacksFit config input adapter decision.fallbackChain

/-- A decision by default. -/
theorem default_sound_iff (adapter : Adapter) :
    (∀ decision, config.defaultDecision input = .ok decision → Sound config input adapter decision) ↔
      ∀ cost, estimateCost config.defaultModelId input.complexity input.contextSize = .ok cost →
        cost.leNum config.costCap ∧
          FallbacksFit config input adapter (config.fallbackChain config.defaultProvider) := by
  unfold RouteConfig.defaultDecision
  cases hcost : estimateCost config.defaultModelId input.complexity input.contextSize with
  | error exc => simp [bind, Except.bind]
  | ok cost =>
    simp only [bind, Except.bind, pure, Except.pure, Except.ok.injEq, forall_eq', Sound]
    exact and_congr_left fun _ => affordable_of_estimate hcost

/-- A decision by a rule. -/
theorem rule_sound_iff (adapter : Adapter) (hcap : config.costCap.isPos) (rule : RouteRule) (idx : ℕ) :
    (∀ decision, (config.decisionFromRule rule idx input >>= fun decision =>
        config.applyCostCap input decision idx) = .ok decision → Sound config input adapter decision) ↔
      ∀ cost, estimateCost (config.ruleModel rule) input.complexity input.contextSize = .ok cost →
        if cost.leNum config.costCap then
          FallbacksFit config input adapter (config.fallbackChain (config.ruleProvider rule))
        else ∀ fitting price, config.firstFitting input
            (config.fallbackChain (config.ruleProvider rule)) = .ok (some (fitting, price)) →
          FallbacksFit config input adapter ((config.fallbackChain (config.ruleProvider rule)).filter
            fun entry => entry.provider ≠ fitting.provider) := by
  unfold RouteConfig.decisionFromRule RouteConfig.applyCostCap
  cases hcost : estimateCost (config.ruleModel rule) input.complexity input.contextSize with
  | error exc => simp [bind, Except.bind]
  | ok cost =>
    simp only [bind, Except.bind, pure, Except.pure, Except.ok.injEq, forall_eq',
      PyNum.not_leZero hcap, Bool.false_or]
    by_cases hle : cost.leNum config.costCap
    · simp only [hle, if_true, Except.ok.injEq, forall_eq', Sound]
      exact and_iff_right ((affordable_of_estimate hcost).mpr hle)
    · simp only [hle, Bool.false_eq_true, if_false]
      cases hfitting : config.firstFitting input
          (config.fallbackChain (config.ruleProvider rule)) with
      | error exc => simp
      | ok found =>
        cases found with
        | none => simp [throw, throwThe, MonadExceptOf.throw]
        | some entry =>
          obtain ⟨fitting, price⟩ := entry
          simp only [Except.ok.injEq, forall_eq', Sound, Option.some.injEq, Prod.mk.injEq, and_imp]
          refine (and_iff_right (firstFitting_affordable hfitting)).trans ?_
          constructor
          · rintro h other - rfl -
            exact h
          · exact fun h => h fitting price rfl rfl

end Route

/-- What is handed to the adapter is what the decision of the router names. -/
theorem capped_iff_sound (config : RouteConfig) (request : RuntimeRequest) (adapter : Adapter)
    (hmodel : request.model = "") : Capped config request adapter ↔
      ∀ decision, config.route (routeInput request) = .ok decision →
        Sound config (routeInput request) adapter decision := by
  unfold Capped execute
  simp only [hmodel, ne_eq, not_true_eq_false, if_false]
  cases hroute : config.route (routeInput request) with
  | error exc => simp
  | ok decision =>
    simp only [Except.ok.injEq, forall_eq']
    exact handed_affordable_iff config (routeInput request) _ decision.fallbackChain

/-- Every model that runs is within the cap if and only if the default model
and the fallbacks reached are. -/
theorem capped_iff (config : RouteConfig) (request : RuntimeRequest) (adapter : Adapter)
    (hcap : config.costCap.isPos) (hmodel : request.model = "") :
    Capped config request adapter ↔ KeepsUnder config (routeInput request) adapter := by
  rw [capped_iff_sound config request adapter hmodel]
  have hoverride : ¬(routeInput request).modelOverride ≠ "" := fun h => h rfl
  unfold KeepsUnder RouteConfig.route
  rw [if_neg hoverride]
  cases config.matchingRule (routeInput request) with
  | none => exact default_sound_iff adapter
  | some entry => exact rule_sound_iff adapter hcap entry.1 entry.2

/-- A rule that sends the planner to a local model, with a dear fallback. -/
def localFirst : RouteConfig where
  rules := [{ agent := some "planner", provider := some "ollama", model := some "llama3" }]
  costCap := .float (decimal 0.01)
  fallbackProviders := [{ provider := some "anthropic", model := some "claude-opus" }]

/-- The local model answers, and no fallback is reached. -/
theorem capped_local : Capped localFirst { agent := "planner" } fun _ => .ok "plan" := by
  refine (capped_iff localFirst { agent := "planner" } (fun _ => .ok "plan") (by decide +kernel)
    rfl).mpr ?_
  have hfit : ∀ chain, FallbacksFit localFirst (routeInput { agent := "planner" })
      (fun _ => .ok "plan") chain := by
    intro chain n fallback _ hfails
    obtain ⟨exc, herror, -⟩ := hfails 0 (Nat.zero_le n)
    cases herror
  intro cost hcost
  have hfree : ((estimateCost "ollama/llama3" "medium" 0).toOption.map
      fun cost => cost.leNum localFirst.costCap) = some true := by
    decide +kernel
  change estimateCost "ollama/llama3" "medium" 0 = .ok cost at hcost
  rw [hcost] at hfree
  rw [if_pos (Option.some.inj hfree)]
  exact hfit _

/-- The local model is not available, and the runtime goes on to the dear one. -/
theorem not_capped_local : ¬ Capped localFirst { agent := "planner" }
    fun _ => .error ⟨.runtimeError, "Runtime not available: opencode"⟩ := by
  intro hcapped
  have hhanded : (⟨"anthropic/claude-opus", "", "anthropic", ""⟩ : ModelAttempt) ∈
      (execute { agent := "planner" } (fun _ => .error ⟨.runtimeError,
        "Runtime not available: opencode"⟩) (some localFirst)).handed := by
    decide +kernel
  obtain ⟨cost, hcost, hle⟩ := hcapped _ hhanded
  have hdear : ((estimateCost "anthropic/claude-opus" "medium" 0).toOption.map
      fun cost => cost.leNum localFirst.costCap) = some false := by
    decide +kernel
  change estimateCost "anthropic/claude-opus" "medium" 0 = .ok cost at hcost
  rw [hcost] at hdear
  have hover : cost.leNum localFirst.costCap = false := Option.some.inj hdear
  rw [hover] at hle
  cases hle

end AiosDeck.Runtime
