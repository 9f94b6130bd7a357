import AiosDeck.Python.Floats
import AiosDeck.Python.Text

/-!
# The rule-based router

The first rule that matches an agent and a complexity chooses the model, or
the default does. The models of other providers are a chain of fallbacks. A
model that a rule chooses is held against the cost cap.
-/

namespace AiosDeck.Routing

open Python

/-- A rule; a key that is absent is `none`. -/
structure RouteRule where
  agent : Option String := none
  complexity : Option String := none
  provider : Option String := none
  model : Option String := none
  variant : Option String := none

/-- A provider to fall back to; a key that is absent is `none`. -/
structure FallbackProvider where
  provider : Option String := none
  model : Option String := none
  variant : Option String := none

/-- `RouteConfig`. -/
structure RouteConfig where
  defaultProvider : String := "ollama"
  defaultModel : String := "llama3"
  defaultVariant : String := ""
  rules : List RouteRule := []
  costCap : PyNum := .float (.finite 0)
  contextLimits : List (String × ℤ) := []
  fallbackProviders : List FallbackProvider := []

/-- `RouteInput`. -/
structure RouteInput where
  agent : String
  complexity : String := "medium"
  contextSize : ℤ := 0
  modelOverride : String := ""

/-- An entry of a fallback chain. -/
structure Fallback where
  provider : String
  model : String
  variant : String
  deriving DecidableEq

/-- `RouteDecision`. -/
structure RouteDecision where
  provider : String
  model : String
  variant : String := ""
  reason : String
  estimatedCost : PyFloat
  fallbackChain : List Fallback := []
  source : String := "router"

/-- `_MODEL_PRICING`. -/
def modelPricing : List (String × PyFloat) :=
  [("ollama/llama3", decimal 0),
    ("ollama/llama3:70b", decimal 0),
    ("ollama/codellama", decimal 0),
    ("anthropic/claude-haiku", decimal 1.25),
    ("anthropic/claude-sonnet", decimal 3),
    ("anthropic/claude-opus", decimal 15),
    ("openai/gpt-4o-mini", decimal 0.15),
    ("openai/gpt-4o", decimal 2.5),
    ("openrouter/deepseek/deepseek-v4-flash", decimal 0.068),
    ("openrouter/deepseek/deepseek-v4-flash-0731", decimal 0.08),
    ("openrouter/deepseek/deepseek-v4-flash-latest", decimal 0.08),
    ("openrouter/qwen/qwen3-coder", decimal 0.22),
    ("openrouter/openai/gpt-5-mini", decimal 0.30),
    ("openrouter/anthropic/claude-sonnet-4-5", decimal 3),
    ("opencode-go/opencode-go/qwen3.8-flash", decimal 0.15),
    ("opencode-go/opencode-go/deepseek-v4-flash", decimal 0.22),
    ("opencode-go/opencode-go/deepseek-v4-flash-peak", decimal 0.44),
    ("opencode-go/opencode-go/longcat-2.0", decimal 0.30),
    ("opencode-go/opencode-go/mimo-v2.5", decimal 0.14),
    ("opencode-go/opencode-go/mimo-v2.5-pro", decimal 0.435),
    ("opencode-go/opencode-go/glm-5.3-flash", decimal 0.15),
    ("opencode-go/opencode-go/minimax-m3", decimal 0.30),
    ("opencode-go/opencode-go/omen-alpha", decimal 0.20)]

/-- `_COMPLEXITY_VARIANT`. -/
def complexityVariant : List (String × String) := [("high", "high"), ("medium", ""), ("low", "minimal")]

/-- `_COMPLEXITY_TOKENS`. -/
def complexityTokens : List (String × ℤ) := [("high", 2000), ("medium", 1000), ("low", 500)]

/-- `_PROVIDER_SLUGS`. -/
def providerSlugs : List String :=
  ["ollama", "openrouter", "openai", "anthropic", "google", "groq", "deepseek", "mistral"]

/-- `model.partition("/")[0]`. -/
def beforeSlash (model : String) : String := String.ofList (model.toList.takeWhile (· ≠ '/'))

/-- `_estimate_cost`. -/
def estimateCost (modelId complexity : String) (contextSize : ℤ) : Except PyExc PyFloat := do
  let lookupId := String.ofList (modelId.toList.filter (· ≠ '~'))
  let inputPrice := (modelPricing.lookup lookupId).getD (decimal 0)
  if inputPrice = .finite 0 then return .finite 0
  let inputTokens ← ofInt (max contextSize 1 * 4)
  let outputTokens ← ofInt ((complexityTokens.lookup complexity).getD 1000)
  return ((inputPrice.mul inputTokens).add ((inputPrice.mul (.finite 3)).mul outputTokens)).divPos
    1000000

namespace RouteConfig

variable (config : RouteConfig)

/-- `_known_providers`. -/
def knownProviders : List String :=
  config.defaultProvider ::
    ((config.rules.filterMap RouteRule.provider).filter (· ≠ "") ++
      (config.fallbackProviders.filterMap FallbackProvider.provider).filter (· ≠ ""))

/-- `_model_id`. -/
def modelId (provider model : String) : String :=
  if '/' ∉ model.toList then provider ++ "/" ++ model
  else if beforeSlash model = provider ∨ beforeSlash model ∈ config.knownProviders ∨
      beforeSlash model ∈ providerSlugs then model
  else provider ++ "/" ++ model

/-- `_rule_matches`. -/
def ruleMatches (rule : RouteRule) (input : RouteInput) : Bool :=
  let agent := rule.agent.getD ""
  let complexity := rule.complexity.getD ""
  if agent ≠ "" ∧ agent ≠ input.agent then false
  else if complexity ≠ "" ∧ complexity ≠ input.complexity then false
  else
    let contextLimit := (config.contextLimits.lookup input.agent).getD 0
    !(decide (contextLimit ≠ 0) && decide (contextLimit < input.contextSize))

/-- The loop of `_build_fallback_chain` behind the providers it has seen. -/
def fallbackChainFrom : List String → List FallbackProvider → List Fallback
  | _, [] => []
  | seen, entry :: rest =>
    let provider := entry.provider.getD ""
    if provider = "" ∨ provider ∈ seen then fallbackChainFrom seen rest
    else
      ⟨provider, config.modelId provider (entry.model.getD config.defaultModel),
        entry.variant.getD ""⟩ :: fallbackChainFrom (provider :: seen) rest

/-- `_build_fallback_chain`. -/
def fallbackChain (currentProvider : String) : List Fallback :=
  config.fallbackChainFrom [currentProvider] config.fallbackProviders

/-- `_build_override_decision`. -/
def overrideDecision (input : RouteInput) : Except PyExc RouteDecision := do
  let modelName := afterFirst '/' input.modelOverride.toList
  let provider := if modelName = [] then "" else beforeSlash input.modelOverride
  return {
    provider := if provider = "" then "unknown" else provider
    model := input.modelOverride
    reason := "explicit_override"
    estimatedCost := ← estimateCost input.modelOverride input.complexity input.contextSize
    source := "override" }

/-- The provider of a rule. -/
def ruleProvider (rule : RouteRule) : String := rule.provider.getD config.defaultProvider

/-- The model of a rule. -/
def ruleModel (rule : RouteRule) : String :=
  config.modelId (config.ruleProvider rule) (rule.model.getD config.defaultModel)

/-- `_build_decision_from_rule`. -/
def decisionFromRule (rule : RouteRule) (idx : ℕ) (input : RouteInput) :
    Except PyExc RouteDecision := do
  return {
    provider := config.ruleProvider rule
    model := config.ruleModel rule
    variant := rule.variant.getD ((complexityVariant.lookup input.complexity).getD "")
    reason := "policy:" ++ toString idx
    estimatedCost := ← estimateCost (config.ruleModel rule) input.complexity input.contextSize
    fallbackChain := config.fallbackChain (config.ruleProvider rule) }

/-- The model without a rule. -/
def defaultModelId : String := config.modelId config.defaultProvider config.defaultModel

/-- `_build_default_decision`. -/
def defaultDecision (input : RouteInput) : Except PyExc RouteDecision := do
  return {
    provider := config.defaultProvider
    model := config.defaultModelId
    variant :=
      if config.defaultVariant = "" then (complexityVariant.lookup input.complexity).getD ""
      else config.defaultVariant
    reason := "heuristic:default"
    estimatedCost := ← estimateCost config.defaultModelId input.complexity input.contextSize
    fallbackChain := config.fallbackChain config.defaultProvider }

/-- The loop of `_apply_cost_cap`: the first fallback that fits the cap, and
its cost. -/
def firstFitting (input : RouteInput) : List Fallback → Except PyExc (Option (Fallback × PyFloat))
  | [] => return none
  | fallback :: rest => do
    let cost ← estimateCost fallback.model input.complexity input.contextSize
    if cost.leNum config.costCap then return some (fallback, cost)
    else firstFitting input rest

/-- `_apply_cost_cap`. -/
def applyCostCap (input : RouteInput) (decision : RouteDecision) (ruleIdx : ℕ) :
    Except PyExc RouteDecision := do
  if config.costCap.leZero || decision.estimatedCost.leNum config.costCap then return decision
  match ← config.firstFitting input decision.fallbackChain with
  | some (fallback, cost) =>
    return {
      provider := fallback.provider
      model := fallback.model
      variant := fallback.variant
      reason := "policy:" ++ toString ruleIdx ++ "+cost_cap"
      estimatedCost := cost
      fallbackChain := decision.fallbackChain.filter fun entry => entry.provider ≠ fallback.provider }
  | none => throw ⟨.runtimeError, "Cost cap $" ++ formatFixed 2 config.costCap.toFloat ++
      " exceeded: model " ++ decision.model ++ " costs $" ++ formatFixed 4 decision.estimatedCost ++
      ", and no fallback provider fits the budget"⟩

/-- The first rule that matches, and its position. -/
def matchingRule (input : RouteInput) : Option (RouteRule × ℕ) :=
  config.rules.zipIdx.find? fun entry => config.ruleMatches entry.1 input

/-- `RuleBasedRouter.route`. -/
def route (input : RouteInput) : Except PyExc RouteDecision :=
  if input.modelOverride ≠ "" then overrideDecision input
  else
    match config.matchingRule input with
    | some (rule, idx) => do
      let decision ← config.decisionFromRule rule idx input
      config.applyCostCap input decision idx
    | none => config.defaultDecision input

end RouteConfig

end AiosDeck.Routing
