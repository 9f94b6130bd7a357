import AiosDeck.Routing.Engine

/-!
# The runtime engine

A request is routed to a model and a chain of fallbacks, and the models are
handed to the adapter one after the other until one of them answers.
-/

namespace AiosDeck.Runtime

open Python Routing

/-- What `execute` is asked for, as far as it decides on a model. -/
structure RuntimeRequest where
  agent : String := ""
  taskType : String := ""
  complexity : String := "medium"
  contextSize : ℤ := 0
  model : String := ""

/-- An entry of `models_to_try`. -/
structure ModelAttempt where
  model : String
  variant : String := ""
  provider : String := ""
  reason : String := ""
  deriving DecidableEq

/-- The fields that `execute` sets on the result of the adapter. -/
structure RuntimeResult where
  output : String
  model : String
  provider : String
  fallbackUsed : Bool

/-- The payload of `runtime.route_selected`. -/
structure RouteEvent where
  agent : String
  taskType : String
  complexity : String
  provider : String
  model : String
  variant : String
  reason : String
  contextSize : ℤ
  source : String
  fallbackUsed : Bool
  fallbackReason : String

/-- The models that were handed to the adapter, and how `execute` ends. -/
structure Execution where
  handed : List ModelAttempt
  event : Option RouteEvent := none
  outcome : Except PyExc RuntimeResult

/-- `except (RuntimeError, TimeoutError)`, with their subclasses. -/
def isCaught (exc : PyExc) : Bool :=
  decide (exc.cls ∈ [ExcClass.runtimeError, .recursionError, .timeoutError,
    .user "RouteFallbackExhausted"])

/-- What the adapter does with the model behind so many others. -/
abbrev Adapter := ℕ → Except PyExc String

/-- The adapter fails on the model behind `n` others so that the next one is tried. -/
def Adapter.Fails (adapter : Adapter) (n : ℕ) : Prop := ∃ exc, adapter n = .error exc ∧ isCaught exc

/-- `_fallback_reason`. -/
def fallbackReason : Option PyExc → String
  | none => ""
  | some exc =>
    if exc.cls = .timeoutError then "timeout"
    else if (exc.message.toList.map Char.toLower).tails.any "budget".toList.isPrefixOf then
      "budget_exceeded"
    else "unavailable"

section Execute

variable (request : RuntimeRequest) (adapter : Adapter)

/-- The request that is routed. -/
def routeInput : RouteInput where
  agent := request.agent
  complexity := if request.complexity = "" then "medium" else request.complexity
  contextSize := request.contextSize

/-- The event of a model that has answered. -/
def routeEvent (attempt : ModelAttempt) (source : String) (n : ℕ) (lastError : Option PyExc) :
    RouteEvent where
  agent := request.agent
  taskType := request.taskType
  complexity := request.complexity
  provider := attempt.provider
  model := attempt.model
  variant := attempt.variant
  reason := attempt.reason
  contextSize := request.contextSize
  source := source
  fallbackUsed := decide (n ≠ 0)
  fallbackReason := fallbackReason lastError

/-- The loop over the models to try, behind `n` of them. -/
def tryModels (source : String) : ℕ → Option PyExc → List ModelAttempt → Execution
  | _, lastError, [] =>
    { handed := []
      outcome := .error ⟨.user "RouteFallbackExhausted", "All models exhausted for agent '" ++
        request.agent ++ "'. Last error: " ++ (lastError.map PyExc.message).getD "None"⟩ }
  | n, lastError, attempt :: rest =>
    match adapter n with
    | .ok raw =>
      { handed := [attempt]
        event := some (routeEvent request attempt source n lastError)
        outcome := .ok ⟨raw, attempt.model, attempt.provider, decide (n ≠ 0)⟩ }
    | .error exc =>
      if isCaught exc then
        let later := tryModels source (n + 1) (some exc) rest
        { later with handed := attempt :: later.handed }
      else { handed := [attempt], outcome := .error exc }

/-- An entry of a fallback chain, as a model to try. -/
def ofFallback (fallback : Fallback) : ModelAttempt :=
  { model := fallback.model, variant := fallback.variant, provider := fallback.provider }

/-- `RuntimeEngine.execute`. -/
def execute (router : Option RouteConfig) : Execution :=
  if request.model ≠ "" then
    tryModels request adapter "override" 0 none
      [{ model := request.model, reason := "explicit_override" }]
  else
    match router with
    | none => tryModels request adapter "legacy" 0 none [{ model := "" }]
    | some config =>
      match config.route (routeInput request) with
      | .error exc => { handed := [], outcome := .error exc }
      | .ok decision =>
        tryModels request adapter decision.source 0 none
          (⟨decision.model, decision.variant, decision.provider, decision.reason⟩ ::
            decision.fallbackChain.map ofFallback)

end Execute

end AiosDeck.Runtime
