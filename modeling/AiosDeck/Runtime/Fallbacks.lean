import Mathlib
import AiosDeck.Routing.Distinct
import AiosDeck.Runtime.Engine

/-!
# The fallbacks of the runtime

The models of a route are handed to the adapter in order until one answers or fails in
a way that is not caught. What is returned, raised and published depends on where that
is, and on nothing behind it.
-/

namespace AiosDeck.Runtime

open Python Routing

/-- `models_to_try` and the source of the decision. -/
def modelsToTry (request : RuntimeRequest) (router : Option RouteConfig) :
    Except PyExc (List ModelAttempt × String) :=
  if request.model ≠ "" then
    .ok ([{ model := request.model, reason := "explicit_override" }], "override")
  else
    match router with
    | none => .ok ([{ model := "" }], "legacy")
    | some config =>
      (config.route (routeInput request)).map fun decision =>
        (⟨decision.model, decision.variant, decision.provider, decision.reason⟩ ::
          decision.fallbackChain.map ofFallback, decision.source)

/-- What `RouteFallbackExhausted` says. -/
def isExhausted (outcome : Except PyExc RuntimeResult) : Prop :=
  ∃ message, outcome = .error ⟨.user "RouteFallbackExhausted", message⟩

/-- An execution follows its models: it hands them over in order up to the first one
that does not fail with a caught exception, and ends as that one does. -/
structure FollowsModels (models : List ModelAttempt) (adapter : Adapter) (execution : Execution) :
    Prop where
  /-- In order, each entry at most once. -/
  inOrder : ∃ k, execution.handed = models.take k
  /-- The first success is returned and published, and nothing is attempted behind it. -/
  answers : ∀ n attempt raw, models[n]? = some attempt → (∀ earlier < n, adapter.Fails earlier) →
    adapter n = .ok raw → execution.handed = models.take (n + 1) ∧
      execution.outcome = .ok ⟨raw, attempt.model, attempt.provider, decide (n ≠ 0)⟩ ∧
      ∃ event, execution.event = some event ∧ event.model = attempt.model ∧
        event.provider = attempt.provider ∧ event.fallbackUsed = decide (n ≠ 0)
  /-- An exception that is not caught is raised as it is. -/
  raises : ∀ n exc, n < models.length → (∀ earlier < n, adapter.Fails earlier) →
    adapter n = .error exc → isCaught exc = false →
      execution.handed = models.take (n + 1) ∧ execution.outcome = .error exc
  exhausted : isExhausted execution.outcome ↔ ∀ n < models.length, adapter.Fails n
  /-- Every model is handed over when all of them fail. -/
  handed : (∀ n < models.length, adapter.Fails n) → execution.handed = models
  published : execution.event.isSome = true ↔ ∃ result, execution.outcome = .ok result

section Loop

variable {request : RuntimeRequest} {adapter : Adapter} {source : String}

/-- What becomes of the models behind `n` others. -/
inductive Course (adapter : Adapter) (models : List ModelAttempt) (n : ℕ) (execution : Execution) :
    Prop where
  | answered (k : ℕ) (attempt : ModelAttempt) (raw : String) (event : RouteEvent)
      (found : models[k]? = some attempt) (before : ∀ earlier < k, adapter.Fails (n + earlier))
      (answer : adapter (n + k) = .ok raw) (handed : execution.handed = models.take (k + 1))
      (outcome : execution.outcome =
        .ok ⟨raw, attempt.model, attempt.provider, decide (n + k ≠ 0)⟩)
      (published : execution.event = some event)
      (model : event.model = attempt.model) (provider : event.provider = attempt.provider)
      (fallback : event.fallbackUsed = decide (n + k ≠ 0))
  | raised (k : ℕ) (exc : PyExc) (reached : k < models.length)
      (before : ∀ earlier < k, adapter.Fails (n + earlier))
      (failure : adapter (n + k) = .error exc) (uncaught : isCaught exc = false)
      (handed : execution.handed = models.take (k + 1)) (outcome : execution.outcome = .error exc)
      (silent : execution.event = none)
  | exhausted (all : ∀ k < models.length, adapter.Fails (n + k)) (handed : execution.handed = models)
      (outcome : isExhausted execution.outcome) (silent : execution.event = none)

/-- A model that fails in a caught way is followed by the course of the others. -/
theorem Course.cons {rest : List ModelAttempt} {n : ℕ} {later : Execution} (attempt : ModelAttempt)
    (hfails : adapter.Fails n) (h : Course adapter rest (n + 1) later) :
    Course adapter (attempt :: rest) n { later with handed := attempt :: later.handed } := by
  have hshift : ∀ k, n + 1 + k = n + (k + 1) := fun k => by omega
  have hbefore : ∀ {k}, (∀ earlier < k, adapter.Fails (n + 1 + earlier)) →
      ∀ earlier < k + 1, adapter.Fails (n + earlier) := by
    intro k hall earlier hlt
    cases earlier with
    | zero => exact hfails
    | succ earlier =>
      have hlater := hall earlier (Nat.lt_of_succ_lt_succ hlt)
      rwa [hshift] at hlater
  cases h with
  | answered k first raw event found before answer handed outcome published model provider fallback =>
    rw [hshift] at answer outcome fallback
    refine .answered (k + 1) first raw event found (hbefore before) answer ?_ outcome published model
      provider fallback
    dsimp only
    rw [handed]
    rfl
  | raised k exc reached before failure uncaught handed outcome silent =>
    rw [hshift] at failure
    refine .raised (k + 1) exc (Nat.succ_lt_succ reached) (hbefore before) failure uncaught ?_
      outcome silent
    dsimp only
    rw [handed]
    rfl
  | exhausted all handed outcome silent =>
    refine .exhausted (hbefore all) ?_ outcome silent
    dsimp only
    rw [handed]

/-- The loop runs its course. -/
theorem tryModels_course (request : RuntimeRequest) (adapter : Adapter) (source : String)
    (models : List ModelAttempt) : ∀ (n : ℕ) (lastError : Option PyExc),
      Course adapter models n (tryModels request adapter source n lastError models) := by
  induction models with
  | nil =>
    exact fun n lastError => .exhausted (fun k hk => absurd hk (Nat.not_lt_zero k)) rfl ⟨_, rfl⟩ rfl
  | cons attempt rest ih =>
    intro n lastError
    unfold tryModels
    cases hanswer : adapter n with
    | ok raw =>
      exact .answered 0 attempt raw _ rfl (fun earlier hlt => absurd hlt (Nat.not_lt_zero _)) hanswer
        rfl rfl rfl rfl rfl rfl
    | error exc =>
      dsimp only
      cases hcaught : isCaught exc with
      | true => exact (ih (n + 1) (some exc)).cons attempt ⟨exc, hanswer, hcaught⟩
      | false =>
        exact .raised 0 exc (Nat.succ_pos _) (fun earlier hlt => absurd hlt (Nat.not_lt_zero _)) hanswer
          hcaught rfl rfl rfl

theorem not_fails_ok {n : ℕ} {raw : String} (h : adapter n = .ok raw) : ¬adapter.Fails n := by
  rintro ⟨exc, hexc, -⟩
  rw [h] at hexc
  cases hexc

theorem not_fails_uncaught {n : ℕ} {exc : PyExc} (h : adapter n = .error exc)
    (huncaught : isCaught exc = false) : ¬adapter.Fails n := by
  rintro ⟨other, hother, hcaught⟩
  rw [h] at hother
  cases hother
  rw [huncaught] at hcaught
  cases hcaught

/-- The first two models that do not fail are one. -/
theorem first_unique {k n : ℕ} (hk : ∀ earlier < k, adapter.Fails (0 + earlier))
    (hn : ∀ earlier < n, adapter.Fails earlier) (hstopk : ¬adapter.Fails (0 + k))
    (hstopn : ¬adapter.Fails n) : k = n := by
  rw [Nat.zero_add] at hstopk
  rcases lt_trichotomy k n with hlt | heq | hgt
  · exact absurd (hn k hlt) hstopk
  · exact heq
  · have hfails := hk n hgt
    rw [Nat.zero_add] at hfails
    exact absurd hfails hstopn

/-- An execution that runs the course of its models follows them. -/
theorem Course.follows {models : List ModelAttempt} {execution : Execution}
    (h : Course adapter models 0 execution) : FollowsModels models adapter execution := by
  cases h with
  | answered k attempt raw event found before answer handed outcome published model provider fallback =>
    have hstop := not_fails_ok answer
    have hreached : k < models.length := (List.getElem?_eq_some_iff.mp found).1
    have hnotall : ¬∀ n < models.length, adapter.Fails n := by
      intro hall
      rw [Nat.zero_add] at hstop
      exact hstop (hall k hreached)
    refine ⟨⟨k + 1, handed⟩, ?_, ?_, ?_, fun hall => absurd hall hnotall, ?_⟩
    · intro n other raw' hfound hbefore hanswer
      have hsame := first_unique before hbefore hstop (not_fails_ok hanswer)
      subst hsame
      rw [Nat.zero_add] at answer outcome fallback
      rw [found] at hfound
      rw [answer] at hanswer
      cases hfound
      cases hanswer
      exact ⟨handed, outcome, event, published, model, provider, fallback⟩
    · intro n exc _ hbefore hfailure huncaught
      have hsame := first_unique before hbefore hstop (not_fails_uncaught hfailure huncaught)
      subst hsame
      rw [Nat.zero_add, hfailure] at answer
      cases answer
    · refine iff_of_false ?_ hnotall
      rintro ⟨message, hmessage⟩
      rw [outcome] at hmessage
      cases hmessage
    · rw [published, outcome]
      exact iff_of_true rfl ⟨_, rfl⟩
  | raised k exc reached before failure uncaught handed outcome silent =>
    have hstop := not_fails_uncaught failure uncaught
    have hnotall : ¬∀ n < models.length, adapter.Fails n := by
      intro hall
      rw [Nat.zero_add] at hstop
      exact hstop (hall k reached)
    refine ⟨⟨k + 1, handed⟩, ?_, ?_, ?_, fun hall => absurd hall hnotall, ?_⟩
    · intro n other raw' _ hbefore hanswer
      have hsame := first_unique before hbefore hstop (not_fails_ok hanswer)
      subst hsame
      rw [Nat.zero_add, hanswer] at failure
      cases failure
    · intro n other _ hbefore hfailure huncaught
      have hsame := first_unique before hbefore hstop (not_fails_uncaught hfailure huncaught)
      subst hsame
      rw [Nat.zero_add, hfailure] at failure
      cases failure
      exact ⟨handed, outcome⟩
    · refine iff_of_false ?_ hnotall
      rintro ⟨message, hmessage⟩
      rw [outcome] at hmessage
      cases hmessage
      have hcaught : isCaught ⟨.user "RouteFallbackExhausted", message⟩ = true := by
        unfold isCaught
        exact decide_eq_true (by simp)
      rw [hcaught] at uncaught
      cases uncaught
    · rw [silent, outcome]
      refine iff_of_false Bool.noConfusion ?_
      rintro ⟨result, hresult⟩
      cases hresult
  | exhausted all handed outcome silent =>
    have hall : ∀ n < models.length, adapter.Fails n := by
      intro n hn
      have hfails := all n hn
      rwa [Nat.zero_add] at hfails
    refine ⟨⟨models.length, by rw [handed, List.take_length]⟩, ?_, ?_, iff_of_true outcome hall,
      fun _ => handed, ?_⟩
    · intro n attempt raw hfound _ hanswer
      exact absurd (hall n (List.getElem?_eq_some_iff.mp hfound).1) (not_fails_ok hanswer)
    · intro n exc hn _ hfailure huncaught
      exact absurd (hall n hn) (not_fails_uncaught hfailure huncaught)
    · obtain ⟨message, hmessage⟩ := outcome
      rw [silent, hmessage]
      refine iff_of_false Bool.noConfusion ?_
      rintro ⟨result, hresult⟩
      cases hresult

end Loop

section Route

variable {config : RouteConfig} {input : RouteInput}

theorem ofInt_error {n : ℤ} {exc : PyExc} (h : ofInt n = .error exc) : exc.cls = .overflowError := by
  unfold ofInt at h
  split at h
  · cases h
  · cases h
    rfl

theorem estimateCost_error {model complexity : String} {contextSize : ℤ} {exc : PyExc}
    (h : estimateCost model complexity contextSize = .error exc) : exc.cls = .overflowError := by
  unfold estimateCost at h
  dsimp only at h
  split at h
  · cases h
  · cases hinput : ofInt (max contextSize 1 * 4) with
    | error other =>
      rw [hinput] at h
      cases h
      exact ofInt_error hinput
    | ok inputTokens =>
      rw [hinput] at h
      cases houtput : ofInt ((complexityTokens.lookup complexity).getD 1000) with
      | error other =>
        rw [houtput] at h
        cases h
        exact ofInt_error houtput
      | ok outputTokens =>
        rw [houtput] at h
        cases h

theorem firstFitting_error {chain : List Fallback} {exc : PyExc}
    (h : config.firstFitting input chain = .error exc) : exc.cls = .overflowError := by
  induction chain with
  | nil => cases h
  | cons head rest ih =>
    unfold RouteConfig.firstFitting at h
    cases hcost : estimateCost head.model input.complexity input.contextSize with
    | error other =>
      rw [hcost] at h
      cases h
      exact estimateCost_error hcost
    | ok cost =>
      rw [hcost] at h
      change (if cost.leNum config.costCap then _ else _) = _ at h
      split at h
      · cases h
      · exact ih h

/-- What the routing of a request comes to. -/
inductive Routed (config : RouteConfig) (input : RouteInput) : Except PyExc RouteDecision → Prop where
  /-- The context size has no float. -/
  | overflow (exc : PyExc) (cls : exc.cls = .overflowError) : Routed config input (.error exc)
  /-- No fallback is within the cap. -/
  | overCap (message : String) : Routed config input (.error ⟨.runtimeError, message⟩)
  /-- A model and the fallbacks of its provider. -/
  | direct (decision : RouteDecision)
      (chain : decision.fallbackChain = config.fallbackChain decision.provider) :
      Routed config input (.ok decision)
  /-- A fallback within the cap, and the others of the chain. -/
  | rerouted (decision : RouteDecision) (provider : String)
      (chain : decision.fallbackChain = (config.fallbackChain provider).filter fun entry =>
        entry.provider ≠ decision.provider) : Routed config input (.ok decision)

theorem route_routed (config : RouteConfig) (input : RouteInput) (h : input.modelOverride = "") :
    Routed config input (config.route input) := by
  unfold RouteConfig.route
  rw [if_neg fun hne => hne h]
  cases config.matchingRule input with
  | none =>
    dsimp only
    unfold RouteConfig.defaultDecision
    cases hcost : estimateCost config.defaultModelId input.complexity input.contextSize with
    | error exc => exact .overflow exc (estimateCost_error hcost)
    | ok cost => exact .direct _ rfl
  | some entry =>
    obtain ⟨rule, idx⟩ := entry
    dsimp only
    unfold RouteConfig.decisionFromRule RouteConfig.applyCostCap
    cases hcost : estimateCost (config.ruleModel rule) input.complexity input.contextSize with
    | error exc => exact .overflow exc (estimateCost_error hcost)
    | ok cost =>
      simp only [bind, Except.bind, pure, Except.pure]
      by_cases hcap : (config.costCap.leZero || cost.leNum config.costCap) = true
      · simp only [hcap, if_true]
        exact .direct _ rfl
      · simp only [hcap, Bool.false_eq_true, if_false]
        cases hfitting : config.firstFitting input
            (config.fallbackChain (config.ruleProvider rule)) with
        | error exc => exact .overflow exc (firstFitting_error hfitting)
        | ok found =>
          cases found with
          | none => exact .overCap _
          | some fit => exact .rerouted _ (config.ruleProvider rule) rfl

/-- The providers of a decision are pairwise distinct. -/
theorem route_providers {decision : RouteDecision} (h : input.modelOverride = "")
    (hroute : config.route input = .ok decision) :
    (decision.provider :: decision.fallbackChain.map Fallback.provider).Nodup := by
  have hrouted := route_routed config input h
  rw [hroute] at hrouted
  cases hrouted with
  | direct _ hchain =>
    rw [hchain]
    exact RouteConfig.fallbackChain_providers decision.provider
  | rerouted _ provider hchain =>
    have hnodup := (List.nodup_cons.mp (@RouteConfig.fallbackChain_providers config provider)).2
    rw [hchain]
    refine List.nodup_cons.mpr ⟨fun hmem => ?_, ?_⟩
    · obtain ⟨fallback, hfallback, hprovider⟩ := List.mem_map.mp hmem
      exact of_decide_eq_true (List.mem_filter.mp hfallback).2 hprovider
    · exact hnodup.sublist (List.filter_sublist.map _)

/-- An execution over a routing configuration: without models to try it raises what the
routing raised and does nothing; otherwise it follows its models, which start with the
routed one. The providers of a route are pairwise distinct. -/
structure RunsRoute (request : RuntimeRequest) (adapter : Adapter) (router : Option RouteConfig) :
    Prop where
  unrouted : ∀ exc, modelsToTry request router = .error exc →
    execute request adapter router = { handed := [], outcome := .error exc } ∧
      ¬isExhausted (.error exc)
  follows : ∀ models source, modelsToTry request router = .ok (models, source) →
    FollowsModels models adapter (execute request adapter router)
  providers : ∀ config, router = some config → ∀ decision,
    config.route (routeInput request) = .ok decision →
      (decision.provider :: decision.fallbackChain.map Fallback.provider).Nodup

/-- The runtime falls back along the route, for every configuration, request and
pattern of answers. -/
theorem execute_runsRoute (request : RuntimeRequest) (adapter : Adapter)
    (router : Option RouteConfig) : RunsRoute request adapter router := by
  have hoverride : (routeInput request).modelOverride = "" := rfl
  refine ⟨fun exc hexc => ?_, fun models source hmodels => ?_, fun config _ decision hroute =>
    route_providers hoverride hroute⟩
  · unfold modelsToTry at hexc
    unfold execute
    split at hexc
    · cases hexc
    · rename_i hmodel
      rw [if_neg hmodel]
      cases router with
      | none => cases hexc
      | some config =>
        dsimp only at hexc ⊢
        have hrouted := route_routed config (routeInput request) hoverride
        cases hroute : config.route (routeInput request) with
        | ok decision =>
          rw [hroute] at hexc
          cases hexc
        | error other =>
          rw [hroute] at hexc hrouted
          cases hexc
          refine ⟨rfl, ?_⟩
          rintro ⟨message, hmessage⟩
          cases hmessage
          cases hrouted with
          | overflow _ hcls => cases hcls
  · unfold modelsToTry at hmodels
    unfold execute
    split at hmodels
    · rename_i hmodel
      cases hmodels
      rw [if_pos hmodel]
      exact (tryModels_course request adapter _ _ 0 none).follows
    · rename_i hmodel
      rw [if_neg hmodel]
      cases router with
      | none =>
        cases hmodels
        exact (tryModels_course request adapter _ _ 0 none).follows
      | some config =>
        dsimp only at hmodels ⊢
        cases hroute : config.route (routeInput request) with
        | error exc =>
          rw [hroute] at hmodels
          cases hmodels
        | ok decision =>
          rw [hroute] at hmodels
          cases hmodels
          exact (tryModels_course request adapter _ _ 0 none).follows

end Route

end AiosDeck.Runtime
