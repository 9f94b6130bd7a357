import Mathlib
import AiosDeck.Routing.Engine

/-!
# The models of a route

The fallbacks of a route have different providers, and none the provider of the route.
Their models may be the same all the same: a full slug is kept whatever provider it
stands under.
-/

namespace AiosDeck.Routing

open Python

/-- A provider and the model that is configured for it. -/
structure Candidate where
  provider : String
  model : String
  deriving DecidableEq

/-- The provider before the model. -/
def Candidate.prefixed (candidate : Candidate) : String := candidate.provider ++ "/" ++ candidate.model

/-- The models that the decision tries are pairwise distinct. -/
def RouteDecision.Distinct (decision : RouteDecision) : Prop :=
  (decision.model :: decision.fallbackChain.map Fallback.model).Nodup

namespace RouteConfig

variable {config : RouteConfig} {input : RouteInput}

/-- A full slug: its first segment names a provider. -/
def KeepsSlug (config : RouteConfig) (candidate : Candidate) : Prop :=
  '/' ∈ candidate.model.toList ∧ (beforeSlash candidate.model = candidate.provider ∨
    beforeSlash candidate.model ∈ config.knownProviders ∨ beforeSlash candidate.model ∈ providerSlugs)

instance (config : RouteConfig) (candidate : Candidate) : Decidable (config.KeepsSlug candidate) :=
  inferInstanceAs (Decidable (_ ∧ _))

/-- Two candidates run the same model: both keep one slug, or one keeps the slug that the
other one spells out, or both spell out the same. -/
def Clash (config : RouteConfig) (first second : Candidate) : Prop :=
  (config.KeepsSlug first ∧ config.KeepsSlug second ∧ first.model = second.model) ∨
    (config.KeepsSlug first ∧ ¬config.KeepsSlug second ∧ first.model = second.prefixed) ∨
    (¬config.KeepsSlug first ∧ config.KeepsSlug second ∧ first.prefixed = second.model) ∨
    (¬config.KeepsSlug first ∧ ¬config.KeepsSlug second ∧
      first.prefixed = second.prefixed)

/-- The candidates of the fallbacks behind the providers that were seen: the first entry
of each further provider, with the default model where it has none. -/
def candidatesFrom (config : RouteConfig) : List String → List FallbackProvider → List Candidate
  | _, [] => []
  | seen, entry :: rest =>
    let provider := entry.provider.getD ""
    if provider = "" ∨ provider ∈ seen then candidatesFrom config seen rest
    else ⟨provider, entry.model.getD config.defaultModel⟩ ::
      candidatesFrom config (provider :: seen) rest

/-- The candidates of the fallbacks behind a provider. -/
def candidates (config : RouteConfig) (provider : String) : List Candidate :=
  config.candidatesFrom [provider] config.fallbackProviders

/-- The candidate of a rule. -/
def ruleCandidate (config : RouteConfig) (rule : RouteRule) : Candidate :=
  ⟨config.ruleProvider rule, rule.model.getD config.defaultModel⟩

/-- The candidate without a rule. -/
def defaultCandidate (config : RouteConfig) : Candidate :=
  ⟨config.defaultProvider, config.defaultModel⟩

/-- No two candidates clash. -/
def Apart (config : RouteConfig) (candidates : List Candidate) : Prop :=
  candidates.Pairwise fun first second => ¬config.Clash first second

/-- The candidates of a route do not clash: those of the rule or the default and its
fallbacks, or those of the fallbacks alone when the cost cap re-routes. -/
def RouteApart (config : RouteConfig) (input : RouteInput) : Prop :=
  match config.matchingRule input with
  | none => ∀ cost,
      estimateCost config.defaultModelId input.complexity input.contextSize = .ok cost →
        config.Apart (config.defaultCandidate :: config.candidates config.defaultProvider)
  | some (rule, _) => ∀ cost,
      estimateCost (config.ruleModel rule) input.complexity input.contextSize = .ok cost →
        if config.costCap.leZero || cost.leNum config.costCap then
          config.Apart (config.ruleCandidate rule :: config.candidates (config.ruleProvider rule))
        else ∀ fitting price, config.firstFitting input
            (config.fallbackChain (config.ruleProvider rule)) = .ok (some (fitting, price)) →
          config.Apart (config.candidates (config.ruleProvider rule))

theorem modelId_eq (candidate : Candidate) : config.modelId candidate.provider candidate.model =
    if config.KeepsSlug candidate then candidate.model else candidate.prefixed := by
  unfold modelId
  by_cases hslash : '/' ∈ candidate.model.toList
  · rw [if_neg (not_not.mpr hslash)]
    exact if_congr (and_iff_right hslash).symm rfl rfl
  · rw [if_pos hslash, if_neg (fun hkeeps => hslash hkeeps.1)]
    rfl

/-- Candidates clash exactly when their models have one id. -/
theorem clash_iff (first second : Candidate) : config.Clash first second ↔
    config.modelId first.provider first.model = config.modelId second.provider second.model := by
  rw [modelId_eq, modelId_eq]
  unfold Clash
  by_cases hfirst : config.KeepsSlug first
  · by_cases hsecond : config.KeepsSlug second
    · simp [hfirst, hsecond]
    · simp [hfirst, hsecond]
  · by_cases hsecond : config.KeepsSlug second
    · simp [hfirst, hsecond]
    · simp [hfirst, hsecond]

/-- Providers without a slash are told apart in what is spelled out. -/
theorem prefixed_ne {first second : Candidate} (hfirst : '/' ∉ first.provider.toList)
    (hsecond : '/' ∉ second.provider.toList) (hne : first.provider ≠ second.provider) :
    first.prefixed ≠ second.prefixed := by
  intro hsame
  refine hne ?_
  have hbefore : ∀ candidate : Candidate, '/' ∉ candidate.provider.toList →
      candidate.prefixed.toList.takeWhile (· ≠ '/') = candidate.provider.toList := by
    intro candidate hslash
    have hsplit : candidate.prefixed.toList =
        candidate.provider.toList ++ '/' :: candidate.model.toList := by
      unfold Candidate.prefixed
      simp [String.toList_append]
    have hall : ∀ c ∈ candidate.provider.toList, decide (c ≠ '/') = true := by
      intro c hc
      exact decide_eq_true fun heq => hslash (heq ▸ hc)
    rw [hsplit, List.takeWhile_append_of_pos hall]
    simp
  have hproviders := hbefore first hfirst
  rw [hsame, hbefore second hsecond] at hproviders
  exact (String.toList_inj.mp hproviders).symm

/-- The ids of a chain are those of its candidates. -/
theorem fallbackChainFrom_models (entries : List FallbackProvider) : ∀ seen : List String,
    (config.fallbackChainFrom seen entries).map Fallback.model =
      (config.candidatesFrom seen entries).map fun candidate =>
        config.modelId candidate.provider candidate.model := by
  induction entries with
  | nil => exact fun _ => rfl
  | cons entry rest ih =>
    intro seen
    unfold fallbackChainFrom candidatesFrom
    dsimp only
    split
    · exact ih seen
    · rw [List.map_cons, List.map_cons, ih]

/-- The providers of a chain are pairwise distinct, and none was seen before. -/
theorem fallbackChainFrom_providers (entries : List FallbackProvider) : ∀ seen : List String,
    (∀ fallback ∈ config.fallbackChainFrom seen entries, fallback.provider ∉ seen) ∧
      ((config.fallbackChainFrom seen entries).map Fallback.provider).Nodup := by
  induction entries with
  | nil => exact fun _ => ⟨fun fallback hmem => absurd hmem List.not_mem_nil, List.nodup_nil⟩
  | cons entry rest ih =>
    intro seen
    unfold fallbackChainFrom
    dsimp only
    split
    · exact ih seen
    · rename_i hnew
      obtain ⟨hseen, hnodup⟩ := ih (entry.provider.getD "" :: seen)
      constructor
      · intro fallback hmem
        rcases List.mem_cons.mp hmem with rfl | hrest
        · exact fun hold => hnew (Or.inr hold)
        · exact fun hold => hseen fallback hrest (List.mem_cons_of_mem _ hold)
      · rw [List.map_cons, List.nodup_cons]
        refine ⟨fun hmem => ?_, hnodup⟩
        obtain ⟨fallback, hfallback, hprovider⟩ := List.mem_map.mp hmem
        exact hseen fallback hfallback (hprovider ▸ List.mem_cons_self)

/-- The fallbacks of a provider have other providers, pairwise distinct. -/
theorem fallbackChain_providers (provider : String) :
    (provider :: (config.fallbackChain provider).map Fallback.provider).Nodup := by
  obtain ⟨hseen, hnodup⟩ := fallbackChainFrom_providers config.fallbackProviders [provider]
  refine List.nodup_cons.mpr ⟨fun hmem => ?_, hnodup⟩
  obtain ⟨fallback, hfallback, hprovider⟩ := List.mem_map.mp hmem
  exact hseen fallback hfallback (hprovider ▸ List.mem_cons_self)

/-- A fallback before the others is the chain in another order. -/
theorem perm_cons_filter {chain : List Fallback} {fitting : Fallback}
    (h : (chain.map Fallback.provider).Nodup) (hmem : fitting ∈ chain) :
    (fitting :: chain.filter fun entry => entry.provider ≠ fitting.provider).Perm chain := by
  induction chain with
  | nil => exact absurd hmem List.not_mem_nil
  | cons head rest ih =>
    rw [List.map_cons, List.nodup_cons] at h
    by_cases hhead : head.provider = fitting.provider
    · have hfitting : fitting = head := by
        rcases List.mem_cons.mp hmem with heq | hrest
        · exact heq
        · exact absurd (hhead ▸ List.mem_map_of_mem hrest) h.1
      have hkept : (rest.filter fun entry => entry.provider ≠ head.provider) = rest := by
        refine List.filter_eq_self.mpr fun entry hentry => decide_eq_true fun hsame => h.1 ?_
        exact hsame ▸ List.mem_map_of_mem hentry
      rw [hfitting, List.filter_cons, if_neg (by simp), hkept]
    · have hrest : fitting ∈ rest := by
        rcases List.mem_cons.mp hmem with heq | hrest
        · exact absurd (congrArg Fallback.provider heq).symm hhead
        · exact hrest
      rw [List.filter_cons, if_pos (decide_eq_true hhead)]
      exact (List.Perm.swap head fitting _).trans ((ih h.2 hrest).cons head)

theorem firstFitting_mem {chain : List Fallback} {fitting : Fallback} {price : PyFloat}
    (h : config.firstFitting input chain = .ok (some (fitting, price))) : fitting ∈ chain := by
  induction chain with
  | nil => cases h
  | cons head rest ih =>
    unfold firstFitting at h
    cases hcost : estimateCost head.model input.complexity input.contextSize with
    | error exc =>
      rw [hcost] at h
      cases h
    | ok cost =>
      rw [hcost] at h
      change (if cost.leNum config.costCap then _ else _) = _ at h
      split at h
      · cases h
        exact List.mem_cons_self
      · exact List.mem_cons_of_mem _ (ih h)

theorem apart_iff (candidates : List Candidate) : config.Apart candidates ↔
    (candidates.map fun candidate => config.modelId candidate.provider candidate.model).Nodup := by
  unfold Apart List.Nodup
  rw [List.pairwise_map]
  refine List.Pairwise.iff fun first second => ?_
  rw [clash_iff]

/-- The ids behind a candidate are distinct exactly when nothing clashes. -/
theorem distinct_iff_apart (candidate : Candidate) (provider : String) :
    (config.modelId candidate.provider candidate.model ::
        (config.fallbackChain provider).map Fallback.model).Nodup ↔
      config.Apart (candidate :: config.candidates provider) := by
  rw [apart_iff, List.map_cons]
  unfold fallbackChain candidates
  rw [fallbackChainFrom_models]

/-- The ids of a re-route are those of the chain. -/
theorem reroute_distinct_iff {provider : String} {fitting : Fallback} {price : PyFloat}
    (h : config.firstFitting input (config.fallbackChain provider) = .ok (some (fitting, price))) :
    (fitting.model :: ((config.fallbackChain provider).filter fun entry =>
        entry.provider ≠ fitting.provider).map Fallback.model).Nodup ↔
      config.Apart (config.candidates provider) := by
  have hnodup := (List.nodup_cons.mp (@fallbackChain_providers config provider)).2
  have hperm := (perm_cons_filter hnodup (firstFitting_mem h)).map Fallback.model
  rw [List.map_cons] at hperm
  rw [hperm.nodup_iff, apart_iff]
  unfold fallbackChain candidates
  rw [fallbackChainFrom_models]

/-- The models of a route are pairwise distinct exactly when its candidates do not clash. -/
theorem route_distinct_iff (config : RouteConfig) (input : RouteInput)
    (h : input.modelOverride = "") :
    (∀ decision, config.route input = .ok decision → decision.Distinct) ↔
      config.RouteApart input := by
  unfold route RouteApart
  rw [if_neg fun hne => hne h]
  cases config.matchingRule input with
  | none =>
    dsimp only
    unfold defaultDecision
    cases hcost : estimateCost config.defaultModelId input.complexity input.contextSize with
    | error exc => simp [bind, Except.bind]
    | ok cost =>
      simp only [bind, Except.bind, pure, Except.pure, Except.ok.injEq, forall_eq']
      exact distinct_iff_apart config.defaultCandidate config.defaultProvider
  | some entry =>
    obtain ⟨rule, idx⟩ := entry
    dsimp only
    unfold decisionFromRule applyCostCap
    cases hcost : estimateCost (config.ruleModel rule) input.complexity input.contextSize with
    | error exc => simp [bind, Except.bind]
    | ok cost =>
      simp only [bind, Except.bind, pure, Except.pure, Except.ok.injEq, forall_eq']
      by_cases hcap : (config.costCap.leZero || cost.leNum config.costCap) = true
      · simp only [hcap, if_true, Except.ok.injEq, forall_eq']
        exact distinct_iff_apart (config.ruleCandidate rule) (config.ruleProvider rule)
      · simp only [hcap, Bool.false_eq_true, if_false]
        cases hfitting : config.firstFitting input
            (config.fallbackChain (config.ruleProvider rule)) with
        | error exc => simp
        | ok found =>
          cases found with
          | none => simp [throw, throwThe, MonadExceptOf.throw]
          | some fit =>
            obtain ⟨fitting, price⟩ := fit
            simp only [Except.ok.injEq, forall_eq', Option.some.injEq, Prod.mk.injEq, and_imp]
            refine (reroute_distinct_iff hfitting).trans ?_
            constructor
            · rintro hapart other - rfl -
              exact hapart
            · exact fun hall => hall fitting price rfl rfl

/-- A model of another provider by default, and a fallback without a model. -/
def slugByDefault : RouteConfig where
  defaultProvider := "openrouter"
  defaultModel := "openrouter/openai/gpt-5"
  fallbackProviders := [{ provider := some "openai" }]

/-- The fallback is the model that it should replace. -/
theorem slugByDefault_not_distinct :
    ¬∀ (config : RouteConfig) (input : RouteInput), input.modelOverride = "" →
      ∀ decision, config.route input = .ok decision → decision.Distinct := by
  intro h
  have hall := h slugByDefault { agent := "planner" } rfl
  have hroute : ((slugByDefault.route { agent := "planner" }).toOption.map fun decision =>
      decision.model :: decision.fallbackChain.map Fallback.model) =
        some ["openrouter/openai/gpt-5", "openrouter/openai/gpt-5"] := by decide +kernel
  cases hdecision : slugByDefault.route { agent := "planner" } with
  | error exc =>
    rw [hdecision] at hroute
    cases hroute
  | ok decision =>
    rw [hdecision] at hroute
    have hdistinct := hall decision hdecision
    have hmodels : decision.model :: decision.fallbackChain.map Fallback.model =
        ["openrouter/openai/gpt-5", "openrouter/openai/gpt-5"] := Option.some.inj hroute
    unfold RouteDecision.Distinct at hdistinct
    rw [hmodels] at hdistinct
    exact absurd hdistinct (by decide)

/-- The default model and the fallback of another provider with a model of its own. -/
theorem localByDefault_distinct : "" = "" ∧
    ∀ decision, RouteConfig.route { fallbackProviders :=
        [{ provider := some "anthropic", model := some "claude-opus" }] } { agent := "planner" } =
      .ok decision → decision.Distinct :=
  ⟨rfl, (route_distinct_iff { fallbackProviders :=
    [{ provider := some "anthropic", model := some "claude-opus" }] } { agent := "planner" } rfl).mpr
      fun _ _ => (apart_iff _).mpr (by decide)⟩

end RouteConfig

end AiosDeck.Routing
