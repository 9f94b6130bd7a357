import AiosDeck.Knowledge.Storable
import AiosDeck.Python.Rounding
import AiosDeck.Retrieval.Ordering

/-!
# Discovering skills

The registered skills are scored by the triggers that the intent names, the scopes that the
context names, and their priority. The best ones over a threshold are returned.
-/

namespace AiosDeck.Skills

open Python Knowledge Ranked Retrieval

section Registry

/-- `SkillRegistry.load`. -/
def load (listText : List Text → Text) (files : ProjectFiles) (includeDeprecated : Bool) :
    List SkillMetadata :=
  if files.isDir skillsDir then
    ((files.iterdir skillsDir).filter files.isDir).foldl (fun skills entry =>
      match files.node (entry ++ ["SKILL.md".toList]) with
      | some (.file (some content)) =>
        match SkillMetadata.fromFrontmatter listText content.1 with
        | .ok metadata =>
          if !includeDeprecated && metadata.status = "deprecated".toList then skills
          else registerSkill metadata skills
        | .error _ => skills
      | _ => skills) []
  else []

/-- What `SkillRegistry` holds: skills by their names, each with a priority that is no less
than zero. -/
structure SkillRegistry where
  skills : List SkillMetadata
  distinct : (skills.map SkillMetadata.name).Nodup
  priority : ∀ skill ∈ skills, 0 ≤ skill.priority

theorem mem_registerSkill {metadata skill : SkillMetadata} {skills : List SkillMetadata}
    (h : skill ∈ registerSkill metadata skills) : skill = metadata ∨ skill ∈ skills := by
  unfold registerSkill at h
  split at h
  · obtain ⟨old, hold, rfl⟩ := List.mem_map.mp h
    split
    · exact .inl rfl
    · exact .inr hold
  · obtain hold | hsame := List.mem_append.mp h
    · exact .inr hold
    · exact .inl (List.mem_singleton.mp hsame)

/-- A skill takes the place of the one with its name. -/
theorem registerSkill_distinct (metadata : SkillMetadata) {skills : List SkillMetadata}
    (h : (skills.map SkillMetadata.name).Nodup) :
    ((registerSkill metadata skills).map SkillMetadata.name).Nodup := by
  unfold registerSkill
  split
  · rw [List.map_map]
    have hnames : List.map (SkillMetadata.name ∘ fun skill =>
        if skill.name = metadata.name then metadata else skill) skills =
          skills.map SkillMetadata.name := by
      refine List.map_congr_left fun skill _ => ?_
      rw [Function.comp_apply]
      split
      · exact Eq.symm ‹_›
      · rfl
    rw [hnames]
    exact h
  · rename_i hnew
    rw [List.map_append]
    refine h.append (List.nodup_singleton _) (List.disjoint_singleton.mpr fun hmem => hnew ?_)
    obtain ⟨skill, hskill, hname⟩ := List.mem_map.mp hmem
    exact List.any_eq_true.mpr ⟨skill, hskill, decide_eq_true hname⟩

theorem validate_priority {metadata accepted : SkillMetadata}
    (h : metadata.validate = .ok accepted) : 0 ≤ accepted.priority := by
  have hsame := SkillMetadata.validate_eq h
  subst hsame
  by_contra hnegative
  unfold SkillMetadata.validate at h
  simp only [bind, Except.bind, throw, throwThe, MonadExceptOf.throw] at h
  repeat' split at h
  all_goals first
    | omega
    | cases h

/-- What is registered was read from a frontmatter and validated, each name once. -/
theorem load_registered (listText : List Text → Text) (files : ProjectFiles)
    (includeDeprecated : Bool) :
    ((load listText files includeDeprecated).map SkillMetadata.name).Nodup ∧
      ∀ skill ∈ load listText files includeDeprecated, 0 ≤ skill.priority := by
  unfold load
  split
  · refine List.foldlRecOn (motive := fun skills : List SkillMetadata =>
      (skills.map SkillMetadata.name).Nodup ∧ ∀ skill ∈ skills, 0 ≤ skill.priority) _ _ ?_ ?_
    · exact ⟨List.nodup_nil, fun skill hskill => absurd hskill List.not_mem_nil⟩
    · intro skills h entry _
      split
      · split
        · rename_i metadata hread
          split
          · exact h
          · refine ⟨registerSkill_distinct metadata h.1, fun skill hskill => ?_⟩
            obtain rfl | hold := mem_registerSkill hskill
            · unfold SkillMetadata.fromFrontmatter at hread
              dsimp only at hread
              split at hread
              · cases hread
              · exact validate_priority hread
            · exact h.2 skill hold
        · exact h
      · exact h
  · exact ⟨List.nodup_nil, fun skill hskill => absurd hskill List.not_mem_nil⟩

/-- The registry of a project, without what is deprecated. -/
def SkillRegistry.ofFiles (listText : List Text → Text) (files : ProjectFiles) : SkillRegistry where
  skills := load listText files false
  distinct := (load_registered listText files false).1
  priority := (load_registered listText files false).2

end Registry

section Scores

/-- `_TRIGGER_WEIGHT`. -/
def TRIGGER_WEIGHT : PyFloat := decimal (1 / 2)

/-- `_SCOPE_WEIGHT`. -/
def SCOPE_WEIGHT : PyFloat := decimal (3 / 10)

/-- `_PRIORITY_WEIGHT`. -/
def PRIORITY_WEIGHT : PyFloat := decimal (1 / 5)

/-- `_DEFAULT_MIN_SCORE`. -/
def DEFAULT_MIN_SCORE : PyFloat := decimal (1 / 4)

/-- `_DEFAULT_TOP_K`. -/
def DEFAULT_TOP_K : ℤ := 5

/-- `_MAX_PRIORITY`. -/
def MAX_PRIORITY : ℤ := 10

/-- `ScoredSkill`. -/
structure ScoredSkill where
  skill : SkillMetadata
  score : PyFloat
  triggerMatches : List Text
  scopeMatches : List Text
  priorityScore : PyFloat

/-- What discovery reads of a `ContextPacket`. -/
structure ContextPacket where
  language : Text := "unknown".toList
  name : Text := []
  linter : Text := []
  formatter : Text := []
  testRunner : Text := []
  dependencyManager : Text := []

-- `str.lower`, by the case tables of the interpreter
variable (lower : Text → Text)

/-- The items that are in a text. -/
def found (items : List Text) (text : Text) : List Text :=
  items.filter fun item => decide (lower item <:+: text)

/-- `_match_triggers`. -/
def matchTriggers (triggers : List Text) (intentLower : Text) : List Text :=
  if triggers = [] then [] else found lower triggers intentLower

/-- `_match_scope`. -/
def matchScope (scope : List Text) (contextText : Text) : List Text :=
  if scope = [] ∨ contextText = [] then [] else found lower scope contextText

/-- How much of what is declared was matched. -/
def share (matched declared : List Text) : PyFloat :=
  if declared = [] then .finite 0 else PyFloat.nearest (matched.length / declared.length)

/-- `_compute_trigger_score`. -/
def computeTriggerScore (matched declared : List Text) : PyFloat := share matched declared

/-- `_compute_scope_score`. -/
def computeScopeScore (matched declared : List Text) : PyFloat := share matched declared

/-- `_build_context_text`. -/
def buildContextText : Option ContextPacket → Text
  | none => []
  | some context =>
    let lang := if context.language ≠ [] ∧ context.language ≠ "unknown".toList then
      [context.language] else []
    let rest := [context.name, context.linter, context.formatter, context.testRunner,
      context.dependencyManager].filter (· ≠ [])
    lower (joinWords (lang ++ rest))

/-- `min(skill.priority, _MAX_PRIORITY) / _MAX_PRIORITY`. -/
def priorityScore (priority : ℤ) : PyFloat := PyFloat.nearest ((min priority MAX_PRIORITY : ℤ) / MAX_PRIORITY)

/-- The weighted sum. -/
def totalScore (trigger scope priority : PyFloat) : PyFloat :=
  ((TRIGGER_WEIGHT.mul trigger).add (SCOPE_WEIGHT.mul scope)).add (PRIORITY_WEIGHT.mul priority)

/-- `round(x, 4)`. -/
def roundFour : PyFloat → PyFloat
  | .finite q => .ofRat (roundHalfEven (q * 10000) / 10000)
  | other => other

/-- What a skill scores before it is rounded. -/
def skillTotal (intentLower contextText : Text) (skill : SkillMetadata) : PyFloat :=
  totalScore (computeTriggerScore (matchTriggers lower skill.triggers intentLower) skill.triggers)
    (computeScopeScore (matchScope lower skill.scope contextText) skill.scope)
    (priorityScore skill.priority)

/-- The skill with its score. -/
def scoredSkill (intentLower contextText : Text) (skill : SkillMetadata) : ScoredSkill where
  skill := skill
  score := roundFour (skillTotal lower intentLower contextText skill)
  triggerMatches := matchTriggers lower skill.triggers intentLower
  scopeMatches := matchScope lower skill.scope contextText
  priorityScore := roundFour (priorityScore skill.priority)

end Scores

section Discovery

/-- `SkillDiscoveryService`. -/
structure SkillDiscoveryService where
  registry : SkillRegistry
  minScore : PyFloat := DEFAULT_MIN_SCORE
  topK : ℤ := DEFAULT_TOP_K

/-- `(-s.score, s.skill.name)` is not behind that of the other. -/
def ranksBefore (s other : ScoredSkill) : Bool :=
  other.score.lt s.score || decide (s.score = other.score ∧ s.skill.name ≤ other.skill.name)

variable (lower : Text → Text)

/-- The skills over the threshold, in the order of the registry. -/
def SkillDiscoveryService.passing (service : SkillDiscoveryService) (intentLower contextText : Text) :
    List ScoredSkill :=
  (service.registry.skills.filter fun skill =>
    !(skillTotal lower intentLower contextText skill).lt service.minScore).map
      (scoredSkill lower intentLower contextText)

/-- `SkillDiscoveryService.discover`. -/
def SkillDiscoveryService.discover (service : SkillDiscoveryService) (intent : Text)
    (context : Option ContextPacket) : List ScoredSkill :=
  let intentLower := strip (lower intent)
  if service.registry.skills = [] ∨ intentLower = [] then []
  else
    firstItems service.topK
      ((service.passing lower intentLower (buildContextText lower context)).insertionSort
        fun s other => ranksBefore s other)

end Discovery

section Bounds

variable {lower : Text → Text} {t s p : ℚ}

/-- The weighted sum of shares, with the rounding of each step. -/
def weighted (t s p : ℚ) : ℚ :=
  double (double (double (double (1 / 2) * t) + double (double (3 / 10) * s)) +
    double (double (1 / 5) * p))

/-- A number between zero and one. -/
def IsShare (q : ℚ) : Prop := 0 ≤ q ∧ q ≤ 1

theorem weight_le {w : ℚ} (hw : 0 ≤ w) {x y : ℚ} (hx : 0 ≤ x) (h : x ≤ y) :
    double (w * x) ≤ double (w * y) :=
  double_mono (mul_nonneg hw hx) (mul_le_mul_of_nonneg_left h hw)

theorem weighted_nonneg (ht : IsShare t) (hs : IsShare s) (hp : IsShare p) : 0 ≤ weighted t s p := by
  have hweight : ∀ q : ℚ, 0 ≤ q → 0 ≤ double q := fun q => double_nonneg
  unfold weighted
  refine double_nonneg (add_nonneg (double_nonneg (add_nonneg ?_ ?_)) ?_)
  · exact hweight _ (mul_nonneg (hweight _ (by norm_num)) ht.1)
  · exact hweight _ (mul_nonneg (hweight _ (by norm_num)) hs.1)
  · exact hweight _ (mul_nonneg (hweight _ (by norm_num)) hp.1)

/-- Larger shares do not give less. -/
theorem weighted_mono {t' s' p' : ℚ} (ht : 0 ≤ t) (hs : 0 ≤ s) (hp : 0 ≤ p) (htt : t ≤ t')
    (hss : s ≤ s') (hpp : p ≤ p') : weighted t s p ≤ weighted t' s' p' := by
  have hhalf : (0 : ℚ) ≤ double (1 / 2) := double_nonneg (by norm_num)
  have hthird : (0 : ℚ) ≤ double (3 / 10) := double_nonneg (by norm_num)
  have hfifth : (0 : ℚ) ≤ double (1 / 5) := double_nonneg (by norm_num)
  have hsum : double (double (1 / 2) * t) + double (double (3 / 10) * s) ≤
      double (double (1 / 2) * t') + double (double (3 / 10) * s') :=
    add_le_add (weight_le hhalf ht htt) (weight_le hthird hs hss)
  have hnonneg : 0 ≤ double (double (1 / 2) * t) + double (double (3 / 10) * s) :=
    add_nonneg (double_nonneg (mul_nonneg hhalf ht)) (double_nonneg (mul_nonneg hthird hs))
  have hpriority : 0 ≤ double (double (1 / 5) * p) := double_nonneg (mul_nonneg hfifth hp)
  unfold weighted
  refine double_mono (add_nonneg (double_nonneg hnonneg) hpriority) ?_
  exact add_le_add (double_mono hnonneg hsum) (weight_le hfifth hp hpp)

/-- All weights together are one. -/
theorem weighted_le_one (ht : IsShare t) (hs : IsShare s) (hp : IsShare p) : weighted t s p ≤ 1 := by
  have hall : weighted 1 1 1 = 1 := by decide +kernel
  rw [← hall]
  exact weighted_mono ht.1 hs.1 hp.1 ht.2 hs.2 hp.2

/-- Floats of shares are weighted without an overflow. -/
theorem totalScore_finite (ht : IsShare t) (hs : IsShare s) (hp : IsShare p) :
    totalScore (.finite t) (.finite s) (.finite p) = .finite (weighted t s p) := by
  have hweights : double (1 / 2) ≤ 1 ∧ double (3 / 10) ≤ 1 ∧ double (1 / 5) ≤ 1 := by
    decide +kernel
  have hone : ∀ w : ℚ, 0 ≤ w → w ≤ 1 → ∀ x : ℚ, IsShare x → 0 ≤ w * x ∧ w * x ≤ 1 := by
    intro w hw hle x hx
    exact ⟨mul_nonneg hw hx.1, mul_le_one₀ hle hx.1 hx.2⟩
  have hdouble : ∀ x : ℚ, 0 ≤ x ∧ x ≤ 1 → 0 ≤ double x ∧ double x ≤ 1 := by
    intro x hx
    have hmax : double 1 = 1 := by decide +kernel
    exact ⟨double_nonneg hx.1, hmax ▸ double_mono hx.1 hx.2⟩
  have htrigger := hone _ (double_nonneg (by norm_num)) hweights.1 t ht
  have hscope := hone _ (double_nonneg (by norm_num)) hweights.2.1 s hs
  have hpriority := hone _ (double_nonneg (by norm_num)) hweights.2.2 p hp
  have hfirst := hdouble _ htrigger
  have hsecond := hdouble _ hscope
  have hthird := hdouble _ hpriority
  have hsum : 0 ≤ double (double (1 / 2) * t) + double (double (3 / 10) * s) ∧
      double (double (1 / 2) * t) + double (double (3 / 10) * s) ≤ 2 := by
    constructor <;> linarith
  have htwo : double (double (double (1 / 2) * t) + double (double (3 / 10) * s)) ≤ 2 := by
    calc double (double (double (1 / 2) * t) + double (double (3 / 10) * s))
        ≤ double 2 := double_mono hsum.1 hsum.2
      _ = 2 := by decide +kernel
  have hnonneg := double_nonneg hsum.1
  have htimes : ∀ x y : ℚ, (PyFloat.finite x).mul (.finite y) = .ofRat (x * y) := fun _ _ => rfl
  have hplus : ∀ x y : ℚ, (PyFloat.finite x).add (.finite y) = .ofRat (x + y) := fun _ _ => rfl
  unfold totalScore TRIGGER_WEIGHT SCOPE_WEIGHT PRIORITY_WEIGHT decimal weighted
  rw [htimes, htimes, htimes, ofRat_double htrigger.1 (by linarith),
    ofRat_double hscope.1 (by linarith), ofRat_double hpriority.1 (by linarith), hplus,
    ofRat_double hsum.1 (by linarith), hplus]
  exact ofRat_double (add_nonneg hnonneg hthird.1) (by linarith)

/-- A share of what is declared. -/
theorem share_unit {matched declared : List Text} (h : matched.length ≤ declared.length) :
    ∃ r, share matched declared = .finite r ∧ IsShare r ∧ (matched = [] → r = 0) ∧
      (declared ≠ [] → declared.length ≤ 2 * matched.length → 1 / 2 ≤ r) := by
  unfold share
  by_cases hnone : declared = []
  · rw [if_pos hnone]
    exact ⟨0, rfl, ⟨le_rfl, zero_le_one⟩, fun _ => rfl, fun hsome => absurd hnone hsome⟩
  · rw [if_neg hnone]
    have hpos : (0 : ℚ) < declared.length := Nat.cast_pos.mpr (List.length_pos_of_ne_nil hnone)
    have hshare : (matched.length / declared.length : ℚ) ≤ 1 :=
      (div_le_one hpos).mpr (Nat.cast_le.mpr h)
    obtain ⟨r, hr, hlower, hupper, hhalf, hzero⟩ :=
      nearest_share (div_nonneg (Nat.cast_nonneg _) hpos.le) hshare
    refine ⟨r, hr, ⟨hlower, hupper⟩, fun hempty => hzero ?_, fun _ htwice => hhalf ?_⟩
    · rw [hempty, List.length_nil, Nat.cast_zero, zero_div]
    · have hcast : (declared.length : ℚ) ≤ 2 * matched.length := by exact_mod_cast htwice
      rw [div_le_div_iff₀ two_pos hpos]
      linarith

theorem priorityScore_unit {priority : ℤ} (h : 0 ≤ priority) :
    ∃ r, priorityScore priority = .finite r ∧ IsShare r := by
  have hten : ((MAX_PRIORITY : ℤ) : ℚ) = 10 := rfl
  have hlower : (0 : ℚ) ≤ (min priority MAX_PRIORITY : ℤ) :=
    Int.cast_nonneg (le_min h (by decide))
  have hupper : ((min priority MAX_PRIORITY : ℤ) : ℚ) ≤ MAX_PRIORITY :=
    Int.cast_le.mpr (min_le_right _ _)
  unfold priorityScore
  rw [hten] at hupper ⊢
  obtain ⟨r, hr, hnonneg, hone, -, -⟩ :=
    nearest_share (div_nonneg hlower (by norm_num)) ((div_le_one (by norm_num)).mpr hupper)
  exact ⟨r, hr, hnonneg, hone⟩

theorem length_found (items : List Text) (text : Text) :
    (found lower items text).length ≤ items.length := List.length_filter_le _ _

theorem length_matchTriggers (triggers : List Text) (intentLower : Text) :
    (matchTriggers lower triggers intentLower).length ≤ triggers.length := by
  unfold matchTriggers
  split
  · exact Nat.zero_le _
  · exact length_found _ _

theorem length_matchScope (scope : List Text) (contextText : Text) :
    (matchScope lower scope contextText).length ≤ scope.length := by
  unfold matchScope
  split
  · exact Nat.zero_le _
  · exact length_found _ _

/-- The total of a skill is a weighted sum of shares. -/
theorem skillTotal_finite (intentLower contextText : Text) {skill : SkillMetadata}
    (h : 0 ≤ skill.priority) : ∃ t s p, IsShare t ∧ IsShare s ∧ IsShare p ∧
      skillTotal lower intentLower contextText skill = .finite (weighted t s p) ∧
      (matchTriggers lower skill.triggers intentLower = [] → t = 0) ∧
      (matchScope lower skill.scope contextText = [] → s = 0) ∧
      (skill.triggers ≠ [] → skill.triggers.length ≤
        2 * (matchTriggers lower skill.triggers intentLower).length → 1 / 2 ≤ t) := by
  obtain ⟨t, htrigger, ht, htzero, hthalf⟩ :=
    share_unit (@length_matchTriggers lower skill.triggers intentLower)
  obtain ⟨s, hscope, hs, hszero, -⟩ := share_unit (@length_matchScope lower skill.scope contextText)
  obtain ⟨p, hpriority, hp⟩ := priorityScore_unit h
  refine ⟨t, s, p, ht, hs, hp, ?_, htzero, hszero, hthalf⟩
  unfold skillTotal computeTriggerScore computeScopeScore
  rw [htrigger, hscope, hpriority]
  exact totalScore_finite ht hs hp

/-- A rounded score is between zero and one. -/
theorem roundFour_unit {q : ℚ} (h : IsShare q) : ∃ r, roundFour (.finite q) = .finite r ∧ IsShare r := by
  have hlower : 0 ≤ roundHalfEven (q * 10000) :=
    roundHalfEven_nonneg (mul_nonneg h.1 (by norm_num))
  have hupper : roundHalfEven (q * 10000) ≤ 10000 := by
    have hmax : roundHalfEven ((10000 : ℤ) : ℚ) = 10000 := roundHalfEven_int _
    rw [← hmax]
    refine roundHalfEven_mono ?_
    have hscaled := mul_le_mul_of_nonneg_right h.2 (by norm_num : (0 : ℚ) ≤ 10000)
    push_cast
    linarith
  have hnonneg : (0 : ℚ) ≤ roundHalfEven (q * 10000) / 10000 :=
    div_nonneg (Int.cast_nonneg hlower) (by norm_num)
  have hone : (roundHalfEven (q * 10000) / 10000 : ℚ) ≤ 1 := by
    rw [div_le_one (by norm_num)]
    exact_mod_cast hupper
  refine ⟨double (roundHalfEven (q * 10000) / 10000), ?_, double_nonneg hnonneg, ?_⟩
  · unfold roundFour
    exact ofRat_double hnonneg (by linarith)
  · have hmax : double 1 = 1 := by decide +kernel
    rw [← hmax]
    exact double_mono hnonneg hone

end Bounds

section Ranking

/-- The score as a number. -/
def number : PyFloat → ℚ
  | .finite q => q
  | _ => 0

/-- The place of a skill in the ranking. -/
def rankKey (s : ScoredSkill) : ℚᵒᵈ ×ₗ Text :=
  toLex (OrderDual.toDual (number s.score), s.skill.name)

/-- The one skill has a higher score, or the same one and a smaller name. -/
def Precedes (s other : ScoredSkill) : Prop :=
  other.score.lt s.score = true ∨ s.score = other.score ∧ s.skill.name < other.skill.name

variable {lower : Text → Text} {service : SkillDiscoveryService} {intentLower contextText : Text}
  {s other : ScoredSkill}

theorem ranksBefore_iff {p q : ℚ} (hs : s.score = .finite p) (hother : other.score = .finite q) :
    ranksBefore s other = true ↔ rankKey s ≤ rankKey other := by
  unfold ranksBefore rankKey
  rw [hs, hother, Prod.Lex.toLex_le_toLex]
  simp [PyFloat.lt, number]

theorem mem_passing : s ∈ service.passing lower intentLower contextText ↔
    ∃ skill ∈ service.registry.skills,
      (skillTotal lower intentLower contextText skill).lt service.minScore = false ∧
        scoredSkill lower intentLower contextText skill = s := by
  unfold SkillDiscoveryService.passing
  simp only [List.mem_map, List.mem_filter, Bool.not_eq_true', and_assoc]

theorem passing_score (h : s ∈ service.passing lower intentLower contextText) :
    ∃ q, s.score = .finite q ∧ IsShare q := by
  obtain ⟨skill, hskill, -, rfl⟩ := mem_passing.mp h
  obtain ⟨t, u, p, ht, hu, hp, htotal, -⟩ :=
    @skillTotal_finite lower intentLower contextText skill (service.registry.priority skill hskill)
  unfold scoredSkill
  dsimp only
  rw [htotal]
  exact roundFour_unit ⟨weighted_nonneg ht hu hp, weighted_le_one ht hu hp⟩

theorem passing_names (service : SkillDiscoveryService) (intentLower contextText : Text) :
    ((service.passing lower intentLower contextText).map fun s => s.skill.name).Nodup := by
  unfold SkillDiscoveryService.passing
  rw [List.map_map]
  exact service.registry.distinct.sublist (List.filter_sublist.map _)

/-- The skills that pass are sorted by their places. -/
theorem sorted_passing (service : SkillDiscoveryService) (intentLower contextText : Text) :
    ((service.passing lower intentLower contextText).insertionSort fun s other =>
      ranksBefore s other) = ranked rankKey (service.passing lower intentLower contextText) := by
  refine insertionSort_eq_ranked fun s hs other hother => ?_
  obtain ⟨p, hp, -⟩ := passing_score hs
  obtain ⟨q, hq, -⟩ := passing_score hother
  exact ranksBefore_iff hp hq

/-- Skills in their places, with different names, precede each other. -/
theorem precedes_of_le (hs : s ∈ service.passing lower intentLower contextText)
    (hother : other ∈ service.passing lower intentLower contextText)
    (hle : rankKey s ≤ rankKey other) (hne : s.skill.name ≠ other.skill.name) :
    Precedes s other := by
  obtain ⟨p, hp, -⟩ := passing_score hs
  obtain ⟨q, hq, -⟩ := passing_score hother
  unfold rankKey at hle
  rw [hp, hq, Prod.Lex.toLex_le_toLex] at hle
  unfold Precedes
  rw [hp, hq]
  obtain hhigher | ⟨hsame, hname⟩ := hle
  · exact .inl (decide_eq_true (OrderDual.toDual_lt_toDual.mp hhigher))
  · have hscore : p = q := OrderDual.toDual_inj.mp hsame
    exact .inr ⟨congrArg PyFloat.finite hscore, lt_of_le_of_ne hname hne⟩

theorem eq_of_name (hs : s ∈ service.passing lower intentLower contextText)
    (hother : other ∈ service.passing lower intentLower contextText)
    (h : s.skill.name = other.skill.name) : s = other :=
  List.inj_on_of_nodup_map (passing_names service intentLower contextText) hs hother h

/-- How many of some skills are returned at most. -/
def SkillDiscoveryService.room (service : SkillDiscoveryService) (count : ℕ) : ℕ :=
  if 0 ≤ service.topK then service.topK.toNat else count - service.topK.natAbs

/-- The results are the best of those that pass, each better than the next. -/
structure Best (service : SkillDiscoveryService) (passing results : List ScoredSkill) : Prop where
  passed : ∀ s ∈ results, s ∈ passing
  scores : ∀ s ∈ results, ∃ q, s.score = .finite q ∧ IsShare q
  ordered : results.Pairwise Precedes
  room : results.length ≤ service.room passing.length
  complete : ∀ s ∈ passing, s ∉ results →
    results.length = service.room passing.length ∧ ∀ result ∈ results, Precedes result s

/-- What is found for an intent that is not blank. -/
theorem discover_ranked (service : SkillDiscoveryService) {intent : Text}
    (context : Option ContextPacket) (hintent : strip (lower intent) ≠ []) :
    service.discover lower intent context =
      (ranked rankKey (service.passing lower (strip (lower intent))
        (buildContextText lower context))).take (service.room (service.passing lower
          (strip (lower intent)) (buildContextText lower context)).length) := by
  unfold SkillDiscoveryService.discover
  dsimp only
  by_cases hnone : service.registry.skills = []
  · have hempty : service.passing lower (strip (lower intent))
        (buildContextText lower context) = [] := by
      unfold SkillDiscoveryService.passing
      rw [hnone]
      rfl
    rw [if_pos (.inl hnone), hempty]
    exact List.take_nil.symm
  · rw [if_neg fun h => h.elim hnone hintent, sorted_passing]
    unfold firstItems SkillDiscoveryService.room
    rw [(ranked_perm rankKey _).length_eq]

/-- What is found for a blank intent. -/
theorem discover_blank (service : SkillDiscoveryService) {intent : Text}
    (context : Option ContextPacket) (hblank : strip (lower intent) = []) :
    service.discover lower intent context = [] := by
  unfold SkillDiscoveryService.discover
  rw [if_pos (.inr hblank)]

theorem mem_discover {intent : Text} {context : Option ContextPacket}
    (h : s ∈ service.discover lower intent context) :
    s ∈ service.passing lower (strip (lower intent)) (buildContextText lower context) := by
  by_cases hblank : strip (lower intent) = []
  · rw [discover_blank service context hblank] at h
    cases h
  · rw [discover_ranked service context hblank] at h
    exact mem_ranked.mp (List.mem_of_mem_take h)

/-- Each name is found once. -/
theorem discover_names (service : SkillDiscoveryService) (intent : Text)
    (context : Option ContextPacket) :
    ((service.discover lower intent context).map fun s => s.skill.name).Nodup := by
  by_cases hblank : strip (lower intent) = []
  · rw [discover_blank service context hblank]
    exact List.nodup_nil
  · have hnames := ((ranked_perm rankKey _).map fun s : ScoredSkill => s.skill.name).nodup_iff.mpr
      (@passing_names lower service (strip (lower intent)) (buildContextText lower context))
    rw [discover_ranked service context hblank]
    exact hnames.sublist ((List.take_sublist _ _).map _)

/-- Nothing is found for a blank intent, and for any other one the best of the skills that
reach the threshold, however many are asked for. -/
theorem discover_best (lower : Text → Text) (service : SkillDiscoveryService) (intent : Text)
    (context : Option ContextPacket) :
    (strip (lower intent) = [] → service.discover lower intent context = []) ∧
      (strip (lower intent) ≠ [] →
        Best service
          (service.passing lower (strip (lower intent)) (buildContextText lower context))
          (service.discover lower intent context)) := by
  constructor
  · exact discover_blank service context
  · intro hintent
    have hresults := @discover_ranked lower service intent context hintent
    have hnames := @discover_names lower service intent context
    refine ⟨fun s hs => mem_discover hs, fun s hs => passing_score (mem_discover hs), ?_, ?_, ?_⟩
    · rw [hresults] at hnames ⊢
      have hboth := ((ranked_pairwise rankKey _).sublist (List.take_sublist _ _)).and
        (List.pairwise_map.mp hnames)
      refine hboth.imp_of_mem fun hs hother h => ?_
      exact precedes_of_le (mem_ranked.mp (List.mem_of_mem_take hs))
        (mem_ranked.mp (List.mem_of_mem_take hother)) h.1 h.2
    · rw [hresults]
      exact List.length_take_le _ _
    · intro s hs hleft
      rw [hresults] at hleft ⊢
      obtain ⟨hlength, hbehind⟩ := behind_of_not_mem_take hs hleft
      refine ⟨hlength, fun result hresult => ?_⟩
      have hpassed := mem_ranked.mp (List.mem_of_mem_take hresult)
      refine precedes_of_le hpassed hs (hbehind result hresult) fun hname => hleft ?_
      rw [← eq_of_name hpassed hs hname]
      exact hresult

/-- The order of the registry does not matter. -/
theorem discover_perm (lower : Text → Text) (service other : SkillDiscoveryService)
    (hskills : service.registry.skills.Perm other.registry.skills)
    (hmin : service.minScore = other.minScore) (htop : service.topK = other.topK) (intent : Text)
    (context : Option ContextPacket) :
    service.discover lower intent context = other.discover lower intent context := by
  have hpassing : (service.passing lower (strip (lower intent))
      (buildContextText lower context)).Perm (other.passing lower (strip (lower intent))
        (buildContextText lower context)) := by
    unfold SkillDiscoveryService.passing
    rw [hmin]
    exact (hskills.filter _).map _
  have hempty : service.registry.skills = [] ↔ other.registry.skills = [] := by
    constructor
    · intro hnil
      exact (hnil ▸ hskills).nil_eq.symm
    · intro hnil
      exact (hnil ▸ hskills).eq_nil
  unfold SkillDiscoveryService.discover
  dsimp only
  rw [sorted_passing, sorted_passing, htop]
  refine if_congr (or_congr_left hempty) rfl ?_
  rw [ranked_eq_of_perm hpassing]
  intro s hs t ht hkey
  exact eq_of_name hs ht (congrArg (fun place => (ofLex place).2) hkey)

/-- A skill with one trigger. -/
def triggeredSkill (name trigger : String) : SkillMetadata where
  name := name.toList
  description := []
  triggers := [trigger.toList]

/-- Two skills, the one or the other first. -/
def twoSkills (swapped : Bool) : SkillRegistry where
  skills := if swapped then [triggeredSkill "style" "naming", triggeredSkill "testing" "tests"]
    else [triggeredSkill "testing" "tests", triggeredSkill "style" "naming"]
  distinct := by cases swapped <;> decide
  priority := by cases swapped <;> decide

theorem discover_perm_swapped :
    SkillDiscoveryService.discover id { registry := twoSkills false } "naming tests".toList none =
      SkillDiscoveryService.discover id { registry := twoSkills true } "naming tests".toList none :=
  discover_perm id { registry := twoSkills false } { registry := twoSkills true }
    (List.Perm.swap _ _ _) rfl rfl "naming tests".toList none

/-- Over the default threshold no skill comes by its priority alone, and every skill comes whose
triggers are in the intent by half. -/
theorem discover_relevant (lower : Text → Text) (registry : SkillRegistry) (topK : ℤ)
    (intentLower contextText : Text) :
    (∀ s ∈ SkillDiscoveryService.passing lower ⟨registry, DEFAULT_MIN_SCORE, topK⟩ intentLower
        contextText, s.triggerMatches ≠ [] ∨ s.scopeMatches ≠ []) ∧
      ∀ skill ∈ registry.skills, skill.triggers ≠ [] →
        skill.triggers.length ≤ 2 * (matchTriggers lower skill.triggers intentLower).length →
        scoredSkill lower intentLower contextText skill ∈
          SkillDiscoveryService.passing lower ⟨registry, DEFAULT_MIN_SCORE, topK⟩ intentLower
            contextText := by
  constructor
  · intro s hs
    obtain ⟨skill, hskill, hover, rfl⟩ := mem_passing.mp hs
    obtain ⟨t, u, p, -, -, hp, htotal, htzero, huzero, -⟩ :=
      @skillTotal_finite lower intentLower contextText skill (registry.priority skill hskill)
    by_contra hneither
    rw [not_or, not_not, not_not] at hneither
    have hbelow : weighted 0 0 1 < double (1 / 4) := by decide +kernel
    have hmost : weighted 0 0 p ≤ weighted 0 0 1 :=
      weighted_mono le_rfl le_rfl hp.1 le_rfl le_rfl hp.2
    rw [htotal, htzero hneither.1, huzero hneither.2] at hover
    exact absurd (hmost.trans_lt hbelow) (of_decide_eq_false hover)
  · intro skill hskill hsome hhalf
    obtain ⟨t, u, p, -, hu, hp, htotal, -, -, hthalf⟩ :=
      @skillTotal_finite lower intentLower contextText skill (registry.priority skill hskill)
    refine mem_passing.mpr ⟨skill, hskill, ?_, rfl⟩
    have henough : double (1 / 4) ≤ weighted (1 / 2) 0 0 := by decide +kernel
    have hleast : weighted (1 / 2) 0 0 ≤ weighted t u p :=
      weighted_mono (by norm_num) le_rfl le_rfl (hthalf hsome hhalf) hu.1 hp.1
    rw [htotal]
    exact decide_eq_false (not_lt.mpr (henough.trans hleast))

end Ranking

end AiosDeck.Skills
