import Mathlib
import AiosDeck.Quality.Policy

/-!
# Monotonicity of the policy

More findings, or graver ones, block at least as much, as long as an environment that
blocks a severity blocks the graver ones. What lifts a block is an override with a
reason, and the result names it.
-/

namespace AiosDeck.Quality

open Python

/-- Place of a label in the order of severities. -/
def severityRank (label : String) : ℕ := severityLabels.idxOf label

/-- A recognised severity, and one that is at least as grave. -/
structure Raises (old new : SeverityLabel) : Prop where
  recognised : severityLabel old ∈ severityLabels
  stillRecognised : severityLabel new ∈ severityLabels
  graver : severityRank (severityLabel old) ≤ severityRank (severityLabel new)

/-- Every environment that blocks a severity blocks the graver ones. -/
def UpwardClosed (policy : List (String × List String)) : Prop :=
  ∀ entry ∈ policy, ∀ label ∈ severityLabels, ∀ graver ∈ severityLabels,
    severityRank label ≤ severityRank graver → label ∈ entry.2 → graver ∈ entry.2

instance (policy : List (String × List String)) : Decidable (UpwardClosed policy) :=
  inferInstanceAs (Decidable (∀ entry ∈ policy, _))

theorem upwardClosed_default : UpwardClosed DEFAULT_POLICY := by decide

variable {policy : List (String × List String)} {environment : String}

/-- The severities that an environment blocks are upward closed. -/
theorem UpwardClosed.environmentPolicy (h : UpwardClosed policy) {blockSet : List String}
    (hlookup : environmentPolicy policy environment = some blockSet) {label graver : String}
    (hlabel : label ∈ severityLabels) (hgraver : graver ∈ severityLabels)
    (hrank : severityRank label ≤ severityRank graver) (hblocked : label ∈ blockSet) :
    graver ∈ blockSet := by
  have hclosed : UpwardClosed (if policy.isEmpty then DEFAULT_POLICY else policy) := by
    split
    · exact upwardClosed_default
    · exact h
  obtain ⟨before, behind, hsplit, -⟩ := List.lookup_eq_some_iff.mp hlookup
  refine hclosed (environment, blockSet) ?_ label hlabel graver hgraver hrank hblocked
  rw [hsplit]
  exact List.mem_append_right _ List.mem_cons_self

/-- The findings block exactly when there is one in an unknown environment, or one that
the environment blocks. -/
theorem baseDecision_block {normalized : List String} {envPolicy : Option (List String)} :
    baseDecision normalized envPolicy = .block ↔
      ∃ label ∈ normalized, ∀ blockSet, envPolicy = some blockSet → label ∈ blockSet := by
  cases normalized with
  | nil => simp [baseDecision_nil]
  | cons first rest =>
    cases envPolicy with
    | none => simpa [baseDecision] using ⟨first, Or.inl rfl⟩
    | some blockSet =>
      have hdecision : baseDecision (first :: rest) (some blockSet) = .block ↔
          ((first :: rest).any fun label => label ∈ blockSet) = true := by
        simp only [baseDecision, List.isEmpty_cons, Bool.false_eq_true, if_false]
        split <;> simp_all
      rw [hdecision, List.any_eq_true]
      simp

/-- Findings that are covered by graver ones block no more than these. -/
theorem baseDecision_block_mono (h : UpwardClosed policy) {labels others : List String}
    (hlabels : ∀ label ∈ labels, label ∈ severityLabels)
    (hcovered : ∀ label ∈ labels, ∃ other ∈ others, other ∈ severityLabels ∧
      severityRank label ≤ severityRank other)
    (hblock : baseDecision labels (environmentPolicy policy environment) = .block) :
    baseDecision others (environmentPolicy policy environment) = .block := by
  obtain ⟨label, hlabel, hblocked⟩ := baseDecision_block.mp hblock
  obtain ⟨other, hother, hrecognised, hrank⟩ := hcovered label hlabel
  refine baseDecision_block.mpr ⟨other, hother, fun blockSet hblockSet => ?_⟩
  exact h.environmentPolicy hblockSet (hlabels label hlabel) hrecognised hrank
    (hblocked blockSet hblockSet)

/-- The recognised labels of a list. -/
theorem mem_normalize {label : String} {severities : List SeverityLabel} :
    label ∈ normalize severities ↔
      label ∈ severityLabels ∧ ∃ severity ∈ severities, severityLabel severity = label := by
  unfold normalize
  rw [List.mem_filter, List.mem_map, decide_eq_true_eq, and_comm]

/-- Findings that are covered by graver ones keep a result from passing. -/
theorem resolveDecision_blocks_mono (h : UpwardClosed policy) {gate : String}
    {overrides : List GateOverride} {severities others : List SeverityLabel}
    (hcovered : ∀ label ∈ normalize severities, ∃ other ∈ normalize others,
      severityRank label ≤ severityRank other)
    (hblocks : (resolveDecision severities gate environment policy overrides).blocks = true) :
    (resolveDecision others gate environment policy overrides).blocks = true := by
  rw [resolveDecision_blocks] at hblocks ⊢
  obtain ⟨hblock, hreason⟩ := hblocks
  have hlabels : ∀ label ∈ normalize severities, label ∈ severityLabels :=
    fun label hlabel => (mem_normalize.mp hlabel).1
  have hothers : baseDecision (normalize others) (environmentPolicy policy environment) =
      .block := by
    refine baseDecision_block_mono h hlabels (fun label hlabel => ?_) hblock
    obtain ⟨other, hother, hrank⟩ := hcovered label hlabel
    exact ⟨other, hother, (mem_normalize.mp hother).1, hrank⟩
  exact ⟨hothers, hreason⟩

/-- A finding more covers what was there before. -/
theorem normalize_covered_of_subset {severities others : List SeverityLabel}
    (hsubset : severities ⊆ others) :
    ∀ label ∈ normalize severities, ∃ other ∈ normalize others,
      severityRank label ≤ severityRank other := by
  intro label hlabel
  obtain ⟨hrecognised, severity, hseverity, hlabel'⟩ := mem_normalize.mp hlabel
  have hother : label ∈ normalize others :=
    mem_normalize.mpr ⟨hrecognised, severity, hsubset hseverity, hlabel'⟩
  exact ⟨label, hother, Nat.le_refl _⟩

/-- A finding that is raised covers what it was before. -/
theorem normalize_covered_of_raises {before behind : List SeverityLabel}
    {old new : SeverityLabel} (hraises : Raises old new) :
    ∀ label ∈ normalize (before ++ old :: behind),
      ∃ other ∈ normalize (before ++ new :: behind),
        severityRank label ≤ severityRank other := by
  intro label hlabel
  obtain ⟨hrecognised, severity, hseverity, hlabel'⟩ := mem_normalize.mp hlabel
  have hmem : severity = old ∨ severity ∈ before ++ new :: behind := by
    simp only [List.mem_append, List.mem_cons] at hseverity ⊢
    tauto
  cases hmem with
  | inl hold =>
    have hnew : severityLabel new ∈ normalize (before ++ new :: behind) :=
      mem_normalize.mpr ⟨hraises.stillRecognised, new, by simp, rfl⟩
    have hrank : severityRank label ≤ severityRank (severityLabel new) := by
      rw [← hlabel', hold]
      exact hraises.graver
    exact ⟨severityLabel new, hnew, hrank⟩
  | inr hkept =>
    have hother : label ∈ normalize (before ++ new :: behind) :=
      mem_normalize.mpr ⟨hrecognised, severity, hkept, hlabel'⟩
    exact ⟨label, hother, Nat.le_refl _⟩

/-- A reason that is not empty is the one of an override for the gate and the environment. -/
theorem findOverrideReason_mem {gate environment : String} {overrides : List GateOverride}
    (h : findOverrideReason gate environment overrides ≠ "") :
    ∃ override ∈ overrides, override.appliesTo gate environment = true ∧
      override.reason ≠ "" ∧
      findOverrideReason gate environment overrides = override.reason := by
  unfold findOverrideReason at h ⊢
  cases hfind : overrides.find? fun override => override.appliesTo gate environment with
  | none =>
    rw [hfind] at h
    exact absurd rfl h
  | some override =>
    rw [hfind] at h
    have hmem : override ∈ overrides := List.mem_of_find?_eq_some hfind
    have happlies : override.appliesTo gate environment = true := by
      have hsome := List.find?_some hfind
      exact hsome
    exact ⟨override, hmem, happlies, h, rfl⟩

/-- A block that the overrides lift is marked with their reason. -/
theorem resolveDecision_overridden {severities : List SeverityLabel} {gate environment : String}
    {overrides : List GateOverride}
    (hblock : baseDecision (normalize severities) (environmentPolicy policy environment) =
      .block)
    (hreason : findOverrideReason gate environment overrides ≠ "") :
    (resolveDecision severities gate environment policy overrides).overridden = true ∧
      (resolveDecision severities gate environment policy overrides).overrideReason =
        findOverrideReason gate environment overrides := by
  simp [resolveDecision, hblock, hreason]

/-- Under a policy that is upward closed, a blocking result stays blocking when a finding
is added and when a recognised one is raised. A result that would block without overrides
passes only by an override for exactly this gate and environment, with a reason, and the
result records it. -/
theorem resolveDecision_monotone (h : UpwardClosed policy) (gate environment : String)
    (overrides : List GateOverride) (before behind : List SeverityLabel) :
    (∀ finding : SeverityLabel,
      (resolveDecision (before ++ behind) gate environment policy overrides).blocks = true →
      (resolveDecision (before ++ finding :: behind) gate environment policy
        overrides).blocks = true) ∧
    (∀ old new : SeverityLabel, Raises old new →
      (resolveDecision (before ++ old :: behind) gate environment policy
        overrides).blocks = true →
      (resolveDecision (before ++ new :: behind) gate environment policy
        overrides).blocks = true) ∧
    ((resolveDecision (before ++ behind) gate environment policy []).blocks = true →
      (resolveDecision (before ++ behind) gate environment policy overrides).blocks = false →
      ∃ override ∈ overrides, override.appliesTo gate environment = true ∧
        override.reason ≠ "" ∧
        (resolveDecision (before ++ behind) gate environment policy overrides).overridden =
          true ∧
        (resolveDecision (before ++ behind) gate environment policy
          overrides).overrideReason = override.reason) := by
  refine ⟨fun finding hblocks => ?_, fun old new hraises hblocks => ?_, fun hbase hlifted => ?_⟩
  · have hsubset : before ++ behind ⊆ before ++ finding :: behind := by
      intro severity hseverity
      simp only [List.mem_append, List.mem_cons] at hseverity ⊢
      tauto
    exact resolveDecision_blocks_mono h (normalize_covered_of_subset hsubset) hblocks
  · exact resolveDecision_blocks_mono h (normalize_covered_of_raises hraises) hblocks
  · have hblock : baseDecision (normalize (before ++ behind))
        (environmentPolicy policy environment) = .block :=
      ((resolveDecision_blocks _ gate environment policy []).mp hbase).1
    have hreason : findOverrideReason gate environment overrides ≠ "" := by
      intro hempty
      have hblocks := (resolveDecision_blocks (before ++ behind) gate environment policy
        overrides).mpr ⟨hblock, hempty⟩
      rw [hblocks] at hlifted
      exact Bool.noConfusion hlifted
    obtain ⟨override, hmem, happlies, hgiven, heq⟩ := findOverrideReason_mem hreason
    obtain ⟨hoverridden, hrecorded⟩ := resolveDecision_overridden hblock hreason
    exact ⟨override, hmem, happlies, hgiven, hoverridden, hrecorded.trans heq⟩

/-- A release policy that blocks from medium on; a high finding blocks it, is raised to
critical, and is lifted by an override. -/
theorem releasePolicy_monotone :
    UpwardClosed [("release", ["critical", "high", "medium"])] ∧
    Raises (.text "high") (.text "CRITICAL") ∧
    (resolveDecision [.text "CRITICAL"] "lint" "release"
      [("release", ["critical", "high", "medium"])] []).blocks = true ∧
    ∃ override ∈ [GateOverride.record "lint" "release" "known"],
      override.appliesTo "lint" "release" = true ∧ override.reason ≠ "" ∧
      (resolveDecision [.text "high"] "lint" "release"
        [("release", ["critical", "high", "medium"])]
        [.record "lint" "release" "known"]).overridden = true ∧
      (resolveDecision [.text "high"] "lint" "release"
        [("release", ["critical", "high", "medium"])]
        [.record "lint" "release" "known"]).overrideReason = override.reason := by
  have hclosed : UpwardClosed [("release", ["critical", "high", "medium"])] := by decide
  have hraises : Raises (.text "high") (.text "CRITICAL") :=
    ⟨by decide, by decide, by decide⟩
  have hraised := (resolveDecision_monotone hclosed "lint" "release" [] [] []).2.1
    (.text "high") (.text "CRITICAL") hraises (by decide)
  have hlifted := (resolveDecision_monotone hclosed "lint" "release"
    [.record "lint" "release" "known"] [] [.text "high"]).2.2 (by decide)
    (by decide)
  exact ⟨hclosed, hraises, hraised, hlifted⟩

end AiosDeck.Quality
