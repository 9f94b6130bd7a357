import AiosDeck.Quality.Gates
import AiosDeck.Workflow.Gatekeeping

/-!
# When a failed gate stops the run

The gates are meant to fail safe: a failed or erroneous gate lets the run go
on only under an override, or with findings that the policy tolerates. The
decision is taken from the findings alone, so it is not safe when a gate
fails without reporting one.
-/

namespace AiosDeck.Workflow

open Python Agents Security Quality Scheduler Program Trace

namespace WorkflowEngine

/-- The policy of the environment blocks this severity; every severity is
blocked where the environment has no policy. -/
def Blocked (engine : WorkflowEngine) (label : String) : Prop :=
  match environmentPolicy ((engine.qualityConfig.map QualityConfig.policy).getD [])
      engine.environment with
  | none => True
  | some blockSet => label ∈ blockSet

/-- What may let the run go on behind a gate that did not pass. -/
def Tolerated (engine : WorkflowEngine) (name : String) (result : GateResult) : Prop :=
  engine.Overridden name ∨
    result.findings ≠ [] ∧ ∀ finding ∈ result.findings,
      severityLabel finding.severity ∈ severityLabels ∧
        ¬engine.Blocked (severityLabel finding.severity)

/-- A gate that fails or errors lets no run go on that is not tolerated. -/
def FailSafe (engine : WorkflowEngine) (name : String) (evaluation : GateEvaluation) : Prop :=
  (evaluateGate evaluation).status = .failed ∨ (evaluateGate evaluation).status = .error →
    ∀ world input s t,
      runConfiguredGate engine world name (fun _ _ => evaluation) input s = .ok true t →
        engine.Tolerated name (evaluateGate evaluation)

/-- The gate failed, reported no finding, and no override names it. -/
def SilentFailure (engine : WorkflowEngine) (name : String) (evaluation : GateEvaluation) : Prop :=
  (evaluateGate evaluation).status = .failed ∧ (evaluateGate evaluation).findings = [] ∧
    ¬engine.Overridden name

variable {engine : WorkflowEngine} {world : World} {name : String} {evaluation : GateEvaluation}

/-- A lifted value is the value of the pure operation. -/
theorem liftPy_value {α : Type} (result : Except PyExc α) :
    Triple (fun _ => True) (liftPy result) (fun value _ => result = .ok value)
      (fun _ _ => True) := by
  cases result with
  | ok value => exact Triple.pure fun _ _ => rfl
  | error exc => exact Triple.throw fun _ _ => trivial

/-- A gate that lets the run go on was serialized and did not block. -/
theorem runConfiguredGate_true {input : GateInput} {s t : EngineState}
    (h : runConfiguredGate engine world name (fun _ _ => evaluation) input s = .ok true t) :
    (∃ serialized, (evaluateGate evaluation).toDict = .ok serialized) ∧
      (engine.gateVerdict name (evaluateGate evaluation)).blocked = false := by
  have hany : ∀ {α : Type} (x : EngineM α),
      Triple (fun _ => True) x (fun _ _ => True) (fun _ _ => True) :=
    fun x => Triple.of_after fun _ _ => trivial
  have hspec : Triple (fun _ => True)
      (runConfiguredGate engine world name (fun _ _ => evaluation) input)
      (fun goesOn _ => goesOn = true →
        (∃ serialized, (evaluateGate evaluation).toDict = .ok serialized) ∧
          (engine.gateVerdict name (evaluateGate evaluation)).blocked = false)
      (fun _ _ => True) := by
    refine (hany _).bind fun _ => (hany _).bind fun _ => (hany _).bind fun _ => ?_
    refine (liftPy_value _).bind fun serialized => Triple.fix fun u hdict => ?_
    refine Triple.weaken_pre (P := fun _ => True) ?_ fun _ _ => trivial
    refine Triple.ite (fun _ => ?_) (fun hopen => ?_)
    · refine (hany _).bind fun _ => (hany _).bind fun _ => (hany _).bind fun _ => ?_
      exact Triple.pure fun _ _ hfalse => absurd hfalse Bool.false_ne_true
    · refine (hany _).bind fun _ => (hany _).bind fun _ => ?_
      exact Triple.pure fun _ _ _ => ⟨⟨serialized, hdict⟩, by simpa using hopen⟩
  exact hspec.of_ok trivial h rfl

/-- Without a callback a gate that is serialized and does not block lets the
run go on. -/
theorem runConfiguredGate_goesOn (input : GateInput) (s : EngineState)
    (hstage : ∀ stage, world.onStage stage = none)
    {serialized : Json} (hdict : (evaluateGate evaluation).toDict = .ok serialized)
    (hopen : (engine.gateVerdict name (evaluateGate evaluation)).blocked = false) :
    ∃ t, runConfiguredGate engine world name (fun _ _ => evaluation) input s = .ok true t := by
  have hrecord : ∀ e, Triple (fun _ => True) (record e) (fun _ _ => True) (fun _ _ => False) :=
    fun e => Triple.modify fun _ _ => trivial
  have hpublish : ∀ event, Triple (fun _ => True) (publishQuality engine event) (fun _ _ => True)
      (fun _ _ => False) := by
    intro event
    exact Triple.ite (fun _ => hrecord _) (fun _ => Triple.pure fun _ _ => trivial)
  have happend : ∀ stage, Triple (fun _ => True) (appendStage world stage) (fun _ _ => True)
      (fun _ _ => False) := by
    intro stage
    refine Triple.bind (R := fun _ _ => True) (Triple.modify fun _ _ => trivial) fun _ => ?_
    refine (hrecord _).bind fun _ => ?_
    rw [hstage stage]
    exact Triple.pure fun _ _ => trivial
  have hspec : Triple (fun _ => True)
      (runConfiguredGate engine world name (fun _ _ => evaluation) input)
      (fun goesOn _ => goesOn = true) (fun _ _ => False) := by
    refine (hpublish _).bind fun _ => ?_
    refine Triple.bind (R := fun _ _ => True) (Triple.get fun _ _ => trivial) fun _ => ?_
    refine (hrecord _).bind fun _ => ?_
    dsimp only
    rw [hdict]
    refine Triple.bind (R := fun _ _ => True) (Triple.pure fun _ _ => trivial) fun _ => ?_
    refine Triple.ite (fun hblocked => ?_) (fun _ => ?_)
    · rw [hopen] at hblocked
      cases hblocked
    · refine (hpublish _).bind fun _ => (happend _).bind fun _ => Triple.pure fun _ _ => rfl
  obtain ⟨goesOn, t, hrun, rfl⟩ := hspec.returns (s := s) trivial
  exact ⟨t, hrun⟩

/-- An erroneous gate blocks. -/
theorem gateVerdict_error (h : (evaluateGate evaluation).status = .error) :
    (engine.gateVerdict name (evaluateGate evaluation)).blocked = true := by
  simp [gateVerdict, h]

/-- A failed gate blocks when its findings do and nothing lifts the block. -/
theorem gateVerdict_failed (h : (evaluateGate evaluation).status = .failed) :
    (engine.gateVerdict name (evaluateGate evaluation)).blocked =
      (engine.resolveGate name (evaluateGate evaluation)).blocks := by
  simp [gateVerdict, h]

/-- No findings, no block: the status of the gate plays no part. -/
theorem resolveGate_nil {result : GateResult} (h : result.findings = []) :
    (engine.resolveGate name result).blocks = false := by
  have hnot : ¬(engine.resolveGate name result).blocks = true := by
    intro hblocks
    have hdecision := ((resolveDecision_blocks _ _ _ _ _).mp hblocks).1
    rw [h, List.map_nil, show Quality.normalize [] = [] from rfl, baseDecision_nil] at hdecision
    cases hdecision
  simpa using hnot

/-- Canonical findings that do not block are tolerated one by one. -/
theorem tolerated_of_open {result : GateResult} (hne : result.findings ≠ [])
    (hcanonical : ∀ finding ∈ result.findings, ∃ severity, finding.severity = .canonical severity)
    (hopen : (engine.resolveGate name result).blocks = false) : engine.Tolerated name result := by
  by_cases hover : engine.Overridden name
  · exact .inl hover
  · refine .inr ⟨hne, ?_⟩
    have hlabel : ∀ finding ∈ result.findings, severityLabel finding.severity ∈ severityLabels := by
      intro finding hmem
      obtain ⟨severity, hseverity⟩ := hcanonical finding hmem
      rw [hseverity]
      cases severity <;> decide
    have hnormal : Quality.normalize (result.findings.map GateFinding.severity) =
        result.findings.map fun finding => severityLabel finding.severity := by
      unfold Quality.normalize
      rw [List.map_map, List.filter_eq_self.mpr]
      · rfl
      · intro label hmem
        obtain ⟨finding, hfinding, rfl⟩ := List.mem_map.mp hmem
        simpa using hlabel finding hfinding
    have hdecision : baseDecision (Quality.normalize (result.findings.map GateFinding.severity))
        (environmentPolicy ((engine.qualityConfig.map QualityConfig.policy).getD [])
          engine.environment) ≠ .block := by
      intro hblock
      have hblocks : (engine.resolveGate name result).blocks = true :=
        (resolveDecision_blocks _ _ _ _ _).mpr ⟨hblock, findOverrideReason_of_not_overridden hover⟩
      rw [hopen] at hblocks
      cases hblocks
    rw [hnormal] at hdecision
    intro finding hmem
    refine ⟨hlabel finding hmem, fun hblocked => hdecision ?_⟩
    have hlabels : severityLabel finding.severity ∈
        result.findings.map fun finding => severityLabel finding.severity :=
      List.mem_map_of_mem hmem
    have hnonempty : (result.findings.map fun finding => severityLabel finding.severity).isEmpty =
        false := by
      simpa using hne
    unfold Blocked at hblocked
    unfold baseDecision
    cases hpolicy : environmentPolicy ((engine.qualityConfig.map QualityConfig.policy).getD [])
        engine.environment with
    | none => simp [hnonempty]
    | some blockSet =>
      rw [hpolicy] at hblocked
      have hany : ((result.findings.map fun finding => severityLabel finding.severity).any
          fun label => label ∈ blockSet) = true :=
        List.any_eq_true.mpr ⟨_, hlabels, by simpa using hblocked⟩
      simp [hnonempty, hany]

/-- A gate evaluation is handled safely exactly when it is no silent failure. -/
theorem failSafe_iff (engine : WorkflowEngine) (name : String) (evaluation : GateEvaluation) :
    engine.FailSafe name evaluation ↔ ¬engine.SilentFailure name evaluation := by
  constructor
  · rintro hsafe ⟨hstatus, hempty, hover⟩
    obtain ⟨serialized, hdict⟩ := GateResult.toDict_nil hempty
    have hopen : (engine.gateVerdict name (evaluateGate evaluation)).blocked = false := by
      rw [gateVerdict_failed hstatus]
      exact resolveGate_nil hempty
    let world : World := { agentRun := fun _ _ => ⟨fun _ => .timedOut, fun _ => false⟩ }
    let s : EngineState :=
      { ctx := { task := {}, runId := 0, goal := "" }, context := none, kanban := {} }
    have hquiet : ∀ stage, world.onStage stage = none := fun _ => rfl
    obtain ⟨t, hrun⟩ := runConfiguredGate_goesOn {} s hquiet hdict hopen
    rcases hsafe (.inl hstatus) world {} s t hrun with hoverridden | ⟨hne, -⟩
    · exact hover hoverridden
    · exact hne hempty
  · rintro hsilent hstatus world input s t hrun
    obtain ⟨⟨serialized, hdict⟩, hopen⟩ := runConfiguredGate_true hrun
    have hfailed : (evaluateGate evaluation).status = .failed := by
      rcases hstatus with hfailed | herror
      · exact hfailed
      · rw [gateVerdict_error herror] at hopen
        cases hopen
    by_cases hempty : (evaluateGate evaluation).findings = []
    · by_contra hnot
      exact hsilent ⟨hfailed, hempty, fun hover => hnot (.inl hover)⟩
    · rw [gateVerdict_failed hfailed] at hopen
      exact tolerated_of_open hempty (GateResult.toDict_canonical hdict) hopen

/-- `ruff` ran and reported a problem, but in no line that the code gate
recognises. -/
structure Unparsed (files : List String) (check format : CodeGate.CmdOutcome) : Prop where
  files : files ≠ []
  outcome : ∃ checkRc checkOut formatRc formatOut,
    check = .ok (checkRc, checkOut) ∧ format = .ok (formatRc, formatOut) ∧
      (checkRc ≠ 0 ∨ formatRc ≠ 0) ∧
      ¬(checkRc ≠ 0 ∧ CodeGate.missingModule <:+: checkOut) ∧
      (∀ line ∈ splitlines checkOut, CodeGate.lintLineRe.match? line = none) ∧
      ∀ line ∈ splitlines formatOut, CodeGate.reformatRe.match? line = none

/-- Lines without a lint match give no finding, and conversely. -/
theorem parseRuffCheck_eq_nil (output : Text) :
    CodeGate.parseRuffCheck output = [] ↔
      ∀ line ∈ splitlines output, CodeGate.lintLineRe.match? line = none := by
  unfold CodeGate.parseRuffCheck
  rw [List.filterMap_eq_nil_iff]
  refine forall₂_congr fun line _ => ?_
  unfold CodeGate.lintFinding
  cases CodeGate.lintLineRe.match? line <;> simp

/-- The same for the lines of the format check. -/
theorem parseRuffFormat_eq_nil (output : Text) :
    CodeGate.parseRuffFormat output = [] ↔
      ∀ line ∈ splitlines output, CodeGate.reformatRe.match? line = none := by
  unfold CodeGate.parseRuffFormat
  rw [List.filterMap_eq_nil_iff]
  refine forall₂_congr fun line _ => ?_
  unfold CodeGate.formatFinding
  cases CodeGate.reformatRe.match? line <;> simp

/-- The verdict on two finished commands is a failure without findings. -/
theorem verdict_silent_iff (checkRc formatRc : ℤ) (checkOut formatOut : Text) :
    ((CodeGate.verdict checkRc checkOut formatRc formatOut).status = .failed ∧
        (CodeGate.verdict checkRc checkOut formatRc formatOut).findings = []) ↔
      (checkRc ≠ 0 ∨ formatRc ≠ 0) ∧
        ¬(checkRc ≠ 0 ∧ CodeGate.missingModule <:+: checkOut) ∧
        (∀ line ∈ splitlines checkOut, CodeGate.lintLineRe.match? line = none) ∧
        ∀ line ∈ splitlines formatOut, CodeGate.reformatRe.match? line = none := by
  unfold CodeGate.verdict
  by_cases hmissing : checkRc ≠ 0 ∧ CodeGate.missingModule <:+: checkOut
  · simp [hmissing]
  · by_cases hclean : checkRc = 0 ∧ formatRc = 0
    · simp [hclean]
    · have hdirty : checkRc ≠ 0 ∨ formatRc ≠ 0 := by
        by_contra hnone
        push Not at hnone
        exact hclean hnone
      rw [if_neg hmissing, if_neg hclean]
      simp only [List.append_eq_nil_iff, parseRuffCheck_eq_nil, parseRuffFormat_eq_nil]
      exact ⟨fun h => ⟨hdirty, hmissing, h.2⟩, fun h => ⟨trivial, h.2.2⟩⟩

/-- The code gate fails without findings exactly on unparsed output. -/
theorem codeGate_silent_iff (files : List String) (check format : CodeGate.CmdOutcome) :
    engine.SilentFailure "code_gate" (CodeGate.run files check format) ↔
      Unparsed files check format ∧ ¬engine.Overridden "code_gate" := by
  unfold SilentFailure
  cases files with
  | nil =>
    have hnot : ¬Unparsed [] check format := fun h => h.files rfl
    simp [CodeGate.run, evaluateGate, hnot]
  | cons file files =>
    have herror : ∀ exc, CodeGate.commands check format = .error exc →
        (evaluateGate (CodeGate.run (file :: files) check format)).status = .error := by
      intro exc hcommands
      simp only [CodeGate.run, List.isEmpty_cons, Bool.false_eq_true, if_false, hcommands]
      split <;> rfl
    cases check with
    | error exc =>
      have hstatus := herror exc rfl
      have hnot : ¬Unparsed (file :: files) (.error exc) format := by
        rintro ⟨-, _, _, _, _, hcheck, -⟩
        cases hcheck
      simp [hstatus, hnot]
    | ok checked =>
      cases format with
      | error exc =>
        have hstatus := herror exc rfl
        have hnot : ¬Unparsed (file :: files) (.ok checked) (.error exc) := by
          rintro ⟨-, _, _, _, _, -, hformat, -⟩
          cases hformat
        simp [hstatus, hnot]
      | ok formatted =>
        have hrun : evaluateGate (CodeGate.run (file :: files) (.ok checked) (.ok formatted)) =
            CodeGate.verdict checked.1 checked.2 formatted.1 formatted.2 := rfl
        rw [hrun, ← and_assoc, verdict_silent_iff]
        constructor
        · rintro ⟨hsilent, hover⟩
          exact ⟨⟨by simp, _, _, _, _, rfl, rfl, hsilent⟩, hover⟩
        · rintro ⟨⟨-, _, _, _, _, hcheck, hformat, hsilent⟩, hover⟩
          cases hcheck
          cases hformat
          exact ⟨hsilent, hover⟩

/-- Gates fail safe exactly apart from silent failures. For the code gate
these are the runs of `ruff` whose problem is in no recognised line. -/
theorem gates_failSafe_iff (engine : WorkflowEngine) :
    (∀ name evaluation, engine.FailSafe name evaluation ↔ ¬engine.SilentFailure name evaluation) ∧
      ∀ files check format,
        engine.FailSafe "code_gate" (CodeGate.run files check format) ↔
          ¬(Unparsed files check format ∧ ¬engine.Overridden "code_gate") := by
  refine ⟨failSafe_iff engine, fun files check format => ?_⟩
  rw [failSafe_iff, codeGate_silent_iff]

end WorkflowEngine

/-- What `ruff check` prints for a file that it cannot parse. -/
def syntaxErrorOutput : Text := "src/module.py:1:5: SyntaxError: Expected an expression".toList

/-- What `ruff format --check` prints for the same file. -/
def formatErrorOutput : Text := "error: Failed to parse src/module.py:1:5: Expected an expression".toList

/-- The code gate on a file with a syntax error, which both commands reject. -/
def syntaxErrorGate : GateEvaluation :=
  CodeGate.run ["src/module.py"] (.ok (1, syntaxErrorOutput)) (.ok (2, formatErrorOutput))

/-- The green gates, but for the code gate that meets a syntax error. -/
def syntaxErrorGates : List (String × Gate) :=
  ("code_gate", fun _ _ => syntaxErrorGate) :: greenGates

/-- A syntax error passes the code gate: it fails, and the run commits. -/
theorem not_failSafe_syntax_error :
    ¬(gatedEngine syntaxErrorGates).FailSafe "code_gate" syntaxErrorGate ∧
      (WorkflowEngine.evaluateGate syntaxErrorGate).status = .failed ∧
      (WorkflowEngine.execute (gatedEngine syntaxErrorGates) greenWorld { description := "goal" }
        none true {}).2.trace.any Event.isCommit = true := by
  refine ⟨fun hsafe => ?_, by decide, by decide +kernel⟩
  have hnone : ¬(gatedEngine syntaxErrorGates).Overridden "code_gate" := by
    rintro ⟨override, hmem, -⟩
    cases hmem
  have hsilent := (WorkflowEngine.failSafe_iff _ _ _).mp hsafe
  exact hsilent ⟨by decide, by decide +kernel, hnone⟩

end AiosDeck.Workflow
