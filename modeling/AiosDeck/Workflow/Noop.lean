import AiosDeck.Agents.Git
import AiosDeck.Workflow.Mirror

/-!
# The no-op verdict and the working tree

The verdict compares the paths of two listings of the working tree. A file
that is in both keeps its path, whatever its content became, so that work on
files that were already changed does not count.
-/

namespace AiosDeck.Workflow

open Python Agents Security Quality Scheduler Program

/-- The checkout that a run works in, at each point of the run. -/
structure Checkout where
  /-- Content of the file at a path, when there is one. -/
  content : List Event → String → Option String
  /-- What the command line does with a command. -/
  shell : List Event → List String → CommandRun

namespace Checkout

variable (checkout : Checkout)

/-- The paths that the engine is told at this point. -/
def listed (trace : List Event) : List String :=
  match GitAgent.changedFiles (checkout.shell trace) with
  | .ok files => files
  | .error _ => []

/-- A file of the sources or the tests is there at `stop` with another
content than at `start`. -/
def Reworked (start stop : List Event) : Prop :=
  ∃ path content, RELEVANT_PREFIXES.any (startsWith path) = true ∧
    checkout.content stop path = some content ∧ checkout.content start path ≠ some content

/-- A path of the sources or the tests is listed at `stop` and not at `start`. -/
def NewlyListed (start stop : List Event) : Prop :=
  ∃ path ∈ checkout.listed stop, RELEVANT_PREFIXES.any (startsWith path) = true ∧
    path ∉ checkout.listed start

/-- Git answers the status command at this point with these entries. -/
def Answers (trace : List Event) (entries : List StatusEntry) : Prop :=
  (∀ entry ∈ entries, entry.WellFormed) ∧ ∃ stderr returncode,
    checkout.shell trace ["git", "status", "--porcelain=v1", "-z"] =
      .completed (String.ofList (StatusEntry.render entries)) stderr returncode

variable {checkout}

/-- From an answer of git the engine is told the paths that are not deleted. -/
theorem mem_listed {trace : List Event} {entries : List StatusEntry}
    (h : checkout.Answers trace entries) (path : Text) :
    String.ofList path ∈ checkout.listed trace ↔
      ∃ entry ∈ entries, entry.deleted = false ∧ entry.path = path := by
  obtain ⟨hwell, stderr, returncode, hshell⟩ := h
  have hlisted : checkout.listed trace =
      ((entries.filter fun entry => !entry.deleted).map StatusEntry.path).map String.ofList := by
    unfold listed GitAgent.changedFiles GitAgent.status GitAgent.run
    rw [hshell, ← GitAgent.parsePorcelain_render hwell]
    simp [Bind.bind, Except.bind, Pure.pure, Except.pure]
  rw [hlisted, List.mem_map_of_injective fun _ _ => String.ofList_injective]
  simp [and_assoc]

/-- A file that git reports at `stop`, and at `start` not or as deleted, is
newly listed. -/
theorem newlyListed_of_entry {start stop : List Event} {before after : List StatusEntry}
    (hstart : checkout.Answers start before) (hstop : checkout.Answers stop after)
    {entry : StatusEntry} (hmem : entry ∈ after) (hkept : entry.deleted = false)
    (hrelevant : RELEVANT_PREFIXES.any (startsWith (String.ofList entry.path)) = true)
    (hclean : ∀ other ∈ before, other.path = entry.path → other.deleted = true) :
    checkout.NewlyListed start stop := by
  refine ⟨String.ofList entry.path, (mem_listed hstop _).mpr ⟨entry, hmem, hkept, rfl⟩, hrelevant, ?_⟩
  intro hlisted
  obtain ⟨other, hother, hreported, hpath⟩ := (mem_listed hstart _).mp hlisted
  rw [hclean other hother hpath] at hreported
  cases hreported

end Checkout

/-- The world with the change sets of a checkout. -/
def World.inside (world : World) (checkout : Checkout) : World :=
  { world with changedFiles := fun trace => GitAgent.changedFiles (checkout.shell trace) }

namespace WorkflowEngine

open Checkout

/-- A path is new exactly when it is in the second listing only. -/
theorem mem_computeProducedFiles {before after : List String} {path : String} :
    path ∈ computeProducedFiles before after ↔ path ∈ after ∧ path ∉ before := by
  simp [computeProducedFiles]

/-- The listing between the developers and the verdict counts. -/
theorem hasRelevantChange_produced (checkout : Checkout) (start stop : List Event) :
    hasRelevantChange (computeProducedFiles (checkout.listed start) (checkout.listed stop)) = true ↔
      checkout.NewlyListed start stop := by
  unfold hasRelevantChange NewlyListed
  rw [List.any_eq_true]
  constructor
  · rintro ⟨path, hproduced, hrelevant⟩
    obtain ⟨hstop, hstart⟩ := mem_computeProducedFiles.mp hproduced
    exact ⟨path, hstop, hrelevant, hstart⟩
  · rintro ⟨path, hstop, hrelevant, hstart⟩
    exact ⟨path, mem_computeProducedFiles.mpr ⟨hstop, hstart⟩, hrelevant⟩

/-- The run up to the no-op check: where the developer phase began, and the
files that were changed then. -/
def implemented (engine : WorkflowEngine) (world : World) (task : Task) (createBranch : Bool) :
    EngineM (List Event × List String) := do
  let subtasks ← planned engine world task createBranch
  let items ← schedulerPhase engine world subtasks
  let s ← get
  let before ← filesBefore engine world
  developSubtasks engine world items.length 0 items
  return (s.trace, before)

/-- The last card, when there is one, can be blocked for this reason. -/
def Blocks (engine : WorkflowEngine) (reason : String) (s : EngineState) : Prop :=
  ∀ card, s.ctx.cards.getLast? = some card → ∀ exc kanban,
    engine.scheduler.blockCard card.id reason s.kanban ≠ .error exc kanban

variable {engine : WorkflowEngine} {world : World}

theorem noopRecorded_iff (s : EngineState) :
    NoopRecorded s ↔ ∃ success, ("developer:noop", success) ∈ developerStages s.ctx.stages := by
  unfold NoopRecorded developerStages
  constructor
  · rintro ⟨stage, hmem, hname⟩
    refine ⟨stage.success, List.mem_map.mpr ⟨stage, List.mem_filter.mpr ⟨hmem, ?_⟩, ?_⟩⟩
    · rw [hname]
      decide
    · rw [hname]
  · rintro ⟨success, hmem⟩
    obtain ⟨stage, hstage, heq⟩ := List.mem_map.mp hmem
    exact ⟨stage, (List.mem_filter.mp hstage).1, congrArg Prod.fst heq⟩

/-- Recording stages of other names keeps whether the verdict was recorded. -/
theorem SameTally.noopRecorded {s t : EngineState} (h : SameTally s t) :
    NoopRecorded t ↔ NoopRecorded s := by
  have hstages : developerStages t.ctx.stages = developerStages s.ctx.stages :=
    (Prod.mk.inj h).2
  rw [noopRecorded_iff, noopRecorded_iff, hstages]

theorem reviewerPhase_tally : Framed SameTally (reviewerPhase engine world) := by
  have hname : startsWith "reviewer" "developer:" = false := by decide
  refine (runAlone_tally _ _ _ _ _).bind fun result => (liftPy_tally _).bind fun report => ?_
  exact Framed.bind (update_tally fun _ => ⟨rfl, rfl⟩) fun _ => appendStage_tally hname

theorem testerPhase_tally : Framed SameTally (testerPhase engine world) := by
  have hname : startsWith "tester" "developer:" = false := by decide
  have hstop : ∀ failed, Framed SameTally (stopOnFailures engine failed) := by
    intro failed
    refine (liftPy_tally _).bind fun stops => Framed.ite ?_ (Framed.pure _)
    exact Framed.bind (update_tally fun _ => ⟨rfl, rfl⟩) fun _ => finish_tally
  unfold testerPhase
  split
  · refine Framed.bind ?_ fun _ => ?_
    · refine Framed.get.bind fun s => Framed.ite ?_ (Framed.pure _)
      refine (runAlone_tally _ _ _ _ _).bind fun result => (liftPy_tally _).bind fun report => ?_
      exact update_tally fun _ => ⟨rfl, rfl⟩
    · refine Framed.get.bind fun s => (liftPy_tally _).bind fun failed => ?_
      exact (appendStage_tally hname).bind fun _ => (hstop _).bind fun _ => Framed.pure _
  · exact (appendStage_tally hname).bind fun _ => (hstop _).bind fun _ => Framed.pure _

theorem documentationPhase_tally (failed : Json) :
    Framed SameTally (documentationPhase engine world failed) := by
  have hname : startsWith "documentation" "developer:" = false := by decide
  unfold documentationPhase
  split
  · refine Framed.get.bind fun s => (liftPy_tally _).bind fun passed => ?_
    refine (liftPy_tally _).bind fun items => (runAlone_tally _ _ _ _ _).bind fun result => ?_
    exact appendStage_tally hname
  · exact appendStage_tally hname

theorem deliver_tally : Framed SameTally (deliver engine world) := by
  have hname : startsWith "git" "developer:" = false := by decide
  refine Framed.bind ?_ fun _ => finish_tally
  unfold gitPhase
  split
  · refine (runAlone_tally _ _ _ _ _).bind fun staged => ?_
    refine Framed.bind (update_tally fun _ => ⟨rfl, rfl⟩) fun _ => Framed.get.bind fun s => ?_
    refine (liftPy_tally _).bind fun message => (runAlone_tally _ _ _ _ _).bind fun result => ?_
    refine Framed.bind (update_tally fun _ => ⟨rfl, rfl⟩) fun _ => (liftPy_tally _).bind fun error => ?_
    refine (appendStage_tally hname).bind fun _ => Framed.ite (Framed.pure _) ?_
    exact update_tally fun _ => ⟨rfl, rfl⟩
  · exact appendStage_tally hname

/-- The run in three parts, of which the last records no developer stage. -/
theorem pipeline_implemented (engine : WorkflowEngine) (world : World) (task : Task)
    (createBranch : Bool) :
    ∃ rest : EngineM Unit, Framed SameTally rest ∧
      pipeline engine world task createBranch =
        implemented engine world task createBranch >>= fun reached =>
          noopPhase engine world reached.2 >>= fun _ => rest := by
  refine ⟨do
    gatePhase engine world "code_gate" { projectPath := some engine.projectPath }
    reviewerPhase engine world
    gatePhase engine world "security_gate" { projectPath := some engine.projectPath }
    let failed ← testerPhase engine world
    let s ← get
    gatePhase engine world "test_gate" { testReport := s.ctx.testReport }
    documentationPhase engine world failed
    gatePhase engine world "documentation_gate" { projectPath := some engine.projectPath }
    releasePhase engine world
    deliver engine world, ?_, ?_⟩
  · refine (gatePhase_tally (by decide) _).bind fun _ => reviewerPhase_tally.bind fun _ => ?_
    refine (gatePhase_tally (by decide) _).bind fun _ => testerPhase_tally.bind fun failed => ?_
    refine Framed.get.bind fun s => (gatePhase_tally (by decide) _).bind fun _ => ?_
    refine (documentationPhase_tally failed).bind fun _ => (gatePhase_tally (by decide) _).bind fun _ => ?_
    refine Framed.bind (Framed.ite ?_ (Framed.pure _)) fun _ => deliver_tally
    exact gatePhase_tally (by decide) _
  · have hget : ∀ x : EngineM Unit, (get >>= fun _ => x) = x := fun _ => rfl
    simp only [pipeline, prepare, implement, planned, implemented, developerPhase, develop,
      bind_assoc, pure_bind, hget]

/-- No position has the name of the verdict. -/
theorem developerStage_ne_noop (index : ℕ) : developerStage index ≠ "developer:noop" := by
  intro h
  have hlist := congrArg String.toList h
  unfold developerStage at hlist
  rw [String.toList_append] at hlist
  have hdigits : (toString (index + 1)).toList = "noop".toList :=
    List.append_cancel_left (hlist.trans (by decide : "developer:noop".toList =
      "developer:".toList ++ "noop".toList))
  have hmem : 'n' ∈ Nat.toDigits 10 (index + 1) := by
    rw [← Nat.toList_repr]
    change 'n' ∈ (toString (index + 1)).toList
    rw [hdigits]
    decide
  have hdigit : ('n' : Char).isDigit = true :=
    Nat.isDigit_of_mem_toDigits (by decide) (by decide) hmem
  cases hdigit

/-- The verdict was not recorded by this part of a run. -/
def KeepsVerdict (s t : EngineState) : Prop := NoopRecorded t → NoopRecorded s

instance : Std.Refl KeepsVerdict where
  refl _ := id

instance : IsTrans EngineState KeepsVerdict where
  trans _ _ _ h h' := h ∘ h'

theorem keepsVerdict_of_tally {α : Type} {x : EngineM α} (h : Framed SameTally x) :
    Framed KeepsVerdict x :=
  fun s => (SameTally.noopRecorded (h s)).mp

theorem appendStage_keepsVerdict {stage : WorkflowStage} (h : stage.name ≠ "developer:noop") :
    Framed KeepsVerdict (appendStage world stage) := by
  refine Framed.bind (Framed.modify fun s => ?_) fun _ => ?_
  · rintro ⟨recorded, hmem, hname⟩
    rcases List.mem_append.mp hmem with hold | hnew
    · exact ⟨recorded, hold, hname⟩
    · rw [List.mem_singleton.mp hnew] at hname
      exact absurd hname h
  · refine Framed.bind (keepsVerdict_of_tally (record_tally _)) fun _ => ?_
    cases world.onStage stage with
    | none => exact Framed.pure _
    | some exc => exact Framed.throw _

theorem developSubtask_keepsVerdict (total index : ℕ) (subtask : Json) :
    Framed KeepsVerdict (developSubtask engine world total index subtask) := by
  have hboard : ∀ (operation : CardOperation) (program : KanbanM (Option KanbanCard)),
      Framed KeepsVerdict (onBoard operation program) :=
    fun _ _ => keepsVerdict_of_tally (onBoard_tally _ _)
  have hlift : ∀ {α : Type} (result : Except PyExc α), Framed KeepsVerdict (liftPy result) :=
    fun _ => keepsVerdict_of_tally (liftPy_tally _)
  refine Framed.get.bind fun s => ?_
  split
  · exact Framed.throw _
  refine (hboard _ _).bind fun _ => (hlift _).bind fun description => (hlift _).bind fun taskType => ?_
  split
  · refine Framed.bind (keepsVerdict_of_tally (runShared_tally _ _ _ _ _ _ _)) fun result => ?_
    refine Framed.ite ?_ ?_
    · refine (hboard _ _).bind fun _ => Framed.bind (Framed.modify fun _ => id) fun _ => ?_
      exact appendStage_keepsVerdict (developerStage_ne_noop index)
    · refine (hboard _ _).bind fun _ => ?_
      refine (appendStage_keepsVerdict (developerStage_ne_noop index)).bind fun _ => ?_
      exact Framed.bind (Framed.modify fun _ => id) fun _ => keepsVerdict_of_tally finish_tally
  · exact Framed.throw _

theorem developSubtasks_keepsVerdict (total index : ℕ) (rest : List Json) :
    Framed KeepsVerdict (developSubtasks engine world total index rest) := by
  induction rest generalizing index with
  | nil => exact Framed.pure _
  | cons subtask rest ih =>
    exact (developSubtask_keepsVerdict total index subtask).bind fun _ => ih (index + 1)

/-- Up to the no-op check there is no verdict. -/
theorem implemented_keepsVerdict (task : Task) (createBranch : Bool) :
    Framed KeepsVerdict (implemented engine world task createBranch) := by
  have hplanned : Framed SameTally (planned engine world task createBranch) := by
    refine Framed.bind (Framed.ite (Framed.pure _) (publishQuality_tally _)) fun _ => ?_
    refine (researchPhase_tally task).bind fun _ => (plannerPhase_tally task).bind fun subtasks => ?_
    exact (branchPhase_tally createBranch).bind fun _ => Framed.pure _
  have hfiles : Framed SameTally (filesBefore engine world) :=
    Framed.ite changedFiles_tally (Framed.pure _)
  refine (keepsVerdict_of_tally hplanned).bind fun subtasks => ?_
  refine (keepsVerdict_of_tally (schedulerPhase_tally _)).bind fun items => Framed.get.bind fun s => ?_
  refine (keepsVerdict_of_tally hfiles).bind fun before => ?_
  exact (developSubtasks_keepsVerdict _ _ _).bind fun _ => Framed.pure _

/-- The files that the check starts from are those that git listed where the
developer phase began. -/
theorem implemented_before {checkout : Checkout} {task : Task} {createBranch : Bool}
    {start : List Event} {before : List String} {s t : EngineState} (hgit : engine.git.isSome = true)
    (h : implemented engine (world.inside checkout) task createBranch s = .ok (start, before) t) :
    before = checkout.listed start := by
  have hfiles : ∀ u, Triple (fun v => v = u) (filesBefore engine (world.inside checkout))
      (fun before _ => before = checkout.listed u.trace) (fun _ _ => True) := by
    rintro u v rfl
    unfold filesBefore
    rw [if_pos hgit]
    rfl
  have hreached : Triple (fun _ => True)
      (implemented engine (world.inside checkout) task createBranch)
      (fun reached _ => reached.2 = checkout.listed reached.1) (fun _ _ => True) := by
    refine (Triple.any _ _).bind fun subtasks => (Triple.any _ _).bind fun items => ?_
    refine Triple.bind (R := fun u v => v = u) (Triple.get fun _ _ => rfl) fun u => ?_
    refine (hfiles u).bind fun before => ?_
    refine Triple.bind (R := fun _ _ => before = checkout.listed u.trace) ?_ fun _ => ?_
    · exact (Triple.const _ fun _ hbefore => hbefore).conseq (fun _ h => h) (fun _ _ h => h)
        fun _ _ _ => trivial
    · exact Triple.pure fun _ hbefore => hbefore
  exact hreached.of_ok trivial h

/-- The state in which the check decides. -/
def probed (checkout : Checkout) (before : List String) (s : EngineState) : EngineState :=
  let produced := computeProducedFiles before (checkout.listed s.trace)
  { s with
    trace := s.trace ++ [.probe (checkout.listed s.trace)]
    ctx :=
      { s.ctx with
        changedFiles := produced
        producedChange := hasRelevantChange produced
        stages := s.ctx.stages.map (withFiles produced) } }

theorem probed_tally (checkout : Checkout) (before : List String) (s : EngineState) :
    SameTally s (probed checkout before s) := by
  refine Prod.ext rfl (developerStages_map fun stage => ?_)
  unfold withFiles
  split <;> exact ⟨rfl, rfl⟩

/-- The end of a run with the no-op verdict. -/
def verdict (engine : WorkflowEngine) (world : World) (produced : List String)
    (cards : List KanbanCard) : EngineM Unit := do
  blockLast engine cards (noopReason produced)
  fail engine world
    { name := "developer:noop", success := false, error := some (noopReason produced)
      details := [("changed_files", .arr (produced.map Json.str))] }
    (noopReason produced)

/-- The check as its probe and the decision. -/
theorem noopPhase_eq {checkout : Checkout} (hgit : engine.git.isSome = true) (before : List String)
    (s : EngineState) :
    noopPhase engine (world.inside checkout) before s =
      (if isImplementationTask s.ctx.task && !hasRelevantChange (computeProducedFiles before
          (checkout.listed s.trace)) then
        verdict engine (world.inside checkout) (computeProducedFiles before (checkout.listed s.trace))
          s.ctx.cards
      else pure ()) (probed checkout before s) := by
  unfold noopPhase
  rw [if_pos hgit]
  rfl

/-- The failing stage is recorded, however the run ends. -/
theorem fail_verdict {stage : WorkflowStage} (h : stage.name = "developer:noop") (error : String) :
    Triple (fun _ => True) (fail engine world stage error : EngineM Unit) (fun _ => NoopRecorded)
      (fun _ => NoopRecorded) := by
  have hkeeps : ∀ {α : Type} {x : EngineM α}, Framed SameTally x →
      Triple NoopRecorded x (fun _ => NoopRecorded) (fun _ => NoopRecorded) :=
    fun hx => hx.keeps fun _ _ ht hs => (SameTally.noopRecorded ht).mpr hs
  have hstage : Triple (fun _ => True) (appendStage world stage) (fun _ => NoopRecorded)
      (fun _ => NoopRecorded) := by
    refine Triple.bind (R := fun _ => NoopRecorded) ?_ fun _ => ?_
    · exact Triple.modify fun s _ => ⟨stage, List.mem_append_right _ (List.mem_singleton_self _), h⟩
    · refine Triple.bind (hkeeps (record_tally _)) fun _ => ?_
      cases world.onStage stage with
      | none => exact Triple.pure fun _ hs => hs
      | some exc => exact Triple.throw fun _ hs => hs
  refine hstage.bind fun _ => Triple.bind (hkeeps (update_tally fun _ => ⟨rfl, rfl⟩)) fun _ => ?_
  exact hkeeps finish_tally

/-- The verdict is recorded unless blocking the last card raises. -/
theorem verdict_recorded {produced : List String} {s : EngineState} (hnone : ¬NoopRecorded s) :
    NoopRecorded (after (verdict engine world produced s.ctx.cards) s) ↔
      Blocks engine (noopReason produced) s := by
  have hfail : ∀ t, NoopRecorded (after (fail engine world
      { name := "developer:noop", success := false, error := some (noopReason produced)
        details := [("changed_files", .arr (produced.map Json.str))] }
      (noopReason produced) : EngineM Unit) t) :=
    fun t => (fail_verdict rfl _).after trivial
  unfold Blocks
  cases hcards : s.ctx.cards.getLast? with
  | none =>
    refine iff_of_true ?_ fun card h => by cases h
    have hrun : verdict engine world produced s.ctx.cards s = fail engine world
        { name := "developer:noop", success := false, error := some (noopReason produced)
          details := [("changed_files", .arr (produced.map Json.str))] } (noopReason produced) s := by
      unfold verdict blockLast
      rw [hcards]
      rfl
    unfold after
    rw [hrun]
    exact hfail s
  | some card =>
    have hrun : verdict engine world produced s.ctx.cards s =
        (do
          let _ ← onBoard (.blockCard card.id (noopReason produced))
            (engine.scheduler.blockCard card.id (noopReason produced))
          fail engine world
            { name := "developer:noop", success := false, error := some (noopReason produced)
              details := [("changed_files", .arr (produced.map Json.str))] }
            (noopReason produced)) s := by
      unfold verdict blockLast
      rw [hcards]
      simp only [bind_assoc, pure_bind]
    have hrecord : record (.card (.blockCard card.id (noopReason produced))) s =
        .ok () { s with trace := s.trace ++ [.card (.blockCard card.id (noopReason produced))] } := rfl
    unfold after
    rw [hrun]
    unfold onBoard
    simp only [Bind.bind, EStateM.bind, hrecord, MonadState.get, getThe, MonadStateOf.get, EStateM.get]
    cases hblock : engine.scheduler.blockCard card.id (noopReason produced) s.kanban with
    | ok value kanban =>
      refine iff_of_true (hfail _) fun found hfound exc other => ?_
      cases hfound
      rw [hblock]
      exact fun h => by cases h
    | error exc kanban =>
      refine iff_of_false (fun hrecorded => hnone ?_) fun hblocks => hblocks card rfl exc kanban hblock
      exact hrecorded

/-- The check records the verdict exactly when the task has to be implemented,
no new path of the sources or tests is listed, and the last card can be blocked. -/
theorem noopPhase_recorded {checkout : Checkout} (hgit : engine.git.isSome = true)
    (start : List Event) {s : EngineState} (hnone : ¬NoopRecorded s) :
    NoopRecorded (after (noopPhase engine (world.inside checkout) (checkout.listed start)) s) ↔
      isImplementationTask s.ctx.task = true ∧ ¬checkout.NewlyListed start s.trace ∧
        Blocks engine
          (noopReason (computeProducedFiles (checkout.listed start) (checkout.listed s.trace))) s := by
  have hprobed : ¬NoopRecorded (probed checkout (checkout.listed start) s) :=
    fun h => hnone ((SameTally.noopRecorded (probed_tally checkout _ s)).mp h)
  have hlisted := hasRelevantChange_produced checkout start s.trace
  unfold after
  rw [noopPhase_eq hgit]
  by_cases htask : isImplementationTask s.ctx.task = true
  · by_cases hnew : checkout.NewlyListed start s.trace
    · rw [htask, hlisted.mpr hnew]
      exact iff_of_false hprobed fun h => h.2.1 hnew
    · have hrelevant : hasRelevantChange (computeProducedFiles (checkout.listed start)
          (checkout.listed s.trace)) = false := by
        rw [← Bool.not_eq_true]
        exact fun h => hnew (hlisted.mp h)
      rw [htask, hrelevant]
      refine Iff.trans ?_ ⟨fun h => ⟨rfl, hnew, h⟩, fun h => h.2.2⟩
      exact verdict_recorded hprobed
  · have hother : isImplementationTask s.ctx.task = false := by simpa using htask
    rw [hother]
    exact iff_of_false hprobed fun h => by cases h.1

/-- Behind the check no verdict is added or taken away. -/
theorem execute_recorded {task : Task} {context : Option Context} {createBranch : Bool}
    {kanban : KanbanState} {start : List Event} {before : List String} {s : EngineState}
    (hreached : implemented engine world task createBranch (begin engine world task context kanban) =
      .ok (start, before) s) :
    NoopRecorded (execute engine world task context createBranch kanban).2 ↔
      NoopRecorded (after (noopPhase engine world before) s) := by
  have hstate : (execute engine world task context createBranch kanban).2 =
      after (pipeline engine world task createBranch) (begin engine world task context kanban) :=
    execute_state task context createBranch kanban
  obtain ⟨rest, hframed, hpipeline⟩ := pipeline_implemented engine world task createBranch
  rw [hstate, hpipeline]
  unfold after
  simp only [Bind.bind, EStateM.bind, hreached]
  cases hcheck : noopPhase engine world before s with
  | ok value t =>
    have hrest := SameTally.noopRecorded (hframed t)
    unfold after at hrest
    exact hrest
  | error stop t => exact Iff.rfl

/-- In front of the check no verdict is recorded. -/
theorem implemented_unrecorded {task : Task} {context : Option Context} {createBranch : Bool}
    {kanban : KanbanState} {reached : List Event × List String} {s : EngineState}
    (hreached : implemented engine world task createBranch (begin engine world task context kanban) =
      .ok reached s) : ¬NoopRecorded s := by
  have hkeeps : KeepsVerdict (begin engine world task context kanban)
      (after (implemented engine world task createBranch) (begin engine world task context kanban)) :=
    implemented_keepsVerdict task createBranch _
  unfold after at hkeeps
  rw [hreached] at hkeeps
  intro h
  obtain ⟨stage, hmem, -⟩ := hkeeps h
  cases hmem

end WorkflowEngine

/-- No run ends with the no-op verdict when a file of the sources or tests was
reworked between the two listings. -/
def KeepsWork (engine : WorkflowEngine) (world : World) (checkout : Checkout) (task : Task)
    (context : Option Context) (createBranch : Bool) (kanban : KanbanState) : Prop :=
  ∀ start before s,
    engine.implemented (world.inside checkout) task createBranch
      (engine.begin (world.inside checkout) task context kanban) = .ok (start, before) s →
    checkout.Reworked start s.trace →
      ¬WorkflowEngine.NoopRecorded
        (engine.execute (world.inside checkout) task context createBranch kanban).2

/-- Reworked files are kept exactly when, at the check of such a run, there is
no git, nothing has to be implemented, a path is newly listed, or the last
card cannot be blocked. -/
theorem keepsWork_iff (engine : WorkflowEngine) (world : World) (checkout : Checkout) (task : Task)
    (context : Option Context) (createBranch : Bool) (kanban : KanbanState) :
    KeepsWork engine world checkout task context createBranch kanban ↔
      ∀ start before s,
        engine.implemented (world.inside checkout) task createBranch
          (engine.begin (world.inside checkout) task context kanban) = .ok (start, before) s →
        checkout.Reworked start s.trace →
          engine.git.isSome = false ∨ WorkflowEngine.isImplementationTask s.ctx.task = false ∨
            checkout.NewlyListed start s.trace ∨
            ¬engine.Blocks (WorkflowEngine.noopReason (WorkflowEngine.computeProducedFiles
              (checkout.listed start) (checkout.listed s.trace))) s := by
  refine forall_congr' fun start => forall_congr' fun before => forall_congr' fun s => ?_
  refine imp_congr_right fun hreached => imp_congr_right fun _ => ?_
  have hnone := WorkflowEngine.implemented_unrecorded hreached
  rw [WorkflowEngine.execute_recorded hreached]
  cases hgit : engine.git.isSome with
  | false =>
    refine iff_of_true ?_ (.inl rfl)
    unfold WorkflowEngine.noopPhase
    rw [hgit]
    exact hnone
  | true =>
    rw [WorkflowEngine.implemented_before hgit hreached,
      WorkflowEngine.noopPhase_recorded hgit start hnone, not_and_or, not_and_or, not_not,
      Bool.not_eq_true]
    simp

/-- A checkout whose only file was changed before the run, and is changed again. -/
def dirtyCheckout : Checkout where
  content := fun trace path =>
    if path = "src/module.py" then some (if trace.length < 8 then "draft" else "done") else none
  shell := fun _ _ => .completed " M src/module.py\x00" "" 0

theorem not_keepsWork_dirty :
    ¬KeepsWork (gatedEngine greenGates) greenWorld dirtyCheckout { description := "goal" } none true
      {} := by
  intro hkeeps
  have hreached : (match (gatedEngine greenGates).implemented (greenWorld.inside dirtyCheckout)
      { description := "goal" } true ((gatedEngine greenGates).begin (greenWorld.inside dirtyCheckout)
        { description := "goal" } none {}) with
    | .ok reached s => decide (reached.1.length < 8 ∧ 8 ≤ s.trace.length)
    | .error _ _ => false) = true := by decide +kernel
  have hverdict : ((gatedEngine greenGates).execute (greenWorld.inside dirtyCheckout)
      { description := "goal" } none true {}).2.ctx.stages.any
        (fun stage => stage.name == "developer:noop") = true := by decide +kernel
  cases hrun : (gatedEngine greenGates).implemented (greenWorld.inside dirtyCheckout)
      { description := "goal" } true ((gatedEngine greenGates).begin (greenWorld.inside dirtyCheckout)
        { description := "goal" } none {}) with
  | error stop s =>
    rw [hrun] at hreached
    cases hreached
  | ok reached s =>
    rw [hrun] at hreached
    obtain ⟨hstart, hstop⟩ := of_decide_eq_true hreached
    refine hkeeps reached.1 reached.2 s hrun ⟨"src/module.py", "done", by decide, ?_, ?_⟩ ?_
    · simp [dirtyCheckout, Nat.not_lt.mpr hstop]
    · simp [dirtyCheckout, hstart]
    · obtain ⟨stage, hmem, hname⟩ := List.any_eq_true.mp hverdict
      exact ⟨stage, hmem, by simpa using hname⟩

end AiosDeck.Workflow
