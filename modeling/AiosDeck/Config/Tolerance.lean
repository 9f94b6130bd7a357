import Mathlib
import AiosDeck.Config.Precedence

/-!
# Tolerance of the loader

A tolerant loader takes from every source the values that are there and well formed,
whatever the other sources hold. This one is tolerant exactly when each number of the
environment reads as a float and each file is a mapping, or empty, or not read at all.
-/

namespace AiosDeck.Config

open Python Overrides

section Contributions

variable (around : Surroundings)

/-- The entries that a file contributes. -/
def readable (file : YamlFile) : List (String × Json) :=
  if around.yamlAvailable then file.entries else []

/-- The skills of a manifest, when they are a list. -/
def skillsUpdates (data : List (String × Json)) (source : String) : List (String × Setting) :=
  match data.lookup "skills" with
  | some (.arr skills) => [("project.skills", (.arr skills, source))]
  | _ => []

/-- The step limit of a manifest, when it is an integer. -/
def maxStepsUpdates (data : List (String × Json)) (source : String) : List (String × Setting) :=
  match (mappingAt data "agents").bind fun agents =>
    (mappingAt agents "developer").bind fun developer => developer.lookup "max_steps" with
  | some (.num (.int n)) => [("agent_budget.max_steps", (.num (.int n), source))]
  | some (.bool b) => [("agent_budget.max_steps", (.bool b, source))]
  | _ => []

/-- The well-formed values of a manifest. -/
def manifestUpdates (data : List (String × Json)) (source : String) : List (String × Setting) :=
  fileUpdates (MANIFEST_MAPPING.map fun entry => (entry.2, [entry.1])) data source ++
    skillsUpdates data source ++
    fileUpdates (ROUTING_KEYS.map fun key => ("routing." ++ key, ["routing", key])) data source ++
    maxStepsUpdates data source

/-- The well-formed values of all sources, each read by itself. -/
def contributions : List (String × Setting) :=
  envUpdates around ++
    fileUpdates userFields (readable around around.userFile) around.configPath ++
    manifestUpdates (readable around around.manifestFile) around.manifestPath

/-- The loader returns the configuration to which every source has contributed. -/
def Tolerant : Prop :=
  load around = .ok (applyDetection around (assignAll {} (contributions around)))

/-- The numbers of the environment are numbers, and the files are mappings, or empty,
or not read. -/
structure Loadable : Prop where
  numbers : ∀ entry ∈ ENV_MAP,
    endsWith entry.2 [".cost_cap", ".accent_intensity", ".refresh_interval"] = true →
    ∀ text, around.environ entry.1 = some text → ∃ x, around.parseFloat text = .ok x
  userFile : around.yamlAvailable = true → around.userFile.WellFormed
  manifestFile : around.yamlAvailable = true → around.manifestFile.WellFormed

end Contributions

section Environment

variable {around : Surroundings}

/-- A text is coerced unless it should be a number and is none. -/
theorem coerce_ok_iff {fieldPath text : String}
    (h : endsWith fieldPath [".enabled", ".compact"] = false ∨
      endsWith fieldPath [".cost_cap", ".accent_intensity", ".refresh_interval"] = false) :
    (∃ value, coerce around text fieldPath = .ok value) ↔
      (endsWith fieldPath [".cost_cap", ".accent_intensity", ".refresh_interval"] = true →
        ∃ x, around.parseFloat text = .ok x) := by
  unfold coerce
  cases hflag : endsWith fieldPath [".enabled", ".compact"] with
  | true =>
    have hnumber := h.resolve_left (by rw [hflag]; exact Bool.noConfusion)
    rw [hnumber]
    exact iff_of_true ⟨_, rfl⟩ fun hfalse => by cases hfalse
  | false =>
    cases hnumber : endsWith fieldPath [".cost_cap", ".accent_intensity", ".refresh_interval"] with
    | false => exact iff_of_true ⟨_, rfl⟩ fun hfalse => by cases hfalse
    | true =>
      cases hparse : around.parseFloat text with
      | ok x => exact iff_of_true ⟨_, rfl⟩ fun _ => ⟨x, rfl⟩
      | error exc =>
        refine iff_of_false ?_ ?_
        · rintro ⟨value, hvalue⟩
          cases hvalue
        · intro hall
          obtain ⟨x, hx⟩ := hall rfl
          cases hx

/-- The environment is applied when all its texts are coerced. -/
theorem applyEnv_ok {config result : AiosDeckConfig} (h : applyEnv around config = .ok result) :
    ∀ entry ∈ ENV_MAP, ∀ text, around.environ entry.1 = some text →
      ∃ value, coerce around text entry.2 = .ok value := by
  revert h
  unfold applyEnv
  induction ENV_MAP generalizing config with
  | nil => exact fun _ entry hentry => absurd hentry List.not_mem_nil
  | cons first rest ih =>
    intro h
    rw [List.foldlM_cons] at h
    rw [List.forall_mem_cons]
    cases hvalue : around.environ first.1 with
    | none =>
      rw [hvalue] at h
      exact ⟨fun text htext => (by cases htext), ih h⟩
    | some text =>
      rw [hvalue] at h
      dsimp only at h
      cases hcoerce : coerce around text first.2 with
      | error exc =>
        rw [hcoerce] at h
        cases h
      | ok value =>
        rw [hcoerce] at h
        refine ⟨fun other hother => ?_, ih h⟩
        cases hother
        exact ⟨value, hcoerce⟩

theorem numbers_iff : (∀ entry ∈ ENV_MAP, ∀ text, around.environ entry.1 = some text →
      ∃ value, coerce around text entry.2 = .ok value) ↔
    ∀ entry ∈ ENV_MAP,
      endsWith entry.2 [".cost_cap", ".accent_intensity", ".refresh_interval"] = true →
      ∀ text, around.environ entry.1 = some text → ∃ x, around.parseFloat text = .ok x := by
  have hone : ∀ entry ∈ ENV_MAP, endsWith entry.2 [".enabled", ".compact"] = false ∨
      endsWith entry.2 [".cost_cap", ".accent_intensity", ".refresh_interval"] = false := by
    decide
  refine forall₂_congr fun entry hentry => ?_
  have hcoerce := fun text => @coerce_ok_iff around entry.2 text (hone entry hentry)
  constructor
  · exact fun h hnumber text htext => (hcoerce text).mp (h text htext) hnumber
  · exact fun h text htext => (hcoerce text).mpr fun hnumber => h hnumber text htext

end Environment

section Files

variable {around : Surroundings} {file : YamlFile}

/-- A file that is read is a mapping, or empty, or not there. -/
theorem loadYaml_ok (h : ∃ found, loadYaml around file = .ok found)
    (hyaml : around.yamlAvailable = true) : file.WellFormed := by
  obtain ⟨found, hfound⟩ := h
  unfold loadYaml at hfound
  rw [hyaml] at hfound
  cases file with
  | missing => exact trivial
  | unreadable => exact trivial
  | invalid exc => cases hfound
  | document data =>
    intro htruthy
    simp only [Bool.not_true, Bool.false_eq_true, if_false, htruthy, if_true] at hfound
    cases data with
    | obj entries => exact ⟨entries, rfl⟩
    | null => cases hfound
    | bool b => cases hfound
    | num x => cases hfound
    | str text => cases hfound
    | arr items => cases hfound

/-- What is read is what is readable. -/
theorem loadYaml_readable (h : around.yamlAvailable = true → file.WellFormed) :
    loadYaml around file = .ok none ∧ readable around file = [] ∨
      loadYaml around file = .ok (some (readable around file)) := by
  unfold readable
  cases hyaml : around.yamlAvailable with
  | true => exact loadYaml_entries hyaml (h hyaml)
  | false =>
    refine Or.inl ⟨?_, rfl⟩
    unfold loadYaml
    rw [hyaml]
    rfl

theorem applySkills_updates (data : List (String × Json)) (source : String)
    (config : AiosDeckConfig) :
    applySkills data source config = assignAll config (skillsUpdates data source) := by
  unfold applySkills skillsUpdates
  cases data.lookup "skills" with
  | none => rfl
  | some value => cases value <;> rfl

theorem applyMaxSteps_updates (data : List (String × Json)) (source : String)
    (config : AiosDeckConfig) :
    applyMaxSteps data source config = assignAll config (maxStepsUpdates data source) := by
  unfold applyMaxSteps maxStepsUpdates
  cases mappingAt data "agents" with
  | none => rfl
  | some agents =>
    dsimp only [Option.bind_some]
    cases mappingAt agents "developer" with
    | none => rfl
    | some developer =>
      dsimp only [Option.bind_some]
      cases developer.lookup "max_steps" with
      | none => rfl
      | some value =>
        cases value with
        | num x => cases x <;> rfl
        | null => rfl
        | bool b => rfl
        | str text => rfl
        | arr items => rfl
        | obj fields => rfl

theorem applyUserConfig_readable (h : around.yamlAvailable = true → around.userFile.WellFormed)
    (config : AiosDeckConfig) : applyUserConfig around config =
      .ok (assignAll config
        (fileUpdates userFields (readable around around.userFile) around.configPath)) := by
  unfold applyUserConfig
  obtain ⟨hload, hnothing⟩ | hload := loadYaml_readable h
  · rw [hload, hnothing, fileUpdates_nil]
    rfl
  · rw [hload, ← applyMapped_eq]
    rfl

theorem applyProjectManifest_readable
    (h : around.yamlAvailable = true → around.manifestFile.WellFormed) (config : AiosDeckConfig) :
    applyProjectManifest around config =
      .ok (assignAll config
        (manifestUpdates (readable around around.manifestFile) around.manifestPath)) := by
  unfold applyProjectManifest manifestUpdates
  obtain ⟨hload, hnothing⟩ | hload := loadYaml_readable h
  · rw [hload, hnothing, fileUpdates_nil, fileUpdates_nil]
    rfl
  · have htop : fileUpdates (MANIFEST_MAPPING.map fun entry => (entry.2, [entry.1]))
        (readable around around.manifestFile) around.manifestPath =
          MANIFEST_MAPPING.filterMap fun entry =>
            (present (readable around around.manifestFile) entry.1).map fun value =>
              (entry.2, (value, around.manifestPath)) := by
      unfold fileUpdates
      rw [List.filterMap_map]
      rfl
    rw [hload, assignAll_append, assignAll_append, assignAll_append, htop,
      ← foldl_setPresent (readable around around.manifestFile) around.manifestPath Prod.fst Prod.snd,
      ← applySkills_updates, ← applyRouting_eq, ← applyMaxSteps_updates]
    rfl

end Files

/-- The loader is tolerant exactly when the numbers of the environment are numbers and
the files that are read are mappings or empty. -/
theorem load_tolerant_iff (around : Surroundings) : Tolerant around ↔ Loadable around := by
  unfold Tolerant
  constructor
  · intro h
    unfold load at h
    cases henv : applyEnv around {} with
    | error exc =>
      rw [henv] at h
      cases h
    | ok first =>
      rw [henv] at h
      change (applyUserConfig around first >>= _) = _ at h
      cases huser : applyUserConfig around first with
      | error exc =>
        rw [huser] at h
        cases h
      | ok second =>
        rw [huser] at h
        change (applyProjectManifest around second >>= _) = _ at h
        cases hmanifest : applyProjectManifest around second with
        | error exc =>
          rw [hmanifest] at h
          cases h
        | ok third =>
          have hread : ∀ {α : Type} {file : YamlFile} {f : Option (List (String × Json)) →
              Except PyExc α} {result : α}, (loadYaml around file >>= f) = .ok result →
              ∃ found, loadYaml around file = .ok found := by
            intro α file f result hbind
            cases hfound : loadYaml around file with
            | error exc =>
              rw [hfound] at hbind
              cases hbind
            | ok found => exact ⟨found, rfl⟩
          exact ⟨numbers_iff.mp (applyEnv_ok henv), loadYaml_ok (hread huser),
            loadYaml_ok (hread hmanifest)⟩
  · intro h
    unfold load contributions
    rw [applyEnv_eq (numbers_iff.mpr h.numbers), assignAll_append, assignAll_append]
    change (applyUserConfig around _ >>= _) = _
    rw [applyUserConfig_readable h.userFile]
    change (applyProjectManifest around _ >>= _) = _
    rw [applyProjectManifest_readable h.manifestFile]
    rfl

/-- A user's file with a list on top, and a manifest that names the project. -/
def listOnTop : Surroundings where
  environ := fun _ => none
  parseFloat := fun _ => .ok (.finite 0)
  userFile := .document (.arr [.str "routing"])
  configPath := "config.yaml"
  manifestFile := .document (.obj [("name", .str "deck")])
  manifestPath := ".aios/project.yaml"
  projectName := "src"

/-- The loader raises on that file, and the name is not applied. -/
theorem listOnTop_not_tolerant : ¬∀ around, Tolerant around := by
  intro h
  have hload := h listOnTop
  have hraised : load listOnTop = .error ⟨.attributeError, "object has no attribute 'get'"⟩ := rfl
  unfold Tolerant at hload
  rw [hraised] at hload
  cases hload

end AiosDeck.Config
