import AiosDeck.Config.Loader

/-!
# Precedence of the sources

Every source is a list of assignments to different fields. Behind all of them
a field has the value of the last source that sets it, and that source is noted.
-/

namespace AiosDeck.Config

open Python Overrides

/-- A value for a field, and the source that it comes from. -/
abbrev Setting := Json × String

/-- Fields set one after the other. -/
def assignAll (config : AiosDeckConfig) (updates : List (String × Setting)) : AiosDeckConfig :=
  updates.foldl (fun config update => setField config update.1 update.2.1 update.2.2) config

theorem assignAll_append (config : AiosDeckConfig) (updates more : List (String × Setting)) :
    assignAll config (updates ++ more) = assignAll (assignAll config updates) more :=
  List.foldl_append

section Runs

end Runs

section Sources

/-- The value of a document at a path of keys; null is no value. -/
def valueAt : List (String × Json) → List String → Option Json
  | _, [] => none
  | data, [key] => present data key
  | data, key :: rest => (mappingAt data key).bind fun entries => valueAt entries rest

/-- The entries of a file, when it has some. -/
def YamlFile.entries : YamlFile → List (String × Json)
  | .document (.obj entries) => entries
  | _ => []

/-- The fields that a configuration file of the user can set, with the keys
where it sets them. -/
def userFields : List (String × List String) :=
  USER_MAP.flatMap fun entry => entry.2.map fun field => (field.2, [entry.1, field.1])

/-- The fields that a manifest can set, with the keys where it sets them. -/
def manifestFields : List (String × List String) :=
  MANIFEST_MAPPING.map (fun entry => (entry.2, [entry.1])) ++ [("project.skills", ["skills"])] ++
    ROUTING_KEYS.map (fun key => ("routing." ++ key, ["routing", key])) ++
    [("agent_budget.max_steps", ["agents", "developer", "max_steps"])]

/-- What the environment sets a field to. -/
def envSets (around : Surroundings) (fieldPath : String) : Option Setting :=
  (ENV_MAP.find? fun entry => entry.2 = fieldPath).bind fun entry =>
    (around.environ entry.1).bind fun text =>
      (coerce around text entry.2).toOption.map fun value => (value, "env:" ++ entry.1)

/-- What a file sets a field to. -/
def fileSets (fields : List (String × List String)) (data : List (String × Json)) (source : String)
    (fieldPath : String) : Option Setting :=
  (fields.find? fun row => row.1 = fieldPath).bind fun row =>
    (valueAt data row.2).map fun value => (value, source)

/-- What the sources set a field to: the manifest before the file of the user,
and this before the environment. -/
def kept (around : Surroundings) (fieldPath : String) : Option Setting :=
  (fileSets manifestFields around.manifestFile.entries around.manifestPath fieldPath).or
    ((fileSets userFields around.userFile.entries around.configPath fieldPath).or
      (envSets around fieldPath))

/-- A file is a mapping, or empty, or not there. -/
def YamlFile.WellFormed : YamlFile → Prop
  | .missing | .unreadable => True
  | .document data => data.truthy = true → ∃ entries, data = .obj entries
  | .invalid _ => False

end Sources

section Updates

/-- The assignments of a file. -/
def fileUpdates (fields : List (String × List String)) (data : List (String × Json))
    (source : String) : List (String × Setting) :=
  fields.filterMap fun row => (valueAt data row.2).map fun value => (row.1, (value, source))

theorem fileUpdates_append (fields more : List (String × List String)) (data : List (String × Json))
    (source : String) : fileUpdates (fields ++ more) data source =
      fileUpdates fields data source ++ fileUpdates more data source :=
  List.filterMap_append

/-- Setting the fields whose keys are there. -/
theorem foldl_setPresent {ι : Type} (entries : List (String × Json)) (source : String)
    (key fieldPath : ι → String) (rows : List ι) (config : AiosDeckConfig) :
    rows.foldl (fun config row => setPresent entries source (key row) (fieldPath row) config) config =
      assignAll config (rows.filterMap fun row =>
        (present entries (key row)).map fun value => (fieldPath row, (value, source))) := by
  induction rows generalizing config with
  | nil => rfl
  | cons row rest ih =>
    rw [List.foldl_cons, ih]
    cases hvalue : present entries (key row) with
    | none => rw [setPresent, hvalue, List.filterMap_cons_none (by rw [hvalue]; rfl)]
    | some value =>
      rw [setPresent, hvalue, List.filterMap_cons_some (by rw [hvalue]; rfl)]
      rfl

/-- The file of the user makes its assignments. -/
theorem applyMapped_eq (data : List (String × Json)) (source : String) (config : AiosDeckConfig) :
    applyMapped data USER_MAP source config =
      assignAll config (fileUpdates userFields data source) := by
  unfold applyMapped userFields
  induction USER_MAP generalizing config with
  | nil => rfl
  | cons entry rest ih =>
    have hfields : fileUpdates (entry.2.map fun field => (field.2, [entry.1, field.1])) data source =
        entry.2.filterMap fun field =>
          ((mappingAt data entry.1).bind fun entries => present entries field.1).map
            fun value => (field.2, (value, source)) := by
      unfold fileUpdates
      rw [List.filterMap_map]
      rfl
    rw [List.foldl_cons, ih, List.flatMap_cons, fileUpdates_append, assignAll_append, hfields]
    cases hsection : mappingAt data entry.1 with
    | none =>
      have hnothing : (entry.2.filterMap fun field : String × String =>
          ((none : Option (List (String × Json))).bind fun entries => present entries field.1).map
            fun value => (field.2, (value, source))) = [] := by simp
      rw [hnothing]
      rfl
    | some entries =>
      dsimp only
      rw [foldl_setPresent entries source Prod.fst Prod.snd]
      rfl

theorem applyRouting_eq (data : List (String × Json)) (source : String) (config : AiosDeckConfig) :
    applyRouting data source config = assignAll config
      (fileUpdates (ROUTING_KEYS.map fun key => ("routing." ++ key, ["routing", key])) data source) := by
  have hfields : fileUpdates (ROUTING_KEYS.map fun key => ("routing." ++ key, ["routing", key])) data
      source = ROUTING_KEYS.filterMap fun key =>
        ((mappingAt data "routing").bind fun entries => present entries key).map
          fun value => ("routing." ++ key, (value, source)) := by
    unfold fileUpdates
    rw [List.filterMap_map]
    rfl
  rw [hfields, applyRouting]
  cases mappingAt data "routing" with
  | none => rfl
  | some entries => exact foldl_setPresent entries source id (fun key => "routing." ++ key) _ config

/-- The assignments of the environment. -/
def envUpdates (around : Surroundings) : List (String × Setting) :=
  ENV_MAP.filterMap fun entry =>
    ((around.environ entry.1).bind fun text =>
      (coerce around text entry.2).toOption.map fun value => (value, "env:" ++ entry.1)).map
        fun setting => (entry.2, setting)

theorem applyEnv_eq {around : Surroundings} (h : ∀ entry ∈ ENV_MAP, ∀ text,
    around.environ entry.1 = some text → ∃ value, coerce around text entry.2 = .ok value)
    (config : AiosDeckConfig) :
    applyEnv around config = .ok (assignAll config (envUpdates around)) := by
  revert h
  unfold applyEnv envUpdates
  induction ENV_MAP generalizing config with
  | nil => exact fun _ => rfl
  | cons entry rest ih =>
    intro h
    have hrest := fun config => ih config fun other hother => h other (List.mem_cons_of_mem _ hother)
    rw [List.foldlM_cons]
    cases hvalue : around.environ entry.1 with
    | none =>
      rw [List.filterMap_cons_none (by rw [hvalue]; rfl)]
      exact hrest config
    | some text =>
      obtain ⟨value, hcoerce⟩ := h entry List.mem_cons_self text hvalue
      dsimp only
      rw [hcoerce, List.filterMap_cons_some (by rw [hvalue, Option.bind_some, hcoerce]; rfl)]
      exact hrest _

/-- A well-formed file gives its entries, if it has some. -/
theorem loadYaml_entries {around : Surroundings} {file : YamlFile}
    (hyaml : around.yamlAvailable = true) (h : file.WellFormed) :
    loadYaml around file = .ok none ∧ file.entries = [] ∨
      loadYaml around file = .ok (some file.entries) := by
  unfold loadYaml
  rw [hyaml]
  cases file with
  | missing => exact .inl ⟨rfl, rfl⟩
  | unreadable => exact .inl ⟨rfl, rfl⟩
  | invalid exc => exact h.elim
  | document data =>
    refine .inr ?_
    by_cases htruthy : data.truthy = true
    · obtain ⟨entries, rfl⟩ := h htruthy
      simp only [Bool.not_true, Bool.false_eq_true, if_false, htruthy, if_true]
      rfl
    · simp only [Bool.not_true, Bool.false_eq_true, if_false, htruthy]
      cases data with
      | obj entries =>
        have hnil : entries = [] := by simpa [Json.truthy] using htruthy
        rw [hnil]
        rfl
      | null => rfl
      | bool b => rfl
      | num x => rfl
      | str text => rfl
      | arr items => rfl

/-- An empty file makes no assignment. -/
theorem fileUpdates_nil (fields : List (String × List String)) (source : String) :
    fileUpdates fields [] source = [] := by
  unfold fileUpdates
  refine List.filterMap_eq_nil_iff.mpr fun row _ => ?_
  cases row.2 with
  | nil => rfl
  | cons key rest => cases rest <;> rfl

end Updates

section Precedence

end Precedence

end AiosDeck.Config
