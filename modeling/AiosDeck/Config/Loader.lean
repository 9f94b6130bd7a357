import AiosDeck.Logic.Overrides
import AiosDeck.Python.Floats

/-!
# The configuration loader

Environment variables, the configuration file of the user and the manifest of
the project are applied to the defaults one after the other. With each field
that is set the loader notes its source.
-/

namespace AiosDeck.Config

open Python Overrides

/-- The fields of `AiosDeckConfig` by section and name, with their defaults. -/
def DEFAULTS : List (String × Json) :=
  [("runtime.adapter", .str "opencode"), ("runtime.sandbox", .str "ai-jail"),
    ("runtime.command", .str "ai-jail opencode"),
    ("model.default", .str "ollama"), ("model.ollama_model", .str "llama3"),
    ("model.ollama_host", .str "http://localhost:11434"),
    ("memory.enabled", .bool true), ("memory.path", .str ".aios/memory.db"),
    ("security.enabled", .bool true), ("security.policies_dir", .str "aios/policies"),
    ("quality.enabled", .bool true), ("quality.auto_detect", .bool true),
    ("quality.environment", .str "dev"), ("quality.policy", .obj []), ("quality.overrides", .arr []),
    ("logging.level", .str "INFO"), ("logging.audit_path", .str "~/.local/share/aiosdeck/audit.log"),
    ("ui.theme", .str "ocean"), ("ui.accent_intensity", .num (.float (decimal 0.8))),
    ("ui.compact", .bool false), ("ui.refresh_interval", .num (.float (.finite 2))),
    ("ui.backlog_mode", .str "text"),
    ("project.name", .str ""), ("project.directory", .str "~/projects"), ("project.skills", .arr []),
    ("learning.enabled", .bool true), ("learning.auto_capture", .bool true),
    ("learning.confidence_threshold", .num (.float (decimal 0.5))), ("learning.min_evidence", .ofNat 1),
    ("learning.recurrence_threshold", .ofNat 2), ("learning.policy", .obj []),
    ("routing.enabled", .bool true), ("routing.default_provider", .str "ollama"),
    ("routing.default_model", .str "llama3"), ("routing.default_variant", .str ""),
    ("routing.rules", .arr []), ("routing.cost_cap", .num (.float (.finite 0))),
    ("routing.context_limits", .obj []), ("routing.fallback_providers", .arr []),
    ("agent_budget.max_steps", .ofNat 0)]

/-- What stands in the place of a YAML file. -/
inductive YamlFile where
  | missing
  /-- Opening or reading it raises an `OSError`. -/
  | unreadable
  /-- What `yaml.safe_load` makes of it. -/
  | document (data : Json)
  /-- It is no YAML. -/
  | invalid (exc : PyExc)

/-- What a loader finds around it. -/
structure Surroundings where
  environ : String → Option String
  /-- `float(text)`. -/
  parseFloat : String → Except PyExc PyFloat
  yamlAvailable : Bool := true
  /-- The configuration file of the user, and its path. -/
  userFile : YamlFile
  configPath : String
  /-- The manifest of the project, and its path. -/
  manifestFile : YamlFile
  manifestPath : String
  /-- `project_path.name`. -/
  projectName : String

/-- A configuration that is being loaded: its fields, and the `_sources` of
those that were set. -/
structure AiosDeckConfig where
  fields : List (String × Json) := DEFAULTS
  sources : List (String × String) := []

/-- `_set_field`. -/
def setField (config : AiosDeckConfig) (fieldPath : String) (value : Json) (source : String) :
    AiosDeckConfig :=
  if (config.fields.lookup fieldPath).isSome then
    { fields := insert fieldPath value config.fields
      sources := insert fieldPath source config.sources }
  else config

/-- The map of `_apply_env`. -/
def ENV_MAP : List (String × String) :=
  [("AIOS_RUNTIME_ADAPTER", "runtime.adapter"), ("AIOS_SANDBOX", "runtime.sandbox"),
    ("AIOS_RUNTIME_COMMAND", "runtime.command"), ("AIOS_DEFAULT_MODEL", "model.default"),
    ("AIOS_OLLAMA_MODEL", "model.ollama_model"), ("AIOS_OLLAMA_HOST", "model.ollama_host"),
    ("AIOS_MEMORY_ENABLED", "memory.enabled"), ("AIOS_MEMORY_PATH", "memory.path"),
    ("AIOS_SECURITY_ENABLED", "security.enabled"), ("AIOS_LOG_LEVEL", "logging.level"),
    ("AIOS_AUDIT_PATH", "logging.audit_path"), ("AIOS_LEARNING_ENABLED", "learning.enabled"),
    ("AIOS_PROJECT_NAME", "project.name"), ("AIOS_PROJECTS_DIR", "project.directory"),
    ("AIOS_ROUTING_ENABLED", "routing.enabled"), ("AIOS_ROUTING_COST_CAP", "routing.cost_cap"),
    ("AIOS_UI_THEME", "ui.theme"), ("AIOS_UI_ACCENT_INTENSITY", "ui.accent_intensity"),
    ("AIOS_UI_COMPACT", "ui.compact"), ("AIOS_UI_REFRESH_INTERVAL", "ui.refresh_interval")]

/-- The map of `_apply_user_config`. -/
def USER_MAP : List (String × List (String × String)) :=
  [("runtime", [("adapter", "runtime.adapter"), ("sandbox", "runtime.sandbox"),
      ("command", "runtime.command")]),
    ("model", [("default", "model.default"), ("ollama_model", "model.ollama_model"),
      ("ollama_host", "model.ollama_host")]),
    ("memory", [("enabled", "memory.enabled"), ("path", "memory.path")]),
    ("security", [("enabled", "security.enabled"), ("policies_dir", "security.policies_dir")]),
    ("quality", [("enabled", "quality.enabled"), ("auto_detect", "quality.auto_detect"),
      ("environment", "quality.environment"), ("policy", "quality.policy"),
      ("overrides", "quality.overrides")]),
    ("logging", [("level", "logging.level"), ("audit_path", "logging.audit_path")]),
    ("learning", [("enabled", "learning.enabled"), ("auto_capture", "learning.auto_capture"),
      ("confidence_threshold", "learning.confidence_threshold"),
      ("min_evidence", "learning.min_evidence"),
      ("recurrence_threshold", "learning.recurrence_threshold"), ("policy", "learning.policy")]),
    ("routing", [("enabled", "routing.enabled"), ("default_provider", "routing.default_provider"),
      ("default_model", "routing.default_model"), ("default_variant", "routing.default_variant"),
      ("rules", "routing.rules"), ("cost_cap", "routing.cost_cap"),
      ("context_limits", "routing.context_limits"),
      ("fallback_providers", "routing.fallback_providers")]),
    ("project", [("name", "project.name"), ("directory", "project.directory")]),
    ("ui", [("theme", "ui.theme"), ("accent_intensity", "ui.accent_intensity"),
      ("compact", "ui.compact"), ("refresh_interval", "ui.refresh_interval")])]

/-- The map of `_apply_project_manifest`. -/
def MANIFEST_MAPPING : List (String × String) :=
  [("name", "project.name"), ("runtime", "runtime.adapter"), ("sandbox", "runtime.sandbox")]

/-- The keys of the routing section of a manifest. -/
def ROUTING_KEYS : List String :=
  ["enabled", "default_provider", "default_model", "default_variant", "rules", "cost_cap",
    "context_limits", "fallback_providers"]

section Coercion

variable (around : Surroundings)

/-- `field_path.endswith(suffixes)`. -/
def endsWith (fieldPath : String) (suffixes : List String) : Bool :=
  suffixes.any fun last => last.toList.isSuffixOf fieldPath.toList

/-- `_coerce`. No letter outside ASCII has one of these texts as its lower case. -/
def coerce (value fieldPath : String) : Except PyExc Json :=
  if endsWith fieldPath [".enabled", ".compact"] then
    .ok (.bool (value.toList.map Char.toLower ∈ ["true".toList, "1".toList, "yes".toList]))
  else if endsWith fieldPath [".cost_cap", ".accent_intensity", ".refresh_interval"] then do
    let number ← around.parseFloat value
    return .num (.float number)
  else .ok (.str value)

/-- `_apply_env`. -/
def applyEnv (config : AiosDeckConfig) : Except PyExc AiosDeckConfig :=
  ENV_MAP.foldlM (fun config entry =>
    match around.environ entry.1 with
    | some value => do
      let coerced ← coerce around value entry.2
      return setField config entry.2 coerced ("env:" ++ entry.1)
    | none => return config) config

end Coercion

/-- `value = section.get(key)`, unless it is None. -/
def present (entries : List (String × Json)) (key : String) : Option Json :=
  match entries.lookup key with
  | some .null => none
  | found => found

/-- Set a field when its key is there. -/
def setPresent (entries : List (String × Json)) (source key fieldPath : String)
    (config : AiosDeckConfig) : AiosDeckConfig :=
  match present entries key with
  | some value => setField config fieldPath value source
  | none => config

/-- `data.get(key)`, when it is a mapping. -/
def mappingAt (data : List (String × Json)) (key : String) : Option (List (String × Json)) :=
  match data.lookup key with
  | some (.obj entries) => some entries
  | _ => none

/-- `_apply_mapped`. -/
def applyMapped (data : List (String × Json)) (mapping : List (String × List (String × String)))
    (source : String) (config : AiosDeckConfig) : AiosDeckConfig :=
  mapping.foldl (fun config entry =>
    match mappingAt data entry.1 with
    | some entries =>
      entry.2.foldl (fun config field => setPresent entries source field.1 field.2 config) config
    | none => config) config

/-- `_load_yaml` on a file that exists, with what is no mapping as an error:
the callers ask it for a key at once. -/
def loadYaml (around : Surroundings) (file : YamlFile) :
    Except PyExc (Option (List (String × Json))) :=
  if !around.yamlAvailable then .ok none
  else
    match file with
    | .missing | .unreadable => .ok none
    | .invalid exc => .error exc
    | .document data =>
      match if data.truthy then data else .obj [] with
      | .obj entries => .ok (some entries)
      | _ => .error ⟨.attributeError, "object has no attribute 'get'"⟩

/-- `_apply_user_config`. -/
def applyUserConfig (around : Surroundings) (config : AiosDeckConfig) :
    Except PyExc AiosDeckConfig := do
  match ← loadYaml around around.userFile with
  | some data => return applyMapped data USER_MAP around.configPath config
  | none => return config

/-- The skills of a manifest: a list, or nothing is set. -/
def applySkills (data : List (String × Json)) (source : String) (config : AiosDeckConfig) :
    AiosDeckConfig :=
  match data.lookup "skills" with
  | some (.arr skills) => setField config "project.skills" (.arr skills) source
  | _ => config

/-- The routing section of a manifest. -/
def applyRouting (data : List (String × Json)) (source : String) (config : AiosDeckConfig) :
    AiosDeckConfig :=
  match mappingAt data "routing" with
  | some routing =>
    ROUTING_KEYS.foldl (fun config key => setPresent routing source key ("routing." ++ key) config)
      config
  | none => config

/-- The step limit of a manifest: an integer, and a boolean counts as one. -/
def applyMaxSteps (data : List (String × Json)) (source : String) (config : AiosDeckConfig) :
    AiosDeckConfig :=
  match mappingAt data "agents" with
  | some agents =>
    match mappingAt agents "developer" with
    | some developer =>
      match developer.lookup "max_steps" with
      | some (.num (.int n)) => setField config "agent_budget.max_steps" (.num (.int n)) source
      | some (.bool b) => setField config "agent_budget.max_steps" (.bool b) source
      | _ => config
    | none => config
  | none => config

/-- `_apply_project_manifest`. -/
def applyProjectManifest (around : Surroundings) (config : AiosDeckConfig) :
    Except PyExc AiosDeckConfig := do
  match ← loadYaml around around.manifestFile with
  | some data =>
    let source := around.manifestPath
    let config := MANIFEST_MAPPING.foldl
      (fun config entry => setPresent data source entry.1 entry.2 config) config
    return applyMaxSteps data source (applyRouting data source (applySkills data source config))
  | none => return config

/-- `_apply_detection`. -/
def applyDetection (around : Surroundings) (config : AiosDeckConfig) : AiosDeckConfig :=
  match config.fields.lookup "project.name" with
  | some name =>
    if name.truthy then config
    else setField config "project.name" (.str around.projectName) "detection"
  | none => config

/-- `ConfigLoader.load` of a new loader. -/
def load (around : Surroundings) : Except PyExc AiosDeckConfig := do
  let config ← applyEnv around {}
  let config ← applyUserConfig around config
  let config ← applyProjectManifest around config
  return applyDetection around config

end AiosDeck.Config
