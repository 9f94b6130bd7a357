import AiosDeck.Knowledge.Store

/-!
# Discovering sources

The files of a project, the metadata at the head of its skills, and the
candidates that are found among the files. Links are not followed: a path
is the place of a file below the root.
-/

namespace AiosDeck.Knowledge

open Python

section Files

/-- The content of a file as `read_text` gives it, with `\n` between lines;
no `str` is longer. -/
abbrev FileText := { text : Text // text.length < 2 ^ 63 }

/-- What is at a path. -/
inductive Node where
  /-- A file, which may be unreadable. -/
  | file (content : Option FileText)
  | dir

/-- The files and directories of a project, by the parts of their paths. -/
structure ProjectFiles where
  /-- The parts of the path of the project itself. -/
  root : List Text := []
  entries : List (List Text × Node) := []

namespace ProjectFiles

variable (files : ProjectFiles)

/-- `str(path)`. -/
def pathText (path : List Text) : Text := ['/'].intercalate path

/-- The node at a path. -/
def node (path : List Text) : Option Node := files.entries.lookup path

/-- `path.is_dir()`. -/
def isDir (path : List Text) : Bool :=
  match files.node path with
  | some .dir => true
  | _ => false

/-- `path.is_file()`. -/
def isFile (path : List Text) : Bool :=
  match files.node path with
  | some (.file _) => true
  | _ => false

/-- `(project_path / path).read_text(encoding="utf-8", errors="replace")`. -/
def readText (path : Text) : Option FileText :=
  match files.entries.find? fun entry => pathText entry.1 = path with
  | some (_, .file content) => content
  | _ => none

/-- `sorted(paths)`. -/
def sorted (paths : List (List Text)) : List (List Text) := paths.insertionSort fun a b => a ≤ b

/-- `sorted(directory.iterdir())`. -/
def iterdir (directory : List Text) : List (List Text) :=
  sorted ((files.entries.map Prod.fst).filter fun path =>
    path ≠ [] ∧ path.dropLast = directory)

/-- Whether the last part of a path ends so. -/
def endsWith (ending : Text) (path : List Text) : Bool := ending.isSuffixOf (path.getLast?.getD [])

/-- `sorted(directory.rglob("*" + ending))`. -/
def rglob (directory : List Text) (ending : Text) : List (List Text) :=
  sorted ((files.entries.map Prod.fst).filter fun path =>
    directory.isPrefixOf path && path ≠ directory && endsWith ending path)

/-- `sorted(directory.glob("*" + ending))`. -/
def glob (directory : List Text) (ending : Text) : List (List Text) :=
  (files.iterdir directory).filter (endsWith ending)

end ProjectFiles

end Files

section Frontmatter

/-- What the frontmatter gives a key: a scalar or a block list. -/
inductive FieldValue where
  | scalar (text : Text)
  | block (items : List Text)
  deriving DecidableEq, Repr

/-- The value between two of these quotes. -/
def quotedWith (quote : Char) (value : Text) : Option Text :=
  if 2 ≤ value.length ∧ value.head? = some quote ∧ value.getLast? = some quote then
    some (value.drop 1).dropLast
  else none

/-- `_strip_quotes`: two quotes around nothing stay. -/
def stripQuotes (value : Text) : Text :=
  match quotedWith '"' value <|> quotedWith '\'' value with
  | some inner => strip (if inner = [] then value else inner)
  | none => strip value

/-- `_raw_value`. -/
def rawValue (raw : Text) : Text := stripQuotes (strip raw)

/-- `result[key] = value`. -/
def setField (key : Text) (value : FieldValue) (fields : List (Text × FieldValue)) :
    List (Text × FieldValue) :=
  if fields.any fun field => field.1 = key then
    fields.map fun field => if field.1 = key then (key, value) else field
  else fields ++ [(key, value)]

/-- The fields so far, and the key that list items belong to. -/
structure Parsing where
  result : List (Text × FieldValue) := []
  key : Option Text := none

/-- The item of `- item`. -/
def listItem (rest : Text) : Option Text :=
  match rest with
  | '-' :: c :: more => if isSpace c then some (strip more) else none
  | _ => none

/-- One line of the frontmatter. -/
def Parsing.line (parsing : Parsing) (raw : Text) : Parsing :=
  let line := rstrip raw
  if line = [] ∨ (line.dropWhile isSpace).head? = some '#' then parsing
  else if ':' ∈ line then
    let key := strip (line.takeWhile (· ≠ ':'))
    let rest := strip (afterFirst ':' line)
    if rest = [] ∨ rest = ['|'] then { parsing with key := some key }
    else if "- ".toList.isPrefixOf key then parsing
    else
      match listItem rest with
      | some item =>
        if key = [] then parsing
        else ⟨setField key (.block [rawValue item]) parsing.result, some key⟩
      | none => ⟨setField key (.scalar (rawValue rest)) parsing.result, some key⟩
  else if "- ".toList.isPrefixOf (strip line) then
    match parsing.key with
    | none => parsing
    | some key =>
      let item := rawValue ((strip line).drop 2)
      let value := match parsing.result.lookup key with
        | some (.block items) => FieldValue.block (items ++ [item])
        | _ => .block [item]
      { parsing with result := setField key value parsing.result }
  else parsing

/-- The text before the first `---`. -/
def untilDashes : Text → Option Text
  | [] => none
  | c :: rest =>
    if "---".toList.isPrefixOf (c :: rest) then some []
    else (untilDashes rest).map fun before => c :: before

/-- `parse_frontmatter`. -/
def parseFrontmatter (text : Text) : List (Text × FieldValue) :=
  if "---".toList.isPrefixOf text then
    match untilDashes (text.drop 3) with
    | none => []
    | some block => ((splitlines block).foldl Parsing.line {}).result
  else []

end Frontmatter

section Skills

/-- `SkillMetadata`. -/
structure SkillMetadata where
  name : Text
  description : Text
  triggers : List Text := []
  scope : List Text := []
  dependencies : List Text := []
  priority : ℤ := 0
  version : Text := "1".toList
  owner : Text := []
  updatedAt : Text := []
  status : Text := "active".toList
  schemaVersion : Text := "1".toList

/-- The field that `SkillMetadataError` is about. -/
inductive SkillMetadataError where
  | missing
  | name
  | description
  | status
  | priority
  | trigger (index : ℕ)
  | scope (index : ℕ)
  | dependency (index : ℕ)
  | schemaVersion
  deriving DecidableEq, Repr

/-- `_NAME_RE`. -/
def isSlug : Text → Bool
  | [] => false
  | first :: rest => ('a' ≤ first && first ≤ 'z') &&
    rest.all fun c => ('a' ≤ c && c ≤ 'z') || ('0' ≤ c && c ≤ '9') || c == '-'

/-- The first blank item. -/
def blankIndex (items : List Text) : Option ℕ := items.findIdx? fun item => strip item = []

namespace SkillMetadata

/-- `validate`. -/
def validate (metadata : SkillMetadata) : Except SkillMetadataError SkillMetadata := do
  if !isSlug metadata.name then throw .name
  if metadata.description = [] then throw .description
  if metadata.status ∉ ["active".toList, "deprecated".toList] then throw .status
  if metadata.priority < 0 then throw .priority
  if let some i := blankIndex metadata.triggers then throw (.trigger i)
  if let some i := blankIndex metadata.scope then throw (.scope i)
  if let some i := blankIndex metadata.dependencies then throw (.dependency i)
  if metadata.schemaVersion ≠ "1".toList then throw .schemaVersion
  return metadata

/-- The digits of an integer, with single underscores between them. -/
def digitRun (text : Text) : Option Text :=
  let groups := text.splitOn '_'
  if groups.all fun group => group ≠ [] && group.all isDecimal then some groups.flatten else none

/-- `int(text)`, or zero where it raises. -/
def coerceInt (text : Text) : ℤ :=
  let unsigned : Bool × Text :=
    match strip text with
    | '-' :: rest => (true, rest)
    | '+' :: rest => (false, rest)
    | rest => (false, rest)
  match digitRun unsigned.2 with
  | none => 0
  | some digits =>
    match parseDigits digits with
    | .error _ => 0
    | .ok n => if unsigned.1 then -(n : ℤ) else n

/-- `str(data.get(key, default))`, where `listText` is `str` of a list. -/
def fieldText (listText : List Text → Text) (data : List (Text × FieldValue)) (key default : String) :
    Text :=
  match data.lookup key.toList with
  | none => default.toList
  | some (.scalar value) => value
  | some (.block items) => listText items

/-- `_as_str_list(data.get(key, []))`. -/
def fieldList (data : List (Text × FieldValue)) (key : String) : List Text :=
  match data.lookup key.toList with
  | some (.block items) => items
  | _ => []

/-- `_coerce_int(data.get(key, 0))`. -/
def fieldInt (data : List (Text × FieldValue)) (key : String) : ℤ :=
  match data.lookup key.toList with
  | some (.scalar value) => coerceInt value
  | _ => 0

/-- `from_frontmatter`. -/
def fromFrontmatter (listText : List Text → Text) (text : Text) :
    Except SkillMetadataError SkillMetadata :=
  let data := parseFrontmatter text
  let str := fieldText listText data
  if str "name" "" = [] then .error .missing
  else validate {
    name := str "name" ""
    description := str "description" ""
    triggers := fieldList data "triggers"
    scope := fieldList data "scope"
    dependencies := fieldList data "dependencies"
    priority := fieldInt data "priority"
    version := str "version" "1"
    owner := str "owner" ""
    updatedAt := str "updated_at" ""
    status := str "status" "active"
    schemaVersion := str "schema_version" "1" }

/-- A list of texts as a value. -/
def listVal (items : List Text) : PyVal := .list (items.map textVal)

/-- `to_dict`. -/
def toDict (metadata : SkillMetadata) : Metadata :=
  [("name", textVal metadata.name), ("description", textVal metadata.description),
    ("triggers", listVal metadata.triggers), ("scope", listVal metadata.scope),
    ("dependencies", listVal metadata.dependencies), ("priority", .int metadata.priority),
    ("version", textVal metadata.version), ("owner", textVal metadata.owner),
    ("updated_at", textVal metadata.updatedAt), ("status", textVal metadata.status),
    ("schema_version", textVal metadata.schemaVersion)].map fun field : String × PyVal =>
      (.str (points field.1), field.2)

end SkillMetadata

/-- `.opencode/skills`. -/
def skillsDir : List Text := [".opencode".toList, "skills".toList]

/-- `self._skills[metadata.name] = metadata`. -/
def registerSkill (metadata : SkillMetadata) (skills : List SkillMetadata) : List SkillMetadata :=
  if skills.any fun skill => skill.name = metadata.name then
    skills.map fun skill => if skill.name = metadata.name then metadata else skill
  else skills ++ [metadata]

/-- `SkillRegistry.load(include_deprecated=True)`. -/
def loadSkills (listText : List Text → Text) (files : ProjectFiles) : List SkillMetadata :=
  if files.isDir skillsDir then
    ((files.iterdir skillsDir).filter files.isDir).foldl (fun skills entry =>
      match files.node (entry ++ ["SKILL.md".toList]) with
      | some (.file (some content)) =>
        match SkillMetadata.fromFrontmatter listText content.1 with
        | .ok metadata => registerSkill metadata skills
        | .error _ => skills
      | _ => skills) []
  else []

end Skills

section Sources

/-- `SourceCandidate`. -/
structure SourceCandidate where
  type : Text
  path : Text
  version : Text := "1".toList
  metadata : Metadata := []

/-- A candidate for each path. -/
def candidates (type : String) (paths : List (List Text)) : List SourceCandidate :=
  paths.map fun path => { type := type.toList, path := ProjectFiles.pathText path }

variable (listText : List Text → Text) (files : ProjectFiles)

/-- `_discover_skills`. -/
def discoverSkills : List SourceCandidate :=
  (loadSkills listText files).flatMap fun metadata =>
    let skillDir := skillsDir ++ [metadata.name]
    let type := if metadata.name = "project-dna".toList then "project_dna" else "skill"
    { type := type.toList, path := ProjectFiles.pathText (skillDir ++ ["SKILL.md".toList])
      metadata := metadata.toDict } ::
      candidates type ((files.rglob skillDir ".md".toList).filter fun path =>
        path.getLast? ≠ some "SKILL.md".toList)

/-- `docs/<name>`. -/
def docsDir (name : String) : List Text := ["docs".toList, name.toList]

/-- `_discover_adrs`. -/
def discoverAdrs : List SourceCandidate :=
  if files.isDir (docsDir "decisions") then
    candidates "adr" (files.glob (docsDir "decisions") ".md".toList)
  else []

/-- `_discover_research`. -/
def discoverResearch : List SourceCandidate :=
  if files.isDir (docsDir "reports") then
    candidates "research" (files.glob (docsDir "reports") ".md".toList)
  else []

/-- `_discover_documentation`. -/
def discoverDocumentation : List SourceCandidate :=
  if files.isDir ["docs".toList] then
    candidates "documentation" ((files.rglob ["docs".toList] ".md".toList).filter fun path =>
      !((docsDir "decisions").isPrefixOf path.dropLast) &&
        !((docsDir "reports").isPrefixOf path.dropLast))
  else []

/-- `_discover_code`. -/
def discoverCode : List SourceCandidate :=
  if files.isDir ["src".toList] then
    candidates "code" ((files.rglob ["src".toList] ".py".toList).filter fun path =>
      "__pycache__".toList ∉ files.root ++ path)
  else []

/-- `discover_sources`. -/
def discoverSources : List SourceCandidate :=
  (discoverSkills listText files ++ discoverAdrs files ++ discoverResearch files ++
    discoverDocumentation files ++ discoverCode files).insertionSort fun a b =>
      a.type < b.type ∨ (a.type = b.type ∧ a.path ≤ b.path)

end Sources

end AiosDeck.Knowledge
