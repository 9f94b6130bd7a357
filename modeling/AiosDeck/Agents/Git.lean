import AiosDeck.Agents.Models
import AiosDeck.Python.Regex

/-!
# The git agent

Local git operations behind a task, and the change set of the working tree.
What git itself does with a command is a parameter. The status parser reads
NUL-delimited records; on a well-formed listing it returns the paths of all
entries but the deletions.
-/

namespace AiosDeck.Agents

open Python

/-- Result payload of the git agent. -/
structure GitOperation where
  command : List String
  executed : Bool
  stdout : String
  stderr : String
  returncode : ℤ
  deriving DecidableEq, Repr

/-- `GitOperation.to_dict`. -/
def GitOperation.toDict (operation : GitOperation) : Json :=
  .obj [("command", .arr (operation.command.map Json.str)), ("executed", .bool operation.executed),
    ("stdout", .str operation.stdout), ("stderr", .str operation.stderr),
    ("returncode", .num (.int operation.returncode))]

/-- What `subprocess.run` does with a command. -/
inductive CommandRun where
  | completed (stdout stderr : String) (returncode : ℤ)
  /-- `FileNotFoundError`, with its text. -/
  | notFound (text : String)
  /-- Another `OSError`, or `TimeoutExpired`. -/
  | failed (text : String)
  /-- Output that is no text raises out of `run`. -/
  | raised (exc : PyExc)

/-- One line of a porcelain status: two status characters, the path, and for
a rename or a copy the path that it came from. -/
structure StatusEntry where
  index : Char
  worktree : Char
  path : Text
  source : Option Text := none

namespace StatusEntry

/-- The entry reports a file that is gone. -/
def deleted (entry : StatusEntry) : Bool :=
  entry.index ∉ ['R', 'C'] && (entry.index == 'D' || entry.worktree == 'D')

/-- The records of the entry can be told apart: its paths are texts without NUL. -/
structure Delimited (entry : StatusEntry) : Prop where
  path : entry.path ≠ [] ∧ '\x00' ∉ entry.path
  letters : entry.index ≠ '\x00' ∧ entry.worktree ≠ '\x00'
  origin : ∀ origin, entry.source = some origin → origin ≠ [] ∧ '\x00' ∉ origin

/-- Just a rename or copy in the index has a second path. -/
structure WellFormed (entry : StatusEntry) : Prop extends Delimited entry where
  source : entry.source.isSome = true ↔ entry.index ∈ ['R', 'C']

/-- The records of the entry. -/
def records (entry : StatusEntry) : List Text :=
  (entry.index :: entry.worktree :: ' ' :: entry.path) :: entry.source.toList

/-- The listing of `git status --porcelain=v1 -z`. -/
def render (entries : List StatusEntry) : Text :=
  entries.flatMap fun entry => entry.records.flatMap fun record => record ++ ['\x00']

end StatusEntry

namespace GitAgent

/-- `_PORCELAIN_HEADER`. -/
def PORCELAIN_HEADER : ℕ := 3

/-- The loop of `_parse_porcelain` over the records. -/
def parseRecords : Bool → List Text → List Text
  | _, [] => []
  | true, _ :: rest => parseRecords false rest
  | false, record :: rest =>
    if record.length < PORCELAIN_HEADER then parseRecords false rest
    else
      let xy := record.take 2
      let path := record.drop PORCELAIN_HEADER
      if xy.head?.any (· ∈ ['R', 'C']) then
        if path = [] then parseRecords true rest else path :: parseRecords true rest
      else if 'D' ∈ xy then parseRecords false rest
      else if path = [] then parseRecords false rest else path :: parseRecords false rest

/-- `_parse_porcelain`. -/
def parsePorcelain (raw : Text) : List Text :=
  parseRecords false ((raw.splitOn '\x00').filter (· ≠ []))

section Shell

variable (shell : List String → CommandRun)

/-- `_run`. -/
def run (command : List String) : Except PyExc GitOperation :=
  match shell command with
  | .completed stdout stderr returncode => .ok ⟨command, true, stdout, stderr, returncode⟩
  | .notFound text => .ok ⟨command, true, "", "git not available: " ++ text, -1⟩
  | .failed text => .ok ⟨command, true, "", text, -1⟩
  | .raised exc => .error exc

/-- `status`. -/
def status : Except PyExc GitOperation := run shell ["git", "status", "--porcelain=v1", "-z"]

/-- `_changed_files`. -/
def changedFiles : Except PyExc (List String) := do
  let operation ← status shell
  return (parsePorcelain operation.stdout.toList).map String.ofList

/-- An argument of a command; only a text can be one. -/
def argument : Json → Except PyExc String
  | .str text => .ok text
  | _ => .error ⟨.typeError, "expected str, bytes or os.PathLike object"⟩

/-- `_stage`. -/
def stage (paths : Json) : Except PyExc GitOperation := do
  let chosen ← if paths.truthy then paths.iter else .ok [.str "."]
  let arguments ← chosen.mapM argument
  run shell (["git", "add"] ++ arguments)

/-- `_commit`. -/
def commit (message : Json) : Except PyExc GitOperation := do
  let message ← argument message
  run shell ["git", "commit", "-m", message]

/-- `_create_branch`. -/
def createBranch (name : Json) : Except PyExc GitOperation := do
  let name ← argument name
  run shell ["git", "checkout", "-b", name]

/-- `_create_tag`. -/
def createTag (name : Json) : Except PyExc GitOperation := do
  let name ← argument name
  run shell ["git", "tag", name]

/-- `_push`: without approval nothing is executed. -/
def push (approved : Json) : Except PyExc GitOperation :=
  if approved.truthy then run shell ["git", "push"] else .ok ⟨["git", "push"], false, "", "", 0⟩

/-- `_dispatch`. -/
def dispatch (operation : Json) (params : List (String × Json)) : Except PyExc GitOperation :=
  let params : Json := .obj params
  match operation with
  | .str "stage" => do stage shell (← params.getD "paths" .null)
  | .str "commit" => do commit shell (← params.item "message")
  | .str "create_branch" => do createBranch shell (← params.item "name")
  | .str "create_tag" => do createTag shell (← params.item "name")
  | .str "push" => do push shell (← params.getD "approved" (.bool false))
  | _ => .error ⟨.valueError, "unknown git operation: " ++ operation.text⟩

/-- `KeyError` and `ValueError`, with the subclasses of the latter. -/
def caught (exc : PyExc) : Bool :=
  exc.cls ∈ [ExcClass.keyError, .valueError, .unicodeError, .jsonDecodeError]

/-- `str(exc)`; the text of a `KeyError` is its quoted key. -/
def excText (exc : PyExc) : String :=
  if exc.cls = .keyError then "'" ++ exc.message ++ "'" else exc.message

/-- `agent_task.params.get("operation") or agent_task.task_type`. -/
def requested (task : AgentTask) : Json :=
  let operation := (task.params.lookup "operation").getD .null
  if operation.truthy then operation else task.taskType

/-- `GitAgent.execute`. -/
def execute (task : AgentTask) : Except PyExc AgentResult :=
  match dispatch shell (requested task) task.params with
  | .ok result =>
    return { success := result.returncode == 0, output := .json result.toDict, agent := "git"
             taskId := task.taskId, correlationId := task.correlationId }
  | .error exc =>
    if caught exc then
      return { success := false, errors := [excText exc], error := some ⟨RUNTIME_ERROR, excText exc, false⟩
               errorCode := some RUNTIME_ERROR, agent := "git"
               taskId := task.taskId, correlationId := task.correlationId }
    else .error exc

end Shell

/-- The records of a listing. -/
theorem records_render {entries : List StatusEntry} (h : ∀ entry ∈ entries, entry.Delimited) :
    ((StatusEntry.render entries).splitOn '\x00').filter (· ≠ []) =
      entries.flatMap StatusEntry.records := by
  have hrecord : ∀ record : Text, '\x00' ∉ record → record ≠ [] → ∀ rest : Text,
      ((record ++ ['\x00'] ++ rest).splitOn '\x00').filter (· ≠ []) =
        record :: (rest.splitOn '\x00').filter (· ≠ []) := by
    intro record hnul hne rest
    rw [List.append_assoc, List.singleton_append, List.splitOn_append_cons_self_of_not_mem hnul]
    simp [hne]
  induction entries with
  | nil => rfl
  | cons entry rest ih =>
    have hentry := h entry List.mem_cons_self
    have hheader : '\x00' ∉ entry.index :: entry.worktree :: ' ' :: entry.path := by
      simp [hentry.letters.1.symm, hentry.letters.2.symm, hentry.path.2]
    have hrest := ih fun other hother => h other (List.mem_cons_of_mem _ hother)
    unfold StatusEntry.render at hrest ⊢
    rw [List.flatMap_cons, List.flatMap_cons, ← hrest]
    unfold StatusEntry.records
    rw [List.flatMap_cons, List.append_assoc, hrecord _ hheader (List.cons_ne_nil _ _)]
    cases hsource : entry.source with
    | none => rfl
    | some origin =>
      obtain ⟨hne, hnul⟩ := hentry.origin origin hsource
      rw [Option.toList_some, List.flatMap_singleton, hrecord _ hnul hne]
      rfl

/-- Parsing a well-formed listing gives the paths of what is not deleted. -/
theorem parsePorcelain_render {entries : List StatusEntry}
    (h : ∀ entry ∈ entries, entry.WellFormed) :
    parsePorcelain (StatusEntry.render entries) =
      (entries.filter fun entry => !entry.deleted).map StatusEntry.path := by
  unfold parsePorcelain
  rw [records_render fun entry hentry => (h entry hentry).toDelimited]
  induction entries with
  | nil => rfl
  | cons entry rest ih =>
    have hentry := h entry List.mem_cons_self
    have hrest := ih fun other hother => h other (List.mem_cons_of_mem _ hother)
    have hheader : parseRecords false
        ((entry.index :: entry.worktree :: ' ' :: entry.path) :: (entry.source.toList ++
          rest.flatMap StatusEntry.records)) =
        if entry.index ∈ ['R', 'C'] then
          entry.path :: parseRecords true (entry.source.toList ++ rest.flatMap StatusEntry.records)
        else if 'D' ∈ [entry.index, entry.worktree] then
          parseRecords false (entry.source.toList ++ rest.flatMap StatusEntry.records)
        else
          entry.path :: parseRecords false (entry.source.toList ++ rest.flatMap StatusEntry.records) := by
      simp [parseRecords, PORCELAIN_HEADER, hentry.path.1]
    rw [List.flatMap_cons, StatusEntry.records, List.cons_append, hheader]
    by_cases hmoved : entry.index ∈ ['R', 'C']
    · obtain ⟨origin, horigin⟩ := Option.isSome_iff_exists.mp (hentry.source.mpr hmoved)
      have hkept : entry.deleted = false := by
        unfold StatusEntry.deleted
        rw [decide_eq_false (not_not.mpr hmoved), Bool.false_and]
      rw [if_pos hmoved, horigin, List.filter_cons_of_pos (by simp [hkept]), List.map_cons, ← hrest]
      rfl
    · have hsingle : entry.source = none := by
        rw [← Option.not_isSome_iff_eq_none]
        exact fun hsome => hmoved (hentry.source.mp hsome)
      have hdeleted : entry.deleted = decide ('D' ∈ [entry.index, entry.worktree]) := by
        unfold StatusEntry.deleted
        rw [decide_eq_true hmoved, Bool.true_and]
        simp only [List.mem_cons, List.not_mem_nil, or_false, eq_comm (a := 'D'), Bool.decide_or]
        rfl
      rw [if_neg hmoved, hsingle, Option.toList_none, List.nil_append, hrest]
      by_cases hgone : 'D' ∈ [entry.index, entry.worktree]
      · rw [if_pos hgone, List.filter_cons_of_neg (by simp [hdeleted, hgone])]
      · rw [if_neg hgone, List.filter_cons_of_pos (by simp [hdeleted, hgone]), List.map_cons]

/-- The agent is successful exactly when its operation came back with zero. -/
theorem execute_success {shell : List String → CommandRun} {task : AgentTask} {result : AgentResult}
    (h : execute shell task = .ok result) :
    result.success = true ↔ ∃ operation,
      dispatch shell (requested task) task.params = .ok operation ∧ operation.returncode = 0 := by
  unfold execute at h
  cases hdispatch : dispatch shell (requested task) task.params with
  | ok operation =>
    rw [hdispatch] at h
    cases h
    simp
  | error exc =>
    rw [hdispatch] at h
    dsimp only at h
    split at h
    · cases h
      simp
    · cases h

end GitAgent

end AiosDeck.Agents
