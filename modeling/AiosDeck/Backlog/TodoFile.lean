import AiosDeck.Backlog.Runner
import AiosDeck.Knowledge.Normalization

/-!
# The textual backlog

The scheduler writes its tasks to a file, one line for each, with a marker for the
active and the checked ones. The backlog reads the open tasks back from it.
-/

namespace AiosDeck.Backlog

open Python Knowledge

section Writer

/-- A task of the scheduler's backlog. -/
structure Entry where
  title : Text := []
  checked : Bool := false

/-- The line of the task with this number. -/
def entryLine (activeIndex : Option ℤ) (i : ℕ) (entry : Entry) : Text :=
  let active : Bool := activeIndex = some (i : ℤ)
  let marker := if active then "*(spinner)" else if entry.checked then "[X]" else "[ ]"
  "- ".toList ++ marker.toList ++ ' ' :: entry.title ++ if active then ['…'] else []

/-- The lines of the tasks, numbered from here on. -/
def entryLines (activeIndex : Option ℤ) : ℕ → List Entry → List Text
  | _, [] => []
  | i, entry :: rest => entryLine activeIndex i entry :: entryLines activeIndex (i + 1) rest

/-- The two lines above the tasks. -/
def header (tasks : List Entry) : List Text :=
  if tasks = [] then []
  else ["# Backlog (".toList ++ Nat.toDigits 10 tasks.length ++ [')'], []]

/-- `write_backlog`: the content of the file it writes. -/
def writeBacklog (tasks : List Entry) (activeIndex : Option ℤ) : Text :=
  joinLines (header tasks ++ entryLines activeIndex 1 tasks)

end Writer

section Reader

/-- The task of a line of the file, if it is an open one. -/
def taskOfLine (word : Char → Bool) (fileName : Text) (i : ℕ) (line : Text) : Option BacklogTask :=
  let stripped := strip line
  if "- [ ] ".toList.isPrefixOf stripped then
    let title := strip (stripped.drop 6)
    let (typ, scope, subject, version) := parseConventional word title
    some { title
           type := orElse typ "feat".toList
           scope
           subject := orElse subject title
           version
           source := "file:".toList ++ fileName
           index := i }
  else none

/-- The tasks of the lines, numbered from here on. -/
def tasksOfLines (word : Char → Bool) (fileName : Text) : ℕ → List Text → List BacklogTask
  | _, [] => []
  | i, line :: rest =>
    (taskOfLine word fileName i line).toList ++ tasksOfLines word fileName (i + 1) rest

/-- `load_tasks_from_file`, given the content of the file, if there is one. -/
def loadTasksFromFile (word : Char → Bool) (fileName : Text) (content : Option Text) :
    List BacklogTask :=
  match content with
  | none => []
  | some content => tasksOfLines word fileName 0 (splitlines (unifyNewlines content))

end Reader

section RoundTrip

/-- A title that is not empty, is stripped and is one line. -/
structure PlainTitle (title : Text) : Prop where
  filled : title ≠ []
  stripped : strip title = title
  line : IsLine title

/-- A line that begins with a dash and ends in a title is stripped. -/
theorem strip_dash (front : Text) {title : Text} (h : PlainTitle title) :
    strip ('-' :: front ++ title) = '-' :: front ++ title := by
  have hlast := List.getLast?_eq_some_getLast h.filled
  have hspace : isSpace (title.getLast h.filled) = false :=
    last_strip (by rw [h.stripped, hlast])
  refine strip_eq_self rfl ?_ (by decide) hspace
  rw [List.getLast?_append, hlast, Option.some_or]

theorem header_lines (tasks : List Entry) : ∀ line ∈ header tasks, IsLine line := by
  intro line hline
  unfold header at hline
  split_ifs at hline with hnil
  · exact absurd hline List.not_mem_nil
  · rcases List.mem_pair.mp hline with rfl | rfl
    · exact IsLine.append (IsLine.append (by decide) (isLine_digits _)) (by decide)
    · exact IsLine.nil

/-- The line of a task is one line, and does not end in a newline. -/
theorem entryLine_line (activeIndex : Option ℤ) (i : ℕ) {entry : Entry} (h : IsLine entry.title) :
    IsLine (entryLine activeIndex i entry) ∧ entryLine activeIndex i entry ≠ [] := by
  have hmarker : ∀ marker ∈ ["*(spinner)", "[X]", "[ ]"], IsLine marker.toList := by decide
  have hend : ∀ active : Bool, IsLine (if active then ['…'] else []) := by decide
  refine ⟨?_, by simp [entryLine]⟩
  unfold entryLine
  refine IsLine.append (IsLine.append (IsLine.append (by decide) (hmarker _ ?_))
    (IsLine.cons (by decide) h)) (hend _)
  split_ifs <;> simp

theorem entryLines_lines (activeIndex : Option ℤ) {entries : List Entry}
    (h : ∀ entry ∈ entries, IsLine entry.title) : ∀ i, ∀ line ∈ entryLines activeIndex i entries,
      IsLine line ∧ line ≠ [] := by
  induction entries with
  | nil => exact fun _ line hline => absurd hline List.not_mem_nil
  | cons entry rest ih =>
    intro i
    rw [List.forall_mem_cons] at h
    exact List.forall_mem_cons.mpr ⟨entryLine_line activeIndex i h.1, ih h.2 (i + 1)⟩

/-- The file has a line for every line that is written. -/
theorem splitlines_writeBacklog {tasks : List Entry} (activeIndex : Option ℤ)
    (h : ∀ entry ∈ tasks, IsLine entry.title) :
    splitlines (unifyNewlines (writeBacklog tasks activeIndex)) =
      header tasks ++ entryLines activeIndex 1 tasks := by
  have hlines : ∀ line ∈ header tasks ++ entryLines activeIndex 1 tasks, IsLine line := by
    intro line hline
    rcases List.mem_append.mp hline with hline | hline
    · exact header_lines tasks line hline
    · exact (entryLines_lines activeIndex h 1 line hline).1
  have hlast : (header tasks ++ entryLines activeIndex 1 tasks).getLast? ≠ some [] := by
    cases tasks with
    | nil => exact fun hnil => by cases hnil
    | cons entry rest =>
      intro hnil
      rw [List.getLast?_append, entryLines] at hnil
      have hsome := List.getLast?_eq_some_getLast (List.cons_ne_nil
        (entryLine activeIndex 1 entry) (entryLines activeIndex 2 rest))
      rw [hsome, Option.some_or] at hnil
      have hmem := List.getLast_mem (List.cons_ne_nil (entryLine activeIndex 1 entry)
        (entryLines activeIndex 2 rest))
      exact (entryLines_lines activeIndex h 1 _ hmem).2 (Option.some.inj hnil)
  have hreturn : '\r' ∉ writeBacklog tasks activeIndex := by
    intro hmem
    rcases mem_intercalate_newline hmem with hbreak | ⟨line, hline, hmem⟩
    · cases hbreak
    · exact (hlines line hline).not_return hmem
  rw [unifyNewlines_self hreturn]
  exact splitlines_intercalate hlines hlast

/-- The open tasks: neither checked nor active. -/
def openTasks (activeIndex : Option ℤ) : ℕ → List Entry → List Entry
  | _, [] => []
  | i, entry :: rest =>
    (if entry.checked = false ∧ activeIndex ≠ some (i : ℤ) then [entry] else []) ++
      openTasks activeIndex (i + 1) rest

variable (word : Char → Bool) (fileName : Text)

/-- A line with another beginning is not read. -/
theorem taskOfLine_none (j : ℕ) {line : Text} {first : Char} (hline : line.head? = some first)
    (hfirst : isSpace first = false) (hother : "- [ ] ".toList.isPrefixOf line = false) : taskOfLine word fileName j line = none := by
  have hstripped : "- [ ] ".toList.isPrefixOf (strip line) = false := by
    cases line with
    | nil => cases hline
    | cons c rest =>
      cases hline
      by_contra hread
      have hfront := List.isPrefixOf_iff_prefix.mp (Bool.eq_true_of_not_eq_false hread)
      have hall := List.isPrefixOf_iff_prefix.mpr
        (hfront.trans (strip_prefix_text hfirst rest))
      rw [hall] at hother
      cases hother
  unfold taskOfLine
  dsimp only
  rw [if_neg (by rw [hstripped]; simp)]

/-- A line with the marker of an open task is read with its title. -/
theorem taskOfLine_open (j : ℕ) {title : Text} (h : PlainTitle title) :
    (taskOfLine word fileName j ("- [ ] ".toList ++ title)).map BacklogTask.title =
      some title := by
  have hstripped := strip_dash " [ ] ".toList h
  unfold taskOfLine
  dsimp only
  rw [show "- [ ] ".toList ++ title = '-' :: " [ ] ".toList ++ title from rfl, hstripped,
    if_pos (by rfl)]
  show Option.map BacklogTask.title (some _) = some title
  rw [Option.map_some]
  exact congrArg some h.stripped

/-- Only the line of an open task is read as a task, and with its title. -/
theorem taskOfLine_entryLine (activeIndex : Option ℤ) (i j : ℕ) {entry : Entry}
    (h : PlainTitle entry.title) :
    (taskOfLine word fileName j (entryLine activeIndex i entry)).map BacklogTask.title =
      if entry.checked = false ∧ activeIndex ≠ some (i : ℤ) then some entry.title else none := by
  by_cases hactive : activeIndex = some (i : ℤ)
  · have hline : entryLine activeIndex i entry = "- *(spinner) ".toList ++ entry.title ++ ['…'] := by
      simp [entryLine, hactive]
    rw [hline, if_neg fun hopen => hopen.2 hactive,
      taskOfLine_none word fileName j rfl (by decide) rfl]
    rfl
  · cases hchecked : entry.checked with
    | true =>
      have hline : entryLine activeIndex i entry = "- [X] ".toList ++ entry.title := by
        simp [entryLine, hactive, hchecked]
      rw [hline, if_neg fun hopen => Bool.noConfusion hopen.1,
        taskOfLine_none word fileName j rfl (by decide) rfl]
      rfl
    | false =>
      have hline : entryLine activeIndex i entry = "- [ ] ".toList ++ entry.title := by
        simp [entryLine, hactive, hchecked]
      rw [hline, if_pos ⟨rfl, hactive⟩]
      exact taskOfLine_open word fileName j h

theorem tasksOfLines_entryLines (activeIndex : Option ℤ) {tasks : List Entry}
    (h : ∀ entry ∈ tasks, PlainTitle entry.title) : ∀ i j : ℕ,
    (tasksOfLines word fileName j (entryLines activeIndex i tasks)).map BacklogTask.title =
      (openTasks activeIndex i tasks).map Entry.title := by
  induction tasks with
  | nil => exact fun _ _ => rfl
  | cons entry rest ih =>
    intro i j
    rw [List.forall_mem_cons] at h
    have hfirst := taskOfLine_entryLine word fileName activeIndex i j h.1
    rw [entryLines, tasksOfLines, openTasks, List.map_append, List.map_append,
      ih h.2 (i + 1) (j + 1), ← Option.toList_map, hfirst]
    split_ifs <;> rfl

theorem tasksOfLines_header (tasks : List Entry) (lines : List Text) :
    ∃ j, tasksOfLines word fileName 0 (header tasks ++ lines) =
      tasksOfLines word fileName j lines := by
  unfold header
  split_ifs with hnil
  · exact ⟨0, rfl⟩
  · refine ⟨2, ?_⟩
    rw [List.cons_append, List.cons_append, List.nil_append, tasksOfLines, tasksOfLines,
      taskOfLine_none word fileName 0 rfl (by decide) rfl]
    rfl

/-- What is read from the file are the titles of the open tasks, in order. -/
theorem loadTasksFromFile_writeBacklog (tasks : List Entry) (activeIndex : Option ℤ)
    (h : ∀ entry ∈ tasks, PlainTitle entry.title) :
    (loadTasksFromFile word fileName (some (writeBacklog tasks activeIndex))).map
      BacklogTask.title = (openTasks activeIndex 1 tasks).map Entry.title := by
  have hlines := splitlines_writeBacklog activeIndex fun entry hentry => (h entry hentry).line
  obtain ⟨j, hheader⟩ := tasksOfLines_header word fileName tasks (entryLines activeIndex 1 tasks)
  unfold loadTasksFromFile
  dsimp only
  rw [hlines, hheader]
  exact tasksOfLines_entryLines word fileName activeIndex h 1 j

/-- Titles that look like markers are read back too. -/
theorem loadTasksFromFile_markers :
    (loadTasksFromFile Char.isAlphanum "TODO.md".toList (some (writeBacklog
      [⟨"- [ ] fix".toList, false⟩, ⟨"# done".toList, true⟩, ⟨"[X] not yet".toList, false⟩]
        (some 4)))).map BacklogTask.title = ["- [ ] fix".toList, "[X] not yet".toList] :=
  loadTasksFromFile_writeBacklog Char.isAlphanum "TODO.md".toList
    [⟨"- [ ] fix".toList, false⟩, ⟨"# done".toList, true⟩, ⟨"[X] not yet".toList, false⟩] (some 4)
    (by
      intro entry hentry
      rcases List.mem_cons.mp hentry with rfl | hentry
      · exact ⟨by decide, by decide, by decide⟩
      · rcases List.mem_pair.mp hentry with rfl | rfl
        · exact ⟨by decide, by decide, by decide⟩
        · exact ⟨by decide, by decide, by decide⟩)

end RoundTrip

end AiosDeck.Backlog
