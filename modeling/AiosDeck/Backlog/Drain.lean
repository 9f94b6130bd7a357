import AiosDeck.Backlog.Runner
import AiosDeck.Scheduler.Runs

/-!
# Draining a board

A run of the backlog changes, for each task that it executes, the first card of
the board with the title of the task. A board is drained as its cards say exactly
when these are the cards that the tasks were made from.
-/

namespace AiosDeck.Backlog

open Python Scheduler Program KanbanState

section Moves

variable {engine : KanbanEngine} (hf : engine.fault = fun _ => none) {cardId : ℕ}
  {found : KanbanCard}
include hf

/-- A move to the column where the card is. -/
theorem moveCard_stay (s : KanbanState) (h : s.row engine.projectId cardId = some found) :
    Triple (SameTables s) (engine.moveCard cardId found.column.name)
      (fun _ t => SameTables s t) (fun _ _ => False) := by
  have hbefore : Triple (SameTables s) (engine.columnBefore cardId)
      (fun _ t => SameTables s t) (fun _ _ => False) := by
    refine Triple.ite (fun _ => ?_) (fun _ => Triple.pure fun _ ht => ht)
    refine (getCard_run hf s cardId h).bind fun card => ?_
    exact Triple.pure fun t ht => ht.2
  have hstore : Triple (SameTables s) (KanbanStore.moveCard engine cardId found.column.name)
      (fun result t => result.isSome = true ∧ SameTables s t) (fun _ _ => False) := by
    unfold KanbanStore.moveCard
    rw [Column.parse_name]
    refine (getCard_run hf s cardId h).bind fun card => ?_
    rintro t ⟨⟨subtasks, rfl⟩, ht⟩
    dsimp only
    rw [if_pos rfl]
    exact ⟨rfl, ht⟩
  refine hbefore.bind fun oldColumn => ?_
  refine Triple.bind (Triple.tryCatch (R := fun _ _ => False) hstore
    fun exc t ht => ht.elim) fun result => ?_
  refine Triple.bind (R := fun _ t => SameTables s t) ?_ fun _ => Triple.pure fun _ ht => ht
  refine Triple.ite (fun _ => ?_) (fun _ => Triple.pure fun _ ht => ht.2)
  cases result with
  | none =>
    intro t ht
    cases ht.1
  | some card =>
    refine Triple.bind (R := fun _ t => SameTables s t) (Triple.pure fun _ ht => ht.2) fun _ => ?_
    exact Triple.ite (fun _ => publish_run _ _) (fun _ => Triple.pure fun _ ht => ht)

/-- Work begins on a card in any column. -/
theorem beginWork_anywhere (s : KanbanState) (h : s.row engine.projectId cardId = some found) :
    Triple (SameTables s) (engine.beginWork cardId)
      (fun _ t => SameTables (edit cardId (KanbanCard.moved .inProgress) s) t)
      (fun _ _ => False) := by
  by_cases htodo : found.column = .todo
  · have hstay := moveCard_stay hf s h
    rw [htodo] at hstay
    refine hstay.bind fun _ => ?_
    exact moveCard_run hf s h .inProgress (by rw [htodo]; decide) (fun heq => by cases heq)
      (by rw [htodo]; decide)
  · have hback := moveCard_run hf s h .todo (Ne.symm htodo) (fun heq => by cases heq)
      (by change 1 ≤ _; omega)
    refine hback.bind fun _ => ?_
    have hrow : (edit cardId (KanbanCard.moved .todo) s).row engine.projectId cardId =
        some (found.moved .todo) := by
      rw [row_edit_self (identified_moved _), h]
      rfl
    have hprogress := moveCard_run hf _ hrow .inProgress (by simp [KanbanCard.moved])
      (fun heq => by cases heq) (by simp [KanbanCard.moved, Column.index])
    rw [edit_edit (identified_moved _)] at hprogress
    exact hprogress

end Moves

/-- The cards that a listing of the board gives. -/
def listed (projectId : String) (boardId : ℕ) (s : KanbanState) : List KanbanCard :=
  s.cards.filter fun card => card.boardId = boardId ∧ card.projectId = projectId

/-- The board with this name is this one, and its cards are these. -/
structure Shows (projectId : String) (boardName : Text) (board : KanbanBoard)
    (rows : List KanbanCard) (s : KanbanState) : Prop where
  sequenced : s.Sequenced
  named : boardNamed boardName (s.boards.filter fun board => board.projectId = projectId) =
    some board
  rows : listed projectId board.id s = rows

/-- Rows with a change to the one with this key. -/
def editRows (cardId : ℕ) (change : KanbanCard → KanbanCard) (rows : List KanbanCard) :
    List KanbanCard :=
  rows.map fun card => if card.id = cardId then change card else card

section Shown

variable {engine : KanbanEngine} {boardName : Text} {board : KanbanBoard} {rows : List KanbanCard}
  {projectId : String} {s t : KanbanState} {cardId : ℕ} {change : KanbanCard → KanbanCard}

theorem Shows.same (h : Shows projectId boardName board rows s) (hsame : SameTables s t) :
    Shows projectId boardName board rows t := by
  refine ⟨hsame.sequenced h.sequenced, ?_, ?_⟩
  · rw [hsame.boards]
    exact h.named
  · unfold listed
    rw [hsame.cards]
    exact h.rows

theorem Shows.edit (h : Shows projectId boardName board rows s) (hchange : Identified change) :
    Shows projectId boardName board (editRows cardId change rows)
      (KanbanState.edit cardId change s) := by
  refine ⟨h.sequenced.edit hchange, h.named, ?_⟩
  unfold listed editRows
  rw [filter_edit fun card => by simp [hchange.boardId, hchange.projectId]]
  exact congrArg _ h.rows

/-- The row of a card of the board. -/
theorem Shows.row (h : Shows projectId boardName board rows s) {card : KanbanCard}
    (hcard : card ∈ rows) : s.row projectId card.id = some card := by
  rw [← h.rows] at hcard
  obtain ⟨hmem, hboard⟩ := List.mem_filter.mp hcard
  exact row_of_mem h.sequenced hmem (of_decide_eq_true hboard).2

theorem Shows.keys (h : Shows projectId boardName board rows s) :
    (rows.map KanbanCard.id).Nodup := by
  rw [← h.rows]
  exact h.sequenced.keys.sublist (List.filter_sublist.map _)

/-- From the tables of each state that shows the board. -/
theorem triple_shows {α : Type} {x : KanbanM α} {after : KanbanState → KanbanState}
    {rows' : List KanbanCard}
    (h : ∀ s, Shows projectId boardName board rows s →
      Triple (SameTables s) x (fun _ t => SameTables (after s) t) (fun _ _ => False) ∧
        Shows projectId boardName board rows' (after s)) :
    Triple (Shows projectId boardName board rows) x
      (fun _ t => Shows projectId boardName board rows' t) (fun _ _ => False) := by
  refine Triple.fix fun s hs => ?_
  obtain ⟨htriple, hafter⟩ := h s hs
  refine (htriple.weaken_pre ?_).strengthen_post fun _ t ht => hafter.same ht
  rintro t rfl
  exact SameTables.rfl

end Shown

section Lookups

variable {engine : KanbanEngine} {boardName : Text} {board : KanbanBoard} {rows : List KanbanCard}

/-- A card as a listing gives it: its row, and some subtasks. -/
def Lists (card row : KanbanCard) : Prop := ∃ subtasks, card = { row with subtasks }

theorem listBoards_shows (hf : engine.fault = fun _ => none) :
    Triple (Shows engine.projectId boardName board rows) engine.listBoards
      (fun boards t => boardNamed boardName boards = some board ∧
        Shows engine.projectId boardName board rows t) (fun _ _ => False) := by
  refine Triple.fix fun s hs => ?_
  refine ((fetchAll_run hf s _ fun t ht => by rw [ht.boards]).weaken_pre ?_).strengthen_post ?_
  · rintro t rfl
    exact SameTables.rfl
  · rintro boards t ⟨rfl, ht⟩
    exact ⟨hs.named, hs.same ht⟩

theorem withSubtasks_run (hf : engine.fault = fun _ => none) (s : KanbanState)
    (rows : List KanbanCard) :
    Triple (SameTables s) (KanbanStore.withSubtasks engine rows)
      (fun cards t => List.Forall₂ Lists cards rows ∧ SameTables s t) (fun _ _ => False) := by
  induction rows with
  | nil => exact Triple.pure fun _ ht => ⟨.nil, ht⟩
  | cons row rows ih =>
    have hsubtasks : Triple (SameTables s) (KanbanStore.getSubtasks engine row.id)
        (fun _ t => SameTables s t) (fun _ _ => False) := by
      refine (statement_run hf s).bind fun answer => ?_
      rintro t ⟨rfl, ht⟩
      exact ht
    refine hsubtasks.bind fun subtasks => ?_
    refine ih.bind fun cards => ?_
    exact Triple.pure fun t ht => ⟨.cons ⟨subtasks, rfl⟩ ht.1, ht.2⟩

theorem listCards_shows (hf : engine.fault = fun _ => none) :
    Triple (Shows engine.projectId boardName board rows) (engine.listCards board.id)
      (fun cards t => List.Forall₂ Lists cards rows ∧
        Shows engine.projectId boardName board rows t) (fun _ _ => False) := by
  refine Triple.fix fun s hs => ?_
  have hfetch : Triple (fun t => t = s)
      (KanbanStore.fetchAll engine fun s => s.cards.filter fun card =>
        card.boardId = board.id ∧ card.projectId = engine.projectId)
      (fun found t => found = rows ∧ SameTables s t) (fun _ _ => False) := by
    refine ((fetchAll_run hf s _ fun t ht => by rw [ht.cards]).weaken_pre ?_).strengthen_post ?_
    · rintro t rfl
      exact SameTables.rfl
    · rintro found t ⟨rfl, ht⟩
      exact ⟨hs.rows, ht⟩
  refine hfetch.bind fun found => Triple.of_pre fun hfound => ?_
  rw [hfound]
  refine (withSubtasks_run hf s rows).strengthen_post ?_
  rintro cards t ⟨hcards, ht⟩
  exact ⟨hcards, hs.same ht⟩

/-- The key of the first card with this title. -/
def target (rows : List KanbanCard) (title : Text) : Option ℕ :=
  (rows.find? (BacklogRunner.titled title)).map KanbanCard.id

theorem titled_congr {card other : KanbanCard} (h : card.title = other.title) (title : Text) :
    BacklogRunner.titled title card = BacklogRunner.titled title other := by
  unfold BacklogRunner.titled
  rw [h]

theorem target_lists {cards : List KanbanCard} (h : List.Forall₂ Lists cards rows) (title : Text) :
    target cards title = target rows title := by
  unfold target
  induction h with
  | nil => rfl
  | @cons card row cards rows hcard hrest ih =>
    obtain ⟨subtasks, rfl⟩ := hcard
    have htitled : BacklogRunner.titled title { row with subtasks } =
        BacklogRunner.titled title row := titled_congr rfl title
    rw [List.find?_cons, List.find?_cons, htitled]
    cases BacklogRunner.titled title row with
    | true => rfl
    | false => exact ih

theorem target_editRows {change : KanbanCard → KanbanCard} (h : Identified change) (cardId : ℕ)
    (title : Text) : target (editRows cardId change rows) title = target rows title := by
  unfold target editRows
  rw [List.find?_map]
  have htitled : BacklogRunner.titled title ∘ (fun card => if card.id = cardId then change card
      else card) = BacklogRunner.titled title := by
    funext card
    rw [Function.comp]
    split
    · exact titled_congr (h.title card) title
    · rfl
  rw [htitled, Option.map_map]
  congr 1
  funext card
  rw [Function.comp]
  split
  · exact h.id card
  · rfl

theorem mem_of_target {title : Text} {cardId : ℕ} (h : target rows title = some cardId) :
    ∃ card ∈ rows, card.id = cardId ∧ BacklogRunner.titled title card = true := by
  obtain ⟨card, hfound, hid⟩ := Option.map_eq_some_iff.mp h
  exact ⟨card, List.mem_of_find?_eq_some hfound, hid, List.find?_some hfound⟩

/-- What an update does to the row of its card. -/
def changeOf : Update → KanbanCard → KanbanCard
  | .inProgress => KanbanCard.moved .inProgress
  | .done => KanbanCard.moved .done ∘ KanbanCard.passed
  | .blocked reason => KanbanCard.withBlock (String.ofList reason)

theorem identified_changeOf (update : Update) : Identified (changeOf update) := by
  cases update with
  | inProgress => exact identified_moved _
  | done => exact (identified_moved _).comp identified_passed
  | blocked reason => exact identified_withBlock _

/-- The rows after an update of the first card with this title. -/
def updateRows (title : Text) (update : Update) (rows : List KanbanCard) : List KanbanCard :=
  match target rows title with
  | none => rows
  | some cardId => editRows cardId (changeOf update) rows

/-- An update finds its card; a card is completed from `InProgress`. -/
theorem updateKanban_run (hf : engine.fault = fun _ => none) {runner : BacklogRunner}
    (hkanban : runner.kanban = some engine) {task : BacklogTask}
    (hsource : task.source = "kanban:".toList ++ boardName) (update : Update)
    (hready : update = .done → ∀ card ∈ rows, target rows task.title = some card.id →
      card.column = .inProgress) :
    Triple (Shows engine.projectId boardName board rows) (runner.updateKanban task update)
      (fun _ t => Shows engine.projectId boardName board
        (updateRows task.title update rows) t) (fun _ _ => False) := by
  have hboard : BacklogRunner.sourceBoard task = some boardName := by
    unfold BacklogRunner.sourceBoard
    rw [hsource, if_pos (List.isPrefixOf_iff_prefix.mpr (List.prefix_append _ _))]
    rfl
  unfold BacklogRunner.updateKanban
  rw [hkanban, hboard]
  refine (listBoards_shows hf).bind fun boards => Triple.of_pre fun hnamed => ?_
  dsimp only [Option.bind_some]
  rw [hnamed]
  refine (listCards_shows hf).bind fun cards => Triple.of_pre fun hcards => ?_
  have htarget := target_lists hcards task.title
  unfold updateRows
  rw [← htarget]
  unfold target
  cases hfind : cards.find? (BacklogRunner.titled task.title) with
  | none => exact Triple.pure fun t ht => ht
  | some card =>
    have hid : target rows task.title = some card.id := by
      rw [← htarget]
      unfold target
      rw [hfind]
      rfl
    obtain ⟨row, hrow, hsame, -⟩ := mem_of_target hid
    refine Triple.bind (R := fun _ t => Shows engine.projectId boardName board
      (editRows card.id (changeOf update) rows) t) ?_ fun _ => Triple.pure fun _ ht => ht
    refine triple_shows fun s hs => ⟨?_, hs.edit (identified_changeOf update)⟩
    have hlookup := hs.row hrow
    rw [hsame] at hlookup
    cases update with
    | inProgress => exact beginWork_anywhere hf s hlookup
    | done =>
      exact completeWork_run hf s hlookup (hready rfl row hrow (by rw [hsame]; exact hid))
    | blocked reason => exact blockCard_run hf s hlookup _

end Lookups

/-- The kernel leaves a board alone. -/
def Kernel.Spares (kernel : Kernel) (projectId : String) (boardName : Text) (board : KanbanBoard) :
    Prop :=
  ∀ i task rows s, Shows projectId boardName board rows s →
    Shows projectId boardName board rows (kernel.effect i task s)

section Tasks

open BacklogRunner (Verdict)

/-- What a task does to the row that its updates find. -/
def settle (verdict : Verdict) : KanbanCard → KanbanCard :=
  changeOf verdict.update ∘ changeOf .inProgress

theorem identified_settle (verdict : Verdict) : Identified (settle verdict) :=
  (identified_changeOf _).comp (identified_changeOf _)

/-- The rows after a task with this title. -/
def taskRows (lookup : Text → Option ℕ) (title : Text) (verdict : Verdict)
    (rows : List KanbanCard) : List KanbanCard :=
  rows.map fun card => if lookup title = some card.id then settle verdict card else card

/-- The tasks that are executed, from this number on, with their verdicts. -/
def ran {α : Type} (stopOnError : Bool) (fromIndex : ℤ) (verdict : ℕ → α → Verdict) :
    ℕ → List α → List (α × Verdict)
  | _, [] => []
  | i, item :: rest =>
    if (i : ℤ) < fromIndex then ran stopOnError fromIndex verdict (i + 1) rest
    else if (verdict i item).status = .failed ∧ stopOnError = true then [(item, verdict i item)]
    else (item, verdict i item) :: ran stopOnError fromIndex verdict (i + 1) rest

variable {engine : KanbanEngine} {boardName : Text} {board : KanbanBoard} {rows : List KanbanCard}
  {runner : BacklogRunner} {stopOnError createBranch : Bool} {fromIndex : ℤ}

theorem updateRows_twice (title : Text) (verdict : Verdict) :
    updateRows title verdict.update (updateRows title .inProgress rows) =
      taskRows (target rows) title verdict rows := by
  have hkept : target (updateRows title .inProgress rows) title = target rows title := by
    unfold updateRows
    split
    · rfl
    · exact target_editRows (identified_changeOf _) _ _
  unfold updateRows at hkept ⊢
  rw [hkept]
  unfold taskRows
  cases htarget : target rows title with
  | none =>
    dsimp only
    simp only [reduceCtorEq, if_false, List.map_id']
  | some cardId =>
    unfold editRows
    dsimp only
    rw [List.map_map]
    refine List.map_congr_left fun card _ => ?_
    rw [Function.comp]
    by_cases hid : card.id = cardId
    · have hmoved : (changeOf .inProgress card).id = cardId := hid
      rw [if_pos hid, if_pos hmoved, if_pos (by rw [hid])]
      rfl
    · rw [if_neg hid, if_neg hid, if_neg fun heq => hid (Option.some.inj heq).symm]

theorem target_taskRows (title other : Text) (verdict : Verdict) :
    target (taskRows (target rows) title verdict rows) other = target rows other := by
  unfold taskRows
  cases htarget : target rows title with
  | none => simp only [reduceCtorEq, if_false, List.map_id']
  | some cardId =>
    have hrows : (rows.map fun card => if some cardId = some card.id then settle verdict card
        else card) = editRows cardId (settle verdict) rows := by
      unfold editRows
      refine List.map_congr_left fun card _ => ?_
      simp only [Option.some.injEq, eq_comm]
    rw [hrows]
    exact target_editRows (identified_settle verdict) cardId other

/-- The rows after the tasks that were executed. -/
def ranRows (lookup : Text → Option ℕ) (tasks : List (BacklogTask × Verdict))
    (rows : List KanbanCard) : List KanbanCard :=
  tasks.foldl (fun rows task => taskRows lookup task.1.title task.2 rows) rows

/-- The tasks that a run reports as executed, with their status. -/
def executed (results : List BacklogRunResult) : List (BacklogTask × BacklogStatus) :=
  (results.filter fun result => result.status ≠ .skipped).map fun result =>
    (result.task, result.status)

theorem verdict_ran (i : ℕ) (task : BacklogTask) :
    (runner.verdict createBranch i task).status ≠ .skipped := by
  unfold BacklogRunner.verdict BacklogRunner.judge
  split
  · exact fun h => by cases h
  · dsimp only
    split
    · split
      · exact fun h => by cases h
      · exact fun h => by cases h
    · exact fun h => by cases h

theorem executed_cons {result : BacklogRunResult} (h : result.status ≠ .skipped)
    (results : List BacklogRunResult) :
    executed (result :: results) = (result.task, result.status) :: executed results := by
  unfold executed
  rw [List.filter_cons, if_pos (decide_eq_true h), List.map_cons]

variable (hf : engine.fault = fun _ => none) (hkanban : runner.kanban = some engine)
  (hspares : runner.kernel.Spares engine.projectId boardName board)
include hf hkanban hspares

/-- A task settles the first card with its title. -/
theorem runTask_run {task : BacklogTask} (hsource : task.source = "kanban:".toList ++ boardName)
    (i : ℕ) :
    Triple (Shows engine.projectId boardName board rows) (runner.runTask createBranch i task)
      (fun result t => (result.task = task ∧
          result.status = (runner.verdict createBranch i task).status) ∧
        Shows engine.projectId boardName board
          (taskRows (target rows) task.title (runner.verdict createBranch i task) rows) t)
      (fun _ _ => False) := by
  refine (updateKanban_run hf hkanban hsource .inProgress fun h => by cases h).bind fun _ => ?_
  refine Triple.bind (R := fun _ t => Shows engine.projectId boardName board
    (updateRows task.title .inProgress rows) t)
    (Triple.modify fun s hs => hspares i _ _ s hs) fun _ => ?_
  have hready : (runner.verdict createBranch i task).update = .done →
      ∀ card ∈ updateRows task.title .inProgress rows,
        target (updateRows task.title .inProgress rows) task.title = some card.id →
          card.column = .inProgress := by
    intro _ card hcard htarget
    unfold updateRows at hcard htarget
    cases hfound : target rows task.title with
    | none =>
      rw [hfound] at htarget
      dsimp only at htarget
      rw [hfound] at htarget
      cases htarget
    | some cardId =>
      rw [hfound] at hcard htarget
      dsimp only at hcard htarget
      rw [target_editRows (identified_changeOf _), hfound] at htarget
      obtain ⟨row, -, rfl⟩ := List.mem_map.mp hcard
      by_cases hid : row.id = cardId
      · rw [if_pos hid]
        rfl
      · rw [if_neg hid] at htarget
        exact absurd (Option.some.inj htarget).symm hid
  refine Triple.bind (updateKanban_run hf hkanban hsource _ hready) fun _ => ?_
  rw [updateRows_twice]
  exact Triple.pure fun t ht => ⟨⟨rfl, rfl⟩, ht⟩

theorem runFrom_run (tasks : List BacklogTask) :
    ∀ i rows, (∀ task ∈ tasks, task.source = "kanban:".toList ++ boardName) →
      Triple (Shows engine.projectId boardName board rows)
        (runner.runFrom stopOnError fromIndex createBranch i tasks)
        (fun results t =>
          executed results = (ran stopOnError fromIndex (runner.verdict createBranch) i tasks).map
            (fun task => (task.1, task.2.status)) ∧
          Shows engine.projectId boardName board (ranRows (target rows)
            (ran stopOnError fromIndex (runner.verdict createBranch) i tasks) rows) t)
        (fun _ _ => False) := by
  induction tasks with
  | nil => exact fun i rows _ => Triple.pure fun t ht => ⟨rfl, ht⟩
  | cons task tasks ih =>
    intro i rows hsource
    rw [List.forall_mem_cons] at hsource
    rw [BacklogRunner.runFrom, ran]
    by_cases hskip : (i : ℤ) < fromIndex
    · rw [if_pos hskip, if_pos hskip]
      refine (ih (i + 1) rows hsource.2).bind fun results => ?_
      exact Triple.pure fun t ht => ht
    · rw [if_neg hskip, if_neg hskip]
      refine (runTask_run hf hkanban hspares hsource.1 i).bind fun result => ?_
      refine Triple.of_pre fun hresult => ?_
      have hone : ∀ results, executed (result :: results) =
          (task, (runner.verdict createBranch i task).status) :: executed results := by
        intro results
        have hran : result.status ≠ .skipped := by
          rw [hresult.2]
          exact verdict_ran i task
        rw [executed_cons hran, hresult.1, hresult.2]
      rw [hresult.2]
      by_cases hstop : (runner.verdict createBranch i task).status = .failed ∧ stopOnError = true
      · rw [if_pos hstop, if_pos hstop]
        exact Triple.pure fun t ht => ⟨hone [], ht⟩
      · rw [if_neg hstop, if_neg hstop]
        have hkept : target (taskRows (target rows) task.title
            (runner.verdict createBranch i task) rows) = target rows :=
          funext fun other => target_taskRows task.title other _
        have hrest := ih (i + 1) (taskRows (target rows) task.title
          (runner.verdict createBranch i task) rows) hsource.2
        rw [hkept] at hrest
        refine hrest.bind fun results => ?_
        refine Triple.pure fun t ht => ⟨?_, ht.2⟩
        rw [hone, ht.1]
        rfl

end Tasks

section Loading

variable {word : Char → Bool} {boardName : Text} {board : KanbanBoard} {rows : List KanbanCard}
  {engine : KanbanEngine}

/-- The title of a card, which is a text. -/
def titleOf (card : KanbanCard) : Text :=
  match card.title with
  | .str title => title.toList
  | _ => []

/-- The title is a text, as a `TEXT` column gives it. -/
def Titled (card : KanbanCard) : Prop := ∃ title, card.title = .str title

/-- The cards in `Todo` from this place on, with their tasks. -/
def todoFrom (word : Char → Bool) (boardName : Text) :
    ℕ → List KanbanCard → List (KanbanCard × BacklogTask)
  | _, [] => []
  | i, card :: rest =>
    if card.column = .todo then
      (card, taskOf word boardName (titleOf card) i) :: todoFrom word boardName (i + 1) rest
    else todoFrom word boardName (i + 1) rest

theorem tasksFrom_lists {cards : List KanbanCard} (h : List.Forall₂ Lists cards rows)
    (htitled : ∀ row ∈ rows, Titled row) :
    ∀ i, tasksFrom word boardName i cards =
      .ok ((todoFrom word boardName i rows).map Prod.snd) := by
  induction h with
  | nil => exact fun _ => rfl
  | @cons card row cards rows hcard hrest ih =>
    intro i
    rw [List.forall_mem_cons] at htitled
    obtain ⟨subtasks, rfl⟩ := hcard
    obtain ⟨title, htitle⟩ := htitled.1
    have hstep := ih htitled.2 (i + 1)
    rw [tasksFrom, todoFrom]
    by_cases htodo : row.column = .todo
    · have htext : titleText row.title = .ok (titleOf row) := by
        unfold titleOf
        rw [htitle]
        rfl
      rw [if_neg (not_not.mpr htodo), if_pos htodo]
      dsimp only
      rw [htext, hstep]
      rfl
    · rw [if_pos htodo, if_neg htodo]
      exact hstep

theorem loadTasks_run (hf : engine.fault = fun _ => none) (htitled : ∀ row ∈ rows, Titled row) :
    Triple (Shows engine.projectId boardName board rows)
      (loadTasksFromKanban word engine boardName)
      (fun tasks t => tasks = (todoFrom word boardName 0 rows).map Prod.snd ∧
        Shows engine.projectId boardName board rows t) (fun _ _ => False) := by
  refine (listBoards_shows hf).bind fun boards => Triple.of_pre fun hnamed => ?_
  rw [hnamed]
  refine (listCards_shows hf).bind fun cards => Triple.of_pre fun hcards => ?_
  rw [tasksFrom_lists hcards htitled]
  exact Triple.pure fun t ht => ⟨rfl, ht⟩

theorem todoFrom_spec : ∀ i, ∀ entry ∈ todoFrom word boardName i rows,
    entry.1.column = .todo ∧ entry.2.title = titleOf entry.1 ∧
      entry.2.source = "kanban:".toList ++ boardName := by
  induction rows with
  | nil => exact fun _ entry hentry => absurd hentry List.not_mem_nil
  | cons card rows ih =>
    intro i
    rw [todoFrom]
    split
    · rename_i htodo
      exact List.forall_mem_cons.mpr ⟨⟨htodo, rfl, rfl⟩, ih (i + 1)⟩
    · exact ih (i + 1)

theorem todoFrom_sublist : ∀ i, ((todoFrom word boardName i rows).map Prod.fst).Sublist rows := by
  induction rows with
  | nil => exact fun _ => List.Sublist.refl _
  | cons card rows ih =>
    intro i
    rw [todoFrom]
    split
    · exact (ih (i + 1)).cons_cons card
    · exact (ih (i + 1)).cons card

theorem ran_sublist {α : Type} {stopOnError : Bool} {fromIndex : ℤ}
    {verdict : ℕ → α → BacklogRunner.Verdict} (items : List α) :
    ∀ i, ((ran stopOnError fromIndex verdict i items).map Prod.fst).Sublist items := by
  induction items with
  | nil => exact fun _ => List.Sublist.refl _
  | cons item items ih =>
    intro i
    rw [ran]
    split_ifs
    · exact (ih (i + 1)).cons item
    · exact (List.nil_sublist items).cons_cons item
    · exact (ih (i + 1)).cons_cons item

theorem ran_verdict {α : Type} {stopOnError : Bool} {fromIndex : ℤ}
    {verdict : ℕ → α → BacklogRunner.Verdict} (items : List α) :
    ∀ i, ∀ item ∈ ran stopOnError fromIndex verdict i items, ∃ j, item.2 = verdict j item.1 := by
  induction items with
  | nil => exact fun _ item hitem => absurd hitem List.not_mem_nil
  | cons item items ih =>
    intro i
    rw [ran]
    split_ifs
    · exact ih (i + 1)
    · exact List.forall_mem_singleton.mpr ⟨i, rfl⟩
    · exact List.forall_mem_cons.mpr ⟨⟨i, rfl⟩, ih (i + 1)⟩

theorem ran_map {α β : Type} {stopOnError : Bool} {fromIndex : ℤ}
    (verdict : ℕ → β → BacklogRunner.Verdict) (change : α → β) (items : List α) :
    ∀ i, ran stopOnError fromIndex verdict i (items.map change) =
      (ran stopOnError fromIndex (fun i item => verdict i (change item)) i items).map
        fun item => (change item.1, item.2) := by
  induction items with
  | nil => exact fun _ => rfl
  | cons item items ih =>
    intro i
    rw [List.map_cons, ran, ran]
    split_ifs
    · exact ih (i + 1)
    · rfl
    · rw [List.map_cons, ih]

end Loading

section Boards

open BacklogRunner (Verdict)

variable {rows : List KanbanCard} {tasks : List ((KanbanCard × BacklogTask) × Verdict)}

/-- The row of a card after the tasks that were executed. -/
def settled (lookup : Text → Option ℕ) (tasks : List ((KanbanCard × BacklogTask) × Verdict))
    (card : KanbanCard) : KanbanCard :=
  tasks.foldl (fun card task => if lookup task.1.2.title = some card.id then settle task.2 card
    else card) card

theorem ranRows_settled (lookup : Text → Option ℕ) :
    ∀ rows, ranRows lookup (tasks.map fun task => (task.1.2, task.2)) rows =
      rows.map (settled lookup tasks) := by
  induction tasks with
  | nil => exact fun rows => (List.map_id' rows).symm
  | cons task tasks ih =>
    intro rows
    have hstep := ih (taskRows lookup task.1.2.title task.2 rows)
    have hrows : (taskRows lookup task.1.2.title task.2 rows).map (settled lookup tasks) =
        rows.map (settled lookup (task :: tasks)) := by
      unfold taskRows
      rw [List.map_map]
      rfl
    rw [← hrows, ← hstep]
    rfl

theorem settled_id (lookup : Text → Option ℕ) (card : KanbanCard) :
    (settled lookup tasks card).id = card.id := by
  unfold settled
  induction tasks generalizing card with
  | nil => rfl
  | cons task tasks ih =>
    rw [List.foldl_cons, ih]
    split
    · exact (identified_settle task.2).id card
    · rfl

/-- A card that no executed task looks up. -/
theorem settled_miss {lookup : Text → Option ℕ} {card : KanbanCard}
    (h : ∀ task ∈ tasks, lookup task.1.2.title ≠ some card.id) :
    settled lookup tasks card = card := by
  unfold settled
  induction tasks with
  | nil => rfl
  | cons task tasks ih =>
    rw [List.forall_mem_cons] at h
    rw [List.foldl_cons, if_neg h.1]
    exact ih h.2

/-- A card that its own task looks up, and no other. -/
theorem settled_own {lookup : Text → Option ℕ}
    (hown : ∀ task ∈ tasks, lookup task.1.2.title = some task.1.1.id)
    (hkeys : (tasks.map fun task => task.1.1.id).Nodup) :
    ∀ task ∈ tasks, settled lookup tasks task.1.1 = settle task.2 task.1.1 := by
  induction tasks with
  | nil => exact fun task htask => absurd htask List.not_mem_nil
  | cons first tasks ih =>
    rw [List.forall_mem_cons] at hown
    rw [List.map_cons, List.nodup_cons] at hkeys
    rw [List.forall_mem_cons]
    have hothers : ∀ task ∈ tasks, task.1.1.id ≠ first.1.1.id := by
      intro task htask heq
      exact hkeys.1 (heq ▸ List.mem_map_of_mem (f := fun task => task.1.1.id) htask)
    constructor
    · have hmiss : settled lookup tasks (settle first.2 first.1.1) = settle first.2 first.1.1 := by
        refine settled_miss fun task htask heq => ?_
        rw [hown.2 task htask, (identified_settle first.2).id] at heq
        exact hothers task htask (Option.some.inj heq)
      rw [← hmiss]
      unfold settled
      rw [List.foldl_cons, if_pos hown.1]
    · intro task htask
      have hrest := ih hown.2 hkeys.2 task htask
      rw [← hrest]
      unfold settled
      rw [List.foldl_cons, if_neg]
      rw [hown.1]
      exact fun heq => hothers task htask (Option.some.inj heq).symm

/-- The board is drained: the executed cards ended where their verdict says, and
all others are as they were. -/
structure Drained (rows : List KanbanCard) (tasks : List ((KanbanCard × BacklogTask) × Verdict))
    (later : List KanbanCard) : Prop where
  done : ∀ task ∈ tasks, task.2.status = .succeeded →
    ∃ row ∈ later, row.id = task.1.1.id ∧ row.column = .done
  blocked : ∀ task ∈ tasks, task.2.status = .failed →
    ∃ row ∈ later, row.id = task.1.1.id ∧ row.column = .inProgress ∧ row.blocked = true
  others : ∀ card ∈ rows, (∀ task ∈ tasks, task.1.1.id ≠ card.id) → card ∈ later

theorem verdict_column (verdict : Verdict) (card : KanbanCard) :
    (verdict.status = .succeeded → (settle verdict card).column = .done) ∧
      (verdict.status = .failed →
        (settle verdict card).column = .inProgress ∧ (settle verdict card).blocked = true) := by
  unfold settle BacklogRunner.Verdict.update
  constructor
  · intro hstatus
    rw [if_pos hstatus]
    rfl
  · intro hstatus
    rw [if_neg (by rw [hstatus]; decide)]
    exact ⟨rfl, rfl⟩

/-- Executed tasks of cards in `Todo`, each under the title of its card. -/
structure Executes (rows : List KanbanCard) (tasks : List ((KanbanCard × BacklogTask) × Verdict)) :
    Prop where
  cards : (tasks.map fun task => task.1.1).Sublist rows
  todo : ∀ task ∈ tasks, task.1.1.column = .todo
  titles : ∀ task ∈ tasks, BacklogRunner.titled task.1.2.title task.1.1 = true
  verdicts : ∀ task ∈ tasks, task.2.status ≠ .skipped

theorem titled_unique {card : KanbanCard} {title other : Text}
    (h : BacklogRunner.titled title card = true) (h' : BacklogRunner.titled other card = true) :
    title = other := by
  unfold BacklogRunner.titled at h h'
  cases htitle : card.title with
  | str found =>
    rw [htitle] at h h'
    exact (of_decide_eq_true h).symm.trans (of_decide_eq_true h')
  | _ =>
    rw [htitle] at h
    cases h

/-- A board is drained exactly when the executed tasks look up their own cards. -/
theorem drained_iff (hkeys : (rows.map KanbanCard.id).Nodup) (h : Executes rows tasks) :
    Drained rows tasks (rows.map (settled (target rows) tasks)) ↔
      ∀ task ∈ tasks, target rows task.1.2.title = some task.1.1.id := by
  have hcard : ∀ task ∈ tasks, task.1.1 ∈ rows := fun task htask =>
    h.cards.subset (List.mem_map_of_mem (f := fun task => task.1.1) htask)
  constructor
  · intro hdrained task htask
    by_contra hmiss
    -- no task looks the card up, so it is still in `Todo`
    have hstays : ∀ row ∈ rows.map (settled (target rows) tasks), row.id = task.1.1.id →
        row.column = .todo := by
      intro row hrow hid
      obtain ⟨card, hmem, rfl⟩ := List.mem_map.mp hrow
      rw [settled_id] at hid
      have hsame := List.inj_on_of_nodup_map hkeys hmem (hcard task htask) hid
      rw [hsame, settled_miss, h.todo task htask]
      intro other hother hfound
      obtain ⟨found, hfoundMem, hfoundId, hfoundTitle⟩ := mem_of_target hfound
      have hone := List.inj_on_of_nodup_map hkeys hfoundMem (hcard task htask) hfoundId
      rw [hone] at hfoundTitle
      rw [titled_unique hfoundTitle (h.titles task htask)] at hfound
      exact hmiss hfound
    cases hstatus : task.2.status with
    | succeeded =>
      obtain ⟨row, hrow, hid, hcolumn⟩ := hdrained.done task htask hstatus
      rw [hstays row hrow hid] at hcolumn
      cases hcolumn
    | failed =>
      obtain ⟨row, hrow, hid, hcolumn, -⟩ := hdrained.blocked task htask hstatus
      rw [hstays row hrow hid] at hcolumn
      cases hcolumn
    | skipped => exact h.verdicts task htask hstatus
  · intro hown
    have hids : (tasks.map fun task => task.1.1.id).Nodup := by
      have hsub := hkeys.sublist (h.cards.map KanbanCard.id)
      rw [List.map_map] at hsub
      exact hsub
    have hsettled : ∀ task ∈ tasks,
        settle task.2 task.1.1 ∈ rows.map (settled (target rows) tasks) := by
      intro task htask
      rw [← settled_own hown hids task htask]
      exact List.mem_map_of_mem (hcard task htask)
    refine ⟨fun task htask hstatus => ?_, fun task htask hstatus => ?_, fun card hmem hother => ?_⟩
    · exact ⟨_, hsettled task htask, (identified_settle task.2).id _,
        (verdict_column task.2 _).1 hstatus⟩
    · exact ⟨_, hsettled task htask, (identified_settle task.2).id _,
        (verdict_column task.2 _).2 hstatus⟩
    · have hmiss : settled (target rows) tasks card = card := by
        refine settled_miss fun task htask heq => ?_
        rw [hown task htask] at heq
        exact hother task htask (Option.some.inj heq)
      rw [← hmiss]
      exact List.mem_map_of_mem hmem

end Boards

section Runs

variable {word : Char → Bool} {engine : KanbanEngine} {boardName : Text} {board : KanbanBoard}
  {rows : List KanbanCard} {runner : BacklogRunner} {s : KanbanState}

/-- The cards in `Todo` whose tasks a run executes, with their verdicts. -/
def executedCards (word : Char → Bool) (runner : BacklogRunner) (boardName : Text)
    (stopOnError : Bool) (fromIndex : ℤ) (createBranch : Bool) (rows : List KanbanCard) :
    List ((KanbanCard × BacklogTask) × BacklogRunner.Verdict) :=
  ran stopOnError fromIndex (fun i entry => runner.verdict createBranch i entry.2) 0
    (todoFrom word boardName 0 rows)

/-- Load the tasks of a board and run them. -/
def runBoard (word : Char → Bool) (engine : KanbanEngine) (runner : BacklogRunner)
    (boardName : Text) (stopOnError : Bool) (fromIndex : ℤ) (createBranch : Bool) :
    KanbanM (List BacklogRunResult) := do
  let tasks ← loadTasksFromKanban word engine boardName
  runner.run tasks stopOnError fromIndex createBranch

theorem executedCards_executes (htitled : ∀ row ∈ rows, Titled row) (stopOnError : Bool)
    (fromIndex : ℤ) (createBranch : Bool) :
    Executes rows (executedCards word runner boardName stopOnError fromIndex createBranch rows) := by
  have hran : ((executedCards word runner boardName stopOnError fromIndex createBranch rows).map
      Prod.fst).Sublist (todoFrom word boardName 0 rows) := ran_sublist _ 0
  have htodo : ∀ task ∈ executedCards word runner boardName stopOnError fromIndex createBranch rows,
      task.1 ∈ todoFrom word boardName 0 rows := fun task htask =>
    hran.subset (List.mem_map_of_mem (f := Prod.fst) htask)
  have hsublist := hran.map Prod.fst
  rw [List.map_map] at hsublist
  have hcards := hsublist.trans (todoFrom_sublist 0)
  refine ⟨hcards, fun task htask => ?_, fun task htask => ?_, fun task htask => ?_⟩
  · exact (todoFrom_spec 0 _ (htodo task htask)).1
  · obtain ⟨-, htitle, -⟩ := todoFrom_spec 0 _ (htodo task htask)
    obtain ⟨title, hcard⟩ := htitled task.1.1
      (hcards.subset (List.mem_map_of_mem (f := Prod.fst ∘ Prod.fst) htask))
    rw [htitle]
    unfold BacklogRunner.titled titleOf
    rw [hcard]
    exact decide_eq_true rfl
  · obtain ⟨i, hverdict⟩ := ran_verdict _ 0 task htask
    rw [hverdict]
    exact verdict_ran i task.1.2

theorem runBoard_run (hf : engine.fault = fun _ => none) (hkanban : runner.kanban = some engine)
    (hspares : runner.kernel.Spares engine.projectId boardName board)
    (htitled : ∀ row ∈ rows, Titled row) (stopOnError : Bool) (fromIndex : ℤ)
    (createBranch : Bool) :
    Triple (Shows engine.projectId boardName board rows)
      (runBoard word engine runner boardName stopOnError fromIndex createBranch)
      (fun results t =>
        executed results = (executedCards word runner boardName stopOnError fromIndex createBranch
          rows).map (fun task => (task.1.2, task.2.status)) ∧
        Shows engine.projectId boardName board (rows.map (settled (target rows)
          (executedCards word runner boardName stopOnError fromIndex createBranch rows))) t)
      (fun _ _ => False) := by
  refine (loadTasks_run hf htitled).bind fun tasks => Triple.of_pre fun htasks => ?_
  have hsources : ∀ task ∈ tasks, task.source = "kanban:".toList ++ boardName := by
    intro task htask
    rw [htasks] at htask
    obtain ⟨entry, hentry, rfl⟩ := List.mem_map.mp htask
    exact (todoFrom_spec 0 entry hentry).2.2
  refine (runFrom_run hf hkanban hspares tasks 0 rows hsources).strengthen_post ?_
  rintro results t ⟨hresults, ht⟩
  rw [htasks, ran_map] at hresults ht
  refine ⟨?_, ?_⟩
  · rw [hresults, List.map_map]
    rfl
  · rw [ranRows_settled] at ht
    exact ht

/-- The kernel leaves the board alone, the database answers, and titles are texts:
a run returns, and the board is drained exactly when each executed card is the
first of the board with its title. -/
theorem runBoard_drains_iff (hf : engine.fault = fun _ => none)
    (hkanban : runner.kanban = some engine)
    (hspares : runner.kernel.Spares engine.projectId boardName board) (hs : s.Sequenced)
    (hnamed : boardNamed boardName
      (s.boards.filter fun board => board.projectId = engine.projectId) = some board)
    (htitled : ∀ card ∈ s.cards, Titled card) (stopOnError : Bool) (fromIndex : ℤ)
    (createBranch : Bool) :
    let rows := listed engine.projectId board.id s
    let tasks := executedCards word runner boardName stopOnError fromIndex createBranch rows
    ∃ results t,
      runBoard word engine runner boardName stopOnError fromIndex createBranch s = .ok results t ∧
      executed results = tasks.map (fun task => (task.1.2, task.2.status)) ∧
      (Drained rows tasks (listed engine.projectId board.id t) ↔
        ∀ task ∈ tasks, target rows task.1.2.title = some task.1.1.id) := by
  intro rows tasks
  have hshows : Shows engine.projectId boardName board rows s := ⟨hs, hnamed, rfl⟩
  have hrows : ∀ row ∈ rows, Titled row := fun row hrow =>
    htitled row (List.mem_of_mem_filter hrow)
  obtain ⟨results, t, hrun, hexecuted, ht⟩ :=
    (runBoard_run hf hkanban hspares hrows stopOnError fromIndex createBranch).returns hshows
  refine ⟨results, t, hrun, hexecuted, ?_⟩
  rw [ht.rows]
  exact drained_iff hshows.keys (executedCards_executes hrows stopOnError fromIndex createBranch)

/-- Two cards of one title, the first of them in the backlog. -/
def twins : KanbanState where
  boards := [{ id := 1, name := "b", projectId := "/p" }]
  cards := [{ id := 1, boardId := 1, title := .str "a", projectId := "/p" },
    { id := 2, boardId := 1, title := .str "a", column := .todo, projectId := "/p" }]
  boardSeq := 1
  cardSeq := 2

/-- A kernel whose runs succeed and touch no board. -/
def smooth : Kernel where
  answer := fun _ _ => .ok { success := true }
  effect := fun _ _ s => s

/-- The engine and the runner of the examples. -/
def plainKanban : KanbanEngine := { projectId := "/p" }

def plainRunner : BacklogRunner := { kernel := smooth, kanban := some plainKanban }

theorem smooth_spares (projectId : String) (boardName : Text) (board : KanbanBoard) :
    smooth.Spares projectId boardName board := fun _ _ _ _ h => h

theorem twins_sequenced : twins.Sequenced := by
  constructor
  · decide
  · simp [twins]
  · simp [twins]
  · simp [twins]

theorem twins_titled : ∀ card ∈ twins.cards, Titled card := by
  unfold twins
  exact List.forall_mem_cons.mpr ⟨⟨"a", rfl⟩, List.forall_mem_singleton.mpr ⟨"a", rfl⟩⟩

/-- The board of the two cards. -/
def sprint : KanbanBoard := { id := 1, name := "b", projectId := "/p" }

theorem twins_named : boardNamed "b".toList
    (twins.boards.filter fun board => board.projectId = plainKanban.projectId) = some sprint := by
  decide

theorem twins_executed (word : Char → Bool) :
    executedCards word plainRunner "b".toList true 0 false (listed "/p" 1 twins) =
      [(({ id := 2, boardId := 1, title := .str "a", column := .todo, projectId := "/p" },
        taskOf word "b".toList "a".toList 1), { status := .succeeded })] := rfl

theorem runBoard_drains_twins :
    let rows := listed "/p" 1 twins
    let tasks := executedCards (fun _ => true) plainRunner "b".toList true 0 false rows
    ∃ results t, runBoard (fun _ => true) plainKanban plainRunner "b".toList true 0 false twins =
        .ok results t ∧
      executed results = tasks.map (fun task => (task.1.2, task.2.status)) ∧
      (Drained rows tasks (listed "/p" 1 t) ↔
        ∀ task ∈ tasks, target rows task.1.2.title = some task.1.1.id) :=
  @runBoard_drains_iff (fun _ => true) plainKanban "b".toList sprint plainRunner twins rfl rfl
    (smooth_spares _ _ _) twins_sequenced twins_named twins_titled true 0 false

/-- The card of the backlog is moved instead of the one in `Todo`. -/
theorem twins_not_drained :
    ¬∀ (word : Char → Bool) (engine : KanbanEngine) (runner : BacklogRunner) (boardName : Text)
      (board : KanbanBoard) (s : KanbanState), (engine.fault = fun _ => none) →
      runner.kanban = some engine → runner.kernel.Spares engine.projectId boardName board →
      s.Sequenced → boardNamed boardName
        (s.boards.filter fun board => board.projectId = engine.projectId) = some board →
      (∀ card ∈ s.cards, Titled card) → ∀ results t,
      runBoard word engine runner boardName true 0 false s = .ok results t →
      Drained (listed engine.projectId board.id s)
        (executedCards word runner boardName true 0 false (listed engine.projectId board.id s))
        (listed engine.projectId board.id t) := by
  intro h
  have hrows : ∀ row ∈ listed "/p" 1 twins, Titled row := fun row hrow =>
    twins_titled row (List.mem_of_mem_filter hrow)
  have hshows : Shows "/p" "b".toList sprint (listed "/p" 1 twins) twins :=
    ⟨twins_sequenced, twins_named, rfl⟩
  obtain ⟨results, t, hrun, -, ht⟩ :=
    (@runBoard_run (fun _ => true) plainKanban _ _ _ plainRunner rfl rfl
      (smooth_spares _ _ _) hrows true 0 false).returns hshows
  have hdrained := h (fun _ => true) plainKanban plainRunner "b".toList sprint twins rfl rfl
    (smooth_spares _ _ _) twins_sequenced twins_named twins_titled results t hrun
  have hexecutes := @executedCards_executes (fun _ => true) "b".toList _ plainRunner hrows true 0
    false
  rw [show listed plainKanban.projectId sprint.id t = _ from ht.rows] at hdrained
  have hown := (drained_iff hshows.keys hexecutes).mp hdrained
  rw [twins_executed] at hown
  have hfirst := hown _ List.mem_cons_self
  have hother : target (listed "/p" 1 twins) "a".toList = some 1 := by decide
  rw [show target (listed "/p" 1 twins) "a".toList = some 2 from hfirst] at hother
  cases hother

end Runs

end AiosDeck.Backlog
