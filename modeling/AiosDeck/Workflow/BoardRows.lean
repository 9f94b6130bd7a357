import AiosDeck.Workflow.Conformance
import AiosDeck.Workflow.Results

/-!
# The board of a run

The rows of the board follow the developer phase: a card for each subtask,
done as far as the developer delivered, one more in progress or blocked, and
the others as they were created. After that phase nothing touches the board.
-/

namespace AiosDeck.Workflow

open Python Agents Security Quality Scheduler Program KanbanState

/-- The row that `create_card` inserts. -/
def freshCard (projectId : String) (boardId cardId : ℕ) (title : Json) : KanbanCard :=
  { id := cardId, boardId, title, projectId }

/-- A row as it was inserted. -/
def IsFresh (projectId : String) (card : KanbanCard) : Prop :=
  card = freshCard projectId card.boardId card.id card.title

theorem IsFresh.backlog {projectId : String} {card : KanbanCard} (h : IsFresh projectId card) :
    card.column = .backlog := by
  rw [h]
  rfl

/-- The rows of the board when the first `completed` cards are done. -/
def mirrored (fresh : List KanbanCard) (completed : ℕ) : List KanbanCard :=
  fresh.mapIdx fun k card => if k < completed then card.passed.moved .done else card

/-- The cards of the run stand in the tables, in the order of the items. -/
structure Boarded (projectId : String) (items : List Json) (K : KanbanState) (board : KanbanBoard)
    (cards rows : List KanbanCard) : Prop where
  stands : K.cardsOf board.id = rows
  titles : items.map (fun subtask => subtask.item "description") =
    rows.map fun card => .ok card.title
  ids : cards.map KanbanCard.id = rows.map KanbanCard.id
  project : ∀ row ∈ rows, row.projectId = projectId
  stored : ∃ stored ∈ K.boards, stored.id = board.id
  sequenced : K.Sequenced

/-- The tables, up to statements and events, and the part of the execution
state that belongs to the board. -/
structure Shows (K : KanbanState) (board : Option KanbanBoard) (cards : List KanbanCard)
    (completed developed : ℕ) (s : EngineState) : Prop where
  tables : SameTables K s.kanban
  board : s.ctx.board = board
  cards : s.ctx.cards = cards
  completed : s.ctx.completedCount = completed
  developed : s.developed = developed

/-- A board with these rows, of which the run completed some. -/
def OnRows (projectId : String) (items : List Json) (rows : List KanbanCard)
    (completed developed : ℕ) (s : EngineState) : Prop :=
  ∃ K board cards, Boarded projectId items K board cards rows ∧
    Shows K (some board) cards completed developed s

/-- No board yet. -/
structure Unboarded (s : EngineState) : Prop where
  board : s.ctx.board = none
  cards : s.ctx.cards = []
  completed : s.ctx.completedCount = 0
  developed : s.developed = 0
  sequenced : s.kanban.Sequenced

theorem shows_onBoard (K : KanbanState) (board : Option KanbanBoard) (cards : List KanbanCard)
    (completed developed : ℕ) : OnBoard (Shows K board cards completed developed) := by
  intro s t hview h
  obtain ⟨hkanban, hrest⟩ := Prod.mk.inj hview
  obtain ⟨hboard, hrest⟩ := Prod.mk.inj hrest
  obtain ⟨hcards, hrest⟩ := Prod.mk.inj hrest
  obtain ⟨hcompleted, hdeveloped⟩ := Prod.mk.inj hrest
  exact ⟨hkanban ▸ h.tables, hboard.trans h.board, hcards.trans h.cards,
    hcompleted.trans h.completed, hdeveloped.trans h.developed⟩

theorem unboarded_onBoard : OnBoard Unboarded := by
  intro s t hview h
  obtain ⟨hkanban, hrest⟩ := Prod.mk.inj hview
  obtain ⟨hboard, hrest⟩ := Prod.mk.inj hrest
  obtain ⟨hcards, hrest⟩ := Prod.mk.inj hrest
  obtain ⟨hcompleted, hdeveloped⟩ := Prod.mk.inj hrest
  exact ⟨hboard.trans h.board, hcards.trans h.cards, hcompleted.trans h.completed,
    hdeveloped.trans h.developed, hkanban ▸ h.sequenced⟩

theorem onRows_onBoard (projectId : String) (items : List Json) (rows : List KanbanCard)
    (completed developed : ℕ) : OnBoard (OnRows projectId items rows completed developed) := by
  rintro s t hview ⟨K, board, cards, hboarded, hshows⟩
  exact ⟨K, board, cards, hboarded, shows_onBoard K _ _ _ _ s t hview hshows⟩

/-- A subtask with a description is a dictionary, so its type can be read. -/
theorem subtaskType_of_item {subtask description : Json}
    (h : subtask.item "description" = .ok description) :
    ∃ taskType, WorkflowEngine.subtaskType subtask = .ok taskType := by
  cases subtask with
  | obj fields => exact ⟨_, rfl⟩
  | _ => cases h

theorem mirrored_zero (fresh : List KanbanCard) : mirrored fresh 0 = fresh := by
  refine List.ext_getElem? fun k => ?_
  rw [mirrored, List.getElem?_mapIdx]
  cases fresh[k]? <;> simp

/-- The row at a position that was not worked yet is the fresh one. -/
theorem mirrored_getElem? {fresh : List KanbanCard} {k : ℕ} {card : KanbanCard}
    (h : fresh[k]? = some card) : (mirrored fresh k)[k]? = some card := by
  rw [mirrored, List.getElem?_mapIdx, h]
  simp

/-- Completing the card at position `k`. -/
theorem mirrored_succ (fresh : List KanbanCard) (k : ℕ) :
    (mirrored fresh k).modify k (KanbanCard.moved .done ∘ KanbanCard.passed) =
      mirrored fresh (k + 1) := by
  refine List.ext_getElem? fun position => ?_
  rw [List.getElem?_modify, mirrored, mirrored, List.getElem?_mapIdx, List.getElem?_mapIdx]
  cases hrow : fresh[position]? with
  | none => rfl
  | some row =>
    rcases Nat.lt_trichotomy position k with hlt | heq | hgt
    · have hne : k ≠ position := by omega
      simp [hne, hlt, Nat.lt_succ_of_lt hlt]
    · subst heq
      simp
    · have hne : k ≠ position := by omega
      have hnot : ¬position < k := by omega
      have hnext : ¬position < k + 1 := by omega
      simp [hne, hnot, hnext]

namespace Boarded

variable {projectId : String} {items : List Json} {K : KanbanState} {board : KanbanBoard}
  {cards rows : List KanbanCard}

/-- A fresh board. -/
theorem empty {K : KanbanState} (hK : K.Sequenced) (name : String) {board : KanbanBoard}
    (hboard : board.id = K.boardSeq + 1) :
    Boarded projectId [] (K.withBoard projectId name) board [] [] := by
  refine ⟨?_, rfl, rfl, (fun _ h => by cases h), ?_, hK.withBoard name⟩
  · rw [hboard, cardsOf_withBoard hK]
  · exact ⟨_, List.mem_append_right _ List.mem_cons_self, hboard.symm⟩

/-- One more card. -/
theorem create (h : Boarded projectId items K board cards rows) {subtask title : Json}
    (htitle : subtask.item "description" = .ok title) {card : KanbanCard}
    (hcard : card.id = K.cardSeq + 1) :
    Boarded projectId (items ++ [subtask]) (K.withCard projectId board.id title) board
      (cards ++ [card]) (rows ++ [freshCard projectId board.id (K.cardSeq + 1) title]) := by
  obtain ⟨stored, hmem, hid⟩ := h.stored
  have howned : board.id ≤ K.boardSeq := hid ▸ h.sequenced.boards stored hmem
  refine ⟨?_, ?_, ?_, ?_, ⟨stored, hmem, hid⟩, h.sequenced.withCard howned title⟩
  · rw [cardsOf_withCard, h.stands]
    rfl
  · simp [h.titles, htitle, freshCard]
  · simp [h.ids, hcard, freshCard]
  · intro row hrow
    rcases List.mem_append.mp hrow with hold | hnew
    · exact h.project row hold
    · rw [List.mem_singleton.mp hnew]
      rfl

/-- The card of the run at a position is the row there. -/
theorem card_id (h : Boarded projectId items K board cards rows) {k : ℕ} {row : KanbanCard}
    (hrow : rows[k]? = some row) : ∃ card, cards[k]? = some card ∧ card.id = row.id := by
  have hids : (cards.map KanbanCard.id)[k]? = some row.id := by
    rw [h.ids, List.getElem?_map, hrow]
    rfl
  rw [List.getElem?_map] at hids
  exact Option.map_eq_some_iff.mp hids

/-- A row of the board is found under its key. -/
theorem row_found (h : Boarded projectId items K board cards rows) {k : ℕ} {row : KanbanCard}
    (hrow : rows[k]? = some row) : K.row projectId row.id = some row := by
  have hmem := List.mem_of_getElem? hrow
  refine row_of_mem h.sequenced ?_ (h.project row hmem)
  rw [← h.stands] at hmem
  exact (List.mem_filter.mp hmem).1

/-- Work on the card at one position. -/
theorem work (h : Boarded projectId items K board cards rows) {k : ℕ} {row : KanbanCard}
    (hrow : rows[k]? = some row) {change : KanbanCard → KanbanCard} (hchange : Identified change) :
    Boarded projectId items (edit row.id change K) board cards (rows.modify k change) := by
  have hfound : (K.cardsOf board.id)[k]? = some row := by
    rw [h.stands]
    exact hrow
  refine ⟨?_, ?_, ?_, ?_, h.stored, h.sequenced.edit hchange⟩
  · rw [cardsOf_edit_at h.sequenced hchange hfound, h.stands]
  · rw [h.titles]
    exact (map_modify_of_kept (fun card => by rw [hchange.title]) k).symm
  · rw [h.ids]
    exact (map_modify_of_kept hchange.id k).symm
  · have hprojects : (rows.modify k change).map KanbanCard.projectId =
        rows.map KanbanCard.projectId := map_modify_of_kept hchange.projectId k
    intro found hfound
    have hmem : found.projectId ∈ (rows.modify k change).map KanbanCard.projectId :=
      List.mem_map_of_mem hfound
    rw [hprojects] at hmem
    obtain ⟨old, hold, heq⟩ := List.mem_map.mp hmem
    rw [← heq]
    exact h.project old hold

end Boarded

/-- A card in progress. -/
def working (card : KanbanCard) : KanbanCard := card.moved .inProgress

/-- A card whose developer failed. -/
def failing (card : KanbanCard) : KanbanCard := (working card).withBlock "execution failed"

theorem identified_failing : Identified failing :=
  (identified_withBlock "execution failed").comp (identified_moved .inProgress)

/-- Two changes of the row at one position. -/
theorem modify_modify (rows : List KanbanCard) (k : ℕ) (change later : KanbanCard → KanbanCard) :
    (rows.modify k change).modify k later = rows.modify k (later ∘ change) := by
  refine List.ext_getElem? fun position => ?_
  simp only [List.getElem?_modify]
  cases rows[position]? with
  | none => rfl
  | some row => by_cases heq : k = position <;> simp [heq]

/-- The row at a position that was changed. -/
theorem modify_getElem? {rows : List KanbanCard} {k : ℕ} {row : KanbanCard}
    (h : rows[k]? = some row) (change : KanbanCard → KanbanCard) :
    (rows.modify k change)[k]? = some (change row) := by
  rw [List.getElem?_modify, h]
  simp

/-- How the rows of the board can stand behind the scheduler: the cards of
the subtasks delivered are done, and one more card may be touched. -/
inductive Partly (fresh : List KanbanCard) (developed : ℕ) : List KanbanCard → Prop where
  | between : Partly fresh developed (mirrored fresh developed)
  | working : Partly fresh developed ((mirrored fresh developed).modify developed working)
  | failing : Partly fresh developed ((mirrored fresh developed).modify developed failing)
  | blocked (k : ℕ) (reason : String) :
    Partly fresh developed ((mirrored fresh developed).modify k (KanbanCard.withBlock reason))

/-- The developer of one subtask failed; the earlier cards are done. -/
def Failed (projectId : String) (items : List Json) (fresh : List KanbanCard) (s : EngineState) :
    Prop :=
  ∃ k < items.length, OnRows projectId items ((mirrored fresh k).modify k failing) k k s

/-- Some state of the board during or after the developer phase. -/
def Underway (projectId : String) (items : List Json) (fresh : List KanbanCard)
    (s : EngineState) : Prop :=
  ∃ rows completed developed, developed ≤ items.length ∧ Partly fresh developed rows ∧
    OnRows projectId items rows completed developed s

theorem Failed.underway {projectId : String} {items : List Json} {fresh : List KanbanCard}
    {s : EngineState} (h : Failed projectId items fresh s) : Underway projectId items fresh s := by
  obtain ⟨k, hk, hrows⟩ := h
  exact ⟨_, _, _, hk.le, .failing, hrows⟩

/-- The description of a subtask can be stored as the title of a card. -/
def Describable (subtask : Json) : Prop :=
  ∃ title, subtask.item "description" = .ok title ∧ bindText title = .ok ()

/-- Every description up to the first blank one is a text. The developer
refuses a blank one, which ends the run. -/
def Workable : List Json → Prop
  | [] => True
  | subtask :: rest =>
    ∃ text, subtask.item "description" = .ok (.str text) ∧ (isBlank text = true ∨ Workable rest)

namespace WorkflowEngine

variable {engine : WorkflowEngine} {world : World} {items : List Json} {promised : Prop}
  {K K' : KanbanState} {board : Option KanbanBoard} {cards fresh : List KanbanCard}
  {completed developed : ℕ}

/-- A program of the board that cannot raise, as a step of a run. -/
theorem onBoard_run {α : Type} {program : KanbanM α} {found : α → Prop}
    (h : Triple (SameTables K) program (fun value t => found value ∧ SameTables K' t)
      (fun _ _ => False)) (operation : CardOperation) {E : Stop → EngineState → Prop} :
    Triple (Holding promised (Shows K board cards completed developed)) (onBoard operation program)
      (fun value s => found value ∧ Holding promised (Shows K' board cards completed developed) s)
      E := by
  refine Triple.bind (R := fun _ => Holding promised (Shows K board cards completed developed))
    ?_ fun _ => ?_
  · refine Triple.modify fun s hs => ⟨⟨hs.1.tables, hs.1.board, hs.1.cards, hs.1.completed, ?_⟩, ?_⟩
    · have hsame : (s.trace ++ [Event.card operation]).countP Event.isDeveloped = s.developed := by
        simp [EngineState.developed, Event.isDeveloped]
      exact hsame.trans hs.1.developed
    · exact fun hp => ⟨(hs.2 hp).test, (hs.2 hp).review⟩
  · rintro s ⟨hs, hr⟩
    obtain ⟨value, kanban, hrun, hfound, htables⟩ := h.returns hs.tables
    simp only [Bind.bind, EStateM.bind, MonadState.get, getThe, MonadStateOf.get, EStateM.get, hrun]
    exact ⟨hfound, ⟨htables, hs.board, hs.cards, hs.completed, hs.developed⟩,
      fun hp => ⟨(hr hp).test, (hr hp).review⟩⟩

/-- An operation that cannot raise and whose value does not matter. -/
theorem onBoard_then {α β : Type} {program : KanbanM α}
    (h : Triple (SameTables K) program (fun _ t => SameTables K' t) (fun _ _ => False))
    {operation : CardOperation} {E : Stop → EngineState → Prop} {Q : β → EngineState → Prop}
    {f : α → EngineM β}
    (hf : ∀ value, Triple (Holding promised (Shows K' board cards completed developed)) (f value) Q E) :
    Triple (Holding promised (Shows K board cards completed developed))
      (onBoard operation program >>= f) Q E := by
  have hpaired : Triple (SameTables K) program (fun _ t => True ∧ SameTables K' t)
      (fun _ _ => False) := h.strengthen_post fun _ _ ht => ⟨trivial, ht⟩
  refine (onBoard_run hpaired operation).bind fun value => ?_
  exact (hf value).weaken_pre fun _ hs => hs.2

/-- A call of the developer delivers a subtask exactly when its result is successful. -/
theorem runDeveloper (hworld : promised → Conforming engine world) (index : ℕ) (text : String)
    (taskType : Json) (params : List (String × Json)) (files : List String)
    (correlationId : String) :
    Triple (Holding promised (Shows K board cards completed developed))
      (runShared engine world (.developer index) engine.developer text taskType params files
        correlationId)
      (fun result s => (∃ task, task.description = text ∧
          Answer world (.developer index) task result) ∧
        Holding promised (Shows K board cards completed
          (if result.success then developed + 1 else developed)) s)
      (Stopped promised (fun _ => False) (Shows K board cards completed developed)) := by
  have hrests : promised → AgentExecutor.Rests engine.developer :=
    fun h => (hworld h).rests _ (by simp [agents])
  refine Triple.bind (R := fun task s => task.description = text ∧
    Holding promised (Shows K board cards completed developed) s) ?_ fun task => ?_
  · exact Triple.bind (R := fun _ => Holding promised (Shows K board cards completed developed))
      (Triple.get fun _ h => h) fun _ => Triple.pure fun _ h => ⟨rfl, h⟩
  refine Triple.of_pre fun htask => ?_
  refine Triple.bind (R := fun _ => Holding promised (Shows K board cards completed developed))
    (Triple.get fun _ h => h) fun found => ?_
  intro s hs
  obtain ⟨call, hsite, hrun⟩ := runAgent_run engine (.developer index) hrests task
    found.context s
  have hcount : (called call s).developed =
      if Event.isDeveloped (.agent call) then s.developed + 1 else s.developed := by
    cases hcall : Event.isDeveloped (.agent call) <;>
      simp [EngineState.developed, called, List.countP_append, hcall]
  have hreports : promised → Readable (called call s) :=
    fun h => ⟨(hs.2 h).test, (hs.2 h).review⟩
  rcases hrun with ⟨outcome, houtcome, hanswer, heq⟩ | ⟨exc, houtcome, hbroken, heq⟩
  · rw [heq]
    refine ⟨⟨task, htask, hanswer⟩, ⟨hs.1.tables, hs.1.board, hs.1.cards, hs.1.completed, ?_⟩,
      hreports⟩
    rw [hcount, ← hs.1.developed]
    simp [Event.isDeveloped, CallSite.isDeveloper, hsite, houtcome]
  · rw [heq]
    refine ⟨hbroken, hs.1.tables, hs.1.board, hs.1.cards, hs.1.completed, ?_⟩
    rw [hcount, ← hs.1.developed]
    simp [Event.isDeveloped, houtcome]

/-- An operation that raises only if a promise was broken. -/
theorem liftPy_then {α β : Type} {I G H : EngineState → Prop} {result : Except PyExc α}
    (hok : promised → ∃ value, result = .ok value) (hraised : ∀ s, I s → H s)
    {f : α → EngineM β} {Q : β → EngineState → Prop}
    (hf : ∀ value, result = .ok value → Triple (Holding promised I) (f value) Q (Stopped promised G H)) :
    Triple (Holding promised I) (liftPy result >>= f) Q (Stopped promised G H) := by
  cases hresult : result with
  | ok value => exact hf value hresult
  | error exc =>
    refine Triple.bind (R := fun _ _ => False) (Triple.throw fun s hs => ⟨fun h => ?_, hraised s hs.1⟩)
      fun _ _ h => h.elim
    obtain ⟨value, hvalue⟩ := hok h
    rw [hresult] at hvalue
    cases hvalue

/-- Behind the developer of a subtask: its card is done, or blocked and the
run ends. A developer that succeeds had a description that is not blank. -/
theorem developSubtask_run (hworld : promised → Conforming engine world)
    (hstore : engine.scheduler.fault = fun _ => none)
    (hfresh : ∀ card ∈ fresh, card.column = .backlog) {k : ℕ} {subtask : Json} {rest : List Json}
    (hitem : items[k]? = some subtask) (hworkable : promised → Workable (subtask :: rest))
    (total : ℕ) :
    Triple (Holding promised (OnRows engine.scheduler.projectId items (mirrored fresh k) k k))
      (developSubtask engine world total k subtask)
      (fun _ s => (promised → Workable rest) ∧ Holding promised
        (OnRows engine.scheduler.projectId items (mirrored fresh (k + 1)) (k + 1) (k + 1)) s)
      (Stopped promised (Failed engine.scheduler.projectId items fresh)
        (Underway engine.scheduler.projectId items fresh)) := by
  rintro s ⟨⟨K, board, cards, hboarded, hshows⟩, hread⟩
  have hlength : (mirrored fresh k).length = items.length := by
    have h := congrArg List.length hboarded.titles
    simpa using h.symm
  have hk : k < items.length := (List.getElem?_eq_some_iff.mp hitem).1
  have hkfresh : k < fresh.length := by
    rw [mirrored, List.length_mapIdx] at hlength
    omega
  obtain ⟨row, hrowFresh⟩ : ∃ row, fresh[k]? = some row := ⟨_, List.getElem?_eq_getElem hkfresh⟩
  have hrow := mirrored_getElem? hrowFresh
  obtain ⟨card, hcard, hid⟩ := hboarded.card_id hrow
  have hfound := hboarded.row_found hrow
  have hbacklog := hfresh row (List.mem_of_getElem? hrowFresh)
  -- the rows while the card is worked, when it is done and when it is blocked
  have hworking := hboarded.work hrow (identified_moved .inProgress)
  have hrow' := modify_getElem? hrow (KanbanCard.moved .inProgress)
  have hfound' : (edit row.id (KanbanCard.moved .inProgress) K).row engine.scheduler.projectId
      row.id = some (row.moved .inProgress) := hworking.row_found hrow'
  have hdone := hworking.work hrow' ((identified_moved .done).comp identified_passed)
  have hblocked := hworking.work hrow' (identified_withBlock "execution failed")
  rw [modify_modify] at hdone hblocked
  have hdoneRows : (mirrored fresh k).modify k
      ((KanbanCard.moved .done ∘ KanbanCard.passed) ∘ KanbanCard.moved .inProgress) =
      mirrored fresh (k + 1) := mirrored_succ fresh k
  rw [hdoneRows] at hdone
  have hfailed : ∀ s, Shows _ (some board) cards k k s →
      Failed engine.scheduler.projectId items fresh s :=
    fun s hs => ⟨k, hk, _, board, cards, hblocked, hs⟩
  have hunderway : ∀ s, Shows _ (some board) cards k k s →
      Underway engine.scheduler.projectId items fresh s :=
    fun s hs => ⟨_, k, k, hk.le, .working, _, board, cards, hworking, hs⟩
  have hdelivered : ∀ s completed, Shows _ (some board) cards completed (k + 1) s →
      Underway engine.scheduler.projectId items fresh s :=
    fun s completed hs => ⟨_, completed, k + 1, hk, .between, _, board, cards, hdone, hs⟩
  suffices hrun : Triple (Holding promised (Shows K (some board) cards k k))
      (developSubtask engine world total k subtask)
      (fun _ s => (promised → Workable rest) ∧ Holding promised
        (OnRows engine.scheduler.projectId items (mirrored fresh (k + 1)) (k + 1) (k + 1)) s)
      (Stopped promised (Failed engine.scheduler.projectId items fresh)
        (Underway engine.scheduler.projectId items fresh)) from hrun s ⟨hshows, hread⟩
  refine Triple.bind (R := fun found s => found.ctx.cards = cards ∧
    Holding promised (Shows K (some board) cards k k) s)
    (Triple.get fun s hs => ⟨hs.1.cards, hs⟩) fun found => Triple.of_pre fun hcards => ?_
  rw [hcards, hcard]
  dsimp only
  rw [hid]
  refine onBoard_then (beginWork_run hstore K hfound hbacklog) fun _ => ?_
  refine liftPy_then (fun h => ?_) hunderway fun description hdescription => ?_
  · obtain ⟨text, hitem', -⟩ := hworkable h
    exact ⟨_, hitem'⟩
  refine liftPy_then (fun h => subtaskType_of_item hdescription) hunderway fun taskType _ => ?_
  have hother : promised → ∃ text, description = .str text ∧
      (isBlank text = true ∨ Workable rest) := by
    intro h
    obtain ⟨text, hitem', hnext⟩ := hworkable h
    rw [hdescription] at hitem'
    exact ⟨text, Except.ok.inj hitem', hnext⟩
  have hraise : ∀ {Q : Unit → EngineState → Prop}, (¬∃ text, description = .str text) →
      Triple (Holding promised (Shows (edit row.id (KanbanCard.moved .inProgress) K) (some board)
          cards k k))
        (throw (.raised ⟨.attributeError, "object has no attribute 'strip'"⟩) : EngineM Unit) Q
        (Stopped promised (Failed engine.scheduler.projectId items fresh)
          (Underway engine.scheduler.projectId items fresh)) := by
    intro Q hnot
    refine Triple.throw fun s hs => ⟨fun h => ?_, hunderway s hs.1⟩
    obtain ⟨text, heq, -⟩ := hother h
    exact hnot ⟨text, heq⟩
  cases description with
  | str text =>
    have hnext : promised → isBlank text = true ∨ Workable rest := by
      intro h
      obtain ⟨text', heq, hnext⟩ := hother h
      cases heq
      exact hnext
    refine Triple.bind ((runDeveloper hworld k text taskType [] [] "").conseq (fun _ hs => hs)
      (fun _ _ hs => hs) (Stopped.mono (fun _ h => h.elim) hunderway)) fun result => ?_
    refine Triple.of_pre ?_
    rintro ⟨task, htask, hanswer⟩
    refine Triple.ite (fun hsuccess => ?_) fun hnot => ?_
    · rw [if_pos hsuccess]
      have hrest : promised → Workable rest := by
        intro h
        rcases hnext h with hblank | hrest
        · rcases hanswer with ⟨hfailure, -⟩ | ⟨hvalid, -⟩
          · rw [hfailure] at hsuccess
            cases hsuccess
          · simp [validateAgentTask, htask, hblank] at hvalid
        · exact hrest
      refine onBoard_then (completeWork_run hstore _ hfound' rfl) fun _ => ?_
      refine Triple.bind (R := fun _ => Holding promised (Shows _ (some board) cards (k + 1) (k + 1)))
        (Triple.modify fun s hs => ⟨⟨hs.1.tables, hs.1.board, hs.1.cards, ?_, hs.1.developed⟩, ?_⟩)
        fun _ => ?_
      · exact congrArg (· + 1) hs.1.completed
      · exact fun h => ⟨(hs.2 h).test, (hs.2 h).review⟩
      refine (Calm.appendStage_goesOn (shows_onBoard _ _ _ _ _) hworld _).conseq (fun _ hs => hs)
        ?_ (Stopped.mono (fun _ h => h.elim) fun s hs => ?_)
      · exact fun _ s hs => ⟨hrest, ⟨_, board, cards, hdone, hs.1⟩, hs.2⟩
      · exact ⟨_, _, _, hk, .between, _, board, cards, hdone, hs⟩
    · rw [if_neg hnot]
      refine onBoard_then (blockCard_run hstore _ hfound' _) fun _ => ?_
      have hends : ∀ s, Shows _ (some board) cards k k s →
          Failed engine.scheduler.projectId items fresh s := fun s hs =>
        ⟨k, hk, _, board, cards, hblocked, hs⟩
      refine (Calm.fail_stops (shows_onBoard _ _ _ _ _) hworld _ _).conseq (fun _ hs => hs)
        (fun _ _ hs => hs) (Stopped.mono hends fun s hs => (hends s hs).underway)
  | _ => exact hraise fun ⟨text, heq⟩ => by cases heq

/-- The subtasks from position `k` on, by induction. -/
theorem developSubtasks_run (hworld : promised → Conforming engine world)
    (hstore : engine.scheduler.fault = fun _ => none)
    (hfresh : ∀ card ∈ fresh, card.column = .backlog) (total : ℕ) (rest : List Json) (k : ℕ)
    (hitems : items.drop k = rest) (hworkable : promised → Workable rest)
    (hk : k ≤ items.length) :
    Triple (Holding promised (OnRows engine.scheduler.projectId items (mirrored fresh k) k k))
      (developSubtasks engine world total k rest)
      (fun _ => Holding promised (OnRows engine.scheduler.projectId items
        (mirrored fresh items.length) items.length items.length))
      (Stopped promised (Failed engine.scheduler.projectId items fresh)
        (Underway engine.scheduler.projectId items fresh)) := by
  induction rest generalizing k with
  | nil =>
    have hlength : k = items.length := by
      have hle := List.drop_eq_nil_iff.mp hitems
      omega
    subst hlength
    exact Triple.pure fun _ hs => hs
  | cons subtask rest ih =>
    have hlt : k < items.length := by
      by_contra hge
      rw [List.drop_eq_nil_iff.mpr (by omega)] at hitems
      cases hitems
    have hcons := List.drop_eq_getElem_cons hlt
    rw [hitems] at hcons
    obtain ⟨hhead, htail⟩ := List.cons.inj hcons
    have hitem : items[k]? = some subtask := by
      rw [hhead]
      exact List.getElem?_eq_getElem hlt
    refine (developSubtask_run hworld hstore hfresh hitem hworkable total).bind fun _ => ?_
    exact Triple.of_pre fun hrest => ih (k + 1) htail.symm hrest hlt

/-- The stage of a failure is among the stages of the finished run. -/
theorem fail_recorded {α : Type} (stage : WorkflowStage) (error : String)
    {Q : α → EngineState → Prop} :
    Triple (fun _ => True) (fail engine world stage error : EngineM α) Q
      (fun stop s => ∀ result, stop = .returned result →
        ∃ found ∈ s.ctx.stages, found.name = stage.name) := by
  have hstage : Triple (fun _ => True) (appendStage world stage)
      (fun _ s => stage ∈ s.ctx.stages)
      (fun stop s => ∀ result, stop = .returned result →
        ∃ found ∈ s.ctx.stages, found.name = stage.name) := by
    refine Triple.bind (R := fun _ s => stage ∈ s.ctx.stages) ?_ fun _ =>
      Triple.bind (R := fun _ s => stage ∈ s.ctx.stages) (Triple.modify fun s hs => hs) fun _ => ?_
    · exact Triple.modify fun s _ => by simp
    · cases world.onStage stage with
      | none => exact Triple.pure fun _ hs => hs
      | some exc => exact Triple.throw fun _ _ result heq => by cases heq
  refine hstage.bind fun _ => Triple.bind (R := fun _ s => stage ∈ s.ctx.stages)
    (Triple.modify fun _ hs => hs) fun _ => ?_
  intro s hs
  obtain ⟨t, hrun, hctx, -⟩ := finish_run (α := α) engine s
  rw [hrun]
  intro result _
  rw [hctx]
  unfold enrichStages
  cases s.ctx.intent with
  | none => exact ⟨stage, hs, rfl⟩
  | some intent =>
    exact ⟨engine.enrich intent stage, List.mem_map_of_mem hs, (enrich_name_success intent stage).1⟩

/-- Asking for the changed files does not end the run. -/
theorem changedFiles_goesOn {I : EngineState → Prop} (hI : OnBoard I)
    {E : Stop → EngineState → Prop} :
    Triple (Holding promised I) (changedFiles world) (fun _ => Holding promised I) E := by
  refine Triple.bind (R := fun _ => Holding promised I) (Triple.get fun _ hs => hs) fun s => ?_
  refine Triple.bind (R := fun _ => Holding promised I) ?_ fun _ => Triple.pure fun _ hs => hs
  refine Triple.modify fun s hs => ⟨hI s _ ?_ hs.1, fun h => ⟨(hs.2 h).test, (hs.2 h).review⟩⟩
  simp [EngineState.boardView, EngineState.developed, Event.isDeveloped]

/-- How a run that ends in the developer phase leaves the board. -/
def Ended (projectId : String) (items : List Json) (fresh : List KanbanCard) (s : EngineState) :
    Prop :=
  (∃ stage ∈ s.ctx.stages, stage.name = "developer:noop") ∧ Underway projectId items fresh s ∨
    Failed projectId items fresh s ∨
      OnRows projectId items (mirrored fresh items.length) items.length items.length s

theorem Ended.underway {projectId : String} {s : EngineState} (h : Ended projectId items fresh s) :
    Underway projectId items fresh s := by
  rcases h with h | h | h
  · exact h.2
  · exact h.underway
  · exact ⟨_, _, _, le_rfl, .between, h⟩

/-- The no-op verdict blocks the last card and ends the run. -/
theorem noopPhase_run (hworld : promised → Conforming engine world)
    (hstore : engine.scheduler.fault = fun _ => none) (before : List String) :
    Triple (Holding promised (OnRows engine.scheduler.projectId items
        (mirrored fresh items.length) items.length items.length))
      (noopPhase engine world before)
      (fun _ => Holding promised (OnRows engine.scheduler.projectId items
        (mirrored fresh items.length) items.length items.length))
      (Stopped promised (Ended engine.scheduler.projectId items fresh)
        (Underway engine.scheduler.projectId items fresh)) := by
  have hboard := onRows_onBoard engine.scheduler.projectId items (mirrored fresh items.length)
    items.length items.length
  refine Triple.ite (fun _ => ?_) fun _ => Triple.pure fun _ hs => hs
  refine Triple.bind (changedFiles_goesOn hboard) fun after => ?_
  refine Triple.bind (R := fun _ => Holding promised (OnRows engine.scheduler.projectId items
    (mirrored fresh items.length) items.length items.length)) ?_ fun _ => ?_
  · exact Triple.modify fun s hs =>
      ⟨hboard s _ rfl hs.1, fun h => ⟨(hs.2 h).test, (hs.2 h).review⟩⟩
  refine Triple.fix fun s hs => ?_
  refine Triple.bind (R := fun found t => found = s ∧ t = s) (Triple.get fun t ht => ⟨ht, ht⟩) ?_
  intro found
  refine Triple.of_pre fun hfound => ?_
  subst hfound
  refine Triple.ite (fun _ => ?_) fun _ => Triple.pure fun t ht => by rw [ht]; exact hs
  obtain ⟨⟨K, board, cards, hboarded, hshows⟩, hread⟩ := hs
  -- whatever was blocked, the failure records its stage
  have hends : ∀ {K' : KanbanState} {rows : List KanbanCard} (reason : String)
      (stage : WorkflowStage), stage.name = "developer:noop" →
      Partly fresh items.length rows →
      Boarded engine.scheduler.projectId items K' board cards rows →
      Triple (Holding promised (Shows K' (some board) cards items.length items.length))
        (fail engine world stage reason : EngineM Unit)
        (fun _ => Holding promised (OnRows engine.scheduler.projectId items
          (mirrored fresh items.length) items.length items.length))
        (Stopped promised (Ended engine.scheduler.projectId items fresh)
          (Underway engine.scheduler.projectId items fresh)) := by
    intro K' rows reason stage hname hpartly hboarded'
    have hunderway : ∀ s, Shows K' (some board) cards items.length items.length s →
        Underway engine.scheduler.projectId items fresh s :=
      fun s hs => ⟨rows, _, _, le_rfl, hpartly, K', board, cards, hboarded', hs⟩
    refine ((Calm.fail_stops (shows_onBoard K' (some board) cards items.length items.length) hworld
      stage reason).and (fail_recorded stage reason (Q := fun _ _ => True))).conseq
      (fun _ hs => ⟨hs, trivial⟩) (fun _ _ hs => hs.1) ?_
    rintro stop t ⟨hstop, hrecorded⟩
    cases stop with
    | returned result =>
      obtain ⟨stage', hmem, hname'⟩ := hrecorded result rfl
      exact .inl ⟨⟨stage', hmem, hname'.trans hname⟩, hunderway t hstop⟩
    | raised exc => exact ⟨hstop.1, hunderway t hstop.2⟩
  suffices hrun : Triple (Holding promised (Shows K (some board) cards items.length items.length))
      (do
        blockLast engine found.ctx.cards (noopReason (computeProducedFiles before after))
        fail engine world
          { name := "developer:noop", success := false
            error := some (noopReason (computeProducedFiles before after))
            details := [("changed_files",
              .arr ((computeProducedFiles before after).map Json.str))] }
          (noopReason (computeProducedFiles before after)))
      (fun _ => Holding promised (OnRows engine.scheduler.projectId items
        (mirrored fresh items.length) items.length items.length))
      (Stopped promised (Ended engine.scheduler.projectId items fresh)
        (Underway engine.scheduler.projectId items fresh)) by
    refine hrun.weaken_pre ?_
    rintro t rfl
    exact ⟨hshows, hread⟩
  unfold blockLast
  rw [hshows.cards]
  cases hlast : cards.getLast? with
  | none =>
    refine Triple.bind (R := fun _ => Holding promised
      (Shows K (some board) cards items.length items.length)) (Triple.pure fun _ hs => hs) fun _ => ?_
    exact hends _ _ rfl .between hboarded
  | some card =>
    rw [List.getLast?_eq_getElem?] at hlast
    have hid : (cards.map KanbanCard.id)[cards.length - 1]? = some card.id := by
      rw [List.getElem?_map, hlast]
      rfl
    rw [hboarded.ids, List.getElem?_map] at hid
    obtain ⟨row, hrow, hid⟩ := Option.map_eq_some_iff.mp hid
    dsimp only
    rw [← hid]
    refine Triple.bind (R := fun _ => Holding promised (Shows
      (edit row.id (KanbanCard.withBlock (noopReason (computeProducedFiles before after))) K)
      (some board) cards items.length items.length)) ?_ fun _ => ?_
    · exact onBoard_then (blockCard_run hstore K (hboarded.row_found hrow) _)
        fun _ => Triple.pure fun _ hs => hs
    · exact hends _ _ rfl (.blocked _ _) (hboarded.work hrow (identified_withBlock _))

/-- The developer phase from a board with fresh cards. -/
theorem developerPhase_run (hworld : promised → Conforming engine world)
    (hstore : engine.scheduler.fault = fun _ => none)
    (hfresh : ∀ card ∈ fresh, card.column = .backlog) (hworkable : promised → Workable items) :
    Triple (Holding promised (OnRows engine.scheduler.projectId items fresh 0 0))
      (developerPhase engine world items)
      (fun _ => Holding promised (OnRows engine.scheduler.projectId items
        (mirrored fresh items.length) items.length items.length))
      (Stopped promised (Ended engine.scheduler.projectId items fresh)
        (Underway engine.scheduler.projectId items fresh)) := by
  have hstart := onRows_onBoard engine.scheduler.projectId items fresh 0 0
  have hboard := onRows_onBoard engine.scheduler.projectId items (mirrored fresh items.length)
    items.length items.length
  have hbefore : Triple (Holding promised (OnRows engine.scheduler.projectId items fresh 0 0))
      (filesBefore engine world)
      (fun _ => Holding promised (OnRows engine.scheduler.projectId items fresh 0 0))
      (Stopped promised (Ended engine.scheduler.projectId items fresh)
        (Underway engine.scheduler.projectId items fresh)) :=
    Triple.ite (fun _ => changedFiles_goesOn hstart) fun _ => Triple.pure fun _ hs => hs
  have hsubtasks := developSubtasks_run hworld hstore hfresh items.length items 0
    List.drop_zero hworkable (Nat.zero_le _)
  rw [mirrored_zero] at hsubtasks
  refine Triple.bind (R := fun _ => Holding promised (OnRows engine.scheduler.projectId items
    (mirrored fresh items.length) items.length items.length)) ?_ fun _ => ?_
  · refine hbefore.bind fun before => Triple.bind (hsubtasks.conseq (fun _ hs => hs)
      (fun _ _ hs => hs) (Stopped.mono (fun _ hs => .inr (.inl hs)) fun _ hs => hs)) fun _ => ?_
    exact noopPhase_run hworld hstore before
  · refine (gatePhase_calm hboard hworld _ _).conseq (fun _ hs => hs) (fun _ _ hs => hs) ?_
    exact Stopped.mono (fun _ hs => .inr (.inr hs)) fun _ hs => ⟨_, _, _, le_rfl, .between, hs⟩

/-- The cards created so far, as they were inserted. -/
def Created (projectId : String) (items : List Json) (board : KanbanBoard) (s : EngineState) : Prop :=
  ∃ K cards fresh, (∀ card ∈ fresh, IsFresh projectId card) ∧
    Boarded projectId items K board cards fresh ∧ Shows K (some board) cards 0 0 s

theorem created_onBoard (projectId : String) (items : List Json) (board : KanbanBoard) :
    OnBoard (Created projectId items board) := by
  rintro s t hview ⟨K, cards, fresh, hfresh, hboarded, hshows⟩
  exact ⟨K, cards, fresh, hfresh, hboarded, shows_onBoard K _ _ _ _ s t hview hshows⟩

/-- A program of the board that only raises. -/
theorem onBoard_throw {α β : Type} {I : EngineState → Prop} (hI : OnBoard I)
    {program : KanbanM α} {exc : PyExc} (h : program = throw exc) {operation : CardOperation}
    {f : α → EngineM β} {Q : β → EngineState → Prop} :
    Triple (Holding promised I) (onBoard operation program >>= f) Q
      (fun stop s => stop = .raised exc ∧ I s) := by
  subst h
  rintro s ⟨hs, -⟩
  refine ⟨rfl, hI s _ ?_ hs⟩
  simp [EngineState.boardView, EngineState.developed, Event.isDeveloped]

/-- A card is created, or its title cannot be bound and nothing changes. -/
theorem createCards_run (hstore : engine.scheduler.fault = fun _ => none) (board : KanbanBoard)
    (rest : List Json) (hdescribed : promised → ∀ subtask ∈ rest, Describable subtask)
    (created : List Json) :
    Triple (Holding promised (Created engine.scheduler.projectId created board))
      (createCards engine board.id rest)
      (fun _ => Holding promised (Created engine.scheduler.projectId (created ++ rest) board))
      (Stopped promised (fun _ => False)
        fun s => ∃ created, Created engine.scheduler.projectId created board s) := by
  induction rest generalizing created with
  | nil =>
    refine Triple.pure fun s hs => ?_
    rw [List.append_nil]
    exact hs
  | cons subtask rest ih =>
    have hboard := created_onBoard engine.scheduler.projectId created board
    rw [createCards]
    refine liftPy_then (fun h => ?_) (fun s hs => ⟨created, hs⟩) fun title htitle => ?_
    · obtain ⟨title, htitle, -⟩ := hdescribed h subtask List.mem_cons_self
      exact ⟨title, htitle⟩
    rintro s ⟨⟨K, cards, fresh, hfresh, hboarded, hshows⟩, hread⟩
    obtain ⟨stored, hmem, hid⟩ := hboarded.stored
    cases hbound : bindText title with
    | error exc =>
      refine ((onBoard_throw hboard (createCard_throw engine.scheduler board.id hbound)).conseq
        (fun _ hs => hs) (fun _ _ hs => hs) ?_) s ⟨⟨K, cards, fresh, hfresh, hboarded, hshows⟩, hread⟩
      rintro stop t ⟨rfl, ht⟩
      refine ⟨fun h => ?_, created, ht⟩
      obtain ⟨title', htitle', hbound'⟩ := hdescribed h subtask List.mem_cons_self
      rw [htitle] at htitle'
      cases htitle'
      rw [hbound] at hbound'
      cases hbound'
    | ok bound =>
      have hcreate := createCard_run hstore K ⟨stored, hmem, hid⟩ hbound
      refine ((onBoard_run hcreate _).bind fun card => ?_) s ⟨hshows, hread⟩
      refine Triple.of_pre fun hcard => ?_
      refine Triple.bind (R := fun _ => Holding promised
        (Created engine.scheduler.projectId (created ++ [subtask]) board)) ?_ fun _ => ?_
      · refine Triple.modify fun t ht => ⟨⟨_, _, _, ?_, hboarded.create htitle hcard, ht.1.tables,
          ht.1.board, ?_, ht.1.completed, ht.1.developed⟩, fun h => ⟨(ht.2 h).test, (ht.2 h).review⟩⟩
        · intro old hold
          rcases List.mem_append.mp hold with hold | hnew
          · exact hfresh old hold
          · rw [List.mem_singleton.mp hnew]
            rfl
        · exact congrArg (· ++ [card]) ht.1.cards
      · have hnext := ih (fun h later hlater => hdescribed h later (List.mem_cons_of_mem _ hlater))
          (created ++ [subtask])
        rw [List.append_assoc] at hnext
        exact hnext

/-- The scheduler behind the creation of its board. -/
theorem schedulerCards_run (hworld : promised → Conforming engine world)
    (hstore : engine.scheduler.fault = fun _ => none) {subtasks : Json}
    (hdescribed : promised → ∃ items, subtasks.iter = .ok items ∧
      ∀ subtask ∈ items, Describable subtask) (hsequenced : K.Sequenced) {name : String}
    {board : KanbanBoard} (hboard : board.id = K.boardSeq + 1) :
    Triple (Holding promised (Shows (K.withBoard engine.scheduler.projectId name) none [] 0 0))
      (do
        update fun ctx => { ctx with board := some board }
        let items ← liftPy subtasks.iter
        createCards engine board.id items
        appendStage world { name := "scheduler", success := true }
        return items)
      (fun items s => subtasks.iter = .ok items ∧
        Holding promised (fun s => ∃ board, Created engine.scheduler.projectId items board s) s)
      (Stopped promised (fun _ => False)
        fun s => ∃ items board, Created engine.scheduler.projectId items board s) := by
  refine Triple.bind (R := fun _ => Holding promised (Created engine.scheduler.projectId [] board))
    ?_ fun _ => ?_
  · refine Triple.modify fun t ht => ⟨⟨_, [], [], (fun _ h => by cases h),
      Boarded.empty hsequenced name hboard, ht.1.tables, rfl, ht.1.cards,
      ht.1.completed, ht.1.developed⟩, fun h => ⟨(ht.2 h).test, (ht.2 h).review⟩⟩
  refine liftPy_then (fun h => ?_) (fun t ht => ⟨[], board, ht⟩) fun items hitems => ?_
  · obtain ⟨items, hiter, -⟩ := hdescribed h
    exact ⟨items, hiter⟩
  have hrest : promised → ∀ subtask ∈ items, Describable subtask := by
    intro h
    obtain ⟨items', hiter, hall⟩ := hdescribed h
    rw [hitems] at hiter
    cases hiter
    exact hall
  refine Triple.bind ((createCards_run hstore board items hrest []).conseq (fun _ ht => ht)
    (fun _ _ ht => ht) (Stopped.mono (fun _ h => h.elim) ?_)) fun _ => ?_
  · rintro t ⟨created, ht⟩
    exact ⟨created, board, ht⟩
  rw [List.nil_append]
  refine Triple.bind ((Calm.appendStage_goesOn (created_onBoard _ items board) hworld _).conseq
    (fun _ ht => ht) (fun _ _ ht => ht) (Stopped.mono (fun _ h => h.elim) ?_)) fun _ => ?_
  · exact fun t ht => ⟨items, board, ht⟩
  · exact Triple.pure fun t ht => ⟨hitems, ⟨board, ht.1⟩, ht.2⟩

/-- The scheduler makes a board with a fresh card for each subtask. -/
theorem schedulerPhase_run (hworld : promised → Conforming engine world)
    (hstore : engine.scheduler.fault = fun _ => none) {subtasks : Json}
    (hdescribed : promised → ∃ items, subtasks.iter = .ok items ∧
      ∀ subtask ∈ items, Describable subtask) :
    Triple (Holding promised Unboarded) (schedulerPhase engine world subtasks)
      (fun items s => subtasks.iter = .ok items ∧
        Holding promised (fun s => ∃ board, Created engine.scheduler.projectId items board s) s)
      (Stopped promised (fun _ => False)
        fun s => ∃ items board, Created engine.scheduler.projectId items board s) := by
  refine Triple.fix fun s hs => ?_
  have hfirst : Shows s.kanban none [] 0 0 s :=
    ⟨SameTables.rfl, hs.1.board, hs.1.cards, hs.1.completed, hs.1.developed⟩
  refine Triple.bind (R := fun found t => found = s ∧ t = s) (Triple.get fun t ht => ⟨ht, ht⟩) ?_
  intro found
  refine Triple.of_pre fun hfound => ?_
  subst hfound
  have hcreate := createBoard_run hstore found.kanban found.ctx.goal
  refine Triple.weaken_pre (P := Holding promised (Shows found.kanban none [] 0 0)) ?_ ?_
  · refine (onBoard_run hcreate _).bind fun board => Triple.of_pre fun hboard => ?_
    exact schedulerCards_run hworld hstore hdescribed hs.1.sequenced hboard
  · rintro t rfl
    exact ⟨hfirst, hs.2⟩

end WorkflowEngine

end AiosDeck.Workflow
