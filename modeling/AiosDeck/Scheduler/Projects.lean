import AiosDeck.Scheduler.Flow

/-!
# Projects that share the kanban tables

The rows of all projects are in the same three tables, and a key may be that
of another project's row. The statements that look the key up together with
the project find nothing then; the others read or change the row.
-/

namespace AiosDeck.Scheduler

open Python Program KanbanState

/-- Rows of the three tables. -/
@[ext]
structure KanbanRows where
  boards : List KanbanBoard
  cards : List KanbanCard
  subtasks : List KanbanSubtask

/-- The boards and cards of the other projects, and the subtasks of these cards. -/
def KanbanState.others (projectId : String) (s : KanbanState) : KanbanRows where
  boards := s.boards.filter fun board => board.projectId ≠ projectId
  cards := s.cards.filter fun card => card.projectId ≠ projectId
  subtasks := s.subtasks.filter fun subtask =>
    (s.cards.filter fun card => card.projectId ≠ projectId).any fun card => card.id == subtask.cardId

/-- The operation is addressed to one of these rows. -/
def KanbanOperation.Addresses (rows : KanbanRows) : KanbanOperation → Prop
  | .getBoard boardId | .listCards boardId | .createCard boardId _ _ =>
    ∃ board ∈ rows.boards, board.id = boardId
  | .getCard cardId | .moveCard cardId _ | .blockCard cardId _ | .passTddGate cardId
  | .beginWork cardId | .completeWork cardId | .createSubtask cardId _ =>
    ∃ card ∈ rows.cards, card.id = cardId
  | .completeSubtask subtaskId => ∃ subtask ∈ rows.subtasks, subtask.id = subtaskId
  | .createBoard _ | .listBoards => False

/-- `KanbanError` of a row that is not found. -/
def notFound (kind : String) (id : ℕ) : PyExc := ⟨kanbanError, kind ++ " not found: " ++ toString id⟩

/-- The outcome is that nothing was found under the key. -/
def KanbanOperation.NotFound :
    KanbanOperation → EStateM.Result PyExc KanbanState KanbanAnswer → Prop
  | .getBoard _, .ok answer _ => answer = .board none
  | .listCards _, .ok answer _ => answer = .cards []
  | .getCard _, .ok answer _ => answer = .card none
  | .createCard boardId _ _, .error exc _ => exc = notFound "Board" boardId
  | .moveCard cardId column, .error exc _ =>
    exc = if (Column.parse column).isSome then notFound "Card" cardId
      else ⟨kanbanError, "Unknown kanban column: " ++ column⟩
  | .blockCard cardId _, .error exc _ | .passTddGate cardId, .error exc _
  | .beginWork cardId, .error exc _ | .completeWork cardId, .error exc _
  | .createSubtask cardId _, .error exc _ => exc = notFound "Card" cardId
  | .completeSubtask subtaskId, .error exc _ => exc = notFound "Subtask" subtaskId
  | _, _ => False

/-- The operation leaves the other projects alone: it changes none of their
rows, and finds nothing when it is addressed to one. -/
structure KanbanEngine.Isolated (engine : KanbanEngine) (s : KanbanState)
    (operation : KanbanOperation) : Prop where
  others : (after (engine.perform operation) s).others engine.projectId = s.others engine.projectId
  refused : operation.Addresses (s.others engine.projectId) →
    operation.NotFound (engine.perform operation s)

/-- The statements of the operation name the key alone, not the project. -/
def KanbanOperation.Unscoped : KanbanOperation → Prop
  | .createCard _ _ _ | .blockCard _ _ | .passTddGate _ | .createSubtask _ _
  | .completeSubtask _ => True
  | _ => False

/-- What has to be true of an operation before it: an unscoped one is not
addressed to another project, and a board of another project that is listed
holds no card of this one. -/
def KanbanEngine.Confined (engine : KanbanEngine) (s : KanbanState) :
    KanbanOperation → Prop
  | .listCards boardId =>
    (KanbanOperation.listCards boardId).Addresses (s.others engine.projectId) →
      ∀ card ∈ s.cards, card.boardId = boardId → card.projectId ≠ engine.projectId
  | operation => operation.Unscoped → ¬operation.Addresses (s.others engine.projectId)

/-- `holds` of every operation of a run of one engine, in the state before it. -/
def KanbanEngine.Each (engine : KanbanEngine) (holds : KanbanState → KanbanOperation → Prop) :
    KanbanState → List KanbanOperation → Prop
  | _, [] => True
  | s, operation :: rest =>
    holds s operation ∧ engine.Each holds (after (engine.perform operation) s) rest

/-- The keys of boards and cards are primary keys. -/
structure Keyed (s : KanbanState) : Prop where
  sequenced : s.Sequenced
  boards : (s.boards.map KanbanBoard.id).Nodup

theorem keyed_durable : Durable Keyed where
  sequenced _ hs := hs.sequenced
  rows s t ht hs := by
    refine ⟨ht.sequenced hs.sequenced, ?_⟩
    rw [ht.boards]
    exact hs.boards
  board s projectId name hs := by
    refine ⟨hs.sequenced.withBoard name, ?_⟩
    change ((s.boards ++ _).map KanbanBoard.id).Nodup
    rw [List.map_append, List.nodup_append]
    refine ⟨hs.boards, List.nodup_singleton _, ?_⟩
    intro old hold new hnew
    obtain ⟨board, hboard, rfl⟩ := List.mem_map.mp hold
    have hle := hs.sequenced.boards board hboard
    have heq : new = s.boardSeq + 1 := by simpa using hnew
    omega
  card s card hs hid hboard _ := ⟨hs.sequenced.addCard hid hboard, hs.boards⟩
  moved s projectId cardId target found hs _ _ := ⟨hs.sequenced.edit (identified_moved target), hs.boards⟩
  passed s cardId hs := ⟨hs.sequenced.edit identified_passed, hs.boards⟩
  blocked s cardId reason hs := ⟨hs.sequenced.edit (identified_withBlock reason), hs.boards⟩
  subtasks s subtasks subtaskSeq hs :=
    ⟨⟨hs.sequenced.keys, hs.sequenced.boards, hs.sequenced.cards, hs.sequenced.owned⟩, hs.boards⟩

section Others

variable {s t : KanbanState} {projectId : String} {cardId : ℕ} {change : KanbanCard → KanbanCard}

theorem KanbanState.SameRows.others_eq (h : SameRows s t) : t.others projectId = s.others projectId := by
  unfold others
  rw [h.boards, h.cards, h.subtasks]

/-- The rows of the others are known by their parts. -/
theorem others_congr (hboards : (t.others projectId).boards = (s.others projectId).boards)
    (hcards : (t.others projectId).cards = (s.others projectId).cards)
    (hsubtasks : t.subtasks = s.subtasks) : t.others projectId = s.others projectId := by
  have hpart : (t.others projectId).subtasks = (s.others projectId).subtasks := by
    change t.subtasks.filter (fun subtask => (t.others projectId).cards.any _) =
      s.subtasks.filter (fun subtask => (s.others projectId).cards.any _)
    rw [hcards, hsubtasks]
  exact KanbanRows.ext hboards hcards hpart

/-- An update of a card that no other project has. -/
theorem others_edit (h : Identified change)
    (hown : ¬∃ card ∈ (s.others projectId).cards, card.id = cardId) :
    (edit cardId change s).others projectId = s.others projectId := by
  refine others_congr rfl ?_ rfl
  change (edit cardId change s).cards.filter _ = s.cards.filter _
  rw [filter_edit fun card => by rw [h.projectId]]
  calc _ = (s.others projectId).cards.map id := by
        refine List.map_congr_left fun card hcard => ?_
        rw [if_neg fun hid => hown ⟨card, hcard, hid⟩]
        rfl
    _ = _ := List.map_id _

theorem others_withBoard (name : String) :
    (s.withBoard projectId name).others projectId = s.others projectId := by
  refine others_congr ?_ rfl rfl
  change (s.boards ++ [_]).filter _ = s.boards.filter _
  rw [List.filter_append]
  simp

theorem others_addCard {card : KanbanCard} (hproject : card.projectId = projectId) (cardSeq : ℕ) :
    KanbanState.others projectId { s with cards := s.cards ++ [card], cardSeq } = s.others projectId := by
  refine others_congr rfl ?_ rfl
  change (s.cards ++ [card]).filter _ = s.cards.filter _
  rw [List.filter_append]
  simp [hproject]

theorem others_addSubtask {subtask : KanbanSubtask} (subtaskSeq : ℕ)
    (hown : ¬∃ card ∈ (s.others projectId).cards, card.id = subtask.cardId) :
    KanbanState.others projectId { s with subtasks := s.subtasks ++ [subtask], subtaskSeq } =
      s.others projectId := by
  have hpart : (s.subtasks ++ [subtask]).filter (fun subtask =>
      (s.others projectId).cards.any fun card => card.id == subtask.cardId) =
      (s.others projectId).subtasks := by
    have hnone : ((s.others projectId).cards.any fun card => card.id == subtask.cardId) = false :=
      List.any_eq_false.mpr fun card hcard hid => hown ⟨card, hcard, beq_iff_eq.mp hid⟩
    rw [List.filter_append, List.filter_cons_of_neg (by simp [hnone])]
    exact List.append_nil _
  exact KanbanRows.ext rfl rfl hpart

/-- A subtask that no other project has is completed. -/
theorem others_completeSubtask {subtaskId : ℕ}
    (hown : ¬∃ subtask ∈ (s.others projectId).subtasks, subtask.id = subtaskId) :
    KanbanState.others projectId { s with
      subtasks := s.subtasks.map fun subtask =>
        if subtask.id = subtaskId then { subtask with done := true } else subtask } =
      s.others projectId := by
  have hpart : ((s.subtasks.map fun subtask =>
      if subtask.id = subtaskId then { subtask with done := true } else subtask).filter fun subtask =>
      (s.others projectId).cards.any fun card => card.id == subtask.cardId) =
      (s.others projectId).subtasks := by
    rw [List.filter_map]
    calc _ = (s.others projectId).subtasks.map fun subtask =>
          if subtask.id = subtaskId then { subtask with done := true } else subtask := by
          refine congrArg _ (List.filter_congr fun subtask _ => ?_)
          dsimp only [Function.comp]
          split <;> rfl
      _ = (s.others projectId).subtasks.map id := by
          refine List.map_congr_left fun subtask hmem => ?_
          rw [if_neg fun hid => hown ⟨subtask, hmem, hid⟩]
          rfl
      _ = _ := List.map_id _
  exact KanbanRows.ext rfl rfl hpart

/-- A card that the project finds is no other project's. -/
theorem not_others_of_row (hs : s.Sequenced) {found : KanbanCard}
    (h : s.row projectId cardId = some found) :
    ¬∃ card ∈ (s.others projectId).cards, card.id = cardId := by
  rintro ⟨card, hcard, hid⟩
  obtain ⟨hmem, hother⟩ := List.mem_filter.mp hcard
  have heq := row_unique hs h hmem hid
  have hfound := (List.mem_filter.mp (List.mem_of_mem_head? (Option.mem_def.mpr h))).2
  simp only [decide_eq_true_eq] at hfound
  simp only [decide_eq_true_eq, heq] at hother
  exact hother hfound.2

/-- A card of another project is not found. -/
theorem row_of_others (hs : s.Sequenced)
    (h : ∃ card ∈ (s.others projectId).cards, card.id = cardId) :
    s.row projectId cardId = none := by
  cases hrow : s.row projectId cardId with
  | none => rfl
  | some found => exact absurd h (not_others_of_row hs hrow)

end Others

section Confined

variable {engine : KanbanEngine} {s : KanbanState} {cardId : ℕ} {rows : KanbanRows}

/-- The tables are well kept and the other projects have these rows. -/
def Beside (projectId : String) (rows : KanbanRows) (s : KanbanState) : Prop :=
  Keyed s ∧ s.others projectId = rows

theorem beside_rows {projectId : String} (s t : KanbanState) (h : SameRows s t)
    (hs : Beside projectId rows s) : Beside projectId rows t :=
  ⟨keyed_durable.rows s t h hs.1, h.others_eq.trans hs.2⟩

theorem MovedTo.beside {projectId column : String} {t : KanbanState} (hs : Beside projectId rows s)
    (h : MovedTo projectId cardId column s t) : Beside projectId rows t := by
  obtain ⟨target, found, -, hrow, henter, ht⟩ := h
  refine beside_rows _ _ ht ⟨keyed_durable.moved s projectId cardId target found hs.1 hrow henter, ?_⟩
  rw [others_edit (identified_moved target) (not_others_of_row hs.1.sequenced hrow)]
  exact hs.2

/-- A move that returned was of a card of the project. -/
theorem moveCard_beside (column : String) :
    Triple (Beside engine.projectId rows) (engine.moveCard cardId column)
      (fun _ t => (¬∃ card ∈ rows.cards, card.id = cardId) ∧ Beside engine.projectId rows t)
      (fun _ => Beside engine.projectId rows) := by
  refine Triple.fix fun s hs => (moveCard_spec hs.1.sequenced).conseq
    (fun t ht => by rw [ht]; exact SameRows.rfl) ?_ ?_
  · intro _ t ht
    have hbeside := ht.beside hs
    obtain ⟨target, found, -, hrow, -⟩ := ht
    rw [← hs.2]
    exact ⟨not_others_of_row hs.1.sequenced hrow, hs.2 ▸ hbeside⟩
  · rintro exc t (⟨ht, -⟩ | ⟨-, ht⟩)
    · exact beside_rows _ _ ht hs
    · exact ht.beside hs

theorem updateCard_beside (hown : ¬∃ card ∈ rows.cards, card.id = cardId)
    {change : KanbanCard → KanbanCard} (h : Identified change) :
    Keeps (Beside engine.projectId rows) (KanbanStore.updateCard engine cardId change) := by
  refine execute_keeps beside_rows fun s hs => ⟨⟨hs.1.sequenced.edit h, hs.1.boards⟩, ?_⟩
  have hown' : ¬∃ card ∈ (s.others engine.projectId).cards, card.id = cardId := by
    rw [hs.2]
    exact hown
  exact (others_edit h hown').trans hs.2

/-- A confined operation changes no row of the other projects. -/
theorem perform_beside {operation : KanbanOperation} {start : KanbanState}
    (hconfined : engine.Confined start operation) :
    Keeps (Beside engine.projectId (start.others engine.projectId)) (engine.perform operation) := by
  have hanswer : ∀ {α β : Type} {x : KanbanM α} (f : α → β),
      Keeps (Beside engine.projectId (start.others engine.projectId)) x →
      Keeps (Beside engine.projectId (start.others engine.projectId)) (x >>= fun a => pure (f a)) :=
    fun f hx => hx.bind fun _ => Triple.pure fun _ ht => ht
  have hmove : ∀ cardId column, Keeps (Beside engine.projectId (start.others engine.projectId))
      (engine.moveCard cardId column) :=
    fun cardId column => (moveCard_beside column).strengthen_post fun _ _ ht => ht.2
  cases operation with
  | createBoard name =>
    refine hanswer _ (Triple.bind (R := fun _ => Beside engine.projectId _) ?_ fun _ => fun t ht => ht)
    refine execute_keeps beside_rows fun s hs => ⟨keyed_durable.board s _ name hs.1, ?_⟩
    exact (others_withBoard name).trans hs.2
  | getBoard boardId => exact hanswer _ ((getBoard_quiet boardId).keeps beside_rows)
  | listBoards => exact hanswer _ (listBoards_quiet.keeps beside_rows)
  | createCard boardId title description =>
    refine hanswer _ (Triple.fix fun s hs => (createCard_spec s boardId title description).conseq
      (fun t ht => by rw [ht]; exact SameRows.rfl) ?_ fun exc t ht => beside_rows _ _ ht.2 hs)
    intro card t ht
    refine beside_rows _ _ ht.2 ⟨?_, (others_addCard ?_ _).trans hs.2⟩
    · exact keyed_durable.card s _ hs.1 rfl (hs.1.sequenced.board_le ht.1) rfl
    · rfl
  | getCard cardId => exact hanswer _ ((getCard_quiet cardId).keeps beside_rows)
  | listCards boardId => exact hanswer _ ((listCards_quiet boardId).keeps beside_rows)
  | moveCard cardId column => exact hanswer _ (hmove cardId column)
  | blockCard cardId reason =>
    have hset : Keeps (Beside engine.projectId (start.others engine.projectId))
        (KanbanStore.setBlocked engine cardId reason) :=
      (updateCard_beside (hconfined trivial) (identified_withBlock reason)).bind fun _ =>
        (getCard_quiet cardId).keeps beside_rows
    refine hanswer _ (Triple.bind hset fun result =>
      Triple.bind (R := fun _ => Beside engine.projectId _) ?_ fun _ => Triple.pure fun _ ht => ht)
    refine Quiet.keeps beside_rows fun s => ?_
    exact (announceBlock_spec reason result).conseq (fun _ ht => ht) (fun _ _ ht => ht)
      fun _ _ ht => ht.2
  | passTddGate cardId => exact hanswer _ (updateCard_beside (hconfined trivial) identified_passed)
  | beginWork cardId =>
    exact hanswer _ (Triple.bind (hmove cardId "Todo") fun _ => hmove cardId "InProgress")
  | completeWork cardId =>
    -- the first move found the card, so the gate that is passed is its own
    refine hanswer _ (Triple.bind (moveCard_beside "Review") fun _ => Triple.of_pre fun hown => ?_)
    exact Triple.bind (updateCard_beside hown identified_passed) fun _ => hmove cardId "Done"
  | createSubtask cardId description =>
    refine hanswer _ (Triple.fix fun s hs => (createSubtask_spec s description).conseq
      (fun t ht => by rw [ht]; exact SameRows.rfl) ?_ fun exc t ht => beside_rows _ _ ht.2 hs)
    intro subtask t ht
    refine beside_rows _ _ ht ⟨keyed_durable.subtasks s _ _ hs.1, ?_⟩
    refine (others_addSubtask _ ?_).trans hs.2
    rw [hs.2]
    exact hconfined trivial
  | completeSubtask subtaskId =>
    refine hanswer _ (Triple.bind (R := fun _ => Beside engine.projectId _) ?_ fun _ =>
      (publishWhenWired_quiet _).keeps beside_rows)
    refine execute_keeps beside_rows fun s hs => ⟨keyed_durable.subtasks s _ _ hs.1, ?_⟩
    refine (others_completeSubtask ?_).trans hs.2
    rw [hs.2]
    exact hconfined trivial

/-- The error of a move of a card that is not there. -/
def moveError (cardId : ℕ) (column : String) : PyExc :=
  if (Column.parse column).isSome then notFound "Card" cardId
  else ⟨kanbanError, "Unknown kanban column: " ++ column⟩

/-- A card that is not there is not moved, also when the database fails. -/
theorem moveCard_absent (h : s.row engine.projectId cardId = none) (column : String) :
    Triple (SameRows s) (engine.moveCard cardId column) (fun _ _ => False)
      (fun exc _ => exc = moveError cardId column) := by
  have hstore : Triple (SameRows s) (KanbanStore.moveCard engine cardId column)
      (fun _ _ => False) (fun exc t => exc = moveError cardId column ∧ SameRows s t) := by
    unfold KanbanStore.moveCard moveError
    cases Column.parse column with
    | none => exact Triple.throw fun t ht => ⟨rfl, ht⟩
    | some target =>
      refine (getCard_spec engine s cardId).total.bind fun card => Triple.of_pre fun hcard => ?_
      rcases hcard with ⟨found, subtasks, hrow, -⟩ | ⟨rfl, -⟩
      · rw [h] at hrow
        cases hrow
      · exact Triple.throw fun t ht => ⟨rfl, ht⟩
  refine columnBefore_spec.total.bind fun oldColumn => ?_
  refine Triple.bind (R := fun _ _ => False) (Triple.tryCatch hstore fun exc => ?_) fun result t ht =>
    ht.elim
  exact Triple.of_pre fun hexc => onRefusal_spec exc fun t _ => hexc

/-- An outcome that is known from the tables. -/
theorem outcome_of {x : KanbanM KanbanAnswer} {operation : KanbanOperation}
    (hreturned : Triple (SameRows s) x (fun answer t => operation.NotFound (.ok answer t))
      (fun exc t => operation.NotFound (.error exc t))) : operation.NotFound (x s) := by
  have houtcome := hreturned s SameRows.rfl
  cases hrun : x s with
  | ok answer t =>
    rw [hrun] at houtcome
    exact houtcome
  | error exc t =>
    rw [hrun] at houtcome
    exact houtcome

/-- A confined operation finds nothing under the key of another project. -/
theorem perform_notFound {operation : KanbanOperation} (hs : Keyed s)
    (hconfined : engine.Confined s operation)
    (haddressed : operation.Addresses (s.others engine.projectId)) :
    operation.NotFound (engine.perform operation s) := by
  have habsent : ∀ {cardId}, (∃ card ∈ (s.others engine.projectId).cards, card.id = cardId) →
      s.row engine.projectId cardId = none := fun h => row_of_others hs.sequenced h
  cases operation with
  | createBoard name => exact haddressed.elim
  | listBoards => exact haddressed.elim
  | createCard boardId title description => exact absurd haddressed (hconfined trivial)
  | blockCard cardId reason => exact absurd haddressed (hconfined trivial)
  | passTddGate cardId => exact absurd haddressed (hconfined trivial)
  | createSubtask cardId description => exact absurd haddressed (hconfined trivial)
  | completeSubtask subtaskId => exact absurd haddressed (hconfined trivial)
  | getBoard boardId =>
    have hnone : (s.boards.filter fun board =>
        board.id = boardId ∧ board.projectId = engine.projectId) = [] := by
      obtain ⟨other, hother, hid⟩ := haddressed
      obtain ⟨hotherMem, hproject⟩ := List.mem_filter.mp hother
      refine List.filter_eq_nil_iff.mpr fun board hmem hfound => ?_
      simp only [decide_eq_true_eq] at hfound hproject
      have heq := List.inj_on_of_nodup_map hs.boards hmem hotherMem (hfound.1.trans hid.symm)
      exact hproject (heq ▸ hfound.2)
    refine outcome_of (Triple.bind (R := fun found _ => found = none) (Triple.total ?_) fun found =>
      Triple.pure fun t ht => congrArg KanbanAnswer.board ht)
    refine (fetchAll_spec engine s fun t ht => by rw [ht.boards]).bind fun rows => ?_
    refine Triple.pure fun t ht => ?_
    rcases ht.1 with rfl | ⟨rfl, -⟩
    · rw [hnone]
      rfl
    · rfl
  | listCards boardId =>
    have hnone : (s.cards.filter fun card =>
        card.boardId = boardId ∧ card.projectId = engine.projectId) = [] := by
      refine List.filter_eq_nil_iff.mpr fun card hmem hfound => ?_
      simp only [decide_eq_true_eq] at hfound
      exact hconfined haddressed card hmem hfound.1 hfound.2
    refine outcome_of (Triple.bind (R := fun found _ => found = []) (Triple.total ?_) fun found =>
      Triple.pure fun t ht => congrArg KanbanAnswer.cards ht)
    refine (fetchAll_spec engine s fun t ht => by rw [ht.cards]).bind fun rows => ?_
    refine Triple.of_pre fun hrows => ?_
    have hempty : rows = [] := by
      rcases hrows with rfl | ⟨rfl, -⟩
      · exact hnone
      · rfl
    rw [hempty]
    exact Triple.pure fun t ht => rfl
  | getCard cardId =>
    refine outcome_of (Triple.bind (R := fun found _ => found = none) (Triple.total ?_) fun found =>
      Triple.pure fun t ht => congrArg KanbanAnswer.card ht)
    refine (getCard_spec engine s cardId).strengthen_post fun card t ht => ?_
    rcases ht.1 with ⟨found, subtasks, hrow, -⟩ | ⟨hnone, -⟩
    · rw [habsent haddressed] at hrow
      cases hrow
    · exact hnone
  | moveCard cardId column =>
    exact outcome_of (Triple.bind (moveCard_absent (habsent haddressed) column) fun _ _ h => h.elim)
  | beginWork cardId =>
    exact outcome_of (Triple.bind (R := fun _ _ => False) (Triple.bind
      (moveCard_absent (habsent haddressed) "Todo") fun _ _ h => h.elim) fun _ _ h => h.elim)
  | completeWork cardId =>
    exact outcome_of (Triple.bind (R := fun _ _ => False) (Triple.bind
      (moveCard_absent (habsent haddressed) "Review") fun _ _ h => h.elim) fun _ _ h => h.elim)

/-- Confined operations are isolated, whatever the database answers. -/
theorem isolated_of_confined {operation : KanbanOperation} (hs : Keyed s)
    (hconfined : engine.Confined s operation) : engine.Isolated s operation where
  others := ((perform_beside hconfined).after (⟨hs, rfl⟩ : Beside _ _ s)).2
  refused := perform_notFound hs hconfined

end Confined

section Unconfined

variable {engine : KanbanEngine} {s : KanbanState}

/-- A steady database never raises what a missing row is refused with. -/
theorem not_notFound {exc : PyExc} (hsteady : engine.Steady)
    (h : engine.Faulty exc ∨ exc.cls ≠ kanbanError) (kind : String) (id : ℕ) :
    exc ≠ notFound kind id := by
  rintro rfl
  rcases h with hfault | hcls
  · exact hfault.unsteady hsteady
  · exact hcls rfl

/-- A listing completes the rows that were found and drops none of them. -/
theorem withSubtasks_length (rows : List KanbanCard) (s : KanbanState) :
    Triple (SameRows s) (KanbanStore.withSubtasks engine rows)
      (fun found t => found.length = rows.length ∧ SameRows s t) (fun _ _ => False) := by
  induction rows with
  | nil => exact Triple.pure fun t ht => ⟨rfl, ht⟩
  | cons card rest ih =>
    refine (fetchAll_spec engine s fun t ht => by rw [ht.subtasks]).bind fun subtasks => ?_
    refine (ih.weaken_pre fun t ht => ht.2).bind fun found => Triple.pure fun t ht => ⟨?_, ht.2⟩
    rw [List.length_cons, List.length_cons, ht.1]

/-- An unscoped operation raises what the database answers, or no `KanbanError`. -/
theorem perform_unscoped (operation : KanbanOperation) (hunscoped : operation.Unscoped) :
    Triple (SameRows s) (engine.perform operation) (fun _ _ => True)
      (fun exc _ => engine.Faulty exc ∨ exc.cls ≠ kanbanError) := by
  cases operation with
  | createCard boardId title description =>
    refine Triple.bind (R := fun _ _ => True) ?_ fun card => Triple.pure fun _ _ => trivial
    exact (createCard_spec s boardId title description).conseq (fun _ ht => ht)
      (fun _ _ _ => trivial) fun _ _ he => he.1
  | blockCard cardId reason =>
    have hset : Triple (SameRows s) (KanbanStore.setBlocked engine cardId reason)
        (fun _ _ => True) (fun exc _ => engine.Faulty exc ∨ exc.cls ≠ kanbanError) := by
      refine ((updateCard_spec engine s cardId _).conseq (fun _ ht => ht) (fun _ _ ht => ht)
        fun _ _ he => .inl he.1).bind fun _ => ?_
      exact (getCard_spec engine _ cardId).total.strengthen_post fun _ _ _ => trivial
    have hannounce : ∀ result, Triple (fun _ => True) (engine.announceBlock reason result)
        (fun _ _ => True) (fun exc _ => engine.Faulty exc ∨ exc.cls ≠ kanbanError) := by
      refine fun result => Triple.fix fun t _ => (announceBlock_spec reason result).conseq
        (fun u hu => by rw [hu]; exact SameRows.rfl) (fun _ _ _ => trivial) fun exc u he => .inr ?_
      rw [he.1.2]
      exact fun h => by cases h
    refine Triple.bind (R := fun _ _ => True) (Triple.bind hset fun result => ?_) fun card =>
      Triple.pure fun _ _ => trivial
    exact Triple.bind (hannounce result) fun _ => Triple.pure fun _ _ => trivial
  | passTddGate cardId =>
    refine Triple.bind (R := fun _ _ => True) ?_ fun _ => Triple.pure fun _ _ => trivial
    exact (updateCard_spec engine s cardId KanbanCard.passed).conseq (fun _ ht => ht)
      (fun _ _ _ => trivial) fun _ _ he => .inl he.1
  | createSubtask cardId description =>
    refine Triple.bind (R := fun _ _ => True) ?_ fun subtask => Triple.pure fun _ _ => trivial
    exact (createSubtask_spec s description).conseq (fun _ ht => ht) (fun _ _ _ => trivial)
      fun _ _ he => he.1
  | completeSubtask subtaskId =>
    refine Triple.bind (R := fun _ _ => True) (Triple.bind (R := fun _ _ => True) ?_ fun _ => ?_)
      fun _ => Triple.pure fun _ _ => trivial
    · refine (execute_spec engine s fun t ht => ?_).conseq (fun _ ht => ht) (fun _ _ _ => trivial)
        fun _ _ he => .inl he.1
      refine ⟨⟨ht.boards, ht.cards, ht.boardSeq, ht.cardSeq⟩, ?_, ht.subtaskSeq⟩
      change t.subtasks.map _ = s.subtasks.map _
      rw [ht.subtasks]
    · exact Triple.ite (fun _ => Triple.modify fun _ _ => trivial) fun _ =>
        Triple.pure fun _ _ => trivial
  | createBoard name => exact hunscoped.elim
  | listBoards => exact hunscoped.elim
  | getBoard boardId => exact hunscoped.elim
  | getCard cardId => exact hunscoped.elim
  | listCards boardId => exact hunscoped.elim
  | moveCard cardId column => exact hunscoped.elim
  | beginWork cardId => exact hunscoped.elim
  | completeWork cardId => exact hunscoped.elim

/-- An unscoped operation never answers that nothing was found. -/
theorem unscoped_found (hsteady : engine.Steady) (operation : KanbanOperation)
    (hunscoped : operation.Unscoped) : ¬operation.NotFound (engine.perform operation s) := by
  intro hrefused
  have htriple : Triple (SameRows s) (engine.perform operation) _ _ :=
    perform_unscoped operation hunscoped
  have hspec := htriple s SameRows.rfl
  cases hrun : engine.perform operation s with
  | ok answer t =>
    rw [hrun] at hrefused
    cases operation <;> first | exact hunscoped | exact hrefused
  | error exc t =>
    rw [hrun] at hrefused hspec
    cases operation <;> first
      | exact hunscoped
      | exact not_notFound hsteady hspec _ _ hrefused

/-- An isolated operation was confined, when the database answers. -/
theorem confined_of_isolated {operation : KanbanOperation} (hsteady : engine.Steady)
    (h : engine.Isolated s operation) : engine.Confined s operation := by
  have hunscoped : operation.Unscoped → ¬operation.Addresses (s.others engine.projectId) :=
    fun hunscoped haddressed => unscoped_found hsteady operation hunscoped (h.refused haddressed)
  cases operation with
  | listCards boardId =>
    intro haddressed card hcard hboard hproject
    have hmem : card ∈ s.cards.filter fun card =>
        card.boardId = boardId ∧ card.projectId = engine.projectId :=
      List.mem_filter.mpr ⟨hcard, by simp [hboard, hproject]⟩
    have hlist : Triple (SameRows s) (engine.listCards boardId)
        (fun found _ => found.length = (s.cards.filter fun card =>
          card.boardId = boardId ∧ card.projectId = engine.projectId).length)
        (fun _ _ => False) := by
      refine (fetchAll_spec engine s fun t ht => by rw [ht.cards]).bind fun rows => ?_
      refine Triple.of_pre fun hrows => (withSubtasks_length rows s).strengthen_post fun found t ht => ?_
      rcases hrows with rfl | ⟨-, hfault⟩
      · exact ht.1
      · exact absurd hsteady hfault
    obtain ⟨found, t, hrun, hlength⟩ := hlist.returns SameRows.rfl
    have hrefused := h.refused haddressed
    have hperform : engine.perform (.listCards boardId) s = .ok (.cards found) t := by
      change EStateM.bind (engine.listCards boardId) _ s = _
      unfold EStateM.bind
      rw [hrun]
      rfl
    rw [hperform] at hrefused
    obtain rfl : found = [] := KanbanAnswer.cards.inj hrefused
    rw [List.eq_nil_of_length_eq_zero hlength.symm] at hmem
    cases hmem
  | createBoard name => exact hunscoped
  | listBoards => exact hunscoped
  | getBoard boardId => exact hunscoped
  | getCard cardId => exact hunscoped
  | createCard boardId title description => exact hunscoped
  | moveCard cardId column => exact hunscoped
  | blockCard cardId reason => exact hunscoped
  | passTddGate cardId => exact hunscoped
  | beginWork cardId => exact hunscoped
  | completeWork cardId => exact hunscoped
  | createSubtask cardId description => exact hunscoped
  | completeSubtask subtaskId => exact hunscoped

end Unconfined

/-- A run of the engine of one project leaves the other projects alone when
each operation is confined in the state before it; with a database that
answers, only then. -/
theorem each_isolated_iff (engine : KanbanEngine) {s : KanbanState} (hs : Keyed s)
    (operations : List KanbanOperation) :
    (engine.Each engine.Confined s operations → engine.Each engine.Isolated s operations) ∧
      (engine.Steady → engine.Each engine.Isolated s operations →
        engine.Each engine.Confined s operations) := by
  induction operations generalizing s with
  | nil => exact ⟨fun _ => trivial, fun _ _ => trivial⟩
  | cons operation rest ih =>
    have hkeyed : Keyed (after (engine.perform operation) s) :=
      (perform_durable keyed_durable operation).after hs
    have hnext := ih hkeyed
    constructor
    · exact fun h => ⟨isolated_of_confined hs h.1, hnext.1 h.2⟩
    · exact fun hsteady h => ⟨confined_of_isolated hsteady h.1, hnext.2 hsteady h.2⟩

/-- A database that two projects share, each with a board and a card. -/
def sharedTables : KanbanState where
  boards := [{ id := 1, name := "a", projectId := "/a" }, { id := 2, name := "b", projectId := "/b" }]
  cards := [{ id := 1, boardId := 1, title := .str "a", projectId := "/a" },
    { id := 2, boardId := 2, title := .str "b", projectId := "/b" }]
  boardSeq := 2
  cardSeq := 2

theorem keyed_sharedTables : Keyed sharedTables := by
  refine ⟨⟨?_, ?_, ?_, ?_⟩, ?_⟩
  · decide
  · decide
  · intro card hcard
    simp only [sharedTables, List.mem_cons, List.not_mem_nil, or_false] at hcard ⊢
    rcases hcard with rfl | rfl <;> decide
  · intro card hcard
    simp only [sharedTables, List.mem_cons, List.not_mem_nil, or_false] at hcard ⊢
    rcases hcard with rfl | rfl <;> decide
  · decide

/-- Work on a card of the own project, and a refused move of the other's. -/
theorem each_isolated_shared : KanbanEngine.Each { projectId := "/a" }
    (KanbanEngine.Isolated { projectId := "/a" }) sharedTables
    [.beginWork 1, .moveCard 2 "Todo"] := by
  refine (each_isolated_iff { projectId := "/a" } keyed_sharedTables _).1 ⟨?_, ?_, trivial⟩
  · exact fun h => h.elim
  · exact fun h => h.elim

/-- The gate of the other project's card is passed. -/
theorem not_isolated_passTddGate : ¬KanbanEngine.Each { projectId := "/a" }
    (KanbanEngine.Isolated { projectId := "/a" }) sharedTables [.passTddGate 2] := by
  intro h
  have hcards := congrArg KanbanRows.cards h.1.others
  have hgates := congrArg (List.map KanbanCard.tddGate) hcards
  exact absurd hgates (by decide)

end AiosDeck.Scheduler
