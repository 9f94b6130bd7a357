import AiosDeck.Scheduler.Runs

/-!
# Flow of the cards

Every operation of the engine, from any state and with a database that may
fail at any statement. What an operation leaves behind is said once for each
of them; that a done card has passed its gate then follows for all runs.
-/

namespace AiosDeck.Scheduler

open Python Program KanbanState

/-- A public operation of the engine with its arguments. -/
inductive KanbanOperation where
  | createBoard (name : String)
  | getBoard (boardId : ℕ)
  | listBoards
  | createCard (boardId : ℕ) (title : Json) (description : String)
  | getCard (cardId : ℕ)
  | listCards (boardId : ℕ)
  | moveCard (cardId : ℕ) (column : String)
  | blockCard (cardId : ℕ) (reason : String)
  | passTddGate (cardId : ℕ)
  | beginWork (cardId : ℕ)
  | completeWork (cardId : ℕ)
  | createSubtask (cardId : ℕ) (description : String)
  | completeSubtask (subtaskId : ℕ)

/-- What an operation returns. -/
inductive KanbanAnswer where
  | board (found : Option KanbanBoard)
  | boards (found : List KanbanBoard)
  | card (found : Option KanbanCard)
  | cards (found : List KanbanCard)
  | subtask (created : KanbanSubtask)
  | nothing

/-- Call the operation on an opened engine. -/
def KanbanEngine.perform (engine : KanbanEngine) : KanbanOperation → KanbanM KanbanAnswer
  | .createBoard name => do return .board (some (← engine.createBoard name))
  | .getBoard boardId => do return .board (← engine.getBoard boardId)
  | .listBoards => do return .boards (← engine.listBoards)
  | .createCard boardId title description => do
    return .card (some (← engine.createCard boardId title description))
  | .getCard cardId => do return .card (← engine.getCard cardId)
  | .listCards boardId => do return .cards (← engine.listCards boardId)
  | .moveCard cardId column => do return .card (← engine.moveCard cardId column)
  | .blockCard cardId reason => do return .card (← engine.blockCard cardId reason)
  | .passTddGate cardId => do
    engine.passTddGate cardId
    return .nothing
  | .beginWork cardId => do return .card (← engine.beginWork cardId)
  | .completeWork cardId => do return .card (← engine.completeWork cardId)
  | .createSubtask cardId description => do
    return .subtask (← engine.createSubtask cardId description)
  | .completeSubtask subtaskId => do
    engine.completeSubtask subtaskId
    return .nothing

/-- The database after these operations, each on its engine. -/
def KanbanState.performAll (s : KanbanState) : List (KanbanEngine × KanbanOperation) → KanbanState
  | [] => s
  | (engine, operation) :: rest => (after (engine.perform operation) s).performAll rest

/-- The same rows in all three tables; the statements and events may differ. -/
structure KanbanState.SameRows (s t : KanbanState) : Prop extends SameTables s t where
  subtasks : t.subtasks = s.subtasks
  subtaskSeq : t.subtaskSeq = s.subtaskSeq

theorem KanbanState.SameRows.rfl {s : KanbanState} : SameRows s s :=
  ⟨SameTables.rfl, Eq.refl _, Eq.refl _⟩

theorem KanbanState.SameRows.trans {s t u : KanbanState} (h : SameRows s t) (h' : SameRows t u) :
    SameRows s u :=
  ⟨⟨h'.boards.trans h.boards, h'.cards.trans h.cards, h'.boardSeq.trans h.boardSeq,
    h'.cardSeq.trans h.cardSeq⟩, h'.subtasks.trans h.subtasks, h'.subtaskSeq.trans h.subtaskSeq⟩

theorem KanbanState.SameRows.edit {s t : KanbanState} (h : SameRows s t) (cardId : ℕ)
    (change : KanbanCard → KanbanCard) :
    SameRows (edit cardId change s) (edit cardId change t) := by
  refine ⟨⟨h.boards, ?_, h.boardSeq, h.cardSeq⟩, h.subtasks, h.subtaskSeq⟩
  change t.cards.map _ = s.cards.map _
  rw [h.cards]

/-- The database answers every statement. -/
def KanbanEngine.Steady (engine : KanbanEngine) : Prop := engine.fault = fun _ => none

/-- An error that the database may answer with. -/
def KanbanEngine.Faulty (engine : KanbanEngine) (exc : PyExc) : Prop :=
  ∃ statement, engine.fault statement = some exc

theorem KanbanEngine.Faulty.unsteady {engine : KanbanEngine} {exc : PyExc}
    (h : engine.Faulty exc) : ¬engine.Steady := by
  rintro hsteady
  obtain ⟨statement, hfault⟩ := h
  rw [hsteady] at hfault
  cases hfault

section Spec

variable (engine : KanbanEngine) (s : KanbanState)

theorem statement_spec : Triple (SameRows s) (KanbanStore.statement engine)
    (fun found t => (∀ exc, found = some exc → engine.Faulty exc) ∧ SameRows s t)
    (fun _ _ => False) := by
  intro t ht
  exact ⟨fun exc h => ⟨t.statements, h⟩,
    ⟨ht.boards, ht.cards, ht.boardSeq, ht.cardSeq⟩, ht.subtasks, ht.subtaskSeq⟩

/-- A write happens, or the database refuses it. -/
theorem execute_spec {effect : KanbanState → KanbanState}
    (heffect : ∀ t, SameRows s t → SameRows (effect s) (effect t)) :
    Triple (SameRows s) (KanbanStore.execute engine effect)
      (fun _ t => SameRows (effect s) t) (fun exc t => engine.Faulty exc ∧ SameRows s t) := by
  refine Triple.bind (statement_spec engine s).total fun found => ?_
  cases found with
  | some exc => exact Triple.throw fun t ht => ⟨ht.1 exc rfl, ht.2⟩
  | none => exact Triple.modify fun t ht => heffect t ht.2

/-- A read finds the rows, or nothing when the database fails. -/
theorem fetchAll_spec {α : Type} {query : KanbanState → List α}
    (hquery : ∀ t, SameRows s t → query t = query s) :
    Triple (SameRows s) (KanbanStore.fetchAll engine query)
      (fun rows t => (rows = query s ∨ rows = [] ∧ ¬engine.Steady) ∧ SameRows s t)
      (fun _ _ => False) := by
  refine (statement_spec engine s).bind fun found => ?_
  cases found with
  | some exc => exact Triple.pure fun t ht => ⟨.inr ⟨rfl, (ht.1 exc rfl).unsteady⟩, ht.2⟩
  | none =>
    refine Triple.bind (R := fun found t => found = t ∧ SameRows s t)
      (Triple.get fun t ht => ⟨rfl, ht.2⟩) fun found => ?_
    refine Triple.pure fun t ht => ⟨.inl ?_, ht.2⟩
    rw [ht.1]
    exact hquery t ht.2

/-- A read of a card answers with its row and some subtasks, or with nothing. -/
theorem getCard_spec (cardId : ℕ) : Triple (SameRows s) (KanbanStore.getCard engine cardId)
    (fun card t => ((∃ found subtasks, s.row engine.projectId cardId = some found ∧
        card = some { found with subtasks }) ∨
      card = none ∧ (s.row engine.projectId cardId = none ∨ ¬engine.Steady)) ∧ SameRows s t)
    (fun _ _ => False) := by
  have hfetch : Triple (SameRows s)
      (KanbanStore.fetchOne engine fun s => s.cards.filter fun card =>
        card.id = cardId ∧ card.projectId = engine.projectId)
      (fun row t => (row = s.row engine.projectId cardId ∨ row = none ∧ ¬engine.Steady) ∧
        SameRows s t) (fun _ _ => False) := by
    refine (fetchAll_spec engine s fun t ht => by rw [ht.cards]).bind fun rows => ?_
    refine Triple.pure fun t ht => ⟨?_, ht.2⟩
    rcases ht.1 with rfl | ⟨rfl, hfault⟩
    · exact .inl rfl
    · exact .inr ⟨rfl, hfault⟩
  refine hfetch.bind fun row => ?_
  cases row with
  | none =>
    refine Triple.pure fun t ht => ⟨.inr ⟨rfl, ?_⟩, ht.2⟩
    exact ht.1.imp Eq.symm And.right
  | some found =>
    refine Triple.of_pre fun hrow => ?_
    have hfound : s.row engine.projectId cardId = some found := by
      rcases hrow with h | ⟨h, -⟩
      · exact h.symm
      · cases h
    refine Triple.bind (R := fun _ => SameRows s) ?_ fun subtasks =>
      Triple.pure fun t ht => ⟨.inl ⟨found, subtasks, hfound, rfl⟩, ht⟩
    exact (fetchAll_spec engine s fun t ht => by rw [ht.subtasks]).strengthen_post fun _ _ h => h.2

theorem updateCard_spec (cardId : ℕ) (change : KanbanCard → KanbanCard) :
    Triple (SameRows s) (KanbanStore.updateCard engine cardId change)
      (fun _ t => SameRows (edit cardId change s) t)
      (fun exc t => engine.Faulty exc ∧ SameRows s t) := by
  exact execute_spec engine s fun t ht => ht.edit cardId change

theorem publish_spec (event : KanbanEvent) : Triple (SameRows s) (KanbanEngine.publish event)
    (fun _ t => SameRows s t) (fun _ _ => False) :=
  Triple.modify fun _ ht =>
    ⟨⟨ht.boards, ht.cards, ht.boardSeq, ht.cardSeq⟩, ht.subtasks, ht.subtaskSeq⟩

end Spec

/-- A program that leaves all rows as they are. -/
def Quiet {α : Type} (x : KanbanM α) : Prop :=
  ∀ s, Triple (SameRows s) x (fun _ => SameRows s) (fun _ => SameRows s)

section Quiet

variable {engine : KanbanEngine} {α β : Type}

theorem Quiet.pure (a : α) : Quiet (pure a : KanbanM α) :=
  fun _ => Triple.pure fun _ ht => ht

theorem Quiet.bind {x : KanbanM α} {f : α → KanbanM β} (hx : Quiet x) (hf : ∀ a, Quiet (f a)) :
    Quiet (x >>= f) :=
  fun s => (hx s).bind fun a => hf a s

theorem fetchAll_quiet {query : KanbanState → List α}
    (hquery : ∀ s t, SameRows s t → query t = query s) :
    Quiet (KanbanStore.fetchAll engine query) :=
  fun s => (fetchAll_spec engine s (hquery s)).total.strengthen_post fun _ _ ht => ht.2

theorem getCard_quiet (cardId : ℕ) : Quiet (KanbanStore.getCard engine cardId) :=
  fun s => (getCard_spec engine s cardId).total.strengthen_post fun _ _ ht => ht.2

theorem getBoard_quiet (boardId : ℕ) : Quiet (engine.getBoard boardId) := by
  refine Quiet.bind (fetchAll_quiet fun s t ht => ?_) fun rows => Quiet.pure _
  rw [ht.boards]

theorem listBoards_quiet : Quiet engine.listBoards :=
  fetchAll_quiet fun s t ht => by rw [ht.boards]

theorem withSubtasks_quiet (rows : List KanbanCard) :
    Quiet (KanbanStore.withSubtasks engine rows) := by
  induction rows with
  | nil => exact Quiet.pure _
  | cons card rest ih =>
    refine Quiet.bind (fetchAll_quiet fun s t ht => by rw [ht.subtasks]) fun subtasks => ?_
    exact Quiet.bind ih fun _ => Quiet.pure _

theorem listCards_quiet (boardId : ℕ) : Quiet (engine.listCards boardId) := by
  refine Quiet.bind (fetchAll_quiet fun s t ht => ?_) fun rows => withSubtasks_quiet rows
  rw [ht.cards]

theorem publish_quiet (event : KanbanEvent) : Quiet (KanbanEngine.publish event) :=
  fun s => (publish_spec s event).total

theorem publishWhenWired_quiet (event : KanbanEvent) : Quiet (engine.publishWhenWired event) :=
  fun s => Triple.ite (fun _ => publish_quiet event s) fun _ => Triple.pure fun _ ht => ht

variable {I : KanbanState → Prop} (hI : ∀ s t, SameRows s t → I s → I t)
include hI

/-- A rule about the rows outlives a program that does not touch them. -/
theorem Quiet.keeps {x : KanbanM α} (hx : Quiet x) : Keeps I x := by
  refine Triple.fix fun s hs => ?_
  exact (hx s).conseq (fun t ht => by rw [ht]; exact SameRows.rfl) (fun _ t ht => hI s t ht hs)
    (fun _ t ht => hI s t ht hs)

/-- A rule about the rows outlives a write that keeps it. -/
theorem execute_keeps {effect : KanbanState → KanbanState} (heffect : ∀ s, I s → I (effect s)) :
    Keeps I (KanbanStore.execute engine effect) := by
  refine Triple.bind (R := fun _ => I) (Quiet.keeps hI fun s => ?_) fun found => ?_
  · exact (statement_spec engine s).total.strengthen_post fun _ _ ht => ht.2
  · cases found with
    | some exc => exact Triple.throw fun _ ht => ht
    | none => exact Triple.modify fun t ht => heffect t ht

end Quiet

/-- A card may enter this column: at most one column ahead, and `Done` only
with its gate passed. -/
structure KanbanCard.MayEnter (card : KanbanCard) (target : Column) : Prop where
  near : target.index ≤ card.column.index + 1
  gate : target = .done → target = card.column ∨ card.tddGate = true

/-- The card of the project may enter the column of this name. -/
def MayMove (projectId : String) (cardId : ℕ) (column : String) (s : KanbanState) : Prop :=
  ∃ target found, Column.parse column = some target ∧ s.row projectId cardId = some found ∧
    found.MayEnter target

/-- It was allowed to, and it did. -/
def MovedTo (projectId : String) (cardId : ℕ) (column : String) (s t : KanbanState) : Prop :=
  ∃ target found, Column.parse column = some target ∧ s.row projectId cardId = some found ∧
    found.MayEnter target ∧ SameRows (edit cardId (KanbanCard.moved target) s) t

/-- A value that cannot be bound is refused with an error of the database. -/
theorem bindText_cls {title : Json} {exc : PyExc} (h : bindText title = .error exc) :
    exc.cls ≠ kanbanError := by
  unfold bindText at h
  split at h
  · cases h
    exact fun h => by cases h
  · split at h
    · cases h
      exact fun h => by cases h
    · cases h
  · cases h
    exact fun h => by cases h
  · cases h
    exact fun h => by cases h
  · cases h
    exact fun h => by cases h
  · cases h

section Moves

variable {engine : KanbanEngine} {s : KanbanState} {cardId : ℕ} {column : String}

/-- Two rows with one key are one row. -/
theorem row_unique (hs : s.Sequenced) {projectId : String} {found card : KanbanCard}
    (h : s.row projectId cardId = some found) (hmem : card ∈ s.cards) (hid : card.id = cardId) :
    card = found := by
  have hfound := (List.mem_filter.mp (List.mem_of_mem_head? (Option.mem_def.mpr h))).1
  exact List.inj_on_of_nodup_map hs.keys hmem hfound (hid.trans (row_id h).symm)

/-- A move to the column that a card is in changes nothing. -/
theorem edit_moved_self (hs : s.Sequenced) {projectId : String} {found : KanbanCard}
    (h : s.row projectId cardId = some found) :
    edit cardId (KanbanCard.moved found.column) s = s := by
  have hcards : (s.cards.map fun card =>
      if card.id = cardId then card.moved found.column else card) = s.cards := by
    calc (s.cards.map fun card => if card.id = cardId then card.moved found.column else card)
        = s.cards.map id := by
          refine List.map_congr_left fun card hcard => ?_
          by_cases hid : card.id = cardId
          · rw [if_pos hid, row_unique hs h hcard hid]
            rfl
          · rw [if_neg hid]
            rfl
      _ = s.cards := List.map_id _
  unfold edit
  rw [hcards]

/-- The store moves a card that may move. Otherwise, or when the database
fails, it changes nothing. -/
theorem store_moveCard_spec (hs : s.Sequenced) :
    Triple (SameRows s) (KanbanStore.moveCard engine cardId column)
      (fun result t => MovedTo engine.projectId cardId column s t ∧
        (result = none → ¬engine.Steady))
      (fun _ t => SameRows s t ∧ (engine.Steady → ¬MayMove engine.projectId cardId column s)) := by
  unfold KanbanStore.moveCard
  cases hparse : Column.parse column with
  | none =>
    refine Triple.throw fun t ht => ⟨ht, fun _ => ?_⟩
    rintro ⟨target, found, htarget, -⟩
    rw [hparse] at htarget
    cases htarget
  | some target =>
    refine (getCard_spec engine s cardId).total.bind fun card => Triple.of_pre fun hcard => ?_
    rcases hcard with ⟨found, subtasks, hrow, rfl⟩ | ⟨rfl, hnone⟩
    · have hmay : MayMove engine.projectId cardId column s → found.MayEnter target := by
        rintro ⟨target', found', htarget, hfound, henter⟩
        rw [hparse] at htarget
        rw [hrow] at hfound
        cases htarget
        cases hfound
        exact henter
      dsimp only
      refine Triple.ite (fun hsame => ?_) fun hother => ?_
      · refine Triple.pure fun t ht => ⟨⟨target, found, hparse, hrow, ⟨?_, fun _ => .inl hsame⟩, ?_⟩, ?_⟩
        · rw [hsame]
          exact Nat.le_succ _
        · rw [hsame, edit_moved_self hs hrow]
          exact ht
        · exact fun h => by cases h
      refine Triple.ite (fun hclosed => ?_) fun hopen => ?_
      · refine Triple.throw fun t ht => ⟨ht, fun _ h => ?_⟩
        rcases (hmay h).gate hclosed.1 with hsame | hgate
        · exact hother hsame
        · rw [hclosed.2] at hgate
          cases hgate
      refine Triple.ite (fun hfar => ?_) fun hnear => ?_
      · refine Triple.throw fun t ht => ⟨ht, fun _ h => ?_⟩
        have := (hmay h).near
        omega
      have henter : found.MayEnter target := by
        refine ⟨by omega, fun hdone => .inr ?_⟩
        by_contra hgate
        exact hopen ⟨hdone, by simpa using hgate⟩
      refine Triple.bind (R := fun _ => SameRows (edit cardId (KanbanCard.moved target) s)) ?_
        fun _ => ?_
      · refine (updateCard_spec engine s cardId _).conseq (fun _ ht => ht) (fun _ _ ht => ht) ?_
        exact fun exc t ht => ⟨ht.2, fun hsteady => absurd hsteady ht.1.unsteady⟩
      · refine (getCard_spec engine _ cardId).total.strengthen_post fun result t ht => ?_
        refine ⟨⟨target, found, hparse, hrow, henter, ht.2⟩, fun hnone => ?_⟩
        rcases ht.1 with ⟨after, subtasks, hafter, hsome⟩ | ⟨-, hlost | hfault⟩
        · rw [hsome] at hnone
          cases hnone
        · rw [row_edit_self (identified_moved target), hrow] at hlost
          cases hlost
        · exact hfault
    · refine Triple.throw fun t ht => ⟨ht, fun hsteady => ?_⟩
      rintro ⟨-, found, -, hfound, -⟩
      rcases hnone with hnone | hfault
      · rw [hnone] at hfound
        cases hfound
      · exact hfault hsteady

/-- The announcements of a move read and publish only. -/
theorem columnBefore_spec : Triple (SameRows s) (engine.columnBefore cardId)
    (fun _ t => SameRows s t) (fun _ _ => False) := by
  refine Triple.ite (fun _ => ?_) (fun _ => Triple.pure fun _ ht => ht)
  refine (getCard_spec engine s cardId).bind fun card => ?_
  exact Triple.pure fun _ ht => ht.2

theorem announceRefusal_spec : Triple (SameRows s) (engine.announceRefusal cardId column)
    (fun _ t => SameRows s t) (fun _ _ => False) := by
  refine Triple.ite (fun _ => ?_) (fun _ => Triple.pure fun _ ht => ht)
  refine (getCard_spec engine s cardId).bind fun card => ?_
  cases card with
  | none => exact Triple.pure fun _ ht => ht.2
  | some card => exact (publish_spec s _).weaken_pre fun _ ht => ht.2

theorem onRefusal_spec (exc : PyExc) {E : PyExc → KanbanState → Prop}
    (hE : ∀ t, SameRows s t → E exc t) {Q : Option KanbanCard → KanbanState → Prop} :
    Triple (SameRows s) (engine.onRefusal cardId column exc) Q E := by
  refine Triple.ite (fun _ => ?_) (fun _ => Triple.throw hE)
  exact announceRefusal_spec.total.bind fun _ => Triple.throw hE

/-- What is known of the result of a move or a block is announced; without
a result there is nothing to announce. -/
theorem deref_spec (result : Option KanbanCard) : Triple (SameRows s) (KanbanEngine.deref result)
    (fun _ t => SameRows s t)
    (fun exc t => (result = none ∧ exc.cls = .attributeError) ∧ SameRows s t) := by
  cases result with
  | none => exact Triple.throw fun _ ht => ⟨⟨rfl, rfl⟩, ht⟩
  | some card => exact Triple.pure fun _ ht => ht

theorem announceMove_spec (oldColumn : Option Column) (result : Option KanbanCard) :
    Triple (SameRows s) (engine.announceMove oldColumn result) (fun _ t => SameRows s t)
      (fun exc t => (result = none ∧ exc.cls = .attributeError) ∧ SameRows s t) := by
  refine Triple.ite (fun _ => ?_) (fun _ => Triple.pure fun _ ht => ht)
  refine (deref_spec result).bind fun card => ?_
  exact Triple.ite (fun _ => (publish_spec s _).total) fun _ => Triple.pure fun _ ht => ht

theorem announceBlock_spec (reason : String) (result : Option KanbanCard) :
    Triple (SameRows s) (engine.announceBlock reason result) (fun _ t => SameRows s t)
      (fun exc t => (result = none ∧ exc.cls = .attributeError) ∧ SameRows s t) := by
  refine Triple.ite (fun _ => ?_) (fun _ => Triple.pure fun _ ht => ht)
  exact (deref_spec result).bind fun card => (publish_spec s _).total

/-- A move of the engine: what returned was moved; what raised without a
fault of the database was not allowed and changed nothing. -/
theorem moveCard_spec (hs : s.Sequenced) :
    Triple (SameRows s) (engine.moveCard cardId column)
      (fun _ t => MovedTo engine.projectId cardId column s t)
      (fun exc t => SameRows s t ∧ (engine.Steady → ¬MayMove engine.projectId cardId column s) ∨
        (¬engine.Steady ∧ exc.cls = .attributeError) ∧
          MovedTo engine.projectId cardId column s t) := by
  refine columnBefore_spec.total.bind fun oldColumn => ?_
  refine Triple.bind (Triple.tryCatch (store_moveCard_spec hs) fun exc => ?_) fun result => ?_
  · refine (Triple.of_pre (p := engine.Steady → ¬MayMove engine.projectId cardId column s)
      fun hrefused => onRefusal_spec exc fun t ht => .inl ⟨ht, hrefused⟩).weaken_pre ?_
    exact fun t ht => ⟨ht.2, ht.1⟩
  · refine Triple.fix fun u hu => ?_
    obtain ⟨⟨target, found, hparse, hrow, henter, hu⟩, hlost⟩ := hu
    refine Triple.bind (R := fun _ => SameRows (edit cardId (KanbanCard.moved target) s)) ?_
      fun _ => Triple.pure fun t ht => ⟨target, found, hparse, hrow, henter, ht⟩
    refine (announceMove_spec oldColumn result).conseq (fun t ht => by rw [ht]; exact hu)
      (fun _ _ ht => ht) fun exc t ht => .inr ⟨⟨hlost ht.1.1, ht.1.2⟩, target, found, hparse, hrow, henter, ht.2⟩

/-- Begun work is in progress, wherever the card was. -/
theorem beginWork_spec (hs : s.Sequenced) :
    Triple (SameRows s) (engine.beginWork cardId)
      (fun _ t => ∃ found, s.row engine.projectId cardId = some found ∧
        SameRows (edit cardId (KanbanCard.moved .inProgress) s) t)
      (fun _ _ => engine.Steady → s.row engine.projectId cardId = none) := by
  refine Triple.bind (R := fun _ t => ∃ found, s.row engine.projectId cardId = some found ∧
    SameRows (edit cardId (KanbanCard.moved .todo) s) t) ?_ fun _ => Triple.fix fun t ht => ?_
  · refine (moveCard_spec hs).conseq (fun _ ht => ht) ?_ ?_
    · rintro _ t ⟨target, found, hparse, hrow, -, ht⟩
      obtain rfl : Column.todo = target := Option.some.inj (by rw [← hparse]; rfl)
      exact ⟨found, hrow, ht⟩
    · rintro exc t (⟨-, hrefused⟩ | ⟨⟨hfault, -⟩, -⟩) hsteady
      · cases hrow : s.row engine.projectId cardId with
        | none => rfl
        | some found =>
          refine absurd ⟨.todo, found, rfl, hrow, ⟨?_, fun h => by cases h⟩⟩ (hrefused hsteady)
          exact Nat.le_add_left 1 _
      · exact absurd hsteady hfault
  · obtain ⟨found, hrow, ht⟩ := ht
    have htodo : t.row engine.projectId cardId = some (found.moved .todo) := by
      rw [ht.row_eq, row_edit_self (identified_moved _), hrow]
      rfl
    refine (moveCard_spec (ht.sequenced (hs.edit (identified_moved _)))).conseq
      (fun u hu => by rw [hu]; exact SameRows.rfl) ?_ ?_
    · rintro _ u ⟨target, -, hparse, -, -, hu⟩
      obtain rfl : Column.inProgress = target := Option.some.inj (by rw [← hparse]; rfl)
      have hedits : edit cardId (KanbanCard.moved .inProgress)
          (edit cardId (KanbanCard.moved .todo) s) = edit cardId (KanbanCard.moved .inProgress) s :=
        edit_edit (identified_moved .todo)
      rw [← hedits]
      exact ⟨found, hrow, (ht.edit cardId _).trans hu⟩
    · rintro exc u (⟨-, hrefused⟩ | ⟨⟨hfault, -⟩, -⟩) hsteady
      · refine absurd ⟨.inProgress, _, rfl, htodo, ⟨?_, fun h => by cases h⟩⟩ (hrefused hsteady)
        exact le_rfl
      · exact absurd hsteady hfault

/-- Completed work is done with its gate passed. Without a fault of the
database only the first of the three steps can be refused. -/
theorem completeWork_spec (hs : s.Sequenced) :
    Triple (SameRows s) (engine.completeWork cardId)
      (fun _ t => ∃ found, s.row engine.projectId cardId = some found ∧
        SameRows (edit cardId (KanbanCard.moved .done ∘ KanbanCard.passed) s) t)
      (fun _ t => engine.Steady → SameRows s t) := by
  refine Triple.bind (R := fun _ t => ∃ found, s.row engine.projectId cardId = some found ∧
    SameRows (edit cardId (KanbanCard.moved .review) s) t) ?_ fun _ => Triple.fix fun t ht => ?_
  · refine (moveCard_spec hs).conseq (fun _ ht => ht) ?_ ?_
    · rintro _ t ⟨target, found, hparse, hrow, -, ht⟩
      obtain rfl : Column.review = target := Option.some.inj (by rw [← hparse]; rfl)
      exact ⟨found, hrow, ht⟩
    · rintro exc t (⟨ht, -⟩ | ⟨⟨hfault, -⟩, -⟩) hsteady
      · exact ht
      · exact absurd hsteady hfault
  obtain ⟨found, hrow, ht⟩ := ht
  refine Triple.bind (R := fun _ => SameRows (edit cardId KanbanCard.passed t)) ?_
    fun _ => Triple.fix fun u hu => ?_
  · refine (updateCard_spec engine t cardId KanbanCard.passed).conseq
      (fun u hu => by rw [hu]; exact SameRows.rfl) (fun _ _ hu => hu) ?_
    exact fun exc u hu hsteady => absurd hsteady hu.1.unsteady
  have hrowDone : u.row engine.projectId cardId = some (found.moved .review).passed := by
    rw [hu.row_eq, row_edit_self identified_passed, ht.row_eq,
      row_edit_self (identified_moved _), hrow]
    rfl
  have hkeys : u.Sequenced :=
    hu.sequenced ((ht.sequenced (hs.edit (identified_moved _))).edit identified_passed)
  refine (moveCard_spec hkeys).conseq (fun v hv => by rw [hv]; exact SameRows.rfl) ?_ ?_
  · rintro _ v ⟨target, -, hparse, -, -, hv⟩
    obtain rfl : Column.done = target := Option.some.inj (by rw [← hparse]; rfl)
    have hedits : edit cardId (KanbanCard.moved .done)
        (edit cardId KanbanCard.passed (edit cardId (KanbanCard.moved .review) s)) =
        edit cardId (KanbanCard.moved .done ∘ KanbanCard.passed) s := by
      rw [edit_edit (identified_moved _), edit_edit (identified_passed.comp (identified_moved _))]
      rfl
    rw [← hedits]
    exact ⟨found, hrow, (((ht.edit cardId _).trans hu).edit cardId _).trans hv⟩
  · rintro exc v (⟨-, hrefused⟩ | ⟨⟨hfault, -⟩, -⟩) hsteady
    · exact absurd ⟨.done, _, rfl, hrowDone, ⟨le_rfl, fun _ => .inr rfl⟩⟩ (hrefused hsteady)
    · exact absurd hsteady hfault

end Moves

/-- A rule about well-kept rows that each single write keeps. -/
structure Durable (I : KanbanState → Prop) : Prop where
  sequenced : ∀ s, I s → s.Sequenced
  rows : ∀ s t, SameRows s t → I s → I t
  board : ∀ s projectId name, I s → I (s.withBoard projectId name)
  card : ∀ s (card : KanbanCard), I s → card.id = s.cardSeq + 1 → card.boardId ≤ s.boardSeq →
    card.column = .backlog → I { s with cards := s.cards ++ [card], cardSeq := s.cardSeq + 1 }
  moved : ∀ s projectId cardId target found, I s → s.row projectId cardId = some found →
    found.MayEnter target → I (edit cardId (KanbanCard.moved target) s)
  passed : ∀ s cardId, I s → I (edit cardId KanbanCard.passed s)
  blocked : ∀ s cardId reason, I s → I (edit cardId (KanbanCard.withBlock reason) s)
  subtasks : ∀ s subtasks subtaskSeq, I s → I { s with subtasks, subtaskSeq }

section Durable

variable {engine : KanbanEngine} {s t : KanbanState} {cardId : ℕ} {I : KanbanState → Prop}
  (hI : Durable I)
include hI

theorem MovedTo.durable {projectId column : String} (hs : I s)
    (h : MovedTo projectId cardId column s t) : I t := by
  obtain ⟨target, found, -, hrow, henter, ht⟩ := h
  exact hI.rows _ _ ht (hI.moved s projectId cardId target found hs hrow henter)

theorem moveCard_durable (column : String) : Keeps I (engine.moveCard cardId column) := by
  refine Triple.fix fun s hs => (moveCard_spec (hI.sequenced s hs)).conseq
    (fun t ht => by rw [ht]; exact SameRows.rfl) ?_ ?_
  · exact fun _ _ ht => ht.durable hI hs
  · rintro exc t (⟨ht, -⟩ | ⟨-, ht⟩)
    · exact hI.rows _ _ ht hs
    · exact ht.durable hI hs

theorem passTddGate_durable : Keeps I (engine.passTddGate cardId) :=
  execute_keeps hI.rows fun s hs => hI.passed s cardId hs

theorem blockCard_durable (reason : String) : Keeps I (engine.blockCard cardId reason) := by
  have hset : Keeps I (KanbanStore.setBlocked engine cardId reason) :=
    (execute_keeps hI.rows fun s hs => hI.blocked s cardId reason hs).bind fun _ =>
      (getCard_quiet cardId).keeps hI.rows
  refine Triple.bind hset fun result => Triple.bind (R := fun _ => I) ?_ fun _ =>
    Triple.pure fun _ ht => ht
  refine Quiet.keeps hI.rows fun s => ?_
  exact (announceBlock_spec reason result).conseq (fun _ ht => ht) (fun _ _ ht => ht)
    fun _ _ ht => ht.2

theorem createBoard_durable (name : String) : Keeps I (engine.createBoard name) := by
  refine Triple.bind (R := fun _ => I) ?_ fun _ => fun t ht => ht
  exact execute_keeps hI.rows fun s hs => hI.board s engine.projectId name hs

omit hI in
/-- A board that exists has a key. -/
theorem KanbanState.Sequenced.board_le {boardId : ℕ} (hs : s.Sequenced)
    (h : (s.boards.any fun board => board.id == boardId) = true) : boardId ≤ s.boardSeq := by
  obtain ⟨board, hmem, hid⟩ := List.any_eq_true.mp h
  have hle := hs.boards board hmem
  rwa [beq_iff_eq.mp hid] at hle

omit hI in
/-- A new card is inserted on a board that exists, or nothing is. -/
theorem createCard_spec (s : KanbanState) (boardId : ℕ) (title : Json) (description : String) :
    Triple (SameRows s) (engine.createCard boardId title description)
      (fun _ t => (s.boards.any fun board => board.id == boardId) = true ∧
        SameRows { s with
          cards := s.cards ++
            [{ id := s.cardSeq + 1, boardId, title, description, projectId := engine.projectId }]
          cardSeq := s.cardSeq + 1 } t)
      (fun exc t => (engine.Faulty exc ∨ exc.cls ≠ kanbanError) ∧ SameRows s t) := by
  unfold KanbanEngine.createCard KanbanStore.createCard
  cases htitle : bindText title with
  | error exc => exact Triple.throw fun t ht => ⟨.inr (bindText_cls htitle), ht⟩
  | ok bound =>
    refine Triple.fix fun t ht => ?_
    refine Triple.bind (R := fun found u => found = t ∧ u = t)
      (Triple.get fun u hu => ⟨hu, hu⟩) fun found => Triple.of_pre fun hfound => ?_
    rw [hfound, ht.boards]
    refine Triple.ite (fun hboard => ?_) fun _ => Triple.throw fun u hu => ?_
    · refine Triple.bind (R := fun _ u => SameRows _ u) ?_ fun _ => fun u hu => ⟨hboard, hu⟩
      refine (execute_spec engine s fun u hu => ?_).conseq (fun u hu => by rw [hu]; exact ht)
        (fun _ _ hu => hu) fun exc u hu => ⟨.inl hu.1, hu.2⟩
      refine ⟨⟨hu.boards, ?_, hu.boardSeq, ?_⟩, hu.subtasks, hu.subtaskSeq⟩
      · change u.cards ++ _ = s.cards ++ _
        rw [hu.cards, hu.cardSeq]
      · change u.cardSeq + 1 = s.cardSeq + 1
        rw [hu.cardSeq]
    · rw [hu]
      exact ⟨.inr fun h => (by cases h), ht⟩

theorem createCard_durable (boardId : ℕ) (title : Json) (description : String) :
    Keeps I (engine.createCard boardId title description) := by
  refine Triple.fix fun s hs => (createCard_spec s boardId title description).conseq
    (fun t ht => by rw [ht]; exact SameRows.rfl) ?_ fun exc t ht => hI.rows _ _ ht.2 hs
  intro card t ht
  exact hI.rows _ _ ht.2 (hI.card s _ hs rfl ((hI.sequenced s hs).board_le ht.1) rfl)

omit hI in
/-- A new subtask is inserted on a card that exists, or nothing is. -/
theorem createSubtask_spec (s : KanbanState) (description : String) :
    Triple (SameRows s) (engine.createSubtask cardId description)
      (fun _ t => SameRows { s with
        subtasks := s.subtasks ++ [{ id := s.subtaskSeq + 1, cardId, description }]
        subtaskSeq := s.subtaskSeq + 1 } t)
      (fun exc t => (engine.Faulty exc ∨ exc.cls ≠ kanbanError) ∧ SameRows s t) := by
  have hstore : Triple (SameRows s) (KanbanStore.createSubtask engine cardId description)
      (fun _ t => SameRows { s with
        subtasks := s.subtasks ++ [{ id := s.subtaskSeq + 1, cardId, description }]
        subtaskSeq := s.subtaskSeq + 1 } t)
      (fun exc t => (engine.Faulty exc ∨ exc.cls ≠ kanbanError) ∧ SameRows s t) := by
    refine Triple.bind (R := fun _ => SameRows s) (Triple.get fun t ht => ht) fun found => ?_
    refine Triple.ite (fun _ => ?_) fun _ => Triple.throw fun t ht => ⟨.inr fun h => (by cases h), ht⟩
    refine Triple.bind (R := fun _ u => SameRows _ u) ?_ fun _ => fun u hu => hu
    refine (execute_spec engine s fun u hu => ?_).conseq (fun _ hu => hu)
      (fun _ _ hu => hu) fun exc u hu => ⟨.inl hu.1, hu.2⟩
    refine ⟨⟨hu.boards, hu.cards, hu.boardSeq, hu.cardSeq⟩, ?_, ?_⟩
    · change u.subtasks ++ _ = s.subtasks ++ _
      rw [hu.subtasks, hu.subtaskSeq]
    · change u.subtaskSeq + 1 = s.subtaskSeq + 1
      rw [hu.subtaskSeq]
  refine hstore.bind fun subtask => ?_
  refine Triple.bind (R := fun _ => SameRows _) ?_ fun _ => Triple.pure fun _ hu => hu
  exact Triple.ite (fun _ => (publish_spec _ _).total) fun _ => Triple.pure fun _ hu => hu

theorem createSubtask_durable (description : String) :
    Keeps I (engine.createSubtask cardId description) :=
  Triple.fix fun s hs => (createSubtask_spec s description).conseq
    (fun t ht => by rw [ht]; exact SameRows.rfl)
    (fun _ t ht => hI.rows _ _ ht (hI.subtasks s _ _ hs)) fun exc t ht => hI.rows _ _ ht.2 hs

theorem completeSubtask_durable (subtaskId : ℕ) : Keeps I (engine.completeSubtask subtaskId) := by
  refine Triple.bind (R := fun _ => I) ?_ fun _ => (publishWhenWired_quiet _).keeps hI.rows
  exact execute_keeps hI.rows fun s hs => hI.subtasks s _ _ hs

/-- Every operation keeps a durable rule, whether it returns or raises. -/
theorem perform_durable (operation : KanbanOperation) : Keeps I (engine.perform operation) := by
  have hanswer : ∀ {α β : Type} {x : KanbanM α} (f : α → β), Keeps I x →
      Keeps I (x >>= fun a => pure (f a)) :=
    fun f hx => hx.bind fun _ => Triple.pure fun _ ht => ht
  cases operation with
  | createBoard name => exact hanswer _ (createBoard_durable hI name)
  | getBoard boardId => exact hanswer _ ((getBoard_quiet boardId).keeps hI.rows)
  | listBoards => exact hanswer _ (listBoards_quiet.keeps hI.rows)
  | createCard boardId title description =>
    exact hanswer _ (createCard_durable hI boardId title description)
  | getCard cardId => exact hanswer _ ((getCard_quiet cardId).keeps hI.rows)
  | listCards boardId => exact hanswer _ ((listCards_quiet boardId).keeps hI.rows)
  | moveCard cardId column => exact hanswer _ (moveCard_durable hI column)
  | blockCard cardId reason => exact hanswer _ (blockCard_durable hI reason)
  | passTddGate cardId => exact hanswer _ (passTddGate_durable hI)
  | beginWork cardId =>
    exact hanswer _ (Triple.bind (moveCard_durable hI "Todo") fun _ =>
      moveCard_durable hI "InProgress")
  | completeWork cardId =>
    exact hanswer _ (Triple.bind (moveCard_durable hI "Review") fun _ =>
      Triple.bind (passTddGate_durable hI) fun _ => moveCard_durable hI "Done")
  | createSubtask cardId description => exact hanswer _ (createSubtask_durable hI description)
  | completeSubtask subtaskId => exact hanswer _ (completeSubtask_durable hI subtaskId)

/-- A durable rule holds after any operations of any engines. -/
theorem performAll_durable (hs : I s) (operations : List (KanbanEngine × KanbanOperation)) :
    I (s.performAll operations) := by
  induction operations generalizing s with
  | nil => exact hs
  | cons step rest ih => exact ih ((perform_durable hI step.2).after hs)

end Durable

/-- The tables are well kept, and every card in `Done` has passed its gate. -/
structure Green (s : KanbanState) : Prop where
  sequenced : s.Sequenced
  done : ∀ card ∈ s.cards, card.column = .done → card.tddGate = true

section Green

variable {s t : KanbanState} {cardId : ℕ}

/-- An update that leaves the row it is for as the rule wants it. -/
theorem Green.edit {change : KanbanCard → KanbanCard} (hs : Green s) (h : Identified change)
    (hchange : ∀ card ∈ s.cards, card.id = cardId → (change card).column = .done →
      (change card).tddGate = true) : Green (edit cardId change s) := by
  refine ⟨hs.sequenced.edit h, fun card hcard => ?_⟩
  obtain ⟨old, hold, rfl⟩ := List.mem_map.mp hcard
  split
  · exact hchange old hold ‹_›
  · exact hs.done old hold

theorem green_durable : Durable Green where
  sequenced _ hs := hs.sequenced
  rows s t ht hs := by
    refine ⟨ht.sequenced hs.sequenced, ?_⟩
    rw [ht.cards]
    exact hs.done
  board s projectId name hs := ⟨hs.sequenced.withBoard name, hs.done⟩
  card s card hs hid hboard hcolumn := by
    refine ⟨hs.sequenced.addCard hid hboard, fun row hrow hdone => ?_⟩
    rcases List.mem_append.mp hrow with hold | hnew
    · exact hs.done row hold hdone
    · rw [List.mem_singleton.mp hnew, hcolumn] at hdone
      cases hdone
  moved s projectId cardId target found hs hrow henter := by
    refine hs.edit (identified_moved target) fun card hcard hid hdone => ?_
    obtain rfl := row_unique hs.sequenced hrow hcard hid
    rcases henter.gate hdone with hsame | hgate
    · exact hs.done card hcard (hsame.symm.trans hdone)
    · exact hgate
  passed s cardId hs := hs.edit identified_passed fun _ _ _ _ => rfl
  blocked s cardId reason hs := hs.edit (identified_withBlock reason) fun card hcard _ => hs.done card hcard
  subtasks s subtasks subtaskSeq hs :=
    ⟨⟨hs.sequenced.keys, hs.sequenced.boards, hs.sequenced.cards, hs.sequenced.owned⟩, hs.done⟩

/-- A card was moved by at most one column ahead, and no other card. -/
def Advanced (projectId : String) (cardId : ℕ) (s t : KanbanState) : Prop :=
  (∃ earlier later, s.row projectId cardId = some earlier ∧ t.row projectId cardId = some later ∧
    later.column.index ≤ earlier.column.index + 1) ∧
  ∀ project other, other ≠ cardId → t.row project other = s.row project other

/-- What an engine guarantees about the flow of the cards in one state. -/
structure Flows (engine : KanbanEngine) (s : KanbanState) : Prop where
  done : ∀ card ∈ s.cards, card.column = .done → card.tddGate = true
  moves : ∀ cardId column result t, engine.moveCard cardId column s = .ok result t →
    Advanced engine.projectId cardId s t
  refuses : ∀ cardId column exc t, engine.moveCard cardId column s = .error exc t →
    engine.Steady ∨ exc.cls = kanbanError → SameRows s t
  begins : engine.Steady → ∀ card ∈ s.cards, card.projectId = engine.projectId →
    ∃ result t, engine.beginWork card.id s = .ok result t ∧
      ∃ later, t.row engine.projectId card.id = some later ∧ later.column = .inProgress
  completes : engine.Steady → ∀ cardId, match engine.completeWork cardId s with
    | .ok _ t => ∃ later, t.row engine.projectId cardId = some later ∧ later.column = .done ∧
        later.tddGate = true
    | .error _ t => SameRows s t

theorem MovedTo.advanced {projectId column : String} (h : MovedTo projectId cardId column s t) :
    Advanced projectId cardId s t := by
  obtain ⟨target, found, -, hrow, henter, ht⟩ := h
  refine ⟨⟨found, found.moved target, hrow, ?_, henter.near⟩, fun project other hother => ?_⟩
  · rw [ht.row_eq, row_edit_self (identified_moved target), hrow]
    rfl
  · rw [ht.row_eq, row_edit_other (identified_moved target) hother]

theorem Green.flows (hs : Green s) (engine : KanbanEngine) : Flows engine s where
  done := hs.done
  moves cardId column result t hmove :=
    ((moveCard_spec hs.sequenced).of_ok SameRows.rfl hmove).advanced
  refuses cardId column exc t hmove hrefused := by
    rcases (moveCard_spec hs.sequenced).of_error SameRows.rfl hmove with ht | ⟨⟨hfault, hcls⟩, -⟩
    · exact ht.1
    · rcases hrefused with hsteady | hkanban
      · exact absurd hsteady hfault
      · rw [hcls] at hkanban
        cases hkanban
  begins hsteady card hcard hproject := by
    have hrow := row_of_mem hs.sequenced hcard hproject
    have hspec : Triple (SameRows s) (engine.beginWork card.id) _ _ := beginWork_spec hs.sequenced
    have hbegin := hspec s SameRows.rfl
    cases hrun : engine.beginWork card.id s with
    | ok result t =>
      rw [hrun] at hbegin
      obtain ⟨found, hfound, ht⟩ := hbegin
      refine ⟨result, t, rfl, found.moved .inProgress, ?_, rfl⟩
      rw [ht.row_eq, row_edit_self (identified_moved _), hfound]
      rfl
    | error exc t =>
      rw [hrun] at hbegin
      have hnone := hbegin hsteady
      rw [hrow] at hnone
      cases hnone
  completes hsteady cardId := by
    have hspec : Triple (SameRows s) (engine.completeWork cardId) _ _ :=
      completeWork_spec hs.sequenced
    have hcomplete := hspec s SameRows.rfl
    cases hrun : engine.completeWork cardId s with
    | ok result t =>
      rw [hrun] at hcomplete
      obtain ⟨found, hfound, ht⟩ := hcomplete
      refine ⟨(KanbanCard.moved .done ∘ KanbanCard.passed) found, ?_, rfl, rfl⟩
      rw [ht.row_eq, row_edit_self ((identified_moved _).comp identified_passed), hfound]
      rfl
    | error exc t =>
      rw [hrun] at hcomplete
      exact hcomplete hsteady

end Green

/-- From tables without cards, whatever is done to them and by which engines,
the cards flow as they should for every engine. -/
theorem performAll_flows {start : KanbanState} (hstart : start.Sequenced)
    (hempty : start.cards = []) (operations : List (KanbanEngine × KanbanOperation))
    (engine : KanbanEngine) : Flows engine (start.performAll operations) := by
  have hgreen : Green start := ⟨hstart, fun card hcard => by rw [hempty] at hcard; cases hcard⟩
  exact (performAll_durable green_durable hgreen operations).flows engine

/-- One card of an empty database goes through the flow. -/
theorem performAll_flows_single : Flows { projectId := "/p" }
    (KanbanState.performAll {} [({ projectId := "/p" }, .createBoard "Sprint"),
      ({ projectId := "/p" }, .createCard 1 (.str "card") ""),
      ({ projectId := "/p" }, .beginWork 1), ({ projectId := "/p" }, .completeWork 1)]) :=
  performAll_flows Sequenced.empty rfl _ _

end AiosDeck.Scheduler
