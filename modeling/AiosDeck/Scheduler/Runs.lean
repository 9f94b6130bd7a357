import AiosDeck.Logic.Program
import AiosDeck.Scheduler.Engine

/-!
# Runs of the kanban operations

What the operations on boards and cards do to the tables when the database
answers every statement. A card keeps its key, board, title and project in
all of them.
-/

namespace AiosDeck.Scheduler

open Python Program

namespace KanbanState

/-- What the primary key, `AUTOINCREMENT` and the foreign key of the cards
guarantee. -/
structure Sequenced (s : KanbanState) : Prop where
  keys : (s.cards.map KanbanCard.id).Nodup
  boards : ∀ board ∈ s.boards, board.id ≤ s.boardSeq
  cards : ∀ card ∈ s.cards, card.id ≤ s.cardSeq
  owned : ∀ card ∈ s.cards, card.boardId ≤ s.boardSeq

/-- An empty database is well kept. -/
theorem Sequenced.empty : Sequenced {} := by
  constructor
  · exact List.nodup_nil
  · exact fun _ h => by cases h
  · exact fun _ h => by cases h
  · exact fun _ h => by cases h

/-- The cards of a board, in the order of their keys. -/
def cardsOf (s : KanbanState) (boardId : ℕ) : List KanbanCard :=
  s.cards.filter fun card => card.boardId = boardId

/-- The row that a lookup of a card finds. -/
def row (s : KanbanState) (projectId : String) (cardId : ℕ) : Option KanbanCard :=
  (s.cards.filter fun card => card.id = cardId ∧ card.projectId = projectId).head?

/-- The tables after an update of the card with this key. -/
def edit (cardId : ℕ) (change : KanbanCard → KanbanCard) (s : KanbanState) : KanbanState :=
  { s with cards := s.cards.map fun card => if card.id = cardId then change card else card }

/-- The tables with one more board. -/
def withBoard (projectId name : String) (s : KanbanState) : KanbanState :=
  { s with
    boards := s.boards ++ [{ id := s.boardSeq + 1, name, projectId }]
    boardSeq := s.boardSeq + 1 }

/-- The tables with one more card. -/
def withCard (projectId : String) (boardId : ℕ) (title : Json) (s : KanbanState) : KanbanState :=
  { s with
    cards := s.cards ++ [{ id := s.cardSeq + 1, boardId, title, projectId }]
    cardSeq := s.cardSeq + 1 }

/-- The same boards and cards; the statements and events may differ. -/
structure SameTables (s t : KanbanState) : Prop where
  boards : t.boards = s.boards
  cards : t.cards = s.cards
  boardSeq : t.boardSeq = s.boardSeq
  cardSeq : t.cardSeq = s.cardSeq

theorem SameTables.rfl {s : KanbanState} : SameTables s s :=
  ⟨Eq.refl _, Eq.refl _, Eq.refl _, Eq.refl _⟩

/-- An update that keeps what identifies a card. -/
structure Identified (change : KanbanCard → KanbanCard) : Prop where
  id : ∀ card, (change card).id = card.id
  boardId : ∀ card, (change card).boardId = card.boardId
  title : ∀ card, (change card).title = card.title
  projectId : ∀ card, (change card).projectId = card.projectId

variable {s t : KanbanState} {projectId : String} {cardId other : ℕ}
  {change later : KanbanCard → KanbanCard}

theorem SameTables.sequenced (h : SameTables s t) (hs : s.Sequenced) : t.Sequenced := by
  obtain ⟨hkeys, hboards, hcards, howned⟩ := hs
  constructor
  · rw [h.cards]
    exact hkeys
  · rw [h.boards, h.boardSeq]
    exact hboards
  · rw [h.cards, h.cardSeq]
    exact hcards
  · rw [h.cards, h.boardSeq]
    exact howned

theorem SameTables.row_eq (h : SameTables s t) : t.row projectId cardId = s.row projectId cardId := by
  unfold row
  rw [h.cards]

theorem SameTables.cardsOf_eq (h : SameTables s t) (boardId : ℕ) :
    t.cardsOf boardId = s.cardsOf boardId := by
  unfold cardsOf
  rw [h.cards]

/-- An update after an update of the same card. -/
theorem edit_edit (h : Identified change) :
    edit cardId later (edit cardId change s) = edit cardId (later ∘ change) s := by
  unfold edit
  simp only [List.map_map]
  congr 1
  refine List.map_congr_left fun card _ => ?_
  by_cases hid : card.id = cardId
  · simp [hid, h.id]
  · simp [hid]

/-- A row that was found is a row with that key. -/
theorem row_id {found : KanbanCard} (h : s.row projectId cardId = some found) :
    found.id = cardId := by
  have hmem := List.mem_of_mem_head? (Option.mem_def.mpr h)
  have hkey : found.id = cardId ∧ found.projectId = projectId := by
    simpa using (List.mem_filter.mp hmem).2
  exact hkey.1

/-- Update one card among others. -/
theorem filter_edit {accepts : KanbanCard → Bool}
    (hkept : ∀ card, accepts (change card) = accepts card) :
    (edit cardId change s).cards.filter accepts =
      (s.cards.filter accepts).map fun card => if card.id = cardId then change card else card := by
  unfold edit
  rw [List.filter_map]
  congr 2
  funext card
  by_cases hid : card.id = cardId
  · simp [hid, hkept]
  · simp [hid]

theorem row_edit_self (h : Identified change) :
    (edit cardId change s).row projectId cardId = (s.row projectId cardId).map change := by
  have hedit : (edit cardId change s).row projectId cardId = (s.row projectId cardId).map
      fun card => if card.id = cardId then change card else card := by
    unfold row
    rw [filter_edit fun card => by simp [h.id, h.projectId], List.head?_map]
  rw [hedit]
  cases hfound : s.row projectId cardId with
  | none => rfl
  | some found => simp [row_id hfound]

theorem row_edit_other (h : Identified change) (hne : other ≠ cardId) :
    (edit cardId change s).row projectId other = s.row projectId other := by
  have hedit : (edit cardId change s).row projectId other = (s.row projectId other).map
      fun card => if card.id = cardId then change card else card := by
    unfold row
    rw [filter_edit fun card => by simp [h.id, h.projectId], List.head?_map]
  rw [hedit]
  cases hfound : s.row projectId other with
  | none => rfl
  | some found => simp [row_id hfound, hne]

/-- The cards of a board after an update of one card. -/
theorem cardsOf_edit (h : Identified change) (boardId : ℕ) :
    (edit cardId change s).cardsOf boardId =
      (s.cardsOf boardId).map fun card => if card.id = cardId then change card else card := by
  unfold cardsOf
  exact filter_edit fun card => by simp [h.boardId]

theorem Sequenced.edit (hs : s.Sequenced) (h : Identified change) :
    (edit cardId change s).Sequenced := by
  constructor
  · have hids : (KanbanState.edit cardId change s).cards.map KanbanCard.id = s.cards.map KanbanCard.id := by
      dsimp only [KanbanState.edit]
      rw [List.map_map]
      refine List.map_congr_left fun card _ => ?_
      by_cases hid : card.id = cardId <;> simp [hid, h.id]
    rw [hids]
    exact hs.keys
  · exact hs.boards
  · intro card hcard
    obtain ⟨old, hold, rfl⟩ := List.mem_map.mp hcard
    have hle := hs.cards old hold
    dsimp only [KanbanState.edit]
    split
    · rw [h.id]
      exact hle
    · exact hle
  · intro card hcard
    obtain ⟨old, hold, rfl⟩ := List.mem_map.mp hcard
    have hle := hs.owned old hold
    dsimp only [KanbanState.edit]
    split
    · rw [h.boardId]
      exact hle
    · exact hle

theorem Sequenced.withBoard (hs : s.Sequenced) (name : String) :
    (s.withBoard projectId name).Sequenced := by
  constructor
  · exact hs.keys
  · intro board hboard
    rcases List.mem_append.mp hboard with hold | hnew
    · exact (hs.boards board hold).trans (Nat.le_succ _)
    · rw [List.mem_singleton.mp hnew]
      exact le_rfl
  · exact hs.cards
  · exact fun card hcard => (hs.owned card hcard).trans (Nat.le_succ _)

/-- A new row with the next key, on a board that has a key. -/
theorem Sequenced.addCard (hs : s.Sequenced) {card : KanbanCard} (hid : card.id = s.cardSeq + 1)
    (hboard : card.boardId ≤ s.boardSeq) :
    KanbanState.Sequenced { s with cards := s.cards ++ [card], cardSeq := s.cardSeq + 1 } := by
  constructor
  · rw [List.map_append, List.nodup_append]
    refine ⟨hs.keys, List.nodup_singleton _, ?_⟩
    intro old hold new hnew
    obtain ⟨row, hrow, rfl⟩ := List.mem_map.mp hold
    have hle := hs.cards row hrow
    have heq : new = s.cardSeq + 1 := by simpa [hid] using hnew
    omega
  · exact hs.boards
  · intro row hrow
    rcases List.mem_append.mp hrow with hold | hnew
    · exact (hs.cards row hold).trans (Nat.le_succ _)
    · rw [List.mem_singleton.mp hnew]
      exact hid.le
  · intro row hrow
    rcases List.mem_append.mp hrow with hold | hnew
    · exact hs.owned row hold
    · rw [List.mem_singleton.mp hnew]
      exact hboard

theorem Sequenced.withCard (hs : s.Sequenced) {boardId : ℕ} (hboard : boardId ≤ s.boardSeq)
    (title : Json) : (s.withCard projectId boardId title).Sequenced :=
  hs.addCard rfl hboard

/-- A card of the project is the row that a lookup of its key finds. -/
theorem row_of_mem (hs : s.Sequenced) {found : KanbanCard} (hmem : found ∈ s.cards)
    (hproject : found.projectId = projectId) : s.row projectId found.id = some found := by
  have hfilter : found ∈ s.cards.filter fun card =>
      card.id = found.id ∧ card.projectId = projectId :=
    List.mem_filter.mpr ⟨hmem, by simp [hproject]⟩
  have hsome : ∃ first, s.row projectId found.id = some first := by
    cases hrow : s.row projectId found.id with
    | none =>
      rw [List.head?_eq_none_iff.mp hrow] at hfilter
      cases hfilter
    | some first => exact ⟨first, rfl⟩
  obtain ⟨first, hfirst⟩ := hsome
  have hfirstMem := (List.mem_filter.mp (List.mem_of_mem_head? (Option.mem_def.mpr hfirst))).1
  have heq := List.inj_on_of_nodup_map hs.keys hfirstMem hmem (row_id hfirst)
  rw [hfirst, heq]

/-- Among rows with different keys, an update by key is an update in place. -/
theorem map_eq_modify {rows : List KanbanCard} (hkeys : (rows.map KanbanCard.id).Nodup) {k : ℕ}
    {found : KanbanCard} (hfound : rows[k]? = some found) :
    (rows.map fun card => if card.id = found.id then change card else card) =
      rows.modify k change := by
  refine List.ext_getElem? fun position => ?_
  rw [List.getElem?_map, List.getElem?_modify]
  cases hrow : rows[position]? with
  | none => rfl
  | some row =>
    by_cases heq : k = position
    · subst heq
      rw [hfound] at hrow
      cases hrow
      simp
    · have hne : row.id ≠ found.id := by
        intro hid
        have hbound : position < (rows.map KanbanCard.id).length := by
          rw [List.length_map]
          exact (List.getElem?_eq_some_iff.mp hrow).1
        refine heq ((List.getElem?_inj hbound hkeys).mp ?_).symm
        rw [List.getElem?_map, List.getElem?_map, hrow, hfound]
        exact congrArg some hid
      simp [hne, heq]

/-- The rows of a board have different keys. -/
theorem Sequenced.cardsOf_keys (hs : s.Sequenced) (boardId : ℕ) :
    ((s.cardsOf boardId).map KanbanCard.id).Nodup :=
  List.Nodup.sublist (List.filter_sublist.map KanbanCard.id) hs.keys

/-- The cards of a board after an update of the one at position `k`. -/
theorem cardsOf_edit_at (hs : s.Sequenced) (h : Identified change) {boardId k : ℕ}
    {found : KanbanCard} (hfound : (s.cardsOf boardId)[k]? = some found) :
    (edit found.id change s).cardsOf boardId = (s.cardsOf boardId).modify k change := by
  rw [cardsOf_edit h]
  exact map_eq_modify (hs.cardsOf_keys boardId) hfound

/-- A field that an update keeps is the same in all rows. -/
theorem map_modify_of_kept {α : Type} {rows : List KanbanCard} {field : KanbanCard → α}
    (hkept : ∀ card, field (change card) = field card) (k : ℕ) :
    (rows.modify k change).map field = rows.map field := by
  refine List.ext_getElem? fun position => ?_
  rw [List.getElem?_map, List.getElem?_map, List.getElem?_modify]
  cases rows[position]? with
  | none => rfl
  | some row =>
    by_cases heq : k = position <;> simp [heq, hkept]

/-- A new board has no cards. -/
theorem cardsOf_withBoard (hs : s.Sequenced) (name : String) :
    (s.withBoard projectId name).cardsOf (s.boardSeq + 1) = [] := by
  refine List.filter_eq_nil_iff.mpr fun card hcard => ?_
  have hle := hs.owned card hcard
  simp only [decide_eq_true_eq]
  omega

/-- A card is added at the end of its board. -/
theorem cardsOf_withCard (boardId : ℕ) (title : Json) :
    (s.withCard projectId boardId title).cardsOf boardId =
      s.cardsOf boardId ++ [{ id := s.cardSeq + 1, boardId, title, projectId }] := by
  unfold cardsOf withCard
  rw [List.filter_append]
  simp

/-- A new card hides no older one. -/
theorem row_withCard_old (boardId : ℕ) (title : Json) (hle : cardId ≤ s.cardSeq) :
    (s.withCard projectId boardId title).row projectId cardId = s.row projectId cardId := by
  have hne : s.cardSeq + 1 ≠ cardId := by omega
  unfold row withCard
  rw [List.filter_append]
  simp [hne]

/-- A new card is found under its fresh key. -/
theorem row_withCard_new (hs : s.Sequenced) (boardId : ℕ) (title : Json) :
    (s.withCard projectId boardId title).row projectId (s.cardSeq + 1) =
      some { id := s.cardSeq + 1, boardId, title, projectId } := by
  have hfresh : (s.cards.filter fun card =>
      card.id = s.cardSeq + 1 ∧ card.projectId = projectId) = [] := by
    refine List.filter_eq_nil_iff.mpr fun card hcard => ?_
    have hle := hs.cards card hcard
    simp only [decide_eq_true_eq, not_and]
    omega
  unfold row withCard
  rw [List.filter_append, hfresh]
  simp

end KanbanState

open KanbanState

/-- Move a row to a column. -/
def KanbanCard.moved (column : Column) (card : KanbanCard) : KanbanCard := { card with column }

/-- A row that passed its gate. -/
def KanbanCard.passed (card : KanbanCard) : KanbanCard := { card with tddGate := true }

/-- A row that is blocked. -/
def KanbanCard.withBlock (reason : String) (card : KanbanCard) : KanbanCard :=
  { card with blocked := true, blockReason := reason }

theorem KanbanState.Identified.comp {change later : KanbanCard → KanbanCard}
    (hl : Identified later) (h : Identified change) : Identified (later ∘ change) where
  id card := (hl.id _).trans (h.id card)
  boardId card := (hl.boardId _).trans (h.boardId card)
  title card := (hl.title _).trans (h.title card)
  projectId card := (hl.projectId _).trans (h.projectId card)

theorem identified_moved (column : Column) : Identified (KanbanCard.moved column) :=
  ⟨fun _ => rfl, fun _ => rfl, fun _ => rfl, fun _ => rfl⟩

theorem identified_passed : Identified KanbanCard.passed :=
  ⟨fun _ => rfl, fun _ => rfl, fun _ => rfl, fun _ => rfl⟩

theorem identified_withBlock (reason : String) : Identified (KanbanCard.withBlock reason) :=
  ⟨fun _ => rfl, fun _ => rfl, fun _ => rfl, fun _ => rfl⟩

section Answered

variable {engine : KanbanEngine} (hf : engine.fault = fun _ => none)
include hf

theorem statement_run (s : KanbanState) :
    Triple (SameTables s) (KanbanStore.statement engine)
      (fun found t => found = none ∧ SameTables s t) (fun _ _ => False) := by
  intro t ht
  exact ⟨congrFun hf _, ht.boards, ht.cards, ht.boardSeq, ht.cardSeq⟩

theorem execute_run (s : KanbanState) {effect : KanbanState → KanbanState}
    (heffect : ∀ t, SameTables s t → SameTables (effect s) (effect t)) :
    Triple (SameTables s) (KanbanStore.execute engine effect)
      (fun _ t => SameTables (effect s) t) (fun _ _ => False) := by
  refine (statement_run hf s).bind fun found => ?_
  rintro t ⟨rfl, ht⟩
  exact heffect t ht

theorem fetchAll_run {α : Type} (s : KanbanState) (query : KanbanState → List α)
    (hquery : ∀ t, SameTables s t → query t = query s) :
    Triple (SameTables s) (KanbanStore.fetchAll engine query)
      (fun rows t => rows = query s ∧ SameTables s t) (fun _ _ => False) := by
  refine (statement_run hf s).bind fun found => ?_
  rintro t ⟨rfl, ht⟩
  exact ⟨hquery t ht, ht⟩

/-- A read of a card finds its row, and completes it with some subtasks. -/
theorem getCard_run (s : KanbanState) (cardId : ℕ) {found : KanbanCard}
    (h : s.row engine.projectId cardId = some found) :
    Triple (SameTables s) (KanbanStore.getCard engine cardId)
      (fun card t => (∃ subtasks, card = some { found with subtasks }) ∧ SameTables s t)
      (fun _ _ => False) := by
  have hfetch : Triple (SameTables s)
      (KanbanStore.fetchOne engine fun s => s.cards.filter fun card =>
        card.id = cardId ∧ card.projectId = engine.projectId)
      (fun row t => row = some found ∧ SameTables s t) (fun _ _ => False) := by
    refine (fetchAll_run hf s _ fun t ht => by rw [ht.cards]).bind fun rows => ?_
    rintro t ⟨rfl, ht⟩
    exact ⟨h, ht⟩
  refine hfetch.bind fun row => ?_
  rintro t ⟨rfl, ht⟩
  have hsubtasks : Triple (SameTables s) (KanbanStore.getSubtasks engine found.id)
      (fun _ t => SameTables s t) (fun _ _ => False) := by
    refine (statement_run hf s).bind fun answer => ?_
    rintro u ⟨rfl, hu⟩
    exact hu
  rw [row_id h] at hsubtasks
  refine (hsubtasks.bind fun subtasks => ?_) t ht
  exact Triple.pure fun u hu => ⟨⟨subtasks, rfl⟩, hu⟩

theorem updateCard_run (s : KanbanState) (cardId : ℕ) (change : KanbanCard → KanbanCard) :
    Triple (SameTables s) (KanbanStore.updateCard engine cardId change)
      (fun _ t => SameTables (edit cardId change s) t) (fun _ _ => False) := by
  refine execute_run hf s fun t ht => ⟨ht.boards, ?_, ht.boardSeq, ht.cardSeq⟩
  change t.cards.map _ = s.cards.map _
  rw [ht.cards]

/-- A legal move to another column. -/
theorem store_moveCard_run (s : KanbanState) {cardId : ℕ} {found : KanbanCard}
    (h : s.row engine.projectId cardId = some found) (column : Column)
    (hne : column ≠ found.column) (hgate : column = .done → found.tddGate = true)
    (hskip : column.index ≤ found.column.index + 1) :
    Triple (SameTables s) (KanbanStore.moveCard engine cardId column.name)
      (fun result t => result.isSome = true ∧ SameTables (edit cardId (KanbanCard.moved column) s) t)
      (fun _ _ => False) := by
  unfold KanbanStore.moveCard
  rw [Column.parse_name]
  refine (getCard_run hf s cardId h).bind fun card => ?_
  rintro t ⟨⟨subtasks, rfl⟩, ht⟩
  have hclosed : ¬(column = .done ∧ found.tddGate = false) := by
    rintro ⟨hdone, hopen⟩
    rw [hgate hdone] at hopen
    cases hopen
  have hnoskip : ¬found.column.index + 1 < column.index := by omega
  dsimp only
  rw [if_neg hne, if_neg hclosed, if_neg hnoskip]
  have hrow : (edit cardId (KanbanCard.moved column) s).row engine.projectId cardId =
      some (found.moved column) := by
    rw [row_edit_self (identified_moved column), h]
    rfl
  refine ((updateCard_run hf s cardId _).bind fun _ => ?_) t ht
  refine (getCard_run hf _ cardId hrow).strengthen_post ?_
  rintro result u ⟨⟨later, rfl⟩, hu⟩
  exact ⟨rfl, hu⟩

omit hf in
/-- Events do not change the tables. -/
theorem publish_run (s : KanbanState) (event : KanbanEvent) :
    Triple (SameTables s) (KanbanEngine.publish event) (fun _ t => SameTables s t)
      (fun _ _ => False) :=
  Triple.modify fun _ ht => ⟨ht.boards, ht.cards, ht.boardSeq, ht.cardSeq⟩

/-- A legal move to another column, announced or not. -/
theorem moveCard_run (s : KanbanState) {cardId : ℕ} {found : KanbanCard}
    (h : s.row engine.projectId cardId = some found) (column : Column)
    (hne : column ≠ found.column) (hgate : column = .done → found.tddGate = true)
    (hskip : column.index ≤ found.column.index + 1) :
    Triple (SameTables s) (engine.moveCard cardId column.name)
      (fun _ t => SameTables (edit cardId (KanbanCard.moved column) s) t) (fun _ _ => False) := by
  have hbefore : Triple (SameTables s) (engine.columnBefore cardId)
      (fun _ t => SameTables s t) (fun _ _ => False) := by
    refine Triple.ite (fun _ => ?_) (fun _ => Triple.pure fun _ ht => ht)
    refine (getCard_run hf s cardId h).bind fun card => ?_
    exact Triple.pure fun t ht => ht.2
  have hannounce : ∀ oldColumn result, Triple
      (fun t => result.isSome = true ∧ SameTables (edit cardId (KanbanCard.moved column) s) t)
      (engine.announceMove oldColumn result)
      (fun _ t => SameTables (edit cardId (KanbanCard.moved column) s) t) (fun _ _ => False) := by
    intro oldColumn result
    refine Triple.ite (fun _ => ?_) (fun _ => Triple.pure fun _ ht => ht.2)
    cases result with
    | none =>
      intro t ht
      cases ht.1
    | some card =>
      refine Triple.bind (R := fun _ t => SameTables (edit cardId (KanbanCard.moved column) s) t)
        (Triple.pure fun _ ht => ht.2) fun _ => ?_
      exact Triple.ite (fun _ => publish_run _ _) (fun _ => Triple.pure fun _ ht => ht)
  refine hbefore.bind fun oldColumn => ?_
  refine Triple.bind (Triple.tryCatch (R := fun _ _ => False)
    (store_moveCard_run hf s h column hne hgate hskip) fun exc t ht => ht.elim) fun result => ?_
  refine (hannounce oldColumn result).bind fun _ => ?_
  exact Triple.pure fun _ ht => ht

/-- Work begins on a card of the backlog. -/
theorem beginWork_run (s : KanbanState) {cardId : ℕ} {found : KanbanCard}
    (h : s.row engine.projectId cardId = some found) (hcolumn : found.column = .backlog) :
    Triple (SameTables s) (engine.beginWork cardId)
      (fun _ t => SameTables (edit cardId (KanbanCard.moved .inProgress) s) t)
      (fun _ _ => False) := by
  have htodo := moveCard_run hf s h .todo (by simp [hcolumn])
    (fun heq => by cases heq) (by simp [hcolumn, Column.index])
  refine htodo.bind fun _ => ?_
  have hrow : (edit cardId (KanbanCard.moved .todo) s).row engine.projectId cardId =
      some (found.moved .todo) := by
    rw [row_edit_self (identified_moved _), h]
    rfl
  have hprogress := moveCard_run hf _ hrow .inProgress (by simp [KanbanCard.moved])
    (fun heq => by cases heq) (by simp [KanbanCard.moved, Column.index])
  rw [edit_edit (identified_moved _)] at hprogress
  exact hprogress

/-- Work on a card in progress is completed, with its gate passed. -/
theorem completeWork_run (s : KanbanState) {cardId : ℕ} {found : KanbanCard}
    (h : s.row engine.projectId cardId = some found) (hcolumn : found.column = .inProgress) :
    Triple (SameTables s) (engine.completeWork cardId)
      (fun _ t => SameTables (edit cardId (KanbanCard.moved .done ∘ KanbanCard.passed) s) t)
      (fun _ _ => False) := by
  have hreview := moveCard_run hf s h .review (by simp [hcolumn])
    (fun heq => by cases heq) (by simp [hcolumn, Column.index])
  refine hreview.bind fun _ => ?_
  refine (updateCard_run hf _ cardId KanbanCard.passed).bind fun _ => ?_
  have hrow : (edit cardId KanbanCard.passed (edit cardId (KanbanCard.moved .review) s)).row
      engine.projectId cardId = some (found.moved .review).passed := by
    rw [row_edit_self identified_passed, row_edit_self (identified_moved _), h]
    rfl
  have hdone := moveCard_run hf _ hrow .done (by simp [KanbanCard.moved, KanbanCard.passed])
    (fun _ => rfl) (by simp [KanbanCard.moved, KanbanCard.passed, Column.index])
  have hedits : edit cardId (KanbanCard.moved .done)
      (edit cardId KanbanCard.passed (edit cardId (KanbanCard.moved .review) s)) =
      edit cardId (KanbanCard.moved .done ∘ KanbanCard.passed) s := by
    rw [edit_edit (identified_moved _), edit_edit (identified_passed.comp (identified_moved _))]
    rfl
  rw [hedits] at hdone
  exact hdone

/-- A card that exists is blocked. -/
theorem blockCard_run (s : KanbanState) {cardId : ℕ} {found : KanbanCard}
    (h : s.row engine.projectId cardId = some found) (reason : String) :
    Triple (SameTables s) (engine.blockCard cardId reason)
      (fun _ t => SameTables (edit cardId (KanbanCard.withBlock reason) s) t)
      (fun _ _ => False) := by
  have hrow : (edit cardId (KanbanCard.withBlock reason) s).row engine.projectId cardId =
      some (found.withBlock reason) := by
    rw [row_edit_self (identified_withBlock reason), h]
    rfl
  have hset : Triple (SameTables s) (KanbanStore.setBlocked engine cardId reason)
      (fun result t => result.isSome = true ∧
        SameTables (edit cardId (KanbanCard.withBlock reason) s) t) (fun _ _ => False) := by
    refine (updateCard_run hf s cardId _).bind fun _ => ?_
    refine (getCard_run hf _ cardId hrow).strengthen_post ?_
    rintro result t ⟨⟨subtasks, rfl⟩, ht⟩
    exact ⟨rfl, ht⟩
  refine hset.bind fun result => ?_
  refine Triple.bind (R := fun _ t => SameTables (edit cardId (KanbanCard.withBlock reason) s) t)
    ?_ fun _ => Triple.pure fun _ ht => ht
  refine Triple.ite (fun _ => ?_) (fun _ => Triple.pure fun _ ht => ht.2)
  cases result with
  | none =>
    intro t ht
    cases ht.1
  | some card =>
    refine Triple.bind (R := fun _ t => SameTables (edit cardId (KanbanCard.withBlock reason) s) t)
      (Triple.pure fun _ ht => ht.2) fun _ => ?_
    exact publish_run _ _

theorem createBoard_run (s : KanbanState) (name : String) :
    Triple (SameTables s) (engine.createBoard name)
      (fun board t => board.id = s.boardSeq + 1 ∧
        SameTables (s.withBoard engine.projectId name) t) (fun _ _ => False) := by
  refine (execute_run hf s fun t ht => ?_).bind fun _ => ?_
  · constructor
    · change t.boards ++ _ = s.boards ++ _
      rw [ht.boards, ht.boardSeq]
    · exact ht.cards
    · change t.boardSeq + 1 = s.boardSeq + 1
      rw [ht.boardSeq]
    · exact ht.cardSeq
  · exact fun t ht => ⟨ht.boardSeq, ht⟩

/-- A card is created on a board that exists, when its title can be bound. -/
theorem createCard_run (s : KanbanState) {boardId : ℕ} {title : Json}
    (hboard : ∃ board ∈ s.boards, board.id = boardId) (htitle : bindText title = .ok ()) :
    Triple (SameTables s) (engine.createCard boardId title)
      (fun card t => card.id = s.cardSeq + 1 ∧
        SameTables (s.withCard engine.projectId boardId title) t) (fun _ _ => False) := by
  unfold KanbanEngine.createCard KanbanStore.createCard
  rw [htitle]
  refine Triple.fix fun t ht => ?_
  refine Triple.bind (R := fun found u => found = t ∧ u = t) (Triple.get fun u hu => ⟨hu, hu⟩) ?_
  intro found
  refine Triple.of_pre fun hfound => ?_
  obtain ⟨board, hmem, hid⟩ := hboard
  have hany : (found.boards.any fun board => board.id == boardId) = true := by
    rw [hfound, ht.boards, List.any_eq_true]
    exact ⟨board, hmem, by simp [hid]⟩
  rw [if_pos hany]
  refine Triple.bind (R := fun _ u => SameTables (s.withCard engine.projectId boardId title) u)
    ?_ fun _ => fun u hu => ⟨hu.cardSeq, hu⟩
  refine (execute_run hf s fun u hu => ?_).weaken_pre fun u hu => by rw [hu]; exact ht
  constructor
  · exact hu.boards
  · change u.cards ++ _ = s.cards ++ _
    rw [hu.cards, hu.cardSeq]
  · exact hu.boardSeq
  · change u.cardSeq + 1 = s.cardSeq + 1
    rw [hu.cardSeq]

end Answered

/-- A title that cannot be bound is refused before anything is written. -/
theorem createCard_throw (engine : KanbanEngine) (boardId : ℕ) {title : Json} {exc : PyExc}
    (h : bindText title = .error exc) : engine.createCard boardId title = throw exc := by
  unfold KanbanEngine.createCard KanbanStore.createCard
  rw [h]

/-- A card that was created had a title that can be bound. -/
theorem createCard_bound (engine : KanbanEngine) (boardId : ℕ) (title : Json) :
    Triple (fun _ => True) (engine.createCard boardId title)
      (fun _ _ => bindText title = .ok ()) (fun _ _ => True) := by
  unfold KanbanEngine.createCard KanbanStore.createCard
  cases htitle : bindText title with
  | error exc => exact Triple.throw fun _ _ => trivial
  | ok bound => exact (Triple.any _ _).strengthen_post fun _ _ _ => rfl

end AiosDeck.Scheduler
