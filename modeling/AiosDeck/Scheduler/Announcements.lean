import AiosDeck.Logic.Trace
import AiosDeck.Scheduler.Flow

/-!
# What the board announces

The moves that an engine announces on its bus, replayed from a full backlog,
give the columns as they are stored. A refused move to `Done` is announced as
a gate that was not passed, also when the card has passed its gate and is too
far away.
-/

namespace AiosDeck.Scheduler

open Python Program KanbanState Trace

/-- The reason that a refused move to `Done` is announced with. -/
def gateReason : String := "TDD gate not passed: cannot move to 'Done' without green tests"

/-- The event is `kanban.card_blocked` with that reason. -/
def KanbanEvent.saysGate : KanbanEvent → Bool
  | .cardBlocked _ _ reason _ _ => reason == gateReason
  | _ => false

/-- The columns behind one more event. -/
def replayEvent (columns : ℕ → Column) : KanbanEvent → ℕ → Column
  | .cardMoved cardId _ _ toColumn _ => Function.update columns cardId toColumn
  | _ => columns

/-- The columns that the announced moves lead to, from a full backlog. -/
def replay (events : List KanbanEvent) : ℕ → Column := events.foldl replayEvent fun _ => .backlog

theorem replay_append (events more : List KanbanEvent) :
    replay (events ++ more) = more.foldl replayEvent (replay events) := List.foldl_append

/-- The columns are those of the announced moves, and no move of a card that
is still to come was announced. -/
structure Told (s : KanbanState) : Prop where
  sequenced : s.Sequenced
  stored : ∀ card ∈ s.cards, replay s.events card.id = card.column
  ahead : ∀ cardId, s.cardSeq < cardId → replay s.events cardId = .backlog

/-- The same rows and the same events. -/
def Held (s t : KanbanState) : Prop := SameRows s t ∧ t.events = s.events

theorem Held.rfl {s : KanbanState} : Held s s := ⟨SameRows.rfl, Eq.refl _⟩

/-- The same rows with these events. -/
theorem Held.published {s t : KanbanState} {events : List KanbanEvent} (h : SameRows s t)
    (hevents : t.events = events) : Held { s with events } t :=
  ⟨⟨⟨h.boards, h.cards, h.boardSeq, h.cardSeq⟩, h.subtasks, h.subtaskSeq⟩, hevents⟩

/-- The same events. -/
def SameEvents (s t : KanbanState) : Prop := t.events = s.events

instance : Std.Refl SameEvents := ⟨fun _ => rfl⟩

instance : IsTrans KanbanState SameEvents := ⟨fun _ _ _ h h' => Eq.trans h' h⟩

section Silence

variable {α β : Type} {engine : KanbanEngine} {s : KanbanState}

/-- A program without events, with what it does to the rows. -/
theorem held_of_rows {x : KanbanM α} {Q : α → KanbanState → Prop} {E : PyExc → KanbanState → Prop}
    (h : Triple (SameRows s) x Q E) (hx : Framed SameEvents x) :
    Triple (Held s) x (fun a t => Q a t ∧ t.events = s.events)
      (fun e t => E e t ∧ t.events = s.events) := by
  rintro t ⟨hrows, hevents⟩
  have hrun := h t hrows
  have hframe := hx t
  unfold after SameEvents at hframe
  cases hr : x t with
  | ok a u =>
    rw [hr] at hrun hframe
    exact ⟨hrun, hframe.trans hevents⟩
  | error e u =>
    rw [hr] at hrun hframe
    exact ⟨hrun, hframe.trans hevents⟩

theorem statement_silent : Framed SameEvents (KanbanStore.statement engine) := fun _ => Eq.refl _

theorem execute_silent {effect : KanbanState → KanbanState} (h : ∀ s, SameEvents s (effect s)) :
    Framed SameEvents (KanbanStore.execute engine effect) := by
  refine Framed.bind statement_silent fun found => ?_
  cases found with
  | some exc => exact Framed.throw exc
  | none => exact Framed.modify h

theorem fetchAll_silent (query : KanbanState → List α) :
    Framed SameEvents (KanbanStore.fetchAll engine query) := by
  refine Framed.bind statement_silent fun found => ?_
  cases found with
  | some exc => exact Framed.pure _
  | none => exact Framed.bind Framed.get fun _ => Framed.pure _

theorem fetchOne_silent (query : KanbanState → List α) :
    Framed SameEvents (KanbanStore.fetchOne engine query) :=
  Framed.bind (fetchAll_silent query) fun _ => Framed.pure _

theorem getCard_silent (cardId : ℕ) : Framed SameEvents (KanbanStore.getCard engine cardId) := by
  refine Framed.bind (fetchOne_silent _) fun row => ?_
  cases row with
  | none => exact Framed.pure _
  | some found => exact Framed.bind (fetchAll_silent _) fun _ => Framed.pure _

theorem updateCard_silent (cardId : ℕ) (change : KanbanCard → KanbanCard) :
    Framed SameEvents (KanbanStore.updateCard engine cardId change) :=
  execute_silent fun _ => Eq.refl _

theorem createCard_silent (boardId : ℕ) (title : Json) (description : String) :
    Framed SameEvents (engine.createCard boardId title description) := by
  unfold KanbanEngine.createCard KanbanStore.createCard
  cases bindText title with
  | error exc => exact Framed.throw exc
  | ok bound =>
    refine Framed.bind Framed.get fun found => Framed.ite ?_ (Framed.throw _)
    exact Framed.bind (execute_silent fun _ => Eq.refl _) fun _ =>
      Framed.bind Framed.get fun _ => Framed.pure _

end Silence

section Rules

variable {s t : KanbanState} {cardId : ℕ}

theorem Told.held (hs : Told s) (h : Held s t) : Told t := by
  obtain ⟨hrows, hevents⟩ := h
  refine ⟨hrows.sequenced hs.sequenced, ?_, ?_⟩
  · rw [hrows.cards, hevents]
    exact hs.stored
  · rw [hrows.cardSeq, hevents]
    exact hs.ahead

/-- Events that announce no move. -/
theorem Told.publish (hs : Told s) {more : List KanbanEvent}
    (h : ∀ event ∈ more, ∀ columns, replayEvent columns event = columns) :
    Told { s with events := s.events ++ more } := by
  have hsame : replay (s.events ++ more) = replay s.events := by
    rw [replay_append]
    generalize replay s.events = columns
    induction more with
    | nil => rfl
    | cons event rest ih =>
      rw [List.foldl_cons, h event List.mem_cons_self]
      exact ih fun other hother => h other (List.mem_cons_of_mem _ hother)
  refine ⟨⟨hs.sequenced.keys, hs.sequenced.boards, hs.sequenced.cards, hs.sequenced.owned⟩, ?_, ?_⟩
  · change ∀ card ∈ s.cards, replay (s.events ++ more) card.id = card.column
    rw [hsame]
    exact hs.stored
  · change ∀ cardId, s.cardSeq < cardId → replay (s.events ++ more) cardId = .backlog
    rw [hsame]
    exact hs.ahead

/-- An update that leaves the columns. -/
theorem Told.edit (hs : Told s) {change : KanbanCard → KanbanCard} (h : Identified change)
    (hcolumn : ∀ card, (change card).column = card.column) :
    Told (KanbanState.edit cardId change s) := by
  refine ⟨hs.sequenced.edit h, fun card hcard => ?_, hs.ahead⟩
  obtain ⟨old, hold, rfl⟩ := List.mem_map.mp hcard
  have hstored := hs.stored old hold
  split
  · rw [hcolumn, h.id]
    exact hstored
  · exact hstored

/-- A move that is announced. -/
theorem Told.moved (hs : Told s) {projectId : String} {found : KanbanCard}
    (hrow : s.row projectId cardId = some found) (target : Column) (fromColumn : Option Column) :
    Told { KanbanState.edit cardId (KanbanCard.moved target) s with
      events := s.events ++ [.cardMoved found.id found.title fromColumn target found.boardId] } := by
  have hmem : found ∈ s.cards :=
    (List.mem_filter.mp (List.mem_of_mem_head? (Option.mem_def.mpr hrow))).1
  have hreplay : replay (s.events ++ [.cardMoved found.id found.title fromColumn target
      found.boardId]) = Function.update (replay s.events) found.id target := by
    rw [replay_append]
    rfl
  have hkept : (KanbanState.edit cardId (KanbanCard.moved target) s).Sequenced :=
    hs.sequenced.edit (identified_moved target)
  refine ⟨⟨hkept.keys, hkept.boards, hkept.cards, hkept.owned⟩, fun card hcard => ?_,
    fun other hother => ?_⟩
  · change replay (s.events ++ _) card.id = card.column
    obtain ⟨old, hold, rfl⟩ := List.mem_map.mp hcard
    rw [hreplay, row_id hrow]
    by_cases hid : old.id = cardId
    · have hmoved : (KanbanCard.moved target old).id = cardId := hid
      rw [if_pos hid, hmoved, Function.update_self]
      rfl
    · rw [if_neg hid, Function.update_of_ne hid]
      exact hs.stored old hold
  · change replay (s.events ++ _) other = .backlog
    have hlt : found.id < other := lt_of_le_of_lt (hs.sequenced.cards found hmem) hother
    rw [hreplay, Function.update_of_ne (Nat.ne_of_gt hlt)]
    exact hs.ahead other hother

/-- A new card is in the backlog. -/
theorem Told.card (hs : Told s) {card : KanbanCard} (hid : card.id = s.cardSeq + 1)
    (hboard : card.boardId ≤ s.boardSeq) (hcolumn : card.column = .backlog) :
    Told { s with cards := s.cards ++ [card], cardSeq := s.cardSeq + 1 } := by
  refine ⟨hs.sequenced.addCard hid hboard, fun other hother => ?_, fun other hother => ?_⟩
  · obtain hold | hnew := List.mem_append.mp hother
    · exact hs.stored other hold
    · rw [List.mem_singleton.mp hnew, hcolumn]
      exact hs.ahead card.id (by rw [hid]; exact Nat.lt_succ_self _)
  · exact hs.ahead other (Nat.lt_of_succ_lt hother)

end Rules

section Moves

variable {engine : KanbanEngine} {s : KanbanState} {cardId : ℕ} {column : String}

/-- A read of a card when the database answers. -/
theorem getCard_held (hsteady : engine.Steady) :
    Triple (Held s) (KanbanStore.getCard engine cardId)
      (fun card t => (∀ found, s.row engine.projectId cardId = some found →
          ∃ subtasks, card = some { found with subtasks }) ∧
        (s.row engine.projectId cardId = none → card = none) ∧ Held s t) (fun _ _ => False) := by
  refine (held_of_rows (getCard_spec engine s cardId) (getCard_silent cardId)).conseq
    (fun _ ht => ht) ?_ fun _ _ h => h.1
  rintro card t ⟨⟨hcard, hrows⟩, hevents⟩
  obtain ⟨found, subtasks, hrow, rfl⟩ | ⟨rfl, hnone⟩ := hcard
  · refine ⟨fun other hother => ?_, fun hnone => ?_, hrows, hevents⟩
    · rw [hrow] at hother
      cases hother
      exact ⟨subtasks, rfl⟩
    · rw [hrow] at hnone
      cases hnone
  · refine ⟨fun other hother => ?_, fun _ => rfl, hrows, hevents⟩
    obtain hnone | hfault := hnone
    · rw [hnone] at hother
      cases hother
    · exact absurd hsteady hfault

/-- An update when the database answers. -/
theorem updateCard_held (hsteady : engine.Steady) (change : KanbanCard → KanbanCard) :
    Triple (Held s) (KanbanStore.updateCard engine cardId change)
      (fun _ t => Held (edit cardId change s) t) (fun _ _ => False) := by
  refine (held_of_rows (updateCard_spec engine s cardId change) (updateCard_silent _ _)).conseq
    (fun _ ht => ht) (fun _ t ht => ht) ?_
  exact fun exc t ht => absurd hsteady ht.1.1.unsteady

/-- The store moves a card that may move, and refuses any other. -/
theorem store_moveCard_held (hsteady : engine.Steady) :
    Triple (Held s) (KanbanStore.moveCard engine cardId column)
      (fun result t => ∃ target found subtasks, Column.parse column = some target ∧
        s.row engine.projectId cardId = some found ∧ found.MayEnter target ∧
        result = some { found.moved target with subtasks } ∧
        Held (if target = found.column then s else edit cardId (KanbanCard.moved target) s) t)
      (fun exc t => exc.cls = kanbanError ∧ ¬MayMove engine.projectId cardId column s ∧
        Held s t) := by
  unfold KanbanStore.moveCard
  cases hparse : Column.parse column with
  | none =>
    refine Triple.throw fun t ht => ⟨rfl, ?_, ht⟩
    rintro ⟨target, found, htarget, -⟩
    rw [hparse] at htarget
    cases htarget
  | some target =>
    refine (getCard_held hsteady).total.bind fun card => ?_
    cases hrow : s.row engine.projectId cardId with
    | none =>
      refine (Triple.of_pre (p := card = none) fun hcard => ?_).weaken_pre
        fun t ht => ⟨ht.2.1 rfl, ht.2.2⟩
      rw [hcard]
      refine Triple.throw fun t ht => ⟨rfl, ?_, ht⟩
      rintro ⟨-, found, -, hfound, -⟩
      rw [hrow] at hfound
      cases hfound
    | some found =>
      refine (Triple.of_pre (p := ∃ subtasks, card = some { found with subtasks }) fun hcard =>
        ?_).weaken_pre fun t ht => ⟨ht.1 found rfl, ht.2.2⟩
      obtain ⟨subtasks, rfl⟩ := hcard
      have hmay : MayMove engine.projectId cardId column s → found.MayEnter target := by
        rintro ⟨target', found', htarget, hfound, henter⟩
        rw [hparse] at htarget
        rw [hrow] at hfound
        cases htarget
        cases hfound
        exact henter
      dsimp only
      refine Triple.ite (fun hsame => ?_) fun hother => ?_
      · refine Triple.pure fun t ht =>
          ⟨target, found, subtasks, rfl, rfl, ⟨?_, fun _ => .inl hsame⟩, ?_, ?_⟩
        · rw [hsame]
          exact Nat.le_succ _
        · rw [hsame]
          rfl
        · rw [if_pos hsame]
          exact ht
      refine Triple.ite (fun hclosed => ?_) fun hopen => ?_
      · refine Triple.throw fun t ht => ⟨rfl, fun h => ?_, ht⟩
        obtain hsame | hgate := (hmay h).gate hclosed.1
        · exact hother hsame
        · rw [hclosed.2] at hgate
          cases hgate
      refine Triple.ite (fun hfar => ?_) fun hnear => ?_
      · refine Triple.throw fun t ht => ⟨rfl, fun h => ?_, ht⟩
        have hle := (hmay h).near
        omega
      have henter : found.MayEnter target := by
        refine ⟨by omega, fun hdone => .inr ?_⟩
        by_contra hgate
        exact hopen ⟨hdone, by simpa using hgate⟩
      have hmoved : (edit cardId (KanbanCard.moved target) s).row engine.projectId cardId =
          some (found.moved target) := by
        rw [row_edit_self (identified_moved target), hrow]
        rfl
      refine (updateCard_held hsteady _).total.bind fun _ => ?_
      refine (getCard_held hsteady).total.strengthen_post fun result t ht => ?_
      obtain ⟨later, hresult⟩ := ht.1 _ hmoved
      refine ⟨target, found, later, rfl, rfl, henter, hresult, ?_⟩
      rw [if_neg hother]
      exact ht.2.2

/-- What a move announces. -/
def moveEvents (found : KanbanCard) (target : Column) : List KanbanEvent :=
  if target = found.column then []
  else [.cardMoved found.id found.title (some found.column) target found.boardId]

/-- What a refused move announces. -/
def refusalEvents (projectId : String) (cardId : ℕ) (column : String) (s : KanbanState) :
    List KanbanEvent :=
  if column = "Done" then
    ((s.row projectId cardId).map fun found =>
      .cardBlocked found.id found.title gateReason found.column found.boardId).toList
  else []

theorem publish_held (event : KanbanEvent) : Triple (Held s) (KanbanEngine.publish event)
    (fun _ t => SameRows s t ∧ t.events = s.events ++ [event]) (fun _ _ => False) :=
  Triple.modify fun _ ht =>
    ⟨⟨⟨ht.1.boards, ht.1.cards, ht.1.boardSeq, ht.1.cardSeq⟩, ht.1.subtasks, ht.1.subtaskSeq⟩,
      congrArg (· ++ [event]) ht.2⟩

/-- A move with what it announces, and a refusal with what it announces. -/
theorem moveCard_held (hsteady : engine.Steady) (hbus : engine.bus = true) :
    Triple (Held s) (engine.moveCard cardId column)
      (fun _ t => ∃ target found, Column.parse column = some target ∧
        s.row engine.projectId cardId = some found ∧ found.MayEnter target ∧
        SameRows (if target = found.column then s else edit cardId (KanbanCard.moved target) s) t ∧
        t.events = s.events ++ moveEvents found target)
      (fun _ t => ¬MayMove engine.projectId cardId column s ∧ SameRows s t ∧
        t.events = s.events ++ refusalEvents engine.projectId cardId column s) := by
  have hbefore : Triple (Held s) (engine.columnBefore cardId)
      (fun old t => old = (s.row engine.projectId cardId).map KanbanCard.column ∧ Held s t)
      (fun _ _ => False) := by
    unfold KanbanEngine.columnBefore
    rw [if_pos hbus]
    refine (getCard_held hsteady).bind fun card => Triple.pure fun t ht => ⟨?_, ht.2.2⟩
    cases hrow : s.row engine.projectId cardId with
    | none => rw [ht.2.1 hrow, Option.map_none]
    | some found =>
      obtain ⟨subtasks, rfl⟩ := ht.1 found hrow
      rfl
  refine hbefore.total.bind fun old => Triple.of_pre fun hold => ?_
  refine Triple.bind (Triple.tryCatch (store_moveCard_held hsteady) fun exc => ?_) fun result => ?_
  · refine (Triple.of_pre (p := exc.cls = kanbanError ∧ ¬MayMove engine.projectId cardId column s)
      fun hrefused => ?_).weaken_pre fun t ht => ⟨⟨ht.1, ht.2.1⟩, ht.2.2⟩
    unfold KanbanEngine.onRefusal KanbanEngine.announceRefusal refusalEvents
    rw [if_pos hrefused.1]
    by_cases hdone : column = "Done"
    · rw [if_pos ⟨hdone, hbus⟩, if_pos hdone]
      refine Triple.bind (R := fun _ t => SameRows s t ∧ t.events = s.events ++
        ((s.row engine.projectId cardId).map fun found => KanbanEvent.cardBlocked found.id
          found.title gateReason found.column found.boardId).toList) ?_ fun _ =>
        Triple.throw fun t ht => ⟨hrefused.2, ht⟩
      refine (getCard_held hsteady).total.bind fun card => ?_
      cases hrow : s.row engine.projectId cardId with
      | none =>
        refine (Triple.of_pre (p := card = none) fun hcard => ?_).weaken_pre
          fun t ht => ⟨ht.2.1 rfl, ht.2.2⟩
        rw [hcard]
        refine Triple.pure fun t ht => ⟨ht.1, ?_⟩
        rw [ht.2]
        exact (List.append_nil _).symm
      | some found =>
        refine (Triple.of_pre (p := ∃ subtasks, card = some { found with subtasks }) fun hcard =>
          ?_).weaken_pre fun t ht => ⟨ht.1 found rfl, ht.2.2⟩
        obtain ⟨subtasks, rfl⟩ := hcard
        exact (publish_held _).total
    · rw [if_neg hdone, if_neg fun h => hdone h.1]
      refine Triple.bind (R := fun _ => Held s) (Triple.pure fun _ ht => ht) fun _ =>
        Triple.throw fun t ht => ⟨hrefused.2, ht.1, ?_⟩
      rw [ht.2]
      exact (List.append_nil _).symm
  · refine Triple.fix fun u hu => ?_
    obtain ⟨target, found, subtasks, hparse, hrow, henter, rfl, hheld⟩ := hu
    unfold KanbanEngine.announceMove
    rw [if_pos hbus]
    have holdColumn : old = some found.column := by
      rw [hold, hrow]
      rfl
    have hevents : ∀ t, Held (if target = found.column then s else
        KanbanState.edit cardId (KanbanCard.moved target) s) t → t.events = s.events := by
      intro t ht
      rw [ht.2]
      split
      · rfl
      · rfl
    refine Triple.bind (R := fun _ t => SameRows (if target = found.column then s else
      KanbanState.edit cardId (KanbanCard.moved target) s) t ∧
        t.events = s.events ++ moveEvents found target) ?_ fun _ => Triple.pure fun t ht =>
      ⟨target, found, hparse, hrow, henter, ht⟩
    refine Triple.bind (R := fun card t => card = { found.moved target with subtasks } ∧
      Held (if target = found.column then s else edit cardId (KanbanCard.moved target) s) t)
      (Triple.pure fun t ht => ⟨rfl, by rw [ht]; exact hheld⟩) fun card =>
        Triple.of_pre fun hcard => ?_
    rw [hcard, holdColumn]
    refine Triple.ite (fun hne => ?_) fun hsame => ?_
    · have hother : ¬target = found.column := fun heq => hne (congrArg some heq.symm)
      refine (publish_held _).total.strengthen_post fun _ t ht => ⟨ht.1, ?_⟩
      rw [ht.2, if_neg hother, moveEvents, if_neg hother]
      rfl
    · have heq : target = found.column := (Option.some.inj (not_not.mp hsame)).symm
      refine Triple.pure fun t ht => ⟨ht.1, ?_⟩
      rw [hevents t ht, moveEvents, if_pos heq]
      exact (List.append_nil _).symm

end Moves

section Steps

variable {engine : KanbanEngine} {s t : KanbanState} {cardId : ℕ} {column : String}

/-- The state is told, with events behind `old` that say nothing of the gate. -/
def ToldSince (old : List KanbanEvent) (s : KanbanState) : Prop :=
  Told s ∧ Appends (fun event => event.saysGate = false) old s.events

theorem ToldSince.self (hs : Told s) : ToldSince s.events s := ⟨hs, Appends.refl _⟩

/-- The cards are as they were, and the new events are neither moves nor about
the gate. -/
structure Plainly (s t : KanbanState) : Prop where
  cards : t.cards = s.cards
  cardSeq : t.cardSeq = s.cardSeq
  sequenced : s.Sequenced → t.Sequenced
  events : Appends (fun event => event.saysGate = false ∧
    ∀ columns, replayEvent columns event = columns) s.events t.events

instance : Std.Refl Plainly := ⟨fun _ => ⟨rfl, rfl, id, Appends.refl _⟩⟩

instance : IsTrans KanbanState Plainly :=
  ⟨fun _ _ _ h h' => ⟨h'.cards.trans h.cards, h'.cardSeq.trans h.cardSeq,
    h'.sequenced ∘ h.sequenced, h.events.trans h'.events⟩⟩

theorem Plainly.told {old : List KanbanEvent} (h : Plainly s t) (hs : ToldSince old s) :
    ToldSince old t := by
  obtain ⟨more, hmore, hplain⟩ := h.events
  have hpublished := hs.1.publish fun event hevent => (hplain event hevent).2
  rw [← hmore] at hpublished
  refine ⟨⟨h.sequenced hs.1.sequenced, ?_, ?_⟩, hs.2.trans ⟨more, hmore, fun event hevent =>
    (hplain event hevent).1⟩⟩
  · rw [h.cards]
    exact hpublished.stored
  · rw [h.cardSeq]
    exact hpublished.ahead

theorem statement_plainly : Framed Plainly (KanbanStore.statement engine) := fun s =>
  ⟨rfl, rfl, fun hs => ⟨hs.keys, hs.boards, hs.cards, hs.owned⟩, Appends.refl _⟩

theorem fetchAll_plainly {α : Type} (query : KanbanState → List α) :
    Framed Plainly (KanbanStore.fetchAll engine query) := by
  refine Framed.bind statement_plainly fun found => ?_
  cases found with
  | some exc => exact Framed.pure _
  | none => exact Framed.bind Framed.get fun _ => Framed.pure _

theorem getCard_plainly (cardId : ℕ) : Framed Plainly (KanbanStore.getCard engine cardId) := by
  refine Framed.bind (Framed.bind (fetchAll_plainly _) fun _ => Framed.pure _) fun row => ?_
  cases row with
  | none => exact Framed.pure _
  | some found => exact Framed.bind (fetchAll_plainly _) fun _ => Framed.pure _

theorem listCards_plainly (boardId : ℕ) : Framed Plainly (engine.listCards boardId) := by
  have hrows : ∀ rows, Framed Plainly (KanbanStore.withSubtasks engine rows) := by
    intro rows
    induction rows with
    | nil => exact Framed.pure _
    | cons card rest ih =>
      exact Framed.bind (fetchAll_plainly _) fun _ => Framed.bind ih fun _ => Framed.pure _
  exact Framed.bind (fetchAll_plainly _) hrows

theorem execute_plainly {effect : KanbanState → KanbanState} (h : ∀ s, Plainly s (effect s)) :
    Framed Plainly (KanbanStore.execute engine effect) := by
  refine Framed.bind statement_plainly fun found => ?_
  cases found with
  | some exc => exact Framed.throw exc
  | none => exact Framed.modify h

theorem publishWhenWired_plainly {event : KanbanEvent} (hgate : event.saysGate = false)
    (hmove : ∀ columns, replayEvent columns event = columns) :
    Framed Plainly (engine.publishWhenWired event) :=
  Framed.ite (Framed.modify fun _ => ⟨rfl, rfl, fun hs => ⟨hs.keys, hs.boards, hs.cards, hs.owned⟩,
    Appends.single _ ⟨hgate, hmove⟩⟩) (Framed.pure _)

theorem createBoard_plainly (name : String) : Framed Plainly (engine.createBoard name) := by
  refine Framed.bind (execute_plainly fun s => ?_) fun _ => Framed.bind Framed.get fun _ =>
    Framed.pure _
  exact ⟨rfl, rfl, fun hs => hs.withBoard name, Appends.refl _⟩

theorem createSubtask_plainly (description : String) :
    Framed Plainly (engine.createSubtask cardId description) := by
  have hinsert : ∀ s : KanbanState, Plainly s { s with
      subtasks := s.subtasks ++ [{ id := s.subtaskSeq + 1, cardId, description }]
      subtaskSeq := s.subtaskSeq + 1 } := fun s =>
    ⟨rfl, rfl, fun hs => ⟨hs.keys, hs.boards, hs.cards, hs.owned⟩, Appends.refl _⟩
  have hstore : Framed Plainly (KanbanStore.createSubtask engine cardId description) := by
    refine Framed.bind Framed.get fun found => Framed.ite ?_ (Framed.throw _)
    exact Framed.bind (execute_plainly hinsert) fun _ =>
      Framed.bind Framed.get fun _ => Framed.pure _
  exact Framed.bind hstore fun subtask =>
    Framed.bind (publishWhenWired_plainly rfl fun _ => rfl) fun _ => Framed.pure _

theorem completeSubtask_plainly (subtaskId : ℕ) :
    Framed Plainly (engine.completeSubtask subtaskId) := by
  refine Framed.bind (execute_plainly fun s => ?_) fun _ =>
    publishWhenWired_plainly rfl fun _ => rfl
  exact ⟨rfl, rfl, fun hs => ⟨hs.keys, hs.boards, hs.cards, hs.owned⟩, Appends.refl _⟩

theorem createCard_told (boardId : ℕ) (title : Json) (description : String)
    {old : List KanbanEvent} :
    Keeps (ToldSince old) (engine.createCard boardId title description) := by
  refine Triple.fix fun s hs => ?_
  refine (held_of_rows (createCard_spec s boardId title description)
    (createCard_silent boardId title description)).conseq
    (fun t ht => by rw [ht]; exact Held.rfl) ?_ ?_
  · rintro card t ⟨⟨hboard, hrows⟩, hevents⟩
    have hnew := @Told.card _ hs.1
      { id := s.cardSeq + 1, boardId, title, description, projectId := engine.projectId } rfl
      (hs.1.sequenced.board_le hboard) rfl
    exact ⟨hnew.held ⟨hrows, hevents⟩, hevents ▸ hs.2⟩
  · rintro exc t ⟨⟨-, hrows⟩, hevents⟩
    exact ⟨hs.1.held ⟨hrows, hevents⟩, hevents ▸ hs.2⟩

theorem passTddGate_told (hsteady : engine.Steady) {old : List KanbanEvent} :
    Keeps (ToldSince old) (engine.passTddGate cardId) := by
  refine Triple.fix fun s hs => ?_
  refine (updateCard_held (s := s) hsteady KanbanCard.passed).conseq
    (fun t ht => by rw [ht]; exact Held.rfl) ?_ fun _ _ h => h.elim
  rintro _ t ht
  exact ⟨(hs.1.edit identified_passed fun _ => rfl).held ht, ht.2 ▸ hs.2⟩

/-- Behind a move the columns are told, and the gate is announced exactly for
a refused move to `Done`. -/
theorem moveCard_step (cardId : ℕ) (column : String) (hsteady : engine.Steady)
    (hbus : engine.bus = true) (hs : Told s) :
    Triple (fun t => t = s) (engine.moveCard cardId column)
      (fun _ t => ToldSince s.events t ∧ ∃ target found, Column.parse column = some target ∧
        s.row engine.projectId cardId = some found ∧ found.MayEnter target ∧
        SameRows (edit cardId (KanbanCard.moved target) s) t)
      (fun _ t => Told t ∧ ¬MayMove engine.projectId cardId column s ∧ SameRows s t ∧
        t.events = s.events ++ refusalEvents engine.projectId cardId column s) := by
  refine (moveCard_held hsteady hbus).conseq (fun t ht => by rw [ht]; exact Held.rfl) ?_ ?_
  · rintro _ t ⟨target, found, hparse, hrow, henter, hrows, hevents⟩
    unfold moveEvents at hevents
    by_cases hsame : target = found.column
    · rw [if_pos hsame, List.append_nil] at hevents
      rw [if_pos hsame] at hrows
      refine ⟨⟨hs.held ⟨hrows, hevents⟩, hevents ▸ Appends.refl _⟩, target, found, hparse, hrow,
        henter, ?_⟩
      rw [hsame, edit_moved_self hs.sequenced hrow]
      exact hrows
    · rw [if_neg hsame] at hevents hrows
      refine ⟨⟨(hs.moved hrow target (some found.column)).held (.published hrows hevents), ?_⟩,
        target, found, hparse, hrow, henter, hrows⟩
      rw [hevents]
      exact Appends.single _ rfl
  · rintro exc t ⟨hrefused, hrows, hevents⟩
    refine ⟨?_, hrefused, hrows, hevents⟩
    refine (hs.publish fun event hevent columns => ?_).held (.published hrows hevents)
    unfold refusalEvents at hevent
    split at hevent
    · obtain ⟨found, -, rfl⟩ := Option.map_eq_some_iff.mp (Option.mem_toList.mp hevent)
      rfl
    · cases hevent

/-- A move to another column than `Done` says nothing of the gate. -/
theorem moveCard_told (hsteady : engine.Steady) (hbus : engine.bus = true)
    (hcolumn : column ≠ "Done") {old : List KanbanEvent} :
    Keeps (ToldSince old) (engine.moveCard cardId column) := by
  refine Triple.fix fun s hs => ?_
  refine (moveCard_step cardId column hsteady hbus hs.1).conseq (fun t ht => ht) ?_ ?_
  · exact fun _ t ht => ⟨ht.1.1, hs.2.trans ht.1.2⟩
  · rintro exc t ⟨htold, -, -, hevents⟩
    refine ⟨htold, ?_⟩
    rw [hevents, refusalEvents, if_neg hcolumn, List.append_nil]
    exact hs.2

/-- Behind the review and the gate the card may be done. -/
theorem ready_told (cardId : ℕ) (hsteady : engine.Steady) (hbus : engine.bus = true) (hs : Told s) :
    Triple (fun t => t = s) (do let _ ← engine.moveCard cardId "Review"; engine.passTddGate cardId)
      (fun _ t => ToldSince s.events t ∧ ∃ found, t.row engine.projectId cardId = some found ∧
        found.column = .review ∧ found.tddGate = true)
      (fun _ t => ToldSince s.events t) := by
  refine Triple.bind (R := fun _ t => ToldSince s.events t ∧ ∃ found,
    t.row engine.projectId cardId = some found ∧ found.column = .review) ?_ fun _ => ?_
  · refine (moveCard_step cardId "Review" hsteady hbus hs).conseq (fun t ht => ht) ?_ ?_
    · rintro _ t ⟨htold, target, found, hparse, hrow, -, hrows⟩
      obtain rfl : Column.review = target := Option.some.inj (by rw [← hparse]; rfl)
      refine ⟨htold, found.moved .review, ?_, rfl⟩
      rw [hrows.row_eq, row_edit_self (identified_moved _), hrow]
      rfl
    · rintro exc t ⟨htold, -, -, hevents⟩
      refine ⟨htold, ?_⟩
      rw [hevents, refusalEvents, if_neg (by decide), List.append_nil]
      exact Appends.refl _
  · refine Triple.fix fun t ht => ?_
    obtain ⟨htold, found, hrow, hcolumn⟩ := ht
    refine (updateCard_held (s := t) hsteady KanbanCard.passed).conseq
      (fun u hu => by rw [hu]; exact Held.rfl) ?_ fun _ _ h => h.elim
    intro _ u hu
    refine ⟨⟨(htold.1.edit identified_passed fun _ => rfl).held hu, hu.2 ▸ htold.2⟩,
      found.passed, ?_, hcolumn, rfl⟩
    rw [hu.1.row_eq, row_edit_self identified_passed, hrow]
    rfl

/-- Completing work says nothing of the gate. -/
theorem completeWork_told (hsteady : engine.Steady) (hbus : engine.bus = true) (hs : Told s) :
    Triple (fun t => t = s) (engine.completeWork cardId) (fun _ => ToldSince s.events)
      (fun _ => ToldSince s.events) := by
  have hsplit : engine.completeWork cardId =
      (do let _ ← engine.moveCard cardId "Review"; engine.passTddGate cardId) >>=
        fun _ => engine.moveCard cardId "Done" := by
    unfold KanbanEngine.completeWork
    simp only [bind_assoc]
  rw [hsplit]
  refine Triple.bind (ready_told cardId hsteady hbus hs) fun _ => Triple.fix fun t ht => ?_
  obtain ⟨htold, found, hrow, hcolumn, hgate⟩ := ht
  refine (moveCard_step cardId "Done" hsteady hbus htold.1).conseq (fun u hu => hu) ?_ ?_
  · exact fun _ u hu => ⟨hu.1.1, htold.2.trans hu.1.2⟩
  · rintro exc u ⟨-, hrefused, -, -⟩
    refine absurd ⟨.done, found, rfl, hrow, ⟨?_, fun _ => .inr hgate⟩⟩ hrefused
    rw [hcolumn]
    exact le_rfl

/-- What is announced of a block: its reason, when the project has the card. -/
theorem blockCard_step (cardId : ℕ) (hsteady : engine.Steady) (hbus : engine.bus = true)
    (hs : Told s) (reason : String) : Triple (fun t => t = s) (engine.blockCard cardId reason)
      (fun _ t => Told t ∧ ∃ found, s.row engine.projectId cardId = some found ∧
        t.events = s.events ++
          [.cardBlocked found.id found.title reason found.column found.boardId])
      (fun _ t => Told t ∧ s.row engine.projectId cardId = none ∧ t.events = s.events) := by
  have hedit : Told (edit cardId (KanbanCard.withBlock reason) s) :=
    hs.edit (identified_withBlock reason) fun _ => rfl
  have hrow : (edit cardId (KanbanCard.withBlock reason) s).row engine.projectId cardId =
      (s.row engine.projectId cardId).map (KanbanCard.withBlock reason) :=
    row_edit_self (identified_withBlock reason)
  have hset : Triple (Held s) (KanbanStore.setBlocked engine cardId reason)
      (fun result t => ((∃ found subtasks, s.row engine.projectId cardId = some found ∧
          result = some { found.withBlock reason with subtasks }) ∨
        s.row engine.projectId cardId = none ∧ result = none) ∧
          Held (edit cardId (KanbanCard.withBlock reason) s) t) (fun _ _ => False) := by
    refine (updateCard_held hsteady (KanbanCard.withBlock reason)).bind fun _ => ?_
    refine (getCard_held hsteady).strengthen_post fun result t ht => ⟨?_, ht.2.2⟩
    rw [hrow] at ht
    cases hfound : s.row engine.projectId cardId with
    | none =>
      rw [hfound] at ht
      exact .inr ⟨rfl, ht.2.1 rfl⟩
    | some found =>
      rw [hfound] at ht
      obtain ⟨subtasks, hresult⟩ := ht.1 _ rfl
      exact .inl ⟨found, subtasks, rfl, hresult⟩
  refine Triple.bind (hset.total.weaken_pre fun t ht => by rw [ht]; exact Held.rfl) fun result =>
    Triple.of_pre fun hresult => ?_
  unfold KanbanEngine.announceBlock
  rw [if_pos hbus]
  obtain ⟨found, subtasks, hfound, rfl⟩ | ⟨hnone, rfl⟩ := hresult
  · refine Triple.bind (R := fun _ t => Told t ∧ ∃ found,
      s.row engine.projectId cardId = some found ∧ t.events = s.events ++
        [.cardBlocked found.id found.title reason found.column found.boardId]) ?_
      fun _ => Triple.pure fun t ht => ht
    refine Triple.bind (R := fun card t => card = { found.withBlock reason with subtasks } ∧
      Held (edit cardId (KanbanCard.withBlock reason) s) t) (Triple.pure fun t ht => ⟨rfl, ht⟩)
      fun card => Triple.of_pre fun hcard => ?_
    rw [hcard]
    refine (publish_held _).total.strengthen_post fun _ t ht => ⟨?_, found, hfound, ht.2⟩
    have hpublished := @Told.publish _ hedit [.cardBlocked found.id found.title reason found.column
      found.boardId] fun event hevent columns => by
        rw [List.mem_singleton.mp hevent]
        rfl
    exact hpublished.held (.published ht.1 ht.2)
  · refine Triple.bind (R := fun _ _ => False) (Triple.bind (R := fun _ _ => False)
      (Triple.throw fun t ht => ?_) fun _ _ h => h.elim) fun _ _ h => h.elim
    exact ⟨hedit.held ht, hnone, ht.2⟩

end Steps

/-- The moves to `Done` that an operation gets to, each with the state that it
is tried in. -/
def KanbanEngine.doneMoves (engine : KanbanEngine) (s : KanbanState) :
    KanbanOperation → List (ℕ × KanbanState)
  | .moveCard cardId column => if column = "Done" then [(cardId, s)] else []
  | .completeWork cardId =>
    match (do let _ ← engine.moveCard cardId "Review"; engine.passTddGate cardId) s with
    | .ok _ t => [(cardId, t)]
    | .error _ _ => []
  | _ => []

/-- The card is not there yet, and its gate keeps it out of `Done`. -/
def KanbanCard.GateShut (card : KanbanCard) : Prop := card.column ≠ .done ∧ card.tddGate = false

/-- A move to `Done` is refused because the card has not passed its gate. -/
def KanbanEngine.GateRefused (engine : KanbanEngine) (s : KanbanState)
    (operation : KanbanOperation) : Prop :=
  ∃ move ∈ engine.doneMoves s operation, ∃ found,
    move.2.row engine.projectId move.1 = some found ∧ found.GateShut

/-- The operation publishes an event that gives the gate as its reason. -/
def KanbanEngine.GateAnnounced (engine : KanbanEngine) (s : KanbanState)
    (operation : KanbanOperation) : Prop :=
  ∃ event ∈ (after (engine.perform operation) s).events.drop s.events.length, event.saysGate = true

/-- Behind the operation the announced moves give the stored columns, and the
gate was announced exactly when it refused a move. -/
structure KanbanEngine.Truthful (engine : KanbanEngine) (s : KanbanState)
    (operation : KanbanOperation) : Prop where
  columns : ∀ card ∈ (after (engine.perform operation) s).cards,
    replay (after (engine.perform operation) s).events card.id = card.column
  gate : engine.GateAnnounced s operation ↔ engine.GateRefused s operation

/-- A card that has passed its gate is not moved to `Done` from too far away,
and the reason of the gate is not given to a card that is blocked. -/
def KanbanEngine.Candid (engine : KanbanEngine) (s : KanbanState) : KanbanOperation → Prop
  | .moveCard cardId column => column = "Done" → ∀ found,
    s.row engine.projectId cardId = some found → found.tddGate = true →
      Column.done.index ≤ found.column.index + 1
  | .blockCard cardId reason => reason = gateReason → s.row engine.projectId cardId = none
  | _ => True

/-- `holds` of every operation of a run, in the state before it. -/
def KanbanState.Throughout (holds : KanbanEngine → KanbanState → KanbanOperation → Prop) :
    KanbanState → List (KanbanEngine × KanbanOperation) → Prop
  | _, [] => True
  | s, (engine, operation) :: rest =>
    holds engine s operation ∧ (after (engine.perform operation) s).Throughout holds rest

section Truth

variable {engine : KanbanEngine} {s : KanbanState} {cardId : ℕ}

/-- What was announced, from the events behind the old ones. -/
theorem announced_of_append {operation : KanbanOperation} {more : List KanbanEvent}
    (h : (after (engine.perform operation) s).events = s.events ++ more) :
    engine.GateAnnounced s operation ↔ ∃ event ∈ more, event.saysGate = true := by
  unfold KanbanEngine.GateAnnounced
  rw [h, List.drop_left]

/-- An operation that says nothing of the gate. -/
theorem not_announced {operation : KanbanOperation}
    (h : ToldSince s.events (after (engine.perform operation) s)) :
    ¬engine.GateAnnounced s operation := by
  obtain ⟨-, more, hmore, hsilent⟩ := h
  rw [announced_of_append hmore]
  rintro ⟨event, hevent, hsays⟩
  rw [hsilent event hevent] at hsays
  cases hsays

/-- An operation that leaves cards and columns. -/
theorem plainly_told {α : Type} {x : KanbanM α} (hs : Told s) (hx : Framed Plainly x) :
    ToldSince s.events (after x s) := (hx s).told (.self hs)

theorem beginWork_told (hsteady : engine.Steady) (hbus : engine.bus = true)
    {old : List KanbanEvent} : Keeps (ToldSince old) (engine.beginWork cardId) :=
  Triple.bind (moveCard_told hsteady hbus (by decide)) fun _ =>
    moveCard_told hsteady hbus (by decide)

/-- A move to `Done`, told and with its announcement. -/
theorem moveDone_step (cardId : ℕ) (hsteady : engine.Steady) (hbus : engine.bus = true)
    (hs : Told s) :
    Told (after (engine.moveCard cardId "Done") s) ∧
      (engine.GateAnnounced s (.moveCard cardId "Done") ↔
        ∃ found, s.row engine.projectId cardId = some found ∧ ¬found.MayEnter .done) := by
  have hperform : after (engine.perform (.moveCard cardId "Done")) s =
      after (engine.moveCard cardId "Done") s := after_map _ _ s
  have hstep := moveCard_step cardId "Done" hsteady hbus hs s rfl
  have hafter : ∀ t, after (engine.moveCard cardId "Done") s = t →
      after (engine.perform (.moveCard cardId "Done")) s = t := fun t ht => hperform.trans ht
  cases hrun : engine.moveCard cardId "Done" s with
  | ok result t =>
    have ht : after (engine.moveCard cardId "Done") s = t := by
      unfold after
      rw [hrun]
    rw [hrun] at hstep
    obtain ⟨htold, target, found, hparse, hrow, henter, -⟩ := hstep
    obtain rfl : Column.done = target := Option.some.inj (by rw [← hparse]; rfl)
    refine ⟨ht.symm ▸ htold.1, iff_of_false (not_announced ?_) ?_⟩
    · rw [hafter t ht]
      exact htold
    · rintro ⟨other, hother, hrefused⟩
      rw [hrow] at hother
      cases hother
      exact hrefused henter
  | error exc t =>
    have ht : after (engine.moveCard cardId "Done") s = t := by
      unfold after
      rw [hrun]
    rw [hrun] at hstep
    obtain ⟨htold, hrefused, -, hevents⟩ := hstep
    refine ⟨ht.symm ▸ htold, ?_⟩
    rw [announced_of_append ((congrArg KanbanState.events (hafter t ht)).trans hevents),
      refusalEvents, if_pos rfl]
    constructor
    · rintro ⟨event, hevent, -⟩
      obtain ⟨found, hrow, -⟩ := Option.map_eq_some_iff.mp (Option.mem_toList.mp hevent)
      exact ⟨found, hrow, fun henter => hrefused ⟨.done, found, rfl, hrow, henter⟩⟩
    · rintro ⟨found, hrow, -⟩
      refine ⟨_, Option.mem_toList.mpr (Option.mem_def.mpr (Option.map_eq_some_iff.mpr
        ⟨found, hrow, rfl⟩)), ?_⟩
      exact beq_self_eq_true gateReason

/-- A block, told and with its announcement. -/
theorem block_step (cardId : ℕ) (hsteady : engine.Steady) (hbus : engine.bus = true) (hs : Told s)
    (reason : String) : Told (after (engine.blockCard cardId reason) s) ∧
      (engine.GateAnnounced s (.blockCard cardId reason) ↔
        reason = gateReason ∧ s.row engine.projectId cardId ≠ none) := by
  have hafter : ∀ t, after (engine.blockCard cardId reason) s = t →
      after (engine.perform (.blockCard cardId reason)) s = t := fun t ht =>
    (after_map _ _ s).trans ht
  have hstep := blockCard_step cardId hsteady hbus hs reason s rfl
  cases hrun : engine.blockCard cardId reason s with
  | ok result t =>
    have ht : after (engine.blockCard cardId reason) s = t := by
      unfold after
      rw [hrun]
    rw [hrun] at hstep
    obtain ⟨htold, found, hrow, hevents⟩ := hstep
    refine ⟨ht.symm ▸ htold, ?_⟩
    rw [announced_of_append ((congrArg KanbanState.events (hafter t ht)).trans hevents), hrow]
    constructor
    · rintro ⟨event, hevent, hsays⟩
      rw [List.mem_singleton.mp hevent] at hsays
      exact ⟨beq_iff_eq.mp hsays, Option.some_ne_none _⟩
    · rintro ⟨hreason, -⟩
      exact ⟨_, List.mem_singleton.mpr rfl, beq_iff_eq.mpr hreason⟩
  | error exc t =>
    have ht : after (engine.blockCard cardId reason) s = t := by
      unfold after
      rw [hrun]
    rw [hrun] at hstep
    obtain ⟨htold, hrow, hevents⟩ := hstep
    refine ⟨ht.symm ▸ htold, iff_of_false ?_ fun h => h.2 hrow⟩
    refine not_announced ⟨(hafter t ht).symm ▸ htold, [], ?_, fun _ h => by cases h⟩
    rw [hafter t ht, hevents, List.append_nil]

/-- Completing work refuses no move because of the gate. -/
theorem completeWork_passed (hsteady : engine.Steady) (hbus : engine.bus = true) (hs : Told s) :
    ¬engine.GateRefused s (.completeWork cardId) := by
  rintro ⟨move, hmove, found, hrow, -, hgate⟩
  have hready := ready_told cardId hsteady hbus hs s rfl
  rw [KanbanEngine.doneMoves] at hmove
  split at hmove
  · next t hrun =>
    rw [hrun] at hready
    obtain ⟨-, card, hcard, -, hpassed⟩ := hready
    rw [List.mem_singleton.mp hmove, hcard] at hrow
    cases hrow
    rw [hpassed] at hgate
    cases hgate
  · cases hmove

/-- A card kept out of `Done` is kept out by its gate or by the distance. -/
theorem gateShut_iff {card : KanbanCard} (h : ¬card.MayEnter .done) :
    card.GateShut ↔ (card.tddGate = true → Column.done.index ≤ card.column.index + 1) := by
  constructor
  · rintro ⟨-, hshut⟩ hpassed
    rw [hshut] at hpassed
    cases hpassed
  · intro hnear
    refine ⟨fun hdone => h ⟨?_, fun _ => .inl hdone.symm⟩, ?_⟩
    · rw [hdone]
      exact Nat.le_succ _
    · by_contra hgate
      have hpassed : card.tddGate = true := by simpa using hgate
      exact h ⟨hnear hpassed, fun _ => .inr hpassed⟩

/-- A card that may enter `Done` is kept out by nothing. -/
theorem not_gateShut {card : KanbanCard} (h : card.MayEnter .done) : ¬card.GateShut := by
  rintro ⟨hcolumn, hshut⟩
  obtain hdone | hpassed := h.gate rfl
  · exact hcolumn hdone.symm
  · rw [hshut] at hpassed
    cases hpassed

/-- A move to `Done` tells the truth exactly when it is candid. -/
theorem moveDone_truth (hannounced : engine.GateAnnounced s (.moveCard cardId "Done") ↔
      ∃ found, s.row engine.projectId cardId = some found ∧ ¬found.MayEnter .done) :
    (engine.GateAnnounced s (.moveCard cardId "Done") ↔
      engine.GateRefused s (.moveCard cardId "Done")) ↔
        engine.Candid s (.moveCard cardId "Done") := by
  have hrefused : engine.GateRefused s (.moveCard cardId "Done") ↔
      ∃ found, s.row engine.projectId cardId = some found ∧ found.GateShut := by
    constructor
    · rintro ⟨move, hmove, found, hrow, hshut⟩
      rw [List.mem_singleton.mp hmove] at hrow
      exact ⟨found, hrow, hshut⟩
    · rintro ⟨found, hrow, hshut⟩
      exact ⟨_, List.mem_singleton.mpr rfl, found, hrow, hshut⟩
  rw [hannounced, hrefused]
  constructor
  · intro hiff _ found hrow hpassed
    by_contra hfar
    have hout : ¬found.MayEnter .done := fun henter => hfar henter.near
    obtain ⟨other, hother, hshut⟩ := hiff.mp ⟨found, hrow, hout⟩
    rw [hrow] at hother
    cases hother
    exact hfar ((gateShut_iff hout).mp hshut hpassed)
  · intro hcandid
    constructor
    · rintro ⟨found, hrow, hout⟩
      exact ⟨found, hrow, (gateShut_iff hout).mpr (hcandid rfl found hrow)⟩
    · rintro ⟨found, hrow, hshut⟩
      exact ⟨found, hrow, fun henter => not_gateShut henter hshut⟩

/-- An operation that neither tries a move to `Done` nor blocks a card. -/
theorem quiet_step {operation : KanbanOperation}
    (h : ToldSince s.events (after (engine.perform operation) s))
    (hrefused : ¬engine.GateRefused s operation) (hcandid : engine.Candid s operation) :
    Told (after (engine.perform operation) s) ∧
      (engine.Truthful s operation ↔ engine.Candid s operation) :=
  ⟨h.1, iff_of_true ⟨h.1.stored, iff_of_false (not_announced h) hrefused⟩ hcandid⟩

/-- Behind every operation the columns are told, and the operation told the
truth exactly when it was candid. -/
theorem perform_truth (hsteady : engine.Steady) (hbus : engine.bus = true) (hs : Told s)
    (operation : KanbanOperation) : Told (after (engine.perform operation) s) ∧
      (engine.Truthful s operation ↔ engine.Candid s operation) := by
  have hnone : ∀ operation, engine.doneMoves s operation = [] →
      ¬engine.GateRefused s operation := by
    rintro operation hmoves ⟨move, hmove, -⟩
    rw [hmoves] at hmove
    cases hmove
  cases operation with
  | createBoard name =>
    refine quiet_step ?_ (hnone _ rfl) True.intro
    exact (after_map _ _ s).symm ▸ plainly_told hs (createBoard_plainly name)
  | getBoard boardId =>
    refine quiet_step ?_ (hnone _ rfl) True.intro
    exact (after_map _ _ s).symm ▸ plainly_told hs
      (Framed.bind (fetchAll_plainly _) fun _ => Framed.pure _)
  | listBoards =>
    refine quiet_step ?_ (hnone _ rfl) True.intro
    exact (after_map _ _ s).symm ▸ plainly_told hs (fetchAll_plainly _)
  | createCard boardId title description =>
    refine quiet_step ?_ (hnone _ rfl) True.intro
    exact (after_map _ _ s).symm ▸ (createCard_told boardId title description).after (.self hs)
  | getCard cardId =>
    refine quiet_step ?_ (hnone _ rfl) True.intro
    exact (after_map _ _ s).symm ▸ plainly_told hs (getCard_plainly cardId)
  | listCards boardId =>
    refine quiet_step ?_ (hnone _ rfl) True.intro
    exact (after_map _ _ s).symm ▸ plainly_told hs (listCards_plainly boardId)
  | moveCard cardId column =>
    by_cases hdone : column = "Done"
    · subst hdone
      obtain ⟨htold, hannounced⟩ := moveDone_step cardId hsteady hbus hs
      have hafter : Told (after (engine.perform (.moveCard cardId "Done")) s) :=
        (after_map _ _ s).symm ▸ htold
      rw [← moveDone_truth hannounced]
      exact ⟨hafter, fun htruth => htruth.gate, fun hgate => ⟨hafter.stored, hgate⟩⟩
    · refine quiet_step ?_ (hnone _ (if_neg hdone)) fun h => absurd h hdone
      exact (after_map _ _ s).symm ▸ (moveCard_told hsteady hbus hdone).after (.self hs)
  | blockCard cardId reason =>
    obtain ⟨htold, hannounced⟩ := block_step cardId hsteady hbus hs reason
    have hafter : Told (after (engine.perform (.blockCard cardId reason)) s) :=
      (after_map _ _ s).symm ▸ htold
    refine ⟨hafter, fun htruth hreason => ?_, fun hcandid => ⟨hafter.stored, ?_⟩⟩
    · by_contra hfound
      exact hnone _ rfl (htruth.gate.mp (hannounced.mpr ⟨hreason, hfound⟩))
    · refine iff_of_false (fun h => ?_) (hnone _ rfl)
      obtain ⟨hreason, hfound⟩ := hannounced.mp h
      exact hfound (hcandid hreason)
  | passTddGate cardId =>
    refine quiet_step ?_ (hnone _ rfl) True.intro
    exact (after_map _ _ s).symm ▸ (passTddGate_told hsteady).after (.self hs)
  | beginWork cardId =>
    refine quiet_step ?_ (hnone _ rfl) True.intro
    exact (after_map _ _ s).symm ▸ (beginWork_told hsteady hbus).after (.self hs)
  | completeWork cardId =>
    refine quiet_step ?_ (completeWork_passed hsteady hbus hs) True.intro
    exact (after_map _ _ s).symm ▸ (completeWork_told hsteady hbus hs).after rfl
  | createSubtask cardId description =>
    refine quiet_step ?_ (hnone _ rfl) True.intro
    exact (after_map _ _ s).symm ▸ plainly_told hs (createSubtask_plainly description)
  | completeSubtask subtaskId =>
    refine quiet_step ?_ (hnone _ rfl) True.intro
    exact (after_map _ _ s).symm ▸ plainly_told hs (completeSubtask_plainly subtaskId)

/-- The announcements of a run tell the truth exactly when all its operations
are candid. -/
theorem throughout_truthful_iff {start : KanbanState} (hstart : start.Sequenced)
    (hempty : start.cards = []) (hsilent : start.events = [])
    (operations : List (KanbanEngine × KanbanOperation))
    (hwired : ∀ step ∈ operations, step.1.bus = true)
    (hsteady : ∀ step ∈ operations, step.1.Steady) :
    start.Throughout KanbanEngine.Truthful operations ↔
      start.Throughout KanbanEngine.Candid operations := by
  have htold : Told start := by
    refine ⟨hstart, fun card hcard => ?_, fun cardId _ => ?_⟩
    · rw [hempty] at hcard
      cases hcard
    · rw [hsilent]
      rfl
  clear hstart hempty hsilent
  induction operations generalizing start with
  | nil => exact Iff.rfl
  | cons step rest ih =>
    obtain ⟨hnext, htruth⟩ := perform_truth (hsteady step List.mem_cons_self)
      (hwired step List.mem_cons_self) htold step.2
    exact and_congr htruth (ih (fun other hother => hwired other (List.mem_cons_of_mem _ hother))
      (fun other hother => hsteady other (List.mem_cons_of_mem _ hother)) hnext)

/-- A project on a board with a bus. -/
def wired : KanbanEngine := { projectId := "/p", bus := true }

/-- Work on a card, completed, and then a move that the gate refuses. -/
theorem throughout_truthful_completed : KanbanState.Throughout KanbanEngine.Truthful {}
    [(wired, .createBoard "Sprint"), (wired, .createCard 1 (.str "Parser") ""),
      (wired, .beginWork 1), (wired, .completeWork 1)] := by
  refine (throughout_truthful_iff Sequenced.empty rfl rfl _ (by simp [wired])
    (by simp [wired, KanbanEngine.Steady])).mpr ?_
  exact ⟨True.intro, True.intro, True.intro, True.intro, True.intro⟩

/-- A card in the backlog that has passed its gate. -/
def farCard : KanbanState := KanbanState.performAll {} [(wired, .createBoard "Sprint"),
  (wired, .createCard 1 (.str "Parser") ""), (wired, .passTddGate 1)]

/-- Its move to `Done` is refused because of the distance, and announced as a
gate that was not passed. -/
theorem not_truthful_farCard : ¬KanbanState.Throughout KanbanEngine.Truthful {}
    [(wired, .createBoard "Sprint"), (wired, .createCard 1 (.str "Parser") ""),
      (wired, .passTddGate 1), (wired, .moveCard 1 "Done")] := by
  rintro ⟨-, -, -, htruth, -⟩
  have hlast : wired.Truthful farCard (.moveCard 1 "Done") := htruth
  have hany : ((after (wired.perform (.moveCard 1 "Done")) farCard).events.drop
      farCard.events.length).any KanbanEvent.saysGate = true := by decide
  obtain ⟨event, hevent, hsays⟩ := List.any_eq_true.mp hany
  obtain ⟨move, hmove, found, hrow, -, hshut⟩ := hlast.gate.mp ⟨event, hevent, hsays⟩
  have hgate : (farCard.row "/p" 1).map KanbanCard.tddGate = some true := by decide
  rw [List.mem_singleton.mp hmove] at hrow
  have hfound : farCard.row "/p" 1 = some found := hrow
  rw [hfound, Option.map_some, hshut] at hgate
  cases hgate

end Truth

end AiosDeck.Scheduler
