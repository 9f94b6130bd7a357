import AiosDeck.Runtime.Insertions

/-!
# Turn accounting

A turn is recorded when the next one starts. Its kind, tool, tokens and cost are
those of its own events, but the time of its tools is added to the turn that was
recorded last, which is the one before.
-/

namespace AiosDeck.Runtime

open Python

/-- Whether an event is a tool that completed. -/
def isCompletedTool (event : Json) : Bool :=
  isText (eventType event) "tool_use" && isCompleted (eventPart event)

/-- The kind of a turn, from its events. -/
def kindOf (events : List Json) : String :=
  if events.any isCompletedTool then "tool"
  else if events.any fun event => isText (eventType event) "text" then "text"
  else if events.any fun event => isText (eventType event) "reasoning" then "reasoning"
  else "unknown"

/-- The last tool of a turn that completed. -/
def lastTool (events : List Json) : Json :=
  ((events.filter isCompletedTool).getLast?.map fun event => toolName (eventPart event)).getD .null

/-- The count of tokens that the end of a step reports under a key. -/
def tokenCount (key : String) (finish : Json) : Json :=
  let tokens := partTokens (eventPart finish)
  if tokens.truthy then entryD tokens key (.ofNat 0) else .ofNat 0

section Turns

variable (py : Interpreter)

/-- A turn of the stream: the start of a step, tools, texts and reasoning, and
the end of the step, all of the expected shape. -/
structure Turn where
  start : Json
  events : List Json
  finish : Json
  startType : isText (eventType start) "step_start"
  eventsType : ∀ event ∈ events, isText (eventType event) "tool_use" ∨
    isText (eventType event) "text" ∨ isText (eventType event) "reasoning"
  finishType : isText (eventType finish) "step_finish"
  startShape : Tolerated py start
  eventsShape : ∀ event ∈ events, Tolerated py event
  finishShape : Tolerated py finish

/-- The times of the completed tools among some events. -/
def spansOf (events : List Json) : List PyFloat :=
  (events.filter isCompletedTool).filterMap fun event => toolSpan py (toolState (eventPart event))

/-- The sum of some times. -/
def sumOf (spans : List PyFloat) : PyFloat := spans.foldl py.add (.finite 0)

/-- Turns with several times added to the last one. -/
def lengthenedBy (spans : List PyFloat) (turns : List TurnEvent) : List TurnEvent :=
  spans.foldl (fun turns span => lengthened py span turns) turns

variable {py}

/-- The events of a turn. -/
def Turn.stream (turn : Turn py) : List Json := turn.start :: (turn.events ++ [turn.finish])

/-- The time that the completed tools of a turn took. -/
def Turn.toolTime (turn : Turn py) : PyFloat := sumOf py (spansOf py turn.events)

/-- A turn as its own events describe it. -/
def Turn.event (turn : Turn py) (index : ℕ) (durationMs : PyFloat) : TurnEvent :=
  { index, kind := kindOf turn.events, toolName := lastTool turn.events, durationMs
    tokensIn := tokenCount "input" turn.finish, tokensOut := tokenCount "output" turn.finish
    cost := partCost (eventPart turn.finish) }

/-- One event for each turn, in order, with the time of its own tools, and the
times of all turns add up to those of all tools. -/
def Accounts (turns : List (Turn py)) (metrics : AgentMetrics) : Prop :=
  metrics.turns = turns.mapIdx (fun index turn => turn.event index turn.toolTime) ∧
    sumOf py (metrics.turns.map TurnEvent.durationMs) =
      sumOf py (turns.flatMap fun turn => spansOf py turn.events)

/-- A recorded turn without its time. -/
def TurnEvent.timeless (turn : TurnEvent) : TurnEvent := { turn with durationMs := .finite 0 }

/-- The turns that the parser records, last turn first. -/
def recordedFrom : List (Turn py) → List TurnEvent
  | [] => []
  | turn :: earlier =>
    lengthenedBy py (spansOf py turn.events) (recordedFrom earlier) ++
      [turn.event earlier.length (.finite 0)]

/-- The turns that the parser records. -/
def recorded (turns : List (Turn py)) : List TurnEvent := recordedFrom turns.reverse

theorem recorded_append (turns : List (Turn py)) (turn : Turn py) :
    recorded (turns ++ [turn]) =
      lengthenedBy py (spansOf py turn.events) (recorded turns) ++
        [turn.event turns.length (.finite 0)] := by
  unfold recorded
  rw [List.reverse_append, List.reverse_singleton, List.singleton_append, recordedFrom,
    List.length_reverse]

theorem isText_other {value : Json} {text other : String} (h : isText value text)
    (hne : text ≠ other) : isText value other = false := by
  rw [isText_iff.mp h]
  exact beq_false_of_ne hne

theorem kindOf_completed (events : List Json) {event : Json} (h : isCompletedTool event) :
    kindOf (events ++ [event]) = "tool" := by
  simp [kindOf, h]

theorem kindOf_text (events : List Json) {event : Json} (h : isText (eventType event) "text") :
    kindOf (events ++ [event]) = if kindOf events ≠ "tool" then "text" else kindOf events := by
  have htool : isCompletedTool event = false := by
    simp [isCompletedTool, isText_other h (show "text" ≠ "tool_use" by decide)]
  unfold kindOf
  simp only [List.any_append, List.any_cons, List.any_nil, Bool.or_false, htool, h, Bool.or_true,
    if_true]
  split_ifs <;> simp_all

theorem kindOf_reasoning (events : List Json) {event : Json}
    (h : isText (eventType event) "reasoning") :
    kindOf (events ++ [event]) =
      if kindOf events = "unknown" then "reasoning" else kindOf events := by
  have htool : isCompletedTool event = false := by
    simp [isCompletedTool, isText_other h (show "reasoning" ≠ "tool_use" by decide)]
  have htext := isText_other h (show "reasoning" ≠ "text" by decide)
  unfold kindOf
  simp only [List.any_append, List.any_cons, List.any_nil, Bool.or_false, htool, htext, h,
    Bool.or_true, if_true]
  split_ifs <;> simp_all

theorem kindOf_uncompleted (events : List Json) {event : Json}
    (h : isText (eventType event) "tool_use") (htool : isCompletedTool event = false) :
    kindOf (events ++ [event]) = kindOf events := by
  have htext := isText_other h (show "tool_use" ≠ "text" by decide)
  have hreasoning := isText_other h (show "tool_use" ≠ "reasoning" by decide)
  unfold kindOf
  simp only [List.any_append, List.any_cons, List.any_nil, Bool.or_false, htool, htext, hreasoning]

theorem lastTool_completed (events : List Json) {event : Json} (h : isCompletedTool event) :
    lastTool (events ++ [event]) = toolName (eventPart event) := by
  simp [lastTool, List.filter_append, h]

theorem lastTool_other (events : List Json) {event : Json} (h : isCompletedTool event = false) :
    lastTool (events ++ [event]) = lastTool events := by
  simp [lastTool, List.filter_append, h]

theorem spansOf_completed (events : List Json) {event : Json} (h : isCompletedTool event) :
    spansOf py (events ++ [event]) =
      spansOf py events ++ (toolSpan py (toolState (eventPart event))).toList := by
  unfold spansOf
  rw [List.filter_append, List.filterMap_append, List.filter_cons_of_pos h, List.filter_nil]
  cases hspan : toolSpan py (toolState (eventPart event)) <;> simp [hspan]

theorem spansOf_other (events : List Json) {event : Json} (h : isCompletedTool event = false) :
    spansOf py (events ++ [event]) = spansOf py events := by
  simp [spansOf, List.filter_append, h]

theorem lengthenedBy_append (spans more : List PyFloat) (turns : List TurnEvent) :
    lengthenedBy py (spans ++ more) turns =
      lengthenedBy py more (lengthenedBy py spans turns) :=
  List.foldl_append

variable (py) in
/-- Inside of a turn, behind some of its events: what the parser has seen of the
turn, and the turns before it. -/
structure Within (earlier : List TurnEvent) (index : ℤ) (start : Json) (seen : List Json)
    (s : ParserState) : Prop where
  index : s.turnIndex = index
  start : s.turnStart = start
  turns : s.turns = lengthenedBy py (spansOf py seen) earlier
  kind : s.turnKind = kindOf seen
  tool : s.turnTool = lastTool seen
  tokensIn : s.turnTokensIn = .ofNat 0
  tokensOut : s.turnTokensOut = .ofNat 0

/-- A state where nothing of a turn has been seen. -/
structure Fresh (s : ParserState) : Prop where
  kind : s.turnKind = "unknown"
  tool : s.turnTool = .null
  tokensIn : s.turnTokensIn = .ofNat 0
  tokensOut : s.turnTokensOut = .ofNat 0

variable {earlier : List TurnEvent} {index : ℤ} {start : Json} {seen : List Json}
  {s t : ParserState} {event : Json}

theorem Within.start_turn (hfresh : s.turnIndex < 0 → Fresh s)
    (h : stepStart start s = .ok t) :
    Within py (closedTurns s) (s.turnIndex + 1) start [] t := by
  obtain ⟨u, hu, rfl⟩ := stepStart_ok h
  have hturns := (finalizeTurn_closed hu).1
  have hchecked := finalizeTurn_checks s
  rw [hu] at hchecked
  have hindex := hchecked.2.1
  have hclear : Fresh u := by
    unfold finalizeTurn at hu
    split at hu
    · rename_i hnone
      cases hu
      exact hfresh hnone
    · cases hgt : s.turnStart.gtZero with
      | error exc =>
        rw [hgt] at hu
        cases hu
      | ok b =>
        rw [hgt] at hu
        cases hu
        exact ⟨rfl, rfl, rfl, rfl⟩
  exact ⟨by rw [← hindex], rfl, hturns, hclear.kind, hclear.tool, hclear.tokensIn,
    hclear.tokensOut⟩

theorem Within.text (h : Within py earlier index start seen s)
    (htype : isText (eventType event) "text") (hrun : textEvent (eventPart event) s = .ok t) :
    Within py earlier index start (seen ++ [event]) t := by
  have htool : isCompletedTool event = false := by
    simp [isCompletedTool, isText_other htype (show "text" ≠ "tool_use" by decide)]
  obtain ⟨-, rfl⟩ := textEvent_ok hrun
  refine ⟨h.index, h.start, ?_, ?_, ?_, h.tokensIn, h.tokensOut⟩
  · rw [spansOf_other seen htool]
    exact h.turns
  · rw [kindOf_text seen htype, ← h.kind]
  · rw [lastTool_other seen htool]
    exact h.tool

theorem Within.reasoning (h : Within py earlier index start seen s)
    (htype : isText (eventType event) "reasoning") :
    Within py earlier index start (seen ++ [event]) (reasoningEvent s) := by
  have htool : isCompletedTool event = false := by
    simp [isCompletedTool, isText_other htype (show "reasoning" ≠ "tool_use" by decide)]
  refine ⟨h.index, h.start, ?_, ?_, ?_, h.tokensIn, h.tokensOut⟩
  · rw [spansOf_other seen htool]
    exact h.turns
  · rw [kindOf_reasoning seen htype, ← h.kind]
    rfl
  · rw [lastTool_other seen htool]
    exact h.tool

theorem Within.toolUse (h : Within py earlier index start seen s) (hindex : 0 ≤ index)
    (htype : isText (eventType event) "tool_use")
    (hrun : toolUse py (eventPart event) s = .ok t) :
    Within py earlier index start (seen ++ [event]) t := by
  obtain ⟨hpart, hfound, -⟩ := toolUse_shape py hrun
  have hstate : isDict (toolState (eventPart event)) := hfound
  rw [toolUse_eq py hpart hstate] at hrun
  split at hrun
  · rename_i hdone
    have htool : isCompletedTool event := by simp [isCompletedTool, htype, hdone]
    obtain ⟨durations, rfl⟩ := completeTool_ok py hstate hrun
    refine ⟨h.index, h.start, ?_, ?_, ?_, h.tokensIn, h.tokensOut⟩
    · dsimp only [timedTurns]
      rw [if_pos (h.index ▸ hindex), spansOf_completed seen htool, lengthenedBy_append, ← h.turns]
      cases toolSpan py (toolState (eventPart event)) with
      | none => rfl
      | some span => rfl
    · rw [kindOf_completed seen htool]
    · rw [lastTool_completed seen htool]
  · rename_i hdone
    have htool : isCompletedTool event = false := by simp [isCompletedTool, hdone]
    cases hrun
    refine ⟨h.index, h.start, ?_, ?_, ?_, h.tokensIn, h.tokensOut⟩
    · rw [spansOf_other seen htool]
      exact h.turns
    · rw [kindOf_uncompleted seen htype htool]
      exact h.kind
    · rw [lastTool_other seen htool]
      exact h.tool

/-- One event inside of a turn. -/
theorem Within.step (h : Within py earlier index start seen s) (hindex : 0 ≤ index)
    (htype : isText (eventType event) "tool_use" ∨ isText (eventType event) "text" ∨
      isText (eventType event) "reasoning")
    (hrun : takeEvent py event s = .ok t) :
    Within py earlier index start (seen ++ [event]) t := by
  rw [takeEvent_dict py (isDict_of_takeEvent py hrun)] at hrun
  have hother : ∀ {text other : String}, isText (eventType event) text → text ≠ other →
      ¬isText (eventType event) other = true := fun htext hne =>
    Bool.eq_false_iff.mp (isText_other htext hne)
  rcases htype with htool | htext | hreasoning
  · rw [if_neg (hother htool (by decide)), if_neg (hother htool (by decide)),
      if_neg (hother htool (by decide)), if_pos htool] at hrun
    exact h.toolUse hindex htool hrun
  · rw [if_neg (hother htext (by decide)), if_pos htext] at hrun
    exact h.text htext hrun
  · rw [if_neg (hother hreasoning (by decide)), if_neg (hother hreasoning (by decide)),
      if_pos hreasoning] at hrun
    cases hrun
    exact h.reasoning hreasoning

/-- All the events of a turn, one after the other. -/
theorem Within.run {events : List Json} (hindex : 0 ≤ index)
    (htypes : ∀ event ∈ events, isText (eventType event) "tool_use" ∨
      isText (eventType event) "text" ∨ isText (eventType event) "reasoning") :
    ∀ {seen : List Json} {s : ParserState}, Within py earlier index start seen s →
      events.foldlM (fun s event => takeEvent py event s) s = .ok t →
      Within py earlier index start (seen ++ events) t := by
  induction events with
  | nil =>
    intro seen s h hrun
    cases hrun
    rw [List.append_nil]
    exact h
  | cons event events ih =>
    intro seen s h hrun
    rw [List.forall_mem_cons] at htypes
    rw [List.foldlM_cons] at hrun
    cases hstep : takeEvent py event s with
    | error exc =>
      rw [hstep] at hrun
      cases hrun
    | ok u =>
      rw [hstep, ok_bind] at hrun
      have hrest := ih htypes.2 (h.step hindex htypes.1 hstep) hrun
      rw [List.append_assoc, List.singleton_append] at hrest
      exact hrest

/-- Behind some turns: they are recorded once the last of them is closed. -/
structure Behind (turns : List (Turn py)) (s : ParserState) : Prop where
  index : s.turnIndex = turns.length - 1
  closed : closedTurns s = recorded turns
  fresh : s.turnIndex < 0 → Fresh s

theorem Behind.none : @Behind py [] {} := ⟨rfl, rfl, fun _ => ⟨rfl, rfl, rfl, rfl⟩⟩

theorem foldlM_ok_append {σ α : Type} {f : σ → α → Except PyExc σ} {items more : List α}
    {s t : σ} (h : (items ++ more).foldlM f s = .ok t) :
    ∃ u, items.foldlM f s = .ok u ∧ more.foldlM f u = .ok t := by
  rw [List.foldlM_append] at h
  cases hrun : items.foldlM f s with
  | error exc =>
    rw [hrun] at h
    cases h
  | ok u =>
    rw [hrun] at h
    exact ⟨u, rfl, h⟩

theorem foldlM_ok_cons {σ α : Type} {f : σ → α → Except PyExc σ} {item : α} {more : List α}
    {s t : σ} (h : (item :: more).foldlM f s = .ok t) :
    ∃ u, f s item = .ok u ∧ more.foldlM f u = .ok t := by
  rw [List.foldlM_cons] at h
  cases hrun : f s item with
  | error exc =>
    rw [hrun] at h
    cases h
  | ok u =>
    rw [hrun] at h
    exact ⟨u, rfl, h⟩

/-- One more turn. -/
theorem Behind.turn {turns : List (Turn py)} {turn : Turn py} (h : Behind turns s)
    (hrun : turn.stream.foldlM (fun s event => takeEvent py event s) s = .ok t) :
    Behind (turns ++ [turn]) t := by
  obtain ⟨u, hstart, hrest⟩ := foldlM_ok_cons hrun
  obtain ⟨v, hbody, hlast⟩ := foldlM_ok_append hrest
  obtain ⟨w, hfinish, hend⟩ := foldlM_ok_cons hlast
  cases hend
  rw [takeEvent_dict py (isDict_of_takeEvent py hstart), if_pos turn.startType] at hstart
  have hopened := @Within.start_turn py _ _ _ h.fresh hstart
  have hindex : s.turnIndex + 1 = turns.length := by
    have hbefore := h.index
    omega
  rw [h.closed, hindex] at hopened
  have hwithin := hopened.run (Int.natCast_nonneg _) turn.eventsType hbody
  rw [List.nil_append] at hwithin
  have htype := turn.finishType
  have hother : ∀ {other : String}, "step_finish" ≠ other →
      ¬isText (eventType turn.finish) other = true := fun hne =>
    Bool.eq_false_iff.mp (isText_other htype hne)
  rw [takeEvent_dict py (isDict_of_takeEvent py hfinish), if_neg (hother (by decide)),
    if_neg (hother (by decide)), if_neg (hother (by decide)), if_neg (hother (by decide)),
    if_pos htype] at hfinish
  obtain ⟨counts, reason, n, z, -, -, rfl⟩ := stepFinish_ok py hfinish
  have hopen : ¬v.turnIndex < 0 := by
    rw [hwithin.index]
    omega
  refine ⟨?_, ?_, fun hneg => absurd hneg hopen⟩
  · rw [List.length_append, List.length_singleton]
    dsimp only
    rw [hwithin.index]
    omega
  · unfold closedTurns
    dsimp only
    rw [if_neg hopen, recorded_append, hwithin.turns]
    unfold openTurn Turn.event tokenCount
    dsimp only
    rw [hwithin.index, hwithin.kind, hwithin.tool, hwithin.tokensIn, hwithin.tokensOut]

theorem Behind.run {more : List (Turn py)} :
    ∀ {turns : List (Turn py)} {s : ParserState}, Behind turns s →
      (more.flatMap Turn.stream).foldlM (fun s event => takeEvent py event s) s = .ok t →
      Behind (turns ++ more) t := by
  induction more with
  | nil =>
    intro turns s h hrun
    cases hrun
    rw [List.append_nil]
    exact h
  | cons turn more ih =>
    intro turns s h hrun
    rw [List.flatMap_cons] at hrun
    obtain ⟨u, hturn, hmore⟩ := foldlM_ok_append hrun
    have hrest := ih (h.turn hturn) hmore
    rw [List.append_assoc, List.singleton_append] at hrest
    exact hrest

variable (py) in
/-- The lines of an output, each with its event. -/
def Decoded (lines : List Text) (events : List Json) : Prop :=
  List.Forall₂ (fun line event => decodeLine py line = .ok (some event)) lines events

theorem Decoded.run {lines : List Text} {events : List Json} (h : Decoded py lines events)
    (s : ParserState) :
    lines.foldlM (takeLine py) s = events.foldlM (fun s event => takeEvent py event s) s := by
  induction h generalizing s with
  | nil => rfl
  | cons hline hrest ih =>
    rw [List.foldlM_cons, List.foldlM_cons]
    unfold takeLine
    rw [hline]
    exact congrArg _ (funext ih)

theorem Decoded.tolerable {lines : List Text} {events : List Json} (h : Decoded py lines events)
    (hevents : ∀ event ∈ events, Tolerated py event) : ∀ line ∈ lines, Tolerable py line := by
  induction h with
  | nil => exact fun _ hline => absurd hline List.not_mem_nil
  | cons hline hrest ih =>
    rw [List.forall_mem_cons] at hevents ⊢
    refine ⟨?_, ih hevents.2⟩
    unfold Tolerable
    rw [hline]
    exact hevents.1

/-- An output whose events are tolerated is parsed: its metrics are those of
the state behind the events. -/
theorem Decoded.parse {output : Text} {events : List Json}
    (h : Decoded py (splitlines output) events)
    (hevents : ∀ event ∈ events, Tolerated py event) :
    ∃ s r, events.foldlM (fun s event => takeEvent py event s) {} = .ok s ∧
      parseJsonl py output = .ok r ∧ finishParser s = .ok r := by
  obtain ⟨r, hr⟩ := (parseJsonl_returns_iff py output).mpr (h.tolerable hevents)
  have hrun := hr
  unfold parseJsonl at hrun
  rw [h.run] at hrun
  cases hstate : events.foldlM (fun s event => takeEvent py event s) {} with
  | error exc =>
    rw [hstate] at hrun
    cases hrun
  | ok s =>
    rw [hstate] at hrun
    exact ⟨s, r, rfl, hr, hrun⟩

theorem Turn.tolerated {turns : List (Turn py)} :
    ∀ event ∈ turns.flatMap Turn.stream, Tolerated py event := by
  intro event hevent
  obtain ⟨turn, -, hevent⟩ := List.mem_flatMap.mp hevent
  rcases List.mem_cons.mp hevent with rfl | hevent
  · exact turn.startShape
  · rcases List.mem_append.mp hevent with hevent | hevent
    · exact turn.eventsShape event hevent
    · rw [List.mem_singleton.mp hevent]
      exact turn.finishShape

/-- The parser records the turns of a stream, with the times where they go. -/
theorem parseJsonl_turns {turns : List (Turn py)} {output : Text}
    (h : Decoded py (splitlines output) (turns.flatMap Turn.stream)) :
    ∃ r, parseJsonl py output = .ok r ∧ r.2.turns = recorded turns := by
  obtain ⟨s, r, hrun, hr, hfinish⟩ := h.parse Turn.tolerated
  refine ⟨r, hr, ?_⟩
  have hbehind : Behind turns s := Behind.none.run hrun
  rw [finishParser_metrics hfinish, ← hbehind.closed]
  rfl

theorem lengthenedBy_nil (spans : List PyFloat) : lengthenedBy py spans [] = [] := by
  induction spans with
  | nil => rfl
  | cons span spans ih => exact ih

theorem lengthenedBy_last (spans : List PyFloat) (turns : List TurnEvent) (turn : TurnEvent) :
    lengthenedBy py spans (turns ++ [turn]) =
      turns ++ [{ turn with durationMs := spans.foldl py.add turn.durationMs }] := by
  induction spans generalizing turn with
  | nil => rfl
  | cons span spans ih =>
    have hstep : lengthenedBy py (span :: spans) (turns ++ [turn]) =
        lengthenedBy py spans (lengthened py span (turns ++ [turn])) := rfl
    rw [hstep, lengthened_append, ih]
    rfl

/-- The time of each turn's tools is recorded with the turn before it; that of
the first turn is lost, and the last turn has none. -/
theorem recorded_durations (turns : List (Turn py)) :
    (recorded turns).map TurnEvent.durationMs =
      (turns.map Turn.toolTime ++ [PyFloat.finite 0]).tail := by
  induction turns using List.reverseRecOn with
  | nil => rfl
  | append_singleton turns turn ih =>
    rw [recorded_append]
    rcases List.eq_nil_or_concat turns with rfl | ⟨earlier, previous, rfl⟩
    · have hnone : recorded ([] : List (Turn py)) = [] := rfl
      rw [hnone, lengthenedBy_nil]
      rfl
    · rw [List.concat_eq_append] at *
      rw [recorded_append, List.map_append, List.tail_append_of_ne_nil (by simp)] at ih
      have hbefore := List.append_cancel_right ih
      rw [recorded_append, lengthenedBy_last, List.map_append, List.map_append, hbefore,
        @List.map_append _ _ _ _ [turn], List.append_assoc, List.append_assoc,
        List.tail_append_of_ne_nil (by simp)]
      rfl

theorem recorded_timeless (turns : List (Turn py)) :
    (recorded turns).map TurnEvent.timeless =
      turns.mapIdx fun index turn => turn.event index (.finite 0) := by
  induction turns using List.reverseRecOn with
  | nil => rfl
  | append_singleton turns turn ih =>
    have hsame : ∀ spans, (lengthenedBy py spans (recorded turns)).map TurnEvent.timeless =
        (recorded turns).map TurnEvent.timeless := by
      intro spans
      rcases List.eq_nil_or_concat (recorded turns) with hnil | ⟨earlier, last, hlast⟩
      · rw [hnil, lengthenedBy_nil]
      · rw [hlast, List.concat_eq_append, lengthenedBy_last, List.map_append, List.map_append]
        rfl
    rw [recorded_append, List.map_append, hsame, ih, List.mapIdx_append, List.mapIdx_cons,
      List.mapIdx_nil, Nat.zero_add]
    rfl

/-- A list shifted by one place is the list itself only if it is constant. -/
theorem tail_append_eq_iff {α : Type} (value : α) (items : List α) :
    (items ++ [value]).tail = items ↔ ∀ item ∈ items, item = value := by
  induction items with
  | nil => simp
  | cons first rest ih =>
    cases rest with
    | nil => simp [eq_comm]
    | cons second rest =>
      rw [List.forall_mem_cons, ← ih]
      simp only [List.cons_append, List.tail_cons, List.cons.injEq]
      constructor
      · rintro ⟨rfl, hrest⟩
        refine ⟨?_, hrest⟩
        have hall := ih.mp hrest
        exact hall second List.mem_cons_self
      · rintro ⟨rfl, hrest⟩
        have hall := ih.mp hrest
        exact ⟨hall second List.mem_cons_self, hrest⟩

theorem TurnEvent.eq_of_timeless {turn other : TurnEvent}
    (htimeless : turn.timeless = other.timeless) (htime : turn.durationMs = other.durationMs) :
    turn = other := by
  cases turn
  cases other
  simp only [TurnEvent.timeless, TurnEvent.mk.injEq] at htimeless htime ⊢
  tauto

theorem turns_eq_of_timeless {turns others : List TurnEvent}
    (htimeless : turns.map TurnEvent.timeless = others.map TurnEvent.timeless)
    (htime : turns.map TurnEvent.durationMs = others.map TurnEvent.durationMs) :
    turns = others := by
  induction turns generalizing others with
  | nil => exact (List.map_eq_nil_iff.mp htime.symm).symm
  | cons turn turns ih =>
    cases others with
    | nil => cases htime
    | cons other others =>
      rw [List.map_cons, List.map_cons, List.cons.injEq] at htimeless htime
      rw [TurnEvent.eq_of_timeless htimeless.1 htime.1, ih htimeless.2 htime.2]

theorem sumOf_zeros (hzero : py.add (.finite 0) (.finite 0) = .finite 0) {spans : List PyFloat}
    (h : ∀ span ∈ spans, span = .finite 0) : sumOf py spans = .finite 0 := by
  unfold sumOf
  induction spans with
  | nil => rfl
  | cons span spans ih =>
    rw [List.forall_mem_cons] at h
    rw [List.foldl_cons, h.1, hzero]
    exact ih h.2

/-- Where the tools of each turn take no time in all, neither do those of all turns. -/
theorem sumOf_flatMap {turns : List (Turn py)} (h : ∀ turn ∈ turns, turn.toolTime = .finite 0) :
    sumOf py (turns.flatMap fun turn => spansOf py turn.events) = .finite 0 := by
  unfold sumOf
  induction turns with
  | nil => rfl
  | cons turn turns ih =>
    rw [List.forall_mem_cons] at h
    have hturn : (spansOf py turn.events).foldl py.add (.finite 0) = .finite 0 := h.1
    rw [List.flatMap_cons, List.foldl_append, hturn]
    exact ih h.2

/-- The turns of a stream are recorded in order, each with its own kind, tool,
tokens and cost. Their times are those of their own tools, and add up to the time
of all tools, exactly when the tools of every turn take no time in all. -/
theorem turns_accounted_iff (py : Interpreter)
    (hzero : py.add (.finite 0) (.finite 0) = .finite 0) (turns : List (Turn py)) (output : Text)
    (h : Decoded py (splitlines output) (turns.flatMap Turn.stream)) :
    ∃ r, parseJsonl py output = .ok r ∧
      r.2.turns.map TurnEvent.timeless =
        turns.mapIdx (fun index turn => turn.event index (.finite 0)) ∧
      (Accounts turns r.2 ↔ ∀ turn ∈ turns, turn.toolTime = .finite 0) := by
  obtain ⟨r, hr, hturns⟩ := parseJsonl_turns h
  have htimeless := recorded_timeless turns
  have hdurations := recorded_durations turns
  have hexpected : (turns.mapIdx fun index turn => turn.event index turn.toolTime).map
      TurnEvent.durationMs = turns.map Turn.toolTime := by
    refine List.ext_getElem (by simp) fun index _ _ => ?_
    simp [Turn.event]
  refine ⟨r, hr, by rw [hturns, htimeless], ?_⟩
  unfold Accounts
  rw [hturns]
  constructor
  · intro haccounts
    have hsame := congrArg (List.map TurnEvent.durationMs) haccounts.1
    rw [hexpected, hdurations, tail_append_eq_iff, List.forall_mem_map] at hsame
    exact hsame
  · intro hall
    have hconstant := (tail_append_eq_iff (PyFloat.finite 0) (turns.map Turn.toolTime)).mpr
      (List.forall_mem_map.mpr hall)
    have hsame : recorded turns = turns.mapIdx fun index turn => turn.event index turn.toolTime := by
      refine turns_eq_of_timeless ?_ (by rw [hexpected, hdurations, hconstant])
      rw [htimeless]
      refine List.ext_getElem (by simp) fun index _ _ => ?_
      simp [Turn.event, TurnEvent.timeless]
    refine ⟨hsame, ?_⟩
    rw [hdurations, hconstant, sumOf_flatMap hall]
    exact sumOf_zeros hzero (List.forall_mem_map.mpr hall)

end Turns

/-- A completed tool that took two milliseconds. -/
def timedTool : Json :=
  .obj [("type", .str "tool_use"), ("part", .obj [("tool", .str "read"), ("state",
    .obj [("status", .str "completed"),
      ("time", .obj [("start", .num (.int 1)), ("end", .num (.int 3))])])])]

/-- The line of the tool. -/
def timedToolLine : Text :=
  ("\x7b\"type\":\"tool_use\",\"part\":\x7b\"tool\":\"read\",\"state\":\x7b\"status\":\"completed\"," ++
    "\"time\":\x7b\"start\":1,\"end\":3\x7d\x7d\x7d\x7d").toList

/-- The end of a step without tokens and cost. -/
def bareFinish : Json := .obj [("type", .str "step_finish"), ("part", .obj [])]

/-- The line of the end of the step. -/
def bareFinishLine : Text := "\x7b\"type\":\"step_finish\",\"part\":\x7b\x7d\x7d".toList

theorem tolerated_timedTool : Tolerated plainPython timedTool := by
  refine ⟨rfl, ?_⟩
  change UseShape plainPython _
  refine ⟨rfl, rfl, fun _ => ⟨rfl, rfl, fun _ => ?_⟩⟩
  change Fits plainPython (.int (3 - 1))
  exact ⟨.finite 2, by decide +kernel⟩

theorem tolerated_bareFinish : Tolerated plainPython bareFinish := by
  refine ⟨rfl, ?_⟩
  change FinishShape plainPython _
  exact ⟨rfl, fun h => absurd h Bool.false_ne_true, .float (.finite 0), rfl, .finite 0, rfl⟩

/-- A turn of one tool. -/
def timedTurn : Turn plainPython where
  start := .obj [("type", .str "step_start")]
  events := [timedTool]
  finish := bareFinish
  startType := by decide
  eventsType := by
    intro event hevent
    rw [List.mem_singleton.mp hevent]
    exact Or.inl (by decide)
  finishType := by decide
  startShape := ⟨rfl, rfl⟩
  eventsShape := by
    intro event hevent
    rw [List.mem_singleton.mp hevent]
    exact tolerated_timedTool
  finishShape := tolerated_bareFinish

set_option maxRecDepth 4000 in
theorem decode_timedTool : JsonText.decode timedToolLine = some timedTool := rfl

/-- The output of the turn. -/
def timedOutput : Text := unlines [stepStartLine, timedToolLine, bareFinishLine]

theorem decoded_timedOutput :
    Decoded plainPython (splitlines timedOutput) ([timedTurn].flatMap Turn.stream) := by
  have hlines : ∀ line ∈ [stepStartLine, timedToolLine, bareFinishLine], IsLine line := by
    simp only [List.forall_mem_cons, List.not_mem_nil, false_implies, implies_true, and_true]
    exact ⟨by decide, by decide, by decide⟩
  unfold timedOutput
  rw [splitlines_unlines hlines]
  have htool := @decodeLine_event plainPython _ _ rfl (by decide) rfl decode_timedTool
  have hfinish : decodeLine plainPython bareFinishLine = .ok (some bareFinish) :=
    decodeLine_event rfl (by decide) rfl rfl
  exact .cons (decodeLine_stepStart fun _ _ => rfl) (.cons htool (.cons hfinish .nil))

theorem turns_accounted_timed :
    ∃ r, parseJsonl plainPython timedOutput = .ok r ∧
      r.2.turns.map TurnEvent.timeless =
        [timedTurn].mapIdx (fun index turn => turn.event index (.finite 0)) ∧
      (Accounts [timedTurn] r.2 ↔ ∀ turn ∈ [timedTurn], turn.toolTime = .finite 0) :=
  turns_accounted_iff plainPython (by decide +kernel) [timedTurn] timedOutput decoded_timedOutput

theorem timedTurn_toolTime : timedTurn.toolTime = .finite 2 := by decide +kernel

/-- The only turn of an output took two milliseconds, and is recorded with none. -/
theorem not_accounted_timed :
    ∃ r, parseJsonl plainPython timedOutput = .ok r ∧ ¬Accounts [timedTurn] r.2 := by
  obtain ⟨r, hr, hturns⟩ := parseJsonl_turns decoded_timedOutput
  refine ⟨r, hr, fun haccounts => ?_⟩
  have hdurations := congrArg (List.map TurnEvent.durationMs) haccounts.1
  rw [hturns, recorded_durations] at hdurations
  have hzero : [PyFloat.finite 0] = [timedTurn.toolTime] := hdurations
  rw [timedTurn_toolTime] at hzero
  exact absurd hzero (by decide)

end AiosDeck.Runtime
