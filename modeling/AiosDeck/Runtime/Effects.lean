import AiosDeck.Runtime.Tolerance

/-!
# What the events leave

The state behind each kind of event that does not raise, and the metrics that
the end of the stream makes of a state.
-/

namespace AiosDeck.Runtime

open Python

/-- The turn that is open, as it is recorded when it ends. -/
def openTurn (s : ParserState) : TurnEvent :=
  { index := s.turnIndex, kind := s.turnKind, toolName := s.turnTool, durationMs := .finite 0
    tokensIn := s.turnTokensIn, tokensOut := s.turnTokensOut, cost := s.turnCost }

/-- The turns when the open one has ended. -/
def closedTurns (s : ParserState) : List TurnEvent :=
  if s.turnIndex < 0 then s.turns else s.turns ++ [openTurn s]

theorem finalizeTurn_closed {s t : ParserState} (h : finalizeTurn s = .ok t) :
    t.turns = closedTurns s ∧ metricsOf t = metricsOf { s with turns := closedTurns s } := by
  unfold finalizeTurn at h
  unfold closedTurns
  split at h
  · rename_i hindex
    cases h
    rw [if_pos hindex]
    exact ⟨rfl, rfl⟩
  · rename_i hindex
    cases hgt : s.turnStart.gtZero with
    | error exc =>
      rw [hgt] at h
      cases h
    | ok b =>
      rw [hgt] at h
      cases h
      rw [if_neg hindex]
      exact ⟨rfl, rfl⟩

theorem finishParser_metrics {s : ParserState} {r : String × AgentMetrics}
    (h : finishParser s = .ok r) : r.2 = metricsOf { s with turns := closedTurns s } := by
  unfold finishParser at h
  cases hrun : finalizeTurn s with
  | error exc =>
    rw [hrun] at h
    cases h
  | ok t =>
    rw [hrun, ok_bind] at h
    cases hparts : t.textParts.mapM joinable with
    | error exc =>
      rw [hparts] at h
      cases h
    | ok parts =>
      rw [hparts] at h
      cases h
      exact (finalizeTurn_closed hrun).2

theorem stepStart_ok {s t : ParserState} {timestamp : Json}
    (h : stepStart timestamp s = .ok t) :
    ∃ u, finalizeTurn s = .ok u ∧
      t = { u with turnIndex := u.turnIndex + 1, turnStart := timestamp } := by
  unfold stepStart at h
  cases hrun : finalizeTurn s with
  | error exc =>
    rw [hrun] at h
    cases h
  | ok u =>
    rw [hrun] at h
    cases h
    exact ⟨u, rfl, rfl⟩

theorem textEvent_ok {s t : ParserState} {part : Json} (h : textEvent part s = .ok t) :
    isDict part ∧ t = { s with
      textParts := if (entryD part "text" (.str "")).truthy
        then s.textParts ++ [entryD part "text" (.str "")] else s.textParts
      turnKind := if s.turnKind ≠ "tool" then "text" else s.turnKind } := by
  unfold textEvent at h
  cases hpart : isDict part with
  | false =>
    rw [getD_other hpart] at h
    cases h
  | true =>
    rw [getD_dict hpart] at h
    cases h
    exact ⟨rfl, rfl⟩

theorem takeTokens_ok {s t : ParserState} {tokens : Json} (h : takeTokens tokens s = .ok t) :
    ∃ counts, t = { s with
      tokens := counts
      turnTokensIn := if tokens.truthy then entryD tokens "input" (.ofNat 0) else s.turnTokensIn
      turnTokensOut :=
        if tokens.truthy then entryD tokens "output" (.ofNat 0) else s.turnTokensOut } := by
  have hshape := takeTokens_checks s tokens
  rw [h] at hshape
  unfold takeTokens at h
  split at h
  · rename_i htruthy
    obtain ⟨htokens, hcache⟩ := hshape.1 htruthy
    rw [getD_dict htokens, ok_bind, getD_dict htokens, ok_bind, getD_dict htokens, ok_bind,
      getD_dict htokens, ok_bind, getD_dict hcache, ok_bind, getD_dict hcache] at h
    cases h
    rw [if_pos htruthy, if_pos htruthy]
    exact ⟨_, rfl⟩
  · rename_i htruthy
    cases h
    rw [if_neg htruthy, if_neg htruthy]
    exact ⟨s.tokens, rfl⟩

section Tools

variable (py : Interpreter)

/-- The time between two datums, as a float. -/
def spanOf (start stop : Json) : Option PyFloat :=
  match py.minus stop start with
  | .ok d => (number? d).bind fun x => (py.toFloat x).toOption
  | .error _ => none

/-- The time that a state reports, when it has a start and an end. -/
def toolSpan (state : Json) : Option PyFloat :=
  let timing := entryD state "time" (.obj [])
  let start := entryD timing "start" (.ofNat 0)
  let stop := entryD timing "end" (.ofNat 0)
  if start.truthy && stop.truthy then spanOf py start stop else none

/-- Turns with a time added to the last one. -/
def lengthened (span : PyFloat) : List TurnEvent → List TurnEvent
  | [] => []
  | [turn] => [{ turn with durationMs := py.add turn.durationMs span }]
  | turn :: rest => turn :: lengthened span rest

theorem lengthened_append (span : PyFloat) (turns : List TurnEvent) (turn : TurnEvent) :
    lengthened py span (turns ++ [turn]) =
      turns ++ [{ turn with durationMs := py.add turn.durationMs span }] := by
  induction turns with
  | nil => rfl
  | cons first rest ih =>
    cases rest with
    | nil => rfl
    | cons second rest =>
      change first :: lengthened py span ((second :: rest) ++ [turn]) = _
      rw [ih]
      rfl

theorem plus_ok {x y : PyFloat} {value : Json} (h : py.plus x value = .ok y) :
    ∃ n z, number? value = some n ∧ py.toFloat n = .ok z ∧ y = py.add x z := by
  unfold Interpreter.plus at h
  cases hvalue : number? value with
  | none =>
    rw [hvalue] at h
    cases h
  | some n =>
    rw [hvalue] at h
    dsimp only at h
    cases hn : py.toFloat n with
    | error exc =>
      rw [hn] at h
      cases h
    | ok z =>
      rw [hn] at h
      cases h
      exact ⟨n, z, rfl, hn, rfl⟩

theorem lengthenLast_eq {duration : Json} {n : PyNum} {z : PyFloat}
    (hvalue : number? duration = some n) (hn : py.toFloat n = .ok z) :
    ∀ turns, lengthenLast py duration turns = .ok (lengthened py z turns)
  | [] => rfl
  | [turn] => by
    unfold lengthenLast Interpreter.plus
    rw [hvalue]
    dsimp only
    rw [hn]
    rfl
  | turn :: next :: rest => by
    unfold lengthenLast
    rw [lengthenLast_eq hvalue hn (next :: rest)]
    rfl

/-- A tool adds its time to its own total, and to the last recorded turn. -/
theorem timeTool_ok {s t : ParserState} {name timing : Json}
    (h : timeTool py name timing s = .ok t) :
    ∃ durations, t = { s with
      toolDurations := durations
      turns :=
        let start := entryD timing "start" (.ofNat 0)
        let stop := entryD timing "end" (.ofNat 0)
        let span := if start.truthy && stop.truthy then spanOf py start stop else none
        if 0 ≤ s.turnIndex then (span.elim s.turns fun d => lengthened py d s.turns)
        else s.turns } := by
  have hshape := timeTool_checks py s name timing
  rw [h] at hshape
  have htiming := hshape.1.1
  unfold timeTool at h
  rw [getD_dict htiming, ok_bind, getD_dict htiming, ok_bind] at h
  dsimp only at h ⊢
  split at h
  · rename_i htruthy
    rw [if_pos htruthy]
    unfold spanOf
    cases hminus : py.minus (entryD timing "end" (.ofNat 0)) (entryD timing "start" (.ofNat 0)) with
    | error exc =>
      rw [hminus] at h
      cases h
    | ok duration =>
      rw [hminus, ok_bind] at h
      cases hplus : py.plus ((findKey name s.toolDurations).getD (.finite 0)) duration with
      | error exc =>
        rw [hplus] at h
        cases h
      | ok total =>
        obtain ⟨n, z, hvalue, hn, -⟩ := plus_ok py hplus
        rw [hplus, ok_bind, lengthenLast_eq py hvalue hn] at h
        refine ⟨assignKey name total s.toolDurations, ?_⟩
        dsimp only
        rw [hvalue, Option.bind_some, hn]
        split at h
        · rename_i hindex
          cases h
          rw [if_pos hindex]
          rfl
        · rename_i hindex
          cases h
          rw [if_neg hindex]
  · rename_i htruthy
    cases h
    refine ⟨s.toolDurations, ?_⟩
    rw [if_neg htruthy, Option.elim_none, ite_self]

/-- The call that a completed tool makes, with its input cut short. -/
def callOf (name state : Json) : Json × Text :=
  (name, (py.dumps (entryD state "input" (.obj []))).take 200)

/-- The turns behind a completed tool. -/
def timedTurns (state : Json) (s : ParserState) : List TurnEvent :=
  if 0 ≤ s.turnIndex then ((toolSpan py state).elim s.turns fun d => lengthened py d s.turns)
  else s.turns

theorem completeTool_ok {s t : ParserState} {name state : Json} (hstate : isDict state)
    (h : completeTool py name state s = .ok t) :
    ∃ durations, t = { s with
      toolCounts := assignKey name ((findKey name s.toolCounts).getD 0 + 1) s.toolCounts
      turnKind := "tool"
      turnTool := name
      toolDurations := durations
      turns := timedTurns py state s
      repeatedToolCalls := if repeats (callOf py name state) s.prevToolCall
        then s.repeatedToolCalls + 1 else s.repeatedToolCalls
      prevToolCall := some (callOf py name state) } := by
  unfold completeTool at h
  split at h
  · rw [getD_dict hstate, ok_bind] at h
    cases htime : timeTool py name (entryD state "time" (.obj [])) { s with
        toolCounts := assignKey name ((findKey name s.toolCounts).getD 0 + 1) s.toolCounts
        turnKind := "tool"
        turnTool := name } with
    | error exc =>
      rw [htime] at h
      cases h
    | ok u =>
      obtain ⟨durations, hu⟩ := timeTool_ok py htime
      rw [htime, ok_bind, getD_dict hstate, ok_bind, hu] at h
      cases h
      exact ⟨durations, rfl⟩
  · cases h

/-- The name of the tool of a part. -/
def toolName (part : Json) : Json := entryD part "tool" (.str "")

/-- The state of the tool of a part. -/
def toolState (part : Json) : Json := entryD part "state" (.obj [])

/-- Whether the tool of a part completed. -/
def isCompleted (part : Json) : Bool :=
  isText (entryD (toolState part) "status" .null) "completed"

theorem toolUse_eq {part : Json} (hpart : isDict part) (hstate : isDict (toolState part))
    (s : ParserState) :
    toolUse py part s =
      if isCompleted part then completeTool py (toolName part) (toolState part) s else .ok s := by
  unfold toolUse
  rw [getD_dict hpart, ok_bind, getD_dict hpart, ok_bind]
  change (toolState part).getD "status" .null >>= _ = _
  rw [getD_dict hstate, ok_bind]
  rfl

/-- The counts of tokens of a part. -/
def partTokens (part : Json) : Json := entryD part "tokens" (.obj [])

/-- The cost of a part. -/
def partCost (part : Json) : Json := entryD part "cost" (.num (.float (.finite 0)))

/-- The end of a step adds its cost, and sets the cost and the tokens of the turn. -/
theorem stepFinish_ok {s t : ParserState} {part : Json} (h : stepFinish py part s = .ok t) :
    ∃ counts reason n z, number? (partCost part) = some n ∧ py.toFloat n = .ok z ∧
      t = { s with
        tokens := counts
        turnTokensIn := if (partTokens part).truthy
          then entryD (partTokens part) "input" (.ofNat 0) else s.turnTokensIn
        turnTokensOut := if (partTokens part).truthy
          then entryD (partTokens part) "output" (.ofNat 0) else s.turnTokensOut
        totalCost := py.add s.totalCost z
        turnCost := partCost part
        exitReason := reason } := by
  have hshape := stepFinish_checks py s part
  rw [h] at hshape
  have hpart := hshape.1.1
  unfold stepFinish at h
  rw [getD_dict hpart, ok_bind] at h
  cases htokens : takeTokens (entryD part "tokens" (.obj [])) s with
  | error exc =>
    rw [htokens] at h
    cases h
  | ok u =>
    obtain ⟨counts, hu⟩ := takeTokens_ok htokens
    rw [htokens, ok_bind, getD_dict hpart, ok_bind] at h
    cases hplus : py.plus u.totalCost (entryD part "cost" (.num (.float (.finite 0)))) with
    | error exc =>
      rw [hplus] at h
      cases h
    | ok total =>
      obtain ⟨n, z, hvalue, hn, htotal⟩ := plus_ok py hplus
      rw [hplus, ok_bind, getD_dict hpart] at h
      cases h
      rw [htotal, hu]
      exact ⟨counts, _, n, z, hvalue, hn, rfl⟩

/-- The type of an event. -/
def eventType (event : Json) : Json := entryD event "type" (.str "")

/-- The part of an event. -/
def eventPart (event : Json) : Json := entryD event "part" (.obj [])

/-- The time of an event. -/
def eventTime (event : Json) : Json := entryD event "timestamp" (.ofNat 0)

theorem takeEvent_dict {event : Json} (hevent : isDict event) (s : ParserState) :
    takeEvent py event s =
      if isText (eventType event) "step_start" then stepStart (eventTime event) s
      else if isText (eventType event) "text" then textEvent (eventPart event) s
      else if isText (eventType event) "reasoning" then .ok (reasoningEvent s)
      else if isText (eventType event) "tool_use" then toolUse py (eventPart event) s
      else if isText (eventType event) "step_finish" then stepFinish py (eventPart event) s
      else .ok s := by
  unfold takeEvent
  rw [getD_dict hevent, ok_bind, getD_dict hevent, ok_bind, getD_dict hevent, ok_bind]
  rfl

theorem isDict_of_takeEvent {event : Json} {s t : ParserState}
    (h : takeEvent py event s = .ok t) : isDict event := by
  cases hevent : isDict event with
  | true => rfl
  | false =>
    unfold takeEvent at h
    rw [getD_other hevent] at h
    cases h

theorem toolUse_shape {part : Json} {s t : ParserState} (h : toolUse py part s = .ok t) :
    UseShape py part := by
  have hshape := toolUse_checks py s part
  rw [h] at hshape
  exact hshape.1

theorem isText_iff {value : Json} {text : String} : isText value text ↔ value = .str text := by
  cases value <;> simp [isText]

end Tools

end AiosDeck.Runtime
