import AiosDeck.Runtime.Effects

/-!
# Lines inserted into an event stream

Every line that is not inert is noticed behind some other lines: the run raises,
has one more turn or tool, or its last turn has another kind or cost.
-/

namespace AiosDeck.Runtime

open Python Verdict

/-- A line that starts a step. -/
def stepStartLine : Text := "\x7b\"type\":\"step_start\"\x7d".toList

/-- A line that finishes a step at a cost that is not a number. -/
def nanCostLine : Text :=
  "\x7b\"type\":\"step_finish\",\"part\":\x7b\"cost\":NaN\x7d\x7d".toList

/-- A line that finishes a step at an infinite cost. -/
def infiniteCostLine : Text :=
  "\x7b\"type\":\"step_finish\",\"part\":\x7b\"cost\":Infinity\x7d\x7d".toList

/-- The event of a line that finishes a step. -/
def costEvent (cost : PyFloat) : Json :=
  .obj [("type", .str "step_finish"), ("part", .obj [("cost", .num (.float cost))])]

section Samples

variable (py : Interpreter)

/-- Texts of a hundred characters stay within the limits of the interpreter. -/
def Roomy : Prop := ∀ text : Text, text.length ≤ 100 → py.limits text = none

variable {py}

theorem decodeLine_event {line : Text} {event : Json} (hlimits : py.limits line = none)
    (hstrip : strip line = line) (hhead : line.head? = some '\x7b')
    (hdecode : JsonText.decode line = some event) : decodeLine py line = .ok (some event) := by
  unfold decodeLine Interpreter.loads
  rw [hstrip, if_pos hhead, hlimits, hdecode]

theorem decodeLine_stepStart (h : Roomy py) :
    decodeLine py stepStartLine = .ok (some (.obj [("type", .str "step_start")])) :=
  decodeLine_event (h _ (by decide)) (by decide) rfl rfl

theorem decodeLine_nanCost (h : Roomy py) :
    decodeLine py nanCostLine = .ok (some (costEvent .nan)) :=
  decodeLine_event (h _ (by decide)) (by decide) rfl rfl

theorem decodeLine_infiniteCost (h : Roomy py) :
    decodeLine py infiniteCostLine = .ok (some (costEvent .posInf)) :=
  decodeLine_event (h _ (by decide)) (by decide) rfl rfl

/-- The state behind the start of a first step. -/
def startedState : ParserState := { turnIndex := 0, turnStart := .ofNat 0 }

theorem takeLine_stepStart (h : Roomy py) : takeLine py {} stepStartLine = .ok startedState := by
  unfold takeLine
  rw [decodeLine_stepStart h]
  rfl

theorem takeLine_nanCost (h : Roomy py) :
    takeLine py startedState nanCostLine = .ok { startedState with
      totalCost := py.add (.finite 0) .nan, turnCost := .num (.float .nan) } := by
  unfold takeLine
  rw [decodeLine_nanCost h]
  rfl

theorem takeLine_infiniteCost (h : Roomy py) :
    takeLine py startedState infiniteCostLine = .ok { startedState with
      totalCost := py.add (.finite 0) .posInf, turnCost := .num (.float .posInf) } := by
  unfold takeLine
  rw [decodeLine_infiniteCost h]
  rfl

end Samples

section Noticed

variable {py : Interpreter} {line : Text}

/-- Behind lines that leave a finishable state, a line that is not noticed
leaves the recorded turns and the number of calls. -/
theorem Unnoticed.leaves (h : Unnoticed py line) (hline : IsLine line) {before : List Text}
    (hbefore : ∀ l ∈ before, IsLine l) {s : ParserState}
    (hrun : before.foldlM (takeLine py) {} = .ok s) (hgood : Finishable s) :
    ∃ t, takeLine py s line = .ok t ∧ closedTurns t = closedTurns s ∧
      (t.toolCounts.map Prod.snd).sum = (s.toolCounts.map Prod.snd).sum := by
  obtain ⟨r, hr⟩ := (finishParser_iff s).mpr hgood
  have hafter : ∀ l ∈ before ++ [line], IsLine l := by
    simpa [or_imp, forall_and] using ⟨hbefore, hline⟩
  have hsame := h (unlines before) (unlines (before ++ [line])) before [] r
    (by rw [splitlines_unlines hbefore, List.append_nil])
    (splitlines_unlines hafter)
    (by unfold parseJsonl; rw [splitlines_unlines hbefore, hrun, ok_bind, hr])
  unfold parseJsonl at hsame
  rw [splitlines_unlines hafter, List.foldlM_append, hrun, ok_bind, List.foldlM_cons] at hsame
  cases hstep : takeLine py s line with
  | error exc =>
    rw [hstep] at hsame
    cases hsame
  | ok t =>
    rw [hstep] at hsame
    have hbehind : metricsOf { t with turns := closedTurns t } =
        metricsOf { s with turns := closedTurns s } :=
      (finishParser_metrics hsame).symm.trans (finishParser_metrics hr)
    exact ⟨t, rfl, congrArg AgentMetrics.turns hbehind, congrArg AgentMetrics.toolCalls hbehind⟩

theorem takeLine_event {event : Json} (hevent : decodeLine py line = .ok (some event))
    (s : ParserState) : takeLine py s line = takeEvent py event s := by
  unfold takeLine
  rw [hevent]
  rfl

theorem finishable_started : Finishable startedState :=
  ⟨fun _ => rfl, fun _ h => absurd h List.not_mem_nil⟩

theorem isLine_stepStart : IsLine stepStartLine := by decide

theorem isLine_nanCost : IsLine nanCostLine := by decide

theorem isLine_infiniteCost : IsLine infiniteCostLine := by decide

/-- A further step is one turn more. -/
theorem stepStart_noticed {timestamp : Json} {t : ParserState}
    (h : stepStart timestamp {} = .ok t) : closedTurns t ≠ closedTurns {} := by
  cases h
  exact List.cons_ne_nil _ _

/-- A text makes a turn one of text. -/
theorem textEvent_noticed {part : Json} {t : ParserState}
    (h : textEvent part startedState = .ok t) : closedTurns t ≠ closedTurns startedState := by
  obtain ⟨-, rfl⟩ := textEvent_ok h
  intro hsame
  have hkinds : ["text"] = ["unknown"] := congrArg (List.map TurnEvent.kind) hsame
  exact absurd hkinds (by decide)

theorem reasoningEvent_noticed :
    closedTurns (reasoningEvent startedState) ≠ closedTurns startedState := by
  intro hsame
  have hkinds : ["reasoning"] = ["unknown"] := congrArg (List.map TurnEvent.kind) hsame
  exact absurd hkinds (by decide)

/-- A completed tool is one call more. -/
theorem completeTool_noticed {name state : Json} {t : ParserState} (hstate : isDict state)
    (h : completeTool py name state {} = .ok t) : (t.toolCounts.map Prod.snd).sum ≠ 0 := by
  obtain ⟨durations, rfl⟩ := completeTool_ok py hstate h
  exact Nat.one_ne_zero

/-- The end of a step sets the cost of the turn. -/
theorem stepFinish_noticed {part : Json} {cost : PyFloat} {s t : ParserState}
    (hindex : s.turnIndex = 0) (hcost : s.turnCost = .num (.float cost))
    (h : stepFinish py part s = .ok t) (hsame : closedTurns t = closedTurns s) :
    partCost part = .num (.float cost) := by
  obtain ⟨counts, reason, n, z, -, -, rfl⟩ := stepFinish_ok py h
  have hlast := congrArg (List.map TurnEvent.cost) hsame
  unfold closedTurns at hlast
  have hopen : ¬s.turnIndex < 0 := by omega
  dsimp only at hlast
  rw [if_neg hopen, if_neg hopen, List.map_append, List.map_append] at hlast
  have hcosts := List.append_cancel_left hlast
  simp only [openTurn, List.map_cons, List.map_nil, List.cons.injEq, and_true] at hcosts
  rw [hcosts, hcost]

/-- Behind the start of a step, and behind its end at either cost, the event of
a line that is not noticed leaves the recorded turns. -/
theorem Unnoticed.samples (hroomy : Roomy py) (hline : IsLine line) (h : Unnoticed py line)
    {event : Json} (hevent : decodeLine py line = .ok (some event)) :
    (∃ t, takeEvent py event {} = .ok t ∧ closedTurns t = closedTurns {} ∧
      (t.toolCounts.map Prod.snd).sum = 0) ∧
    (∃ t, takeEvent py event startedState = .ok t ∧ closedTurns t = closedTurns startedState) ∧
    ∀ cost, cost = .nan ∨ cost = .posInf → ∃ s t, takeEvent py event s = .ok t ∧
      closedTurns t = closedTurns s ∧ s.turnIndex = 0 ∧ s.turnCost = .num (.float cost) := by
  have hstart : Finishable {} :=
    ⟨fun h => absurd h (by decide), fun _ h => absurd h List.not_mem_nil⟩
  have hstarted : [stepStartLine].foldlM (takeLine py) {} = .ok startedState := by
    rw [List.foldlM_cons, takeLine_stepStart hroomy]
    rfl
  refine ⟨?_, ?_, ?_⟩
  · obtain ⟨t, hrun, hturns, hcounts⟩ :=
      h.leaves hline (fun _ h => absurd h List.not_mem_nil) rfl hstart
    exact ⟨t, takeLine_event hevent {} ▸ hrun, hturns, hcounts⟩
  · obtain ⟨t, hrun, hturns, -⟩ := h.leaves hline
      (List.forall_mem_singleton.mpr isLine_stepStart) hstarted finishable_started
    exact ⟨t, takeLine_event hevent startedState ▸ hrun, hturns⟩
  · intro cost hcost
    have hbehind : ∀ costLine s, IsLine costLine →
        takeLine py startedState costLine = .ok s → Finishable s →
        ∃ t, takeEvent py event s = .ok t ∧ closedTurns t = closedTurns s := by
      intro costLine s hcostLine hrun hgood
      have hboth : [stepStartLine, costLine].foldlM (takeLine py) {} = .ok s := by
        rw [List.foldlM_cons, takeLine_stepStart hroomy, ok_bind, List.foldlM_cons, hrun]
        rfl
      obtain ⟨t, ht, hturns, -⟩ := h.leaves hline
        (List.forall_mem_cons.mpr ⟨isLine_stepStart, List.forall_mem_singleton.mpr hcostLine⟩)
        hboth hgood
      exact ⟨t, takeLine_event hevent s ▸ ht, hturns⟩
    rcases hcost with rfl | rfl
    · obtain ⟨t, ht, hturns⟩ :=
        hbehind _ _ isLine_nanCost (takeLine_nanCost hroomy) finishable_started
      exact ⟨_, t, ht, hturns, rfl, rfl⟩
    · obtain ⟨t, ht, hturns⟩ :=
        hbehind _ _ isLine_infiniteCost (takeLine_infiniteCost hroomy) finishable_started
      exact ⟨_, t, ht, hturns, rfl, rfl⟩

theorem isKnownType_eq_false {value : Json} (hstep : ¬isText value "step_start")
    (htext : ¬isText value "text") (hreasoning : ¬isText value "reasoning")
    (htool : ¬isText value "tool_use") (hfinish : ¬isText value "step_finish") :
    isKnownType value = false := by
  unfold isKnownType
  simp only [List.any_cons, List.any_nil, Bool.or_false, Bool.or_eq_false_iff]
  simp only [Bool.not_eq_true] at hstep htext hreasoning htool hfinish
  exact ⟨hstep, htext, hreasoning, htool, hfinish⟩

/-- A line is noticed behind some lines, unless it is inert. -/
theorem Unnoticed.inert (hroomy : Roomy py) (hline : IsLine line) (h : Unnoticed py line) :
    Inert py line := by
  unfold Inert
  cases hfound : decodeLine py line with
  | error exc =>
    obtain ⟨t, ht, -⟩ := h.leaves hline (fun _ h => absurd h List.not_mem_nil) (s := {}) rfl
      ⟨fun h => absurd h (by decide), fun _ h => absurd h List.not_mem_nil⟩
    unfold takeLine at ht
    rw [hfound] at ht
    cases ht
  | ok found =>
    cases found with
    | none => trivial
    | some event =>
      obtain ⟨⟨t, ht, hturns, hcounts⟩, ⟨u, hu, husame⟩, hcosts⟩ := h.samples hroomy hline hfound
      have hevent : isDict event := isDict_of_takeEvent py ht
      refine ⟨hevent, ?_⟩
      rw [takeEvent_dict py hevent] at ht hu
      split at ht
      · exact absurd hturns (stepStart_noticed ht)
      rename_i hstep
      rw [if_neg hstep] at hu
      split at hu
      · exact absurd husame (textEvent_noticed hu)
      rename_i htext
      rw [if_neg htext] at ht
      split at hu
      · cases hu
        exact absurd husame reasoningEvent_noticed
      rename_i hreasoning
      rw [if_neg hreasoning] at ht
      split at ht
      · rename_i htool
        rw [if_pos htool] at hu
        obtain ⟨hpart, hstate, -⟩ := toolUse_shape py ht
        right
        refine ⟨htool, hpart, hstate, ?_⟩
        rw [toolUse_eq py hpart hstate] at ht
        split at ht
        · exact absurd hcounts (completeTool_noticed hstate ht)
        · rename_i hstatus
          exact Bool.eq_false_iff.mpr hstatus
      rename_i htool
      left
      change isKnownType (eventType event) = false
      refine isKnownType_eq_false hstep htext hreasoning htool fun hfinish => ?_
      have hcost : ∀ cost, cost = .nan ∨ cost = .posInf →
          partCost (eventPart event) = .num (.float cost) := by
        intro cost hcost
        obtain ⟨v, w, hw, hwsame, hindex, hcostv⟩ := hcosts cost hcost
        rw [takeEvent_dict py hevent, if_neg hstep, if_neg htext, if_neg hreasoning,
          if_neg htool, if_pos hfinish] at hw
        exact stepFinish_noticed hindex hcostv hw hwsame
      have hboth := (hcost .nan (Or.inl rfl)).symm.trans (hcost .posInf (Or.inr rfl))
      cases hboth

end Noticed

/-- The parser returns exactly when it tolerates every line of the output, and
inserting a line that is no event of a known shape goes unnoticed exactly when
the line holds no event, one of unknown type, or a tool that is not completed. -/
theorem parseJsonl_tolerant_iff (py : Interpreter) (hroomy : Roomy py) :
    (∀ output, (∃ r, parseJsonl py output = .ok r) ↔
      ∀ line ∈ splitlines output, Tolerable py line) ∧
    ∀ line, IsLine line → Malformed line → (Unnoticed py line ↔ Inert py line) :=
  ⟨parseJsonl_returns_iff py, fun _ hline _ => ⟨Unnoticed.inert hroomy hline, Inert.unnoticed py⟩⟩

/-- An interpreter without limits, which writes the integer part of a float. -/
def plainPython : Interpreter := .standard (fun _ => none) fun q => (toString ⌊q⌋).toList

theorem parseJsonl_tolerant_plain :
    (∀ output, (∃ r, parseJsonl plainPython output = .ok r) ↔
      ∀ line ∈ splitlines output, Tolerable plainPython line) ∧
    ∀ line, IsLine line → Malformed line → (Unnoticed plainPython line ↔ Inert plainPython line) :=
  parseJsonl_tolerant_iff plainPython fun _ _ => rfl

/-- A text event whose part is null. -/
def nullPartLine : Text := "\x7b\"type\":\"text\",\"part\":null\x7d".toList

theorem decodeLine_nullPart :
    decodeLine plainPython nullPartLine =
      .ok (some (.obj [("type", .str "text"), ("part", .null)])) :=
  decodeLine_event rfl (by decide) rfl rfl

theorem splitlines_nullPart : splitlines nullPartLine = [nullPartLine] := by decide

theorem parseJsonl_nullPart :
    parseJsonl plainPython nullPartLine =
      .error ⟨.attributeError, "object has no attribute 'get'"⟩ := by
  unfold parseJsonl
  rw [splitlines_nullPart, List.foldlM_cons, takeLine_event decodeLine_nullPart]
  rfl

/-- The parser raises on a line whose part is null, and so loses the output
that the line is inserted into. -/
theorem not_tolerant_nullPart :
    (¬∃ r, parseJsonl plainPython nullPartLine = .ok r) ∧ IsLine nullPartLine ∧
      Malformed nullPartLine ∧ ¬Unnoticed plainPython nullPartLine := by
  refine ⟨?_, by decide, ?_, ?_⟩
  · rw [parseJsonl_nullPart]
    rintro ⟨_, ⟨⟩⟩
  · unfold Malformed
    have hstrip : strip nullPartLine = nullPartLine := by decide
    have hdecode : JsonText.decode nullPartLine =
        some (.obj [("type", .str "text"), ("part", .null)]) := rfl
    rw [hstrip, hdecode]
    exact fun _ => Or.inr (Or.inl rfl)
  · intro h
    have hrun := h [] nullPartLine [] [] ("", metricsOf {}) rfl splitlines_nullPart rfl
    rw [parseJsonl_nullPart] at hrun
    cases hrun

end AiosDeck.Runtime
