import AiosDeck.Python.JsonCuts
import AiosDeck.Runtime.Turns

/-!
# Encoded events and their lines

An event that is written with a line break in one of its strings is cut by
`splitlines`, and all of its pieces are passed over. What the parser reports is
right when that takes nothing away.
-/

namespace AiosDeck.Runtime

open Python JsonText

/-- Whether an event starts a step. -/
def isStepStart (event : Json) : Bool := isText (eventType event) "step_start"

/-- Whether an event ends a step. -/
def isStepFinish (event : Json) : Bool := isText (eventType event) "step_finish"

/-- The datum under `text` in an event of text. -/
def partText (event : Json) : Json := entryD (eventPart event) "text" (.str "")

/-- Whether an event has a text that is not empty. -/
def hasText (event : Json) : Bool :=
  isText (eventType event) "text" && (partText event).truthy

/-- The text of an event. -/
def textOf (event : Json) : String :=
  match partText event with
  | .str text => text
  | _ => ""

/-- A number without rounding. -/
def exactNumber : Json → Option ℚ
  | .num (.int n) => some n
  | .num (.float (.finite q)) => some q
  | _ => none

/-- The cost of an event. -/
def costOf (event : Json) : ℚ := (exactNumber (partCost (eventPart event))).getD 0

/-- What is to be reported of some events: the texts that are not empty, line by
line, and the counts of completed tools and of steps, and the sum of the costs. -/
def Reports (events : List Json) (r : String × AgentMetrics) : Prop :=
  r.1 = join "\n" ((events.filter hasText).map textOf) ∧
    r.2.toolCalls = events.countP isCompletedTool ∧
    r.2.llmTurns = events.countP isStepStart ∧
    r.2.totalCost = .finite ((events.filter isStepFinish).map costOf).sum

section Streams

variable (py : Interpreter)

/-- Floats are added without rounding. -/
structure Exact : Prop where
  add : ∀ p q, py.add (.finite p) (.finite q) = .finite (p + q)
  ofInt : ∀ n : ℤ, py.ofInt n = .ok (.finite n)

/-- An event of the expected shape: a text is a string, and a cost is a finite
number. -/
structure WellFormed (event : Json) : Prop where
  shape : Tolerated py event
  text : isText (eventType event) "text" → isStr (partText event)
  cost : isStepFinish event → (exactNumber (partCost (eventPart event))).isSome

variable {py}

/-- What the parser has collected from some events. -/
structure Collected (events : List Json) (s : ParserState) : Prop where
  texts : s.textParts = ((events.filter hasText).map textOf).map Json.str
  calls : (s.toolCounts.map Prod.snd).sum = events.countP isCompletedTool
  index : s.turnIndex = events.countP isStepStart - 1
  turns : (closedTurns s).length = events.countP isStepStart
  cost : s.totalCost = .finite ((events.filter isStepFinish).map costOf).sum

theorem Collected.none : Collected [] {} := ⟨rfl, rfl, rfl, rfl, by simp⟩

theorem sum_assignKey (key : Json) : ∀ counts : List (Json × ℕ),
    ((assignKey key ((findKey key counts).getD 0 + 1) counts).map Prod.snd).sum =
      (counts.map Prod.snd).sum + 1
  | [] => rfl
  | entry :: rest => by
    unfold findKey assignKey
    rw [List.find?_cons]
    cases hkey : sameKey entry.1 key with
    | true =>
      simp only [if_true, List.map_cons, List.sum_cons, Option.map_some, Option.getD_some]
      omega
    | false =>
      have hrest := sum_assignKey key rest
      unfold findKey at hrest
      simp only [Bool.false_eq_true, if_false, List.map_cons, List.sum_cons]
      omega

theorem length_lengthened (span : PyFloat) : ∀ turns : List TurnEvent,
    (lengthened py span turns).length = turns.length
  | [] => rfl
  | [_] => rfl
  | _ :: next :: rest => by
    change (lengthened py span (next :: rest)).length + 1 = _
    rw [length_lengthened span (next :: rest)]
    rfl

theorem length_closedTurns (s : ParserState) :
    (closedTurns s).length = s.turns.length + if s.turnIndex < 0 then 0 else 1 := by
  unfold closedTurns
  split
  · rfl
  · rw [List.length_append, List.length_singleton]

/-- An event that is neither of text, nor of a step, nor a completed tool. -/
theorem Collected.skip {events : List Json} {event : Json} {s t : ParserState}
    (h : Collected events s) (htext : hasText event = false)
    (htool : isCompletedTool event = false) (hstart : isStepStart event = false)
    (hfinish : isStepFinish event = false) (hparts : t.textParts = s.textParts)
    (hcounts : t.toolCounts = s.toolCounts) (hindex : t.turnIndex = s.turnIndex)
    (hturns : t.turns.length = s.turns.length) (hcost : t.totalCost = s.totalCost) :
    Collected (events ++ [event]) t := by
  have hclosed := h.turns
  rw [length_closedTurns] at hclosed
  refine ⟨?_, ?_, ?_, ?_, ?_⟩
  · rw [hparts, h.texts]
    simp [List.filter_append, htext]
  · rw [hcounts, h.calls]
    simp [List.countP_append, htool]
  · rw [hindex, h.index]
    simp [List.countP_append, hstart]
  · rw [length_closedTurns, hturns, hindex, hclosed]
    simp [List.countP_append, hstart]
  · rw [hcost, h.cost]
    simp [List.filter_append, hfinish]

theorem other_type {event : Json} {text : String} (h : isText (eventType event) text) :
    (text ≠ "text" → hasText event = false) ∧ (text ≠ "tool_use" → isCompletedTool event = false) ∧
      (text ≠ "step_start" → isStepStart event = false) ∧
      (text ≠ "step_finish" → isStepFinish event = false) := by
  refine ⟨fun hne => ?_, fun hne => ?_, fun hne => ?_, fun hne => ?_⟩
  · rw [hasText, isText_other h hne, Bool.false_and]
  · rw [isCompletedTool, isText_other h hne, Bool.false_and]
  · exact isText_other h hne
  · exact isText_other h hne

variable {events : List Json} {event : Json} {s t : ParserState}

theorem Collected.stepStart (h : Collected events s)
    (htype : isText (eventType event) "step_start")
    (hrun : stepStart (eventTime event) s = .ok t) : Collected (events ++ [event]) t := by
  obtain ⟨htext, htool, -, hfinish⟩ := other_type htype
  have htext := htext (by decide)
  have htool := htool (by decide)
  have hfinish := hfinish (by decide)
  have hstart : isStepStart event = true := htype
  obtain ⟨u, hu, rfl⟩ := stepStart_ok hrun
  have hclosed := finalizeTurn_closed hu
  have hkept := finalizeTurn_checks s
  rw [hu] at hkept
  have hturns := h.turns
  have hindex := h.index
  have hparts : u.textParts = s.textParts := hkept.2.2.2
  have hcounts : u.toolCounts = s.toolCounts ∧ u.totalCost = s.totalCost := by
    unfold finalizeTurn at hu
    split at hu
    · cases hu
      exact ⟨rfl, rfl⟩
    · cases hgt : s.turnStart.gtZero with
      | error exc =>
        rw [hgt] at hu
        cases hu
      | ok b =>
        rw [hgt] at hu
        cases hu
        exact ⟨rfl, rfl⟩
  refine ⟨?_, ?_, ?_, ?_, ?_⟩
  · dsimp only
    rw [hparts, h.texts]
    simp [List.filter_append, htext]
  · dsimp only
    rw [hcounts.1, h.calls]
    simp [List.countP_append, htool]
  · dsimp only
    rw [hkept.2.1, hindex]
    simp [List.countP_append, hstart]
  · rw [length_closedTurns]
    dsimp only
    rw [hclosed.1, hturns, hkept.2.1, hindex, if_neg (by omega)]
    simp [List.countP_append, hstart]
  · dsimp only
    rw [hcounts.2, h.cost]
    simp [List.filter_append, hfinish]

theorem Collected.text (h : Collected events s) (hwell : WellFormed py event)
    (htype : isText (eventType event) "text") (hrun : textEvent (eventPart event) s = .ok t) :
    Collected (events ++ [event]) t := by
  obtain ⟨-, htool, hstart, hfinish⟩ := other_type htype
  have htool := htool (by decide)
  have hstart := hstart (by decide)
  have hfinish := hfinish (by decide)
  obtain ⟨-, rfl⟩ := textEvent_ok hrun
  refine ⟨?_, ?_, ?_, ?_, ?_⟩
  · change (if (partText event).truthy then s.textParts ++ [partText event] else s.textParts) = _
    rw [h.texts]
    have hstr := hwell.text htype
    cases hpart : partText event with
    | str text =>
      have hof : textOf event = text := by rw [textOf, hpart]
      cases htruthy : (Json.str text).truthy with
      | true => simp [List.filter_append, hasText, htype, hpart, htruthy, hof]
      | false => simp [List.filter_append, hasText, htype, hpart, htruthy]
    | _ =>
      rw [hpart] at hstr
      cases hstr
  · simp [List.countP_append, htool, h.calls]
  · simp [List.countP_append, hstart, h.index]
  · have hturns := h.turns
    rw [length_closedTurns] at hturns ⊢
    simp [List.countP_append, hstart, hturns]
  · simp [List.filter_append, hfinish, h.cost]

theorem Collected.tool (h : Collected events s)
    (htype : isText (eventType event) "tool_use")
    (hrun : toolUse py (eventPart event) s = .ok t) : Collected (events ++ [event]) t := by
  obtain ⟨htext, -, hstart, hfinish⟩ := other_type htype
  have htext := htext (by decide)
  have hstart := hstart (by decide)
  have hfinish := hfinish (by decide)
  obtain ⟨hpart, hfound, -⟩ := toolUse_shape py hrun
  have hstate : isDict (toolState (eventPart event)) := hfound
  rw [toolUse_eq py hpart hstate] at hrun
  split at hrun
  · rename_i hdone
    have htool : isCompletedTool event = true := by simp [isCompletedTool, htype, hdone]
    obtain ⟨durations, rfl⟩ := completeTool_ok py hstate hrun
    refine ⟨?_, ?_, ?_, ?_, ?_⟩
    · simp [List.filter_append, htext, h.texts]
    · dsimp only
      rw [sum_assignKey, h.calls]
      simp [List.countP_append, htool]
    · simp [List.countP_append, hstart, h.index]
    · have hturns := h.turns
      have htimed : (timedTurns py (toolState (eventPart event)) s).length = s.turns.length := by
        unfold timedTurns
        split
        · cases toolSpan py (toolState (eventPart event)) with
          | none => rfl
          | some span => exact length_lengthened span s.turns
        · rfl
      rw [length_closedTurns] at hturns ⊢
      dsimp only
      rw [htimed, hturns]
      simp [List.countP_append, hstart]
    · simp [List.filter_append, hfinish, h.cost]
  · rename_i hdone
    have htool : isCompletedTool event = false := by simp [isCompletedTool, hdone]
    cases hrun
    exact h.skip htext htool hstart hfinish rfl rfl rfl rfl rfl

theorem exactNumber_toFloat (hexact : Exact py) {value : Json} {n : PyNum} {z : PyFloat} {q : ℚ}
    (hvalue : number? value = some n) (hn : py.toFloat n = .ok z)
    (hq : exactNumber value = some q) : z = .finite q := by
  unfold exactNumber at hq
  split at hq
  · cases hq
    cases hvalue
    have hint : py.ofInt _ = .ok z := hn
    rw [hexact.ofInt] at hint
    cases hint
    rfl
  · cases hq
    cases hvalue
    cases hn
    rfl
  · cases hq

theorem Collected.finish (hexact : Exact py) (h : Collected events s)
    (hwell : WellFormed py event) (htype : isText (eventType event) "step_finish")
    (hrun : stepFinish py (eventPart event) s = .ok t) : Collected (events ++ [event]) t := by
  obtain ⟨htext, htool, hstart, -⟩ := other_type htype
  have htext := htext (by decide)
  have htool := htool (by decide)
  have hstart := hstart (by decide)
  have hfinish : isStepFinish event = true := htype
  obtain ⟨counts, reason, n, z, hvalue, hn, rfl⟩ := stepFinish_ok py hrun
  obtain ⟨q, hq⟩ := Option.isSome_iff_exists.mp (hwell.cost htype)
  have hz := exactNumber_toFloat hexact hvalue hn hq
  have hcost : costOf event = q := by rw [costOf, hq, Option.getD_some]
  refine ⟨?_, ?_, ?_, ?_, ?_⟩
  · simp [List.filter_append, htext, h.texts]
  · simp [List.countP_append, htool, h.calls]
  · simp [List.countP_append, hstart, h.index]
  · have hturns := h.turns
    rw [length_closedTurns] at hturns ⊢
    simp [List.countP_append, hstart, hturns]
  · dsimp only
    rw [h.cost, hz, hexact.add]
    simp [List.filter_append, hfinish, hcost]

/-- One more event. -/
theorem Collected.step (hexact : Exact py) (h : Collected events s) (hwell : WellFormed py event)
    (hrun : takeEvent py event s = .ok t) : Collected (events ++ [event]) t := by
  rw [takeEvent_dict py (isDict_of_takeEvent py hrun)] at hrun
  split at hrun
  · rename_i htype
    exact h.stepStart htype hrun
  split at hrun
  · rename_i htype
    exact h.text hwell htype hrun
  split at hrun
  · rename_i htype
    obtain ⟨htext, htool, hstart, hfinish⟩ := other_type htype
    cases hrun
    exact h.skip (htext (by decide)) (htool (by decide)) (hstart (by decide)) (hfinish (by decide))
      rfl rfl rfl rfl rfl
  split at hrun
  · rename_i htype
    exact h.tool htype hrun
  split at hrun
  · rename_i htype
    exact h.finish hexact hwell htype hrun
  · rename_i hstart htext _ htool hfinish
    simp only [Bool.not_eq_true] at hstart htext htool hfinish
    cases hrun
    exact h.skip (by rw [hasText, htext, Bool.false_and])
      (by rw [isCompletedTool, htool, Bool.false_and]) hstart hfinish rfl rfl rfl rfl rfl

theorem Collected.run (hexact : Exact py) {more : List Json}
    (hwell : ∀ event ∈ more, WellFormed py event) :
    ∀ {events : List Json} {s : ParserState}, Collected events s →
      more.foldlM (fun s event => takeEvent py event s) s = .ok t →
      Collected (events ++ more) t := by
  induction more with
  | nil =>
    intro events s h hrun
    cases hrun
    rw [List.append_nil]
    exact h
  | cons event more ih =>
    intro events s h hrun
    rw [List.forall_mem_cons] at hwell
    obtain ⟨u, hstep, hrest⟩ := foldlM_ok_cons hrun
    have hall := ih hwell.2 (h.step hexact hwell.1 hstep) hrest
    rw [List.append_assoc, List.singleton_append] at hall
    exact hall

theorem mapM_joinable_str (texts : List String) :
    (texts.map Json.str).mapM joinable = .ok texts := by
  induction texts with
  | nil => rfl
  | cons text texts ih =>
    rw [List.map_cons, List.mapM_cons, ih]
    rfl

theorem finishParser_text {r : String × AgentMetrics} {texts : List String}
    (htexts : s.textParts = texts.map Json.str) (h : finishParser s = .ok r) :
    r.1 = join "\n" texts := by
  have hkept := finalizeTurn_checks s
  unfold finishParser at h
  cases hrun : finalizeTurn s with
  | error exc =>
    rw [hrun] at h
    cases h
  | ok u =>
    rw [hrun] at h hkept
    rw [ok_bind, hkept.2.2.2, htexts, mapM_joinable_str] at h
    cases h
    rfl

theorem Collected.reports {r : String × AgentMetrics} (h : Collected events s)
    (hrun : finishParser s = .ok r) : Reports events r := by
  refine ⟨finishParser_text h.texts hrun, ?_⟩
  rw [finishParser_metrics hrun]
  exact ⟨h.calls, h.turns, h.cost⟩

end Streams

section Cuts

variable {numerals : Numerals} {py : Interpreter} {event : Json}

variable (numerals) in
/-- Whether the line of an event is cut: a string of it has a line break beyond
ASCII. -/
def isCut (event : Json) : Bool := !decide (IsLine (stringify numerals event))

/-- A piece of a cut event is passed over. -/
theorem inert_of_decode {piece : Text} (hlimits : py.limits (strip piece) = none)
    (h : ∀ value, (strip piece).head? = some '\x7b' → decode (strip piece) = some value →
      ∃ fields, value = .obj fields ∧ ∀ field ∈ fields, 'y' ∉ field.1.toList) :
    Inert py piece := by
  unfold Inert decodeLine
  split_ifs with hhead
  · unfold Interpreter.loads
    rw [hlimits]
    cases hdecode : decode (strip piece) with
    | none => trivial
    | some value =>
      obtain ⟨fields, rfl, hkeys⟩ := h value hhead hdecode
      have hlookup : fields.lookup "type" = none := by
        rw [List.lookup_eq_none_iff]
        intro field hfield
        refine bne_iff_ne.mpr fun hkey => hkeys field hfield ?_
        rw [← hkey]
        decide
      refine ⟨rfl, Or.inl ?_⟩
      have htype : entryD (.obj fields) "type" (.str "") = .str "" := by
        change (fields.lookup "type").getD (.str "") = .str ""
        rw [hlookup]
        rfl
      rw [htype]
      rfl
  · trivial

theorem pieces_cut (hwritable : Writable numerals event) (hcut : isCut numerals event)
    (hlimits : ∀ piece ∈ pieces (stringify numerals event), py.limits (strip piece) = none) :
    ∀ piece ∈ pieces (stringify numerals event), Inert py piece := by
  obtain ⟨first, others, next, hpieces, hfirst, hopen, hothers⟩ :=
    walk_pieces (walk_stringify hwritable)
  have hnotLine : ¬IsLine (stringify numerals event) := by
    simpa [isCut] using hcut
  rw [hpieces] at hlimits ⊢
  rw [List.forall_mem_cons] at hlimits ⊢
  refine ⟨?_, fun piece hpiece => ?_⟩
  · rw [hopen.resolve_left hnotLine] at hfirst
    refine inert_of_decode hlimits.1 fun value _ hdecode => ?_
    rw [decode_open hfirst] at hdecode
    cases hdecode
  · obtain ⟨last, hlast⟩ := hothers piece hpiece
    exact inert_of_decode (hlimits.2 piece hpiece) fun value hhead hdecode =>
      decode_flipped hlast hhead hdecode

theorem decodeLine_stringify (hwritable : Writable numerals event) (hevent : isDict event)
    (hlimits : py.limits (stringify numerals event) = none) :
    decodeLine py (stringify numerals event) = .ok (some event) := by
  cases event with
  | obj fields =>
    exact decodeLine_event hlimits (strip_written (walk_stringify hwritable))
      (head_stringify_obj fields) (decode_stringify hwritable)
  | _ => cases hevent

variable (numerals) in
/-- The output of some events: each is written on a line. -/
def encoded (events : List Json) : Text := unlines (events.map (stringify numerals))

theorem splitlines_encoded {events : List Json}
    (h : ∀ event ∈ events, Writable numerals event) :
    splitlines (encoded numerals events) =
      events.flatMap fun event => pieces (stringify numerals event) := by
  unfold encoded
  induction events with
  | nil => rfl
  | cons event events ih =>
    rw [List.forall_mem_cons] at h
    rw [List.map_cons, unlines_cons, splitlines_pieces (stringify_not_return h.1), ih h.2,
      List.flatMap_cons]

theorem foldlM_inert {lines : List Text} (h : ∀ line ∈ lines, Inert py line) (s : ParserState) :
    lines.foldlM (takeLine py) s = .ok s := by
  induction lines with
  | nil => rfl
  | cons line lines ih =>
    rw [List.forall_mem_cons] at h
    rw [List.foldlM_cons, takeLine_inert py h.1, ok_bind, ih h.2]

/-- The parser takes the events that are not cut. -/
theorem foldlM_encoded {events : List Json} (hwritable : ∀ event ∈ events, Writable numerals event)
    (hdict : ∀ event ∈ events, isDict event)
    (hlimits : ∀ line ∈ events.flatMap fun event => pieces (stringify numerals event),
      py.limits (strip line) = none) (s : ParserState) :
    (events.flatMap fun event => pieces (stringify numerals event)).foldlM (takeLine py) s =
      (events.filter fun event => !isCut numerals event).foldlM
        (fun s event => takeEvent py event s) s := by
  induction events generalizing s with
  | nil => rfl
  | cons event events ih =>
    rw [List.forall_mem_cons] at hwritable hdict
    rw [List.flatMap_cons] at hlimits ⊢
    rw [List.forall_mem_append] at hlimits
    rw [List.foldlM_append]
    have hrest := ih hwritable.2 hdict.2 hlimits.2
    cases hcut : isCut numerals event with
    | true =>
      rw [foldlM_inert (pieces_cut hwritable.1 hcut hlimits.1), ok_bind, hrest,
        List.filter_cons_of_neg (by simp [hcut])]
    | false =>
      have hline : IsLine (stringify numerals event) := by simpa [isCut] using hcut
      have hone := pieces_line hline
      rw [hone, List.forall_mem_singleton, strip_written (walk_stringify hwritable.1)] at hlimits
      have hdecode := decodeLine_stringify hwritable.1 hdict.1 hlimits.1
      rw [hone, List.foldlM_cons, takeLine_event hdecode,
        List.filter_cons_of_pos (by simp [hcut]), List.foldlM_cons]
      cases takeEvent py event s with
      | error exc => rfl
      | ok t =>
        rw [ok_bind, ok_bind, List.foldlM_nil]
        exact hrest t

theorem events_run {events : List Json} (h : ∀ event ∈ events, Tolerated py event) :
    ∃ s r, events.foldlM (fun s event => takeEvent py event s) {} = .ok s ∧
      finishParser s = .ok r := by
  have hgood : Finishable {} :=
    ⟨fun h => absurd h (by decide), fun _ h => absurd h List.not_mem_nil⟩
  have hrun := Verdict.judged_foldlM (fun s event hs => takeEvent_judged py hs event) events {}
    (show Counted {} from le_refl _)
  cases hstate : events.foldlM (fun s event => takeEvent py event s) {} with
  | error exc =>
    rw [hstate] at hrun
    exact absurd ⟨hgood, h⟩ hrun
  | ok s =>
    rw [hstate] at hrun
    obtain ⟨r, hr⟩ := (finishParser_iff s).mpr (hrun.2.mpr ⟨hgood, h⟩)
    exact ⟨s, r, rfl, hr⟩

/-- Of the events that are cut, none has a text, completes a tool or starts a
step, and the costs of those that end a step cancel out. -/
def Harmless (numerals : Numerals) (events : List Json) : Prop :=
  (∀ event ∈ events, isCut numerals event → hasText event = false ∧
    isCompletedTool event = false ∧ isStepStart event = false) ∧
  ((events.filter fun event => isCut numerals event && isStepFinish event).map costOf).sum = 0

/-- Counting some of the items is enough when the others do not count. -/
theorem countP_filter_eq_iff {α : Type} (p keep : α → Bool) (items : List α) :
    (items.filter keep).countP p = items.countP p ↔
      ∀ item ∈ items, keep item = false → p item = false := by
  have hsplit := List.countP_eq_countP_filter_add items p keep
  have hzero : (items.filter keep).countP p = items.countP p ↔
      (items.filter fun item => !keep item).countP p = 0 := by omega
  rw [hzero, List.countP_eq_zero]
  simp only [List.mem_filter, Bool.not_eq_true', Bool.not_eq_true, and_imp]

theorem sum_filter_split {α M : Type} [AddCommMonoid M] (keep use : α → Bool) (value : α → M)
    (items : List α) :
    ((items.filter use).map value).sum = (((items.filter keep).filter use).map value).sum +
      ((items.filter fun item => !keep item && use item).map value).sum := by
  induction items with
  | nil => simp
  | cons item items ih =>
    cases hkeep : keep item <;> cases huse : use item <;>
      simp [hkeep, huse, ih, add_assoc, add_left_comm]

/-- The characters of some lines, each with its line break. -/
def weight (lines : List String) : ℕ := (lines.map fun line => line.length + 1).sum

theorem length_join (lines : List String) : (join "\n" lines).length = weight lines - 1 := by
  unfold join weight
  induction lines with
  | nil => rfl
  | cons line lines ih =>
    rcases eq_or_ne lines [] with rfl | hne
    · simp
    · have hpos : 1 ≤ (lines.map fun line => line.length + 1).sum := by
        obtain ⟨first, rest, rfl⟩ := List.exists_cons_of_ne_nil hne
        rw [List.map_cons, List.sum_cons]
        omega
      have hbreak : ("\n" : String).length = 1 := rfl
      rw [String.intercalate_cons_of_ne_nil hne, String.length_append, String.length_append, ih,
        hbreak, List.map_cons, List.sum_cons]
      omega

/-- A text that is not empty adds at least a character and a line break. -/
theorem length_textOf (hwell : WellFormed py event) (h : hasText event) :
    1 ≤ (textOf event).length := by
  unfold hasText at h
  rw [Bool.and_eq_true] at h
  have hstr := hwell.text h.1
  unfold textOf
  cases hpart : partText event with
  | str text =>
    rw [hpart] at h
    have hne : text ≠ "" := bne_iff_ne.mp h.2
    have hlength : text.length ≠ 0 := fun hzero => hne (String.length_eq_zero_iff.mp hzero)
    dsimp only
    omega
  | _ =>
    rw [hpart] at hstr
    cases hstr

/-- Leaving out a text makes the text that is reported shorter. -/
theorem join_filter_eq_iff {events : List Json} (hwell : ∀ event ∈ events, WellFormed py event)
    (keep : Json → Bool) :
    join "\n" (((events.filter keep).filter hasText).map textOf) =
        join "\n" ((events.filter hasText).map textOf) ↔
      ∀ event ∈ events, keep event = false → hasText event = false := by
  have hsplit := sum_filter_split keep hasText (fun event => (textOf event).length + 1) events
  constructor
  · intro hjoin event hevent hkeep
    by_contra htext
    rw [Bool.not_eq_false] at htext
    have hlengths := congrArg String.length hjoin
    rw [length_join, length_join] at hlengths
    unfold weight at hlengths
    rw [List.map_map, List.map_map] at hlengths
    have hone : (textOf event).length + 1 ≤
        ((events.filter fun item => !keep item && hasText item).map
          fun event => (textOf event).length + 1).sum := by
      refine List.single_le_sum (fun _ _ => Nat.zero_le _) _ (List.mem_map.mpr ⟨event, ?_, rfl⟩)
      rw [List.mem_filter, hkeep, htext]
      exact ⟨hevent, rfl⟩
    have hlength := length_textOf (hwell event hevent) htext
    simp only [Function.comp_def] at hlengths
    omega
  · intro hnone
    have hsame : (events.filter keep).filter hasText = events.filter hasText := by
      rw [List.filter_filter]
      refine List.filter_congr fun event hevent => ?_
      cases hkeep : keep event with
      | true => rw [Bool.and_true]
      | false => rw [hnone event hevent hkeep, Bool.false_and]
    rw [hsame]

/-- What the parser reports of encoded events is right for those that are not cut. -/
theorem encoded_reports (hexact : Exact py) {events : List Json}
    (hwell : ∀ event ∈ events, WellFormed py event)
    (hwritable : ∀ event ∈ events, Writable numerals event)
    (hlimits : ∀ line ∈ splitlines (encoded numerals events), py.limits (strip line) = none) :
    ∃ r, parseJsonl py (encoded numerals events) = .ok r ∧
      Reports (events.filter fun event => !isCut numerals event) r := by
  have hdict : ∀ event ∈ events, isDict event := fun event hevent => (hwell event hevent).shape.1
  rw [splitlines_encoded hwritable] at hlimits
  have hkept : ∀ event ∈ events.filter fun event => !isCut numerals event,
      WellFormed py event := fun event hevent => hwell event (List.mem_filter.mp hevent).1
  obtain ⟨s, r, hrun, hfinish⟩ := events_run fun event hevent => (hkept event hevent).shape
  have hreports := (Collected.none.run hexact hkept hrun).reports hfinish
  rw [List.nil_append] at hreports
  refine ⟨r, ?_, hreports⟩
  unfold parseJsonl
  rw [splitlines_encoded hwritable, foldlM_encoded hwritable hdict hlimits, hrun, ok_bind, hfinish]

/-- What the parser reports of encoded events is right exactly when no event that
is cut has a text, completes a tool or starts a step, and the costs of those that
end a step cancel out. -/
theorem stream_reported_iff (py : Interpreter) (hexact : Exact py) (numerals : Numerals)
    (events : List Json) (hwell : ∀ event ∈ events, WellFormed py event)
    (hwritable : ∀ event ∈ events, Writable numerals event)
    (hlimits : ∀ line ∈ splitlines (encoded numerals events), py.limits (strip line) = none) :
    ∃ r, parseJsonl py (encoded numerals events) = .ok r ∧
      (Reports events r ↔ Harmless numerals events) := by
  obtain ⟨r, hrun, hreports⟩ := encoded_reports hexact hwell hwritable hlimits
  refine ⟨r, hrun, ?_⟩
  have hcosts := sum_filter_split (fun event => !isCut numerals event) isStepFinish costOf events
  simp only [Bool.not_not] at hcosts
  unfold Reports Harmless
  rw [hreports.1, hreports.2.1, hreports.2.2.1, hreports.2.2.2, join_filter_eq_iff hwell,
    countP_filter_eq_iff, countP_filter_eq_iff, PyFloat.finite.injEq, hcosts, left_eq_add]
  simp only [Bool.not_eq_false']
  constructor
  · rintro ⟨htexts, htools, hstarts, hsum⟩
    exact ⟨fun event hevent hcut => ⟨htexts event hevent hcut, htools event hevent hcut,
      hstarts event hevent hcut⟩, hsum⟩
  · rintro ⟨hnone, hsum⟩
    exact ⟨fun event hevent hcut => (hnone event hevent hcut).1,
      fun event hevent hcut => (hnone event hevent hcut).2.1,
      fun event hevent hcut => (hnone event hevent hcut).2.2, hsum⟩

end Cuts

/-- Floats without rounding, as long as they are finite. -/
def exactAdd : PyFloat → PyFloat → PyFloat
  | .finite p, .finite q => .finite (p + q)
  | x, y => x.add y

/-- An interpreter that adds without rounding. -/
def exactPython : Interpreter :=
  { plainPython with add := exactAdd, ofInt := fun n => .ok (.finite n) }

theorem exact_exactPython : Exact exactPython := ⟨fun _ _ => rfl, fun _ => rfl⟩

/-- Numerals for values without numbers. -/
def noNumerals : Numerals where
  text := fun _ => []
  printable := fun _ => False
  read := fun _ h => h.elim
  chars := fun _ h => h.elim

/-- A text with a line separator in it. -/
def brokenText : Json :=
  .obj [("type", .str "text"), ("part", .obj [("text", .str "a\u2028b")])]

theorem wellFormed_brokenText : WellFormed exactPython brokenText where
  shape := by
    refine ⟨rfl, ?_⟩
    change TextShape _
    exact ⟨rfl, fun _ => rfl⟩
  text := fun _ => rfl
  cost := fun h => absurd h (by decide)

theorem writable_brokenText : Writable noNumerals brokenText := by
  simp [brokenText, Writable, WritableFields]

theorem stream_reported_broken :
    ∃ r, parseJsonl exactPython (encoded noNumerals [brokenText]) = .ok r ∧
      (Reports [brokenText] r ↔ Harmless noNumerals [brokenText]) :=
  stream_reported_iff exactPython exact_exactPython noNumerals [brokenText]
    (List.forall_mem_singleton.mpr wellFormed_brokenText)
    (List.forall_mem_singleton.mpr writable_brokenText) fun _ _ => rfl

theorem isCut_brokenText : isCut noNumerals brokenText = true := by decide

/-- The text of an event with a line separator is lost. -/
theorem not_reported_broken :
    ∃ r, parseJsonl exactPython (encoded noNumerals [brokenText]) = .ok r ∧
      ¬Reports [brokenText] r := by
  obtain ⟨r, hrun, hreports⟩ := @encoded_reports noNumerals _ exact_exactPython _
    (List.forall_mem_singleton.mpr wellFormed_brokenText)
    (List.forall_mem_singleton.mpr writable_brokenText) fun _ _ => rfl
  refine ⟨r, hrun, fun hbroken => ?_⟩
  rw [List.filter_cons_of_neg (by simp [isCut_brokenText])] at hreports
  have htext := hreports.1.symm.trans hbroken.1
  exact absurd htext (by decide)

end AiosDeck.Runtime
