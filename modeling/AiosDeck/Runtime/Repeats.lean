import AiosDeck.Runtime.Decoding

/-!
# Repeated tool calls

A completed tool repeats the one before it when the names are equal and the
texts of the inputs agree in their first two hundred characters.
-/

namespace AiosDeck.Runtime

open Python JsonText

section Calls

variable (py : Interpreter)

/-- The call of a completed tool: its name, and the beginning of its input's text. -/
def callOfEvent (event : Json) : Json × Text :=
  callOf py (toolName (eventPart event)) (toolState (eventPart event))

/-- The calls of the completed tools among some events, in order. -/
def callsAmong (events : List Json) : List (Json × Text) :=
  (events.filter isCompletedTool).map (callOfEvent py)

/-- How many calls have the name and the beginning of the input of the call
directly before them. -/
def repeatCount (calls : List (Json × Text)) : ℕ :=
  (calls.zip calls.tail).countP fun pair => sameKey pair.1.1 pair.2.1 && pair.1.2 == pair.2.2

variable {py}

theorem repeatCount_append (calls : List (Json × Text)) (call : Json × Text) :
    repeatCount (calls ++ [call]) =
      repeatCount calls + if repeats call calls.getLast? then 1 else 0 := by
  unfold repeatCount
  induction calls with
  | nil => rfl
  | cons first rest ih =>
    cases rest with
    | nil => simp [repeats]
    | cons second rest =>
      simp only [List.cons_append, List.tail_cons, List.zip_cons_cons, List.countP_cons] at ih ⊢
      rw [List.getLast?_cons_cons]
      omega

variable (py) in
/-- What the parser knows of the calls of some events. -/
structure Called (events : List Json) (s : ParserState) : Prop where
  count : s.repeatedToolCalls = repeatCount (callsAmong py events)
  last : s.prevToolCall = (callsAmong py events).getLast?

theorem callsAmong_other (events : List Json) {event : Json} (h : isCompletedTool event = false) :
    callsAmong py (events ++ [event]) = callsAmong py events := by
  simp [callsAmong, List.filter_append, h]

theorem callsAmong_completed (events : List Json) {event : Json} (h : isCompletedTool event) :
    callsAmong py (events ++ [event]) = callsAmong py events ++ [callOfEvent py event] := by
  simp [callsAmong, List.filter_append, h]

variable {events : List Json} {event : Json} {s t : ParserState}

theorem Called.skip (h : Called py events s) (htool : isCompletedTool event = false)
    (hcount : t.repeatedToolCalls = s.repeatedToolCalls) (hlast : t.prevToolCall = s.prevToolCall) :
    Called py (events ++ [event]) t := by
  refine ⟨?_, ?_⟩
  · rw [hcount, callsAmong_other events htool]
    exact h.count
  · rw [hlast, callsAmong_other events htool]
    exact h.last

theorem finalizeTurn_calls (h : finalizeTurn s = .ok t) :
    t.repeatedToolCalls = s.repeatedToolCalls ∧ t.prevToolCall = s.prevToolCall := by
  unfold finalizeTurn at h
  split at h
  · cases h
    exact ⟨rfl, rfl⟩
  · cases hgt : s.turnStart.gtZero with
    | error exc =>
      rw [hgt] at h
      cases h
    | ok b =>
      rw [hgt] at h
      cases h
      exact ⟨rfl, rfl⟩

theorem Called.tool (h : Called py events s)
    (htype : isText (eventType event) "tool_use")
    (hrun : toolUse py (eventPart event) s = .ok t) : Called py (events ++ [event]) t := by
  obtain ⟨hpart, hfound, -⟩ := toolUse_shape py hrun
  have hstate : isDict (toolState (eventPart event)) := hfound
  rw [toolUse_eq py hpart hstate] at hrun
  split at hrun
  · rename_i hdone
    have htool : isCompletedTool event = true := by simp [isCompletedTool, htype, hdone]
    obtain ⟨durations, rfl⟩ := completeTool_ok py hstate hrun
    have hcall : callOf py (toolName (eventPart event)) (toolState (eventPart event)) =
        callOfEvent py event := rfl
    refine ⟨?_, ?_⟩
    · dsimp only
      rw [hcall, callsAmong_completed events htool, repeatCount_append, ← h.count, ← h.last]
      split <;> rfl
    · dsimp only
      rw [hcall, callsAmong_completed events htool, List.getLast?_concat]
  · rename_i hdone
    have htool : isCompletedTool event = false := by simp [isCompletedTool, hdone]
    cases hrun
    exact h.skip htool rfl rfl

/-- One more event. -/
theorem Called.step (h : Called py events s) (hrun : takeEvent py event s = .ok t) :
    Called py (events ++ [event]) t := by
  rw [takeEvent_dict py (isDict_of_takeEvent py hrun)] at hrun
  split at hrun
  · rename_i htype
    obtain ⟨u, hu, rfl⟩ := stepStart_ok hrun
    have hcalls := finalizeTurn_calls hu
    exact h.skip ((other_type htype).2.1 (by decide)) hcalls.1 hcalls.2
  split at hrun
  · rename_i htype
    obtain ⟨-, rfl⟩ := textEvent_ok hrun
    exact h.skip ((other_type htype).2.1 (by decide)) rfl rfl
  split at hrun
  · rename_i htype
    cases hrun
    exact h.skip ((other_type htype).2.1 (by decide)) rfl rfl
  split at hrun
  · rename_i htype
    exact h.tool htype hrun
  split at hrun
  · rename_i htype
    obtain ⟨counts, reason, n, z, -, -, rfl⟩ := stepFinish_ok py hrun
    exact h.skip ((other_type htype).2.1 (by decide)) rfl rfl
  · rename_i htool _
    simp only [Bool.not_eq_true] at htool
    cases hrun
    exact h.skip (by rw [isCompletedTool, htool, Bool.false_and]) rfl rfl

theorem Called.run {more : List Json} :
    ∀ {events : List Json} {s : ParserState}, Called py events s →
      more.foldlM (fun s event => takeEvent py event s) s = .ok t →
      Called py (events ++ more) t := by
  induction more with
  | nil =>
    intro events s h hrun
    cases hrun
    rw [List.append_nil]
    exact h
  | cons event more ih =>
    intro events s h hrun
    obtain ⟨u, hstep, hrest⟩ := foldlM_ok_cons hrun
    have hall := ih (h.step hstep) hrest
    rw [List.append_assoc, List.singleton_append] at hall
    exact hall

/-- The count of repeated calls that is reported of an output whose events are of
the expected shape: the completed tools whose name, and whose input's text up to
two hundred characters, are those of the completed tool directly before. -/
theorem repeated_counted (py : Interpreter) (events : List Json) (output : Text)
    (h : Decoded py (splitlines output) events) (hevents : ∀ event ∈ events, Tolerated py event) :
    ∃ r, parseJsonl py output = .ok r ∧
      r.2.repeatedToolCalls = repeatCount (callsAmong py events) := by
  obtain ⟨s, r, hrun, hr, hfinish⟩ := h.parse hevents
  have hstart : Called py [] {} := ⟨rfl, rfl⟩
  have hcalled : Called py events s := hstart.run hrun
  refine ⟨r, hr, ?_⟩
  rw [finishParser_metrics hfinish]
  exact hcalled.count

end Calls

/-- Events that are not cut are decoded from their lines. -/
theorem decoded_encoded {py : Interpreter} {numerals : Numerals} {events : List Json}
    (hwritable : ∀ event ∈ events, Writable numerals event)
    (hdict : ∀ event ∈ events, isDict event)
    (huncut : ∀ event ∈ events, isCut numerals event = false)
    (hlimits : ∀ event ∈ events, py.limits (stringify numerals event) = none) :
    Decoded py (splitlines (encoded numerals events)) events := by
  rw [splitlines_encoded hwritable]
  induction events with
  | nil => exact .nil
  | cons event events ih =>
    rw [List.forall_mem_cons] at hwritable hdict huncut hlimits
    have hline : IsLine (stringify numerals event) := by simpa [isCut] using huncut.1
    rw [List.flatMap_cons, pieces_line hline]
    exact .cons (decodeLine_stringify hwritable.1 hdict.1 hlimits.1)
      (ih hwritable.2 hdict.2 huncut.2 hlimits.2)

/-- The whole input of the tool of an event. -/
def wholeInput (event : Json) : Json :=
  entryD (toolState (eventPart event)) "input" (.obj [])

open Classical in
/-- How many completed tools have the name and the whole input of the completed
tool directly before them. -/
noncomputable def wholeRepeatCount (events : List Json) : ℕ :=
  let tools := events.filter isCompletedTool
  (tools.zip tools.tail).countP fun pair =>
    decide (toolName (eventPart pair.1) = toolName (eventPart pair.2) ∧
      wholeInput pair.1 = wholeInput pair.2)

/-- A tool that writes a content. -/
def writeTool (content : String) : Json :=
  .obj [("type", .str "tool_use"), ("part", .obj [("tool", .str "write"), ("state",
    .obj [("status", .str "completed"), ("input", .obj [("content", .str content)])])])]

/-- Two hundred letters and an ending. -/
def longContent (ending : String) : String := String.ofList (List.replicate 200 'a') ++ ending

theorem tolerated_writeTool (content : String) : Tolerated plainPython (writeTool content) := by
  refine ⟨rfl, ?_⟩
  change UseShape plainPython _
  exact ⟨rfl, rfl, fun _ => ⟨rfl, rfl, fun h => absurd h.1 Bool.false_ne_true⟩⟩

theorem writable_writeTool (content : String) : Writable noNumerals (writeTool content) := by
  simp [writeTool, Writable, WritableFields]

/-- Two writes of long contents that differ at their ends. -/
def longWrites : List Json := [writeTool (longContent "1"), writeTool (longContent "2")]

theorem toList_longContent (ending : String) :
    (longContent ending).toList = List.replicate 200 'a' ++ ending.toList := by
  unfold longContent
  rw [String.toList_append, String.toList_ofList]

theorem isCut_longWrites : longWrites.all (fun event => !isCut noNumerals event) = true := by
  -- a string is slow to evaluate, the list of its letters is not
  simp only [longWrites, List.all_cons, List.all_nil, writeTool, isCut, stringify, tokensOf,
    fieldTokens, toList_longContent]
  decide +kernel

theorem decoded_longWrites :
    Decoded plainPython (splitlines (encoded noNumerals longWrites)) longWrites := by
  have hboth : ∀ {P : Json → Prop}, (∀ content, P (writeTool content)) →
      ∀ event ∈ longWrites, P event := fun h =>
    List.forall_mem_cons.mpr ⟨h _, List.forall_mem_singleton.mpr (h _)⟩
  refine decoded_encoded (hboth writable_writeTool) (hboth fun _ => rfl) (fun event hevent => ?_)
    fun _ _ => rfl
  simpa using List.all_eq_true.mp isCut_longWrites event hevent

theorem tolerated_longWrites : ∀ event ∈ longWrites, Tolerated plainPython event :=
  List.forall_mem_cons.mpr ⟨tolerated_writeTool _,
    List.forall_mem_singleton.mpr (tolerated_writeTool _)⟩

theorem repeated_counted_long :
    ∃ r, parseJsonl plainPython (encoded noNumerals longWrites) = .ok r ∧
      r.2.repeatedToolCalls = repeatCount (callsAmong plainPython longWrites) :=
  repeated_counted plainPython longWrites _ decoded_longWrites tolerated_longWrites

theorem dumps_content (content : String) :
    plainPython.dumps (.obj [("content", .str content)]) =
      "\x7b\"content\": \"".toList ++ (content.toList.flatMap asciiChar ++ ['"', '\x7d']) := by
  show enclosed _ _ [asciiText "content" ++ [':', ' '] ++ asciiText content] = _
  have hkey : asciiText "content" = "\"content\"".toList := by decide
  unfold enclosed asciiText at *
  rw [hkey]
  simp

/-- The call of a long write: its input is cut inside the letters. -/
theorem callOfEvent_longContent (ending : String) :
    callOfEvent plainPython (writeTool (longContent ending)) =
      (.str "write", ("\x7b\"content\": \"".toList ++ List.replicate 200 'a').take 200) := by
  have hletters : (List.replicate 200 'a').flatMap asciiChar = List.replicate 200 'a' := by
    decide +kernel
  have hcut := dumps_content (longContent ending)
  rw [toList_longContent, List.flatMap_append, hletters, List.append_assoc,
    ← List.append_assoc] at hcut
  show (Json.str "write", (plainPython.dumps
    (.obj [("content", .str (longContent ending))])).take 200) = _
  rw [hcut, List.take_append_of_le_length]
  rw [List.length_append, List.length_replicate]
  omega

theorem repeatCount_longWrites : repeatCount (callsAmong plainPython longWrites) = 1 := by
  have hcalls : callsAmong plainPython longWrites =
      [callOfEvent plainPython (writeTool (longContent "1")),
        callOfEvent plainPython (writeTool (longContent "2"))] := rfl
  rw [hcalls, callOfEvent_longContent, callOfEvent_longContent]
  generalize ("\x7b\"content\": \"".toList ++ List.replicate 200 'a').take 200 = input
  simp [repeatCount, sameKey]

theorem wholeRepeatCount_longWrites : wholeRepeatCount longWrites = 0 := by
  have hne : ¬(wholeInput (writeTool (longContent "1")) =
      wholeInput (writeTool (longContent "2"))) := by
    intro h
    have hobjects : Json.obj [("content", .str (longContent "1"))] =
        .obj [("content", .str (longContent "2"))] := h
    have hcontents : longContent "1" = longContent "2" := by simpa using hobjects
    have hletters := congrArg String.toList hcontents
    rw [toList_longContent, toList_longContent, List.append_cancel_left_eq] at hletters
    exact absurd hletters (by decide)
  unfold wholeRepeatCount
  rw [List.countP_eq_zero]
  intro pair hpair
  have hone : pair = (writeTool (longContent "1"), writeTool (longContent "2")) :=
    List.mem_singleton.mp hpair
  rw [hone]
  simp only [decide_eq_true_eq]
  exact fun h => hne h.2

/-- A write is counted as repeated, though its content is another. -/
theorem not_whole_longWrites :
    ∃ output r, Decoded plainPython (splitlines output) longWrites ∧
      (∀ event ∈ longWrites, Tolerated plainPython event) ∧
      parseJsonl plainPython output = .ok r ∧
      r.2.repeatedToolCalls ≠ wholeRepeatCount longWrites := by
  obtain ⟨s, r, hrun, hr, hfinish⟩ := decoded_longWrites.parse tolerated_longWrites
  have hstart : Called plainPython [] {} := ⟨rfl, rfl⟩
  have hcount := (hstart.run hrun).count
  refine ⟨encoded noNumerals longWrites, r, decoded_longWrites, tolerated_longWrites, hr, ?_⟩
  rw [List.nil_append, repeatCount_longWrites] at hcount
  rw [finishParser_metrics hfinish, wholeRepeatCount_longWrites]
  change s.repeatedToolCalls ≠ 0
  omega

end AiosDeck.Runtime
