import AiosDeck.Python.JsonDumps

/-!
# The event stream of opencode

`_parse_jsonl` reads one event from each line that begins like an object, and
collects the text and the metrics of the run. Every access to a field of an
event raises on the wrong shape, as it does in the source.
-/

namespace AiosDeck.Runtime

open Python

/-- What the parser needs of the interpreter. -/
structure Interpreter where
  /-- An error of `json.loads` that is no `JSONDecodeError`: a text that is too
  deep, or has too many digits in an integer. -/
  limits : Text → Option PyExc
  /-- `json.dumps(value, sort_keys=True, default=str)`. -/
  dumps : Json → Text
  /-- `x + y` on floats. -/
  add : PyFloat → PyFloat → PyFloat
  /-- An integer as the operand of a float. -/
  ofInt : ℤ → Except PyExc PyFloat

/-- Value of a number; a boolean counts as its integer. -/
def number? : Json → Option PyNum
  | .bool b => some (.int (if b then 1 else 0))
  | .num x => some x
  | _ => none

/-- `value == text` for a text. -/
def isText (value : Json) (text : String) : Bool :=
  match value with
  | .str found => found == text
  | _ => false

/-- Whether the value can be a key of a dictionary. -/
def isHashable : Json → Bool
  | .arr _ | .obj _ => false
  | _ => true

/-- `x == y` on numbers; the one not-a-number of the decoder is itself. -/
def sameNumber : PyNum → PyNum → Bool
  | .int m, .int n => m == n
  | .int m, .float (.finite q) => decide ((m : ℚ) = q)
  | .float (.finite p), .int n => decide (p = n)
  | .float x, .float y => x == y
  | _, _ => false

/-- Whether two hashable values are the same key. -/
def sameKey : Json → Json → Bool
  | .null, .null => true
  | .str s, .str t => s == t
  | a, b =>
    match number? a, number? b with
    | some x, some y => sameNumber x y
    | _, _ => false

section Dictionaries

variable {α : Type}

/-- `entries.get(key)`. -/
def findKey (key : Json) (entries : List (Json × α)) : Option α :=
  (entries.find? fun entry => sameKey entry.1 key).map Prod.snd

/-- `entries[key] = value`. -/
def assignKey (key : Json) (value : α) : List (Json × α) → List (Json × α)
  | [] => [(key, value)]
  | entry :: rest =>
    if sameKey entry.1 key then (entry.1, value) :: rest else entry :: assignKey key value rest

end Dictionaries

namespace Interpreter

variable (py : Interpreter)

/-- `json.loads(text)`. -/
def loads (text : Text) : Except PyExc Json :=
  match py.limits text with
  | some exc => .error exc
  | none =>
    match JsonText.decode text with
    | some value => .ok value
    | none => .error ⟨.jsonDecodeError, "Expecting value"⟩

/-- A number as the operand of a float. -/
def toFloat : PyNum → Except PyExc PyFloat
  | .int n => py.ofInt n
  | .float x => .ok x

/-- `x + value` for a float. -/
def plus (x : PyFloat) (value : Json) : Except PyExc PyFloat :=
  match number? value with
  | some y => (py.toFloat y).map (py.add x)
  | none => .error ⟨.typeError, "unsupported operand type(s) for +"⟩

/-- `a - b`. -/
def minus (a b : Json) : Except PyExc Json :=
  match number? a, number? b with
  | some (.int m), some (.int n) => .ok (.num (.int (m - n)))
  | some x, some y => do
    let left ← py.toFloat x
    let right ← py.toFloat y
    return .num (.float (py.add left right.neg))
  | _, _ => .error ⟨.typeError, "unsupported operand type(s) for -"⟩

/-- The interpreter with floats of double precision. -/
def standard (limits : Text → Option PyExc) (digits : ℚ → Text) : Interpreter where
  limits := limits
  dumps := JsonText.dumpsSorted digits
  add := PyFloat.add
  ofInt := Python.ofInt

end Interpreter

/-- One step within an OpenCode execution. -/
structure TurnEvent where
  index : ℤ
  kind : String
  toolName : Json
  durationMs : PyFloat
  tokensIn : Json
  tokensOut : Json
  cost : Json

/-- Structured metrics extracted from OpenCode JSONL output. -/
structure AgentMetrics where
  toolCalls : ℕ := 0
  toolNames : List Json := []
  toolDurationsMs : List PyFloat := []
  llmTurns : ℕ := 0
  totalCost : PyFloat := .finite 0
  tokens : List (String × Json) := []
  turns : List TurnEvent := []
  repeatedToolCalls : ℕ := 0
  exitReason : Json := .str "stop"

/-- The local variables of `_parse_jsonl`. -/
structure ParserState where
  textParts : List Json := []
  toolDurations : List (Json × PyFloat) := []
  toolCounts : List (Json × ℕ) := []
  turns : List TurnEvent := []
  turnIndex : ℤ := -1
  turnStart : Json := .ofNat 0
  turnKind : String := "unknown"
  turnTool : Json := .null
  turnTokensIn : Json := .ofNat 0
  turnTokensOut : Json := .ofNat 0
  turnCost : Json := .num (.float (.finite 0))
  prevToolCall : Option (Json × Text) := none
  totalCost : PyFloat := .finite 0
  tokens : List (String × Json) := []
  repeatedToolCalls : ℕ := 0
  exitReason : Json := .str "stop"

/-- `_finalize_turn`. The start of the turn is compared, and not used. -/
def finalizeTurn (s : ParserState) : Except PyExc ParserState :=
  if s.turnIndex < 0 then .ok s
  else do
    let _ ← s.turnStart.gtZero
    return { s with
      turns := s.turns ++ [
        { index := s.turnIndex, kind := s.turnKind, toolName := s.turnTool
          durationMs := .finite 0, tokensIn := s.turnTokensIn, tokensOut := s.turnTokensOut
          cost := s.turnCost }]
      turnKind := "unknown"
      turnTool := .null
      turnTokensIn := .ofNat 0
      turnTokensOut := .ofNat 0
      turnCost := .num (.float (.finite 0)) }

/-- An event `step_start`. -/
def stepStart (timestamp : Json) (s : ParserState) : Except PyExc ParserState := do
  let s ← finalizeTurn s
  return { s with turnIndex := s.turnIndex + 1, turnStart := timestamp }

/-- An event `text`. -/
def textEvent (part : Json) (s : ParserState) : Except PyExc ParserState := do
  let text ← part.getD "text" (.str "")
  return { s with
    textParts := if text.truthy then s.textParts ++ [text] else s.textParts
    turnKind := if s.turnKind ≠ "tool" then "text" else s.turnKind }

/-- An event `reasoning`. -/
def reasoningEvent (s : ParserState) : ParserState :=
  { s with turnKind := if s.turnKind = "unknown" then "reasoning" else s.turnKind }

section Events

variable (py : Interpreter)

/-- Add to the duration of the last finished turn. -/
def lengthenLast (duration : Json) : List TurnEvent → Except PyExc (List TurnEvent)
  | [] => .ok []
  | [turn] => do
    let durationMs ← py.plus turn.durationMs duration
    return [{ turn with durationMs }]
  | turn :: rest => do
    let later ← lengthenLast duration rest
    return turn :: later

/-- The time that a completed tool took. -/
def timeTool (name timing : Json) (s : ParserState) : Except PyExc ParserState := do
  let start ← timing.getD "start" (.ofNat 0)
  let stop ← timing.getD "end" (.ofNat 0)
  if start.truthy && stop.truthy then do
    let duration ← py.minus stop start
    let total ← py.plus ((findKey name s.toolDurations).getD (.finite 0)) duration
    let turns ← if 0 ≤ s.turnIndex then lengthenLast py duration s.turns else .ok s.turns
    return { s with toolDurations := assignKey name total s.toolDurations, turns }
  else return s

/-- Whether a call is the one before it. -/
def repeats (call : Json × Text) : Option (Json × Text) → Bool
  | some previous => sameKey previous.1 call.1 && previous.2 == call.2
  | none => false

/-- A tool that completed. -/
def completeTool (name state : Json) (s : ParserState) : Except PyExc ParserState :=
  if isHashable name then do
    let timing ← state.getD "time" (.obj [])
    let s ← timeTool py name timing { s with
      toolCounts := assignKey name ((findKey name s.toolCounts).getD 0 + 1) s.toolCounts
      turnKind := "tool"
      turnTool := name }
    let input ← state.getD "input" (.obj [])
    let call := (name, (py.dumps input).take 200)
    return { s with
      repeatedToolCalls := if repeats call s.prevToolCall then s.repeatedToolCalls + 1
        else s.repeatedToolCalls
      prevToolCall := some call }
  else .error ⟨.typeError, "unhashable type"⟩

/-- An event `tool_use`. -/
def toolUse (part : Json) (s : ParserState) : Except PyExc ParserState := do
  let name ← part.getD "tool" (.str "")
  let state ← part.getD "state" (.obj [])
  let status ← state.getD "status" .null
  if isText status "completed" then completeTool py name state s else return s

/-- The counts of tokens, when there are any. -/
def takeTokens (tokens : Json) (s : ParserState) : Except PyExc ParserState :=
  if tokens.truthy then do
    let input ← tokens.getD "input" (.ofNat 0)
    let output ← tokens.getD "output" (.ofNat 0)
    let reasoning ← tokens.getD "reasoning" (.ofNat 0)
    let cache ← tokens.getD "cache" (.obj [])
    let cacheRead ← cache.getD "read" (.ofNat 0)
    let cacheWrite ← cache.getD "write" (.ofNat 0)
    return { s with
      tokens := [("input", input), ("output", output), ("reasoning", reasoning),
        ("cache_read", cacheRead), ("cache_write", cacheWrite)]
      turnTokensIn := input
      turnTokensOut := output }
  else return s

/-- An event `step_finish`. -/
def stepFinish (part : Json) (s : ParserState) : Except PyExc ParserState := do
  let tokens ← part.getD "tokens" (.obj [])
  let s ← takeTokens tokens s
  let cost ← part.getD "cost" (.num (.float (.finite 0)))
  let totalCost ← py.plus s.totalCost cost
  let reason ← part.getD "reason" (.str "")
  return { s with
    totalCost
    turnCost := cost
    exitReason := if reason.truthy && !isText reason "tool-calls" then reason else s.exitReason }

/-- One event. -/
def takeEvent (event : Json) (s : ParserState) : Except PyExc ParserState := do
  let eventType ← event.getD "type" (.str "")
  let part ← event.getD "part" (.obj [])
  let timestamp ← event.getD "timestamp" (.ofNat 0)
  if isText eventType "step_start" then stepStart timestamp s
  else if isText eventType "text" then textEvent part s
  else if isText eventType "reasoning" then return reasoningEvent s
  else if isText eventType "tool_use" then toolUse py part s
  else if isText eventType "step_finish" then stepFinish py part s
  else return s

/-- The event of a line, if it has one. -/
def decodeLine (raw : Text) : Except PyExc (Option Json) :=
  if (strip raw).head? = some '\x7b' then
    match py.loads (strip raw) with
    | .ok event => .ok (some event)
    | .error exc => if exc.cls = .jsonDecodeError then .ok none else .error exc
  else .ok none

/-- One line. -/
def takeLine (s : ParserState) (raw : Text) : Except PyExc ParserState := do
  match ← decodeLine py raw with
  | some event => takeEvent py event s
  | none => return s

/-- The metrics behind the last line. -/
def metricsOf (s : ParserState) : AgentMetrics :=
  let byCount := s.toolCounts.mergeSort fun a b => decide (b.2 ≤ a.2)
  { toolCalls := (s.toolCounts.map Prod.snd).sum
    toolNames := byCount.map Prod.fst
    toolDurationsMs := byCount.map fun entry =>
      (findKey entry.1 s.toolDurations).getD (.finite 0)
    llmTurns := s.turns.length
    totalCost := s.totalCost
    tokens := s.tokens
    turns := s.turns
    repeatedToolCalls := s.repeatedToolCalls
    exitReason := s.exitReason }

/-- An item of `"\n".join(parts)`. -/
def joinable : Json → Except PyExc String
  | .str text => .ok text
  | _ => .error ⟨.typeError, "sequence item: expected str instance"⟩

/-- The end of the stream: the text and the metrics. -/
def finishParser (s : ParserState) : Except PyExc (String × AgentMetrics) := do
  let s ← finalizeTurn s
  let parts ← s.textParts.mapM joinable
  return (join "\n" parts, metricsOf s)

/-- `_parse_jsonl`. -/
def parseJsonl (output : Text) : Except PyExc (String × AgentMetrics) := do
  let s ← (splitlines output).foldlM (takeLine py) {}
  finishParser s

end Events

end AiosDeck.Runtime
