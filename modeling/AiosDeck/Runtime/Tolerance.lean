import AiosDeck.Logic.Verdict
import AiosDeck.Python.Lines
import AiosDeck.Runtime.Jsonl

/-!
# What the event parser tolerates

A line passes when every access that its kind of event makes finds the expected
shape. One line that does not pass loses the whole output, at once or at its end.
-/

namespace AiosDeck.Runtime

open Python Verdict

/-- Whether a datum is a dictionary. -/
def isDict : Json → Bool
  | .obj _ => true
  | _ => false

/-- Whether a datum is a text. -/
def isStr : Json → Bool
  | .str _ => true
  | _ => false

/-- Whether a datum is a number of the notation; `true` and `false` are none. -/
def isNum : Json → Bool
  | .num _ => true
  | _ => false

/-- The datum under a key of a dictionary, or a default. -/
def entryD (value : Json) (key : String) (default : Json) : Json :=
  match value with
  | .obj fields => (fields.lookup key).getD default
  | _ => default

theorem getD_dict {value : Json} (h : isDict value) (key : String) (default : Json) :
    value.getD key default = .ok (entryD value key default) := by
  cases value with
  | obj fields => rfl
  | _ => cases h

theorem getD_other {value : Json} (h : isDict value = false) (key : String) (default : Json) :
    value.getD key default = .error ⟨.attributeError, "object has no attribute 'get'"⟩ := by
  cases value with
  | obj fields => cases h
  | _ => rfl

theorem ok_bind {α β : Type} (a : α) (f : α → Except PyExc β) : (Except.ok a >>= f) = f a := rfl

theorem error_bind {α β : Type} (exc : PyExc) (f : α → Except PyExc β) :
    (Except.error exc >>= f) = .error exc := rfl

/-- A datum that can be compared with zero. -/
def isComparable (value : Json) : Bool := (number? value).isSome

theorem gtZero_ok_iff {value : Json} : (∃ b, value.gtZero = .ok b) ↔ isComparable value := by
  cases value <;> simp [Json.gtZero, isComparable, number?]

section Shapes

variable (py : Interpreter)

/-- A number that fits a float. -/
def Fits (x : PyNum) : Prop := ∃ y, py.toFloat x = .ok y

/-- The times of a tool whose difference can be added to a float. -/
def Spans (start stop : Json) : Prop :=
  match number? stop, number? start with
  | some (.int m), some (.int n) => Fits py (.int (m - n))
  | some x, some y => Fits py x ∧ Fits py y
  | _, _ => False

/-- A completed tool of the expected shape. -/
def ToolShape (name state : Json) : Prop :=
  isHashable name ∧
  let timing := entryD state "time" (.obj [])
  isDict timing ∧
  let start := entryD timing "start" (.ofNat 0)
  let stop := entryD timing "end" (.ofNat 0)
  (start.truthy ∧ stop.truthy → Spans py start stop)

/-- The counts of tokens of the expected shape. -/
def TokensShape (tokens : Json) : Prop :=
  tokens.truthy → isDict tokens ∧ isDict (entryD tokens "cache" (.obj []))

/-- A cost that can be added. -/
def CostShape (cost : Json) : Prop := ∃ x, number? cost = some x ∧ Fits py x

/-- A part of a text event of the expected shape. -/
def TextShape (part : Json) : Prop :=
  isDict part ∧ ((entryD part "text" (.str "")).truthy → isStr (entryD part "text" (.str "")))

/-- A part of a tool event of the expected shape. -/
def UseShape (part : Json) : Prop :=
  isDict part ∧
  let state := entryD part "state" (.obj [])
  isDict state ∧
  (isText (entryD state "status" .null) "completed" →
    ToolShape py (entryD part "tool" (.str "")) state)

/-- A part of a finished step of the expected shape. -/
def FinishShape (part : Json) : Prop :=
  isDict part ∧ TokensShape (entryD part "tokens" (.obj [])) ∧
  CostShape py (entryD part "cost" (.num (.float (.finite 0))))

/-- An event of the shape that its kind expects. -/
def Tolerated (event : Json) : Prop :=
  isDict event ∧
  let eventType := entryD event "type" (.str "")
  let part := entryD event "part" (.obj [])
  if isText eventType "step_start" then
    isComparable (entryD event "timestamp" (.ofNat 0)) = true
  else if isText eventType "text" then TextShape part
  else if isText eventType "reasoning" then True
  else if isText eventType "tool_use" then UseShape py part
  else if isText eventType "step_finish" then FinishShape py part
  else True

/-- A line without an event, or with one of the expected shape. -/
def Tolerable (raw : Text) : Prop :=
  match decodeLine py raw with
  | .ok (some event) => Tolerated py event
  | .ok none => True
  | .error _ => False

end Shapes

/-- The indices of the turns count from zero. -/
def Counted (s : ParserState) : Prop := -1 ≤ s.turnIndex

/-- The state can be finished: the start of the open turn can be compared, and
all the collected parts are texts. -/
def Finishable (s : ParserState) : Prop :=
  (0 ≤ s.turnIndex → isComparable s.turnStart) ∧ ∀ part ∈ s.textParts, isStr part

/-- A step leaves what a state is judged by. -/
def Kept (s t : ParserState) : Prop :=
  t.turnIndex = s.turnIndex ∧ t.turnStart = s.turnStart ∧ t.textParts = s.textParts

theorem Kept.refl (s : ParserState) : Kept s s := ⟨rfl, rfl, rfl⟩

theorem Kept.trans {s t u : ParserState} (h : Kept s t) (h' : Kept t u) : Kept s u :=
  ⟨h'.1.trans h.1, h'.2.1.trans h.2.1, h'.2.2.trans h.2.2⟩

theorem Kept.finishable_iff {s t : ParserState} (h : Kept s t) : Finishable t ↔ Finishable s := by
  unfold Finishable
  rw [h.1, h.2.1, h.2.2]

theorem Kept.counted {s t : ParserState} (h : Kept s t) (hs : Counted s) : Counted t := by
  unfold Counted at *
  rw [h.1]
  exact hs

/-- A step raises exactly when a condition on its event fails, and otherwise
leaves what a state is judged by. -/
def Checks (s : ParserState) (x : Except PyExc ParserState) (p : Prop) : Prop :=
  match x with
  | .ok t => p ∧ Kept s t
  | .error _ => ¬p

namespace Checks

variable {s : ParserState} {x : Except PyExc ParserState} {p q : Prop}

theorem judged (h : Checks s x p) (hs : Counted s) : Judged Counted Finishable x (Finishable s ∧ p) := by
  cases x with
  | ok t =>
    refine Judged.ok (h.2.counted hs) ?_
    rw [h.2.finishable_iff, and_iff_left h.1]
  | error exc => exact Judged.error fun hp => h hp.2

theorem congr (h : Checks s x p) (hpq : p ↔ q) : Checks s x q := by
  cases x with
  | ok t => exact ⟨hpq.mp h.1, h.2⟩
  | error exc => exact fun hq => h (hpq.mpr hq)

theorem ok {t : ParserState} (h : Kept s t) : Checks s (.ok t) True := ⟨trivial, h⟩

theorem of_kept {t : ParserState} (h : Kept s t) (hx : Checks t x p) : Checks s x p := by
  cases x with
  | ok u => exact ⟨hx.1, h.trans hx.2⟩
  | error exc => exact hx

/-- A part that raises exactly when `p` fails comes first. -/
theorem bind {α : Type} {y : Except PyExc α} {f : α → Except PyExc ParserState}
    (hy : (∃ a, y = .ok a) ↔ p) (hf : ∀ a, y = .ok a → Checks s (f a) q) :
    Checks s (y >>= f) (p ∧ q) := by
  cases hrun : y with
  | ok a =>
    rw [ok_bind]
    exact (hf a hrun).congr (and_iff_right (hy.mp ⟨a, hrun⟩)).symm
  | error exc =>
    rw [error_bind]
    intro h
    obtain ⟨a, ha⟩ := hy.mpr h.1
    rw [hrun] at ha
    cases ha

/-- Steps one after the other. -/
theorem trans {f : ParserState → Except PyExc ParserState} (hx : Checks s x p)
    (hf : ∀ t, Kept s t → Checks t (f t) q) : Checks s (x >>= f) (p ∧ q) := by
  cases x with
  | error exc => exact fun h => hx h.1
  | ok t =>
    rw [ok_bind]
    have ht := hf t hx.2
    cases hrun : f t with
    | error exc =>
      rw [hrun] at ht
      exact fun h => ht h.2
    | ok u =>
      rw [hrun] at ht
      exact ⟨⟨hx.1, ht.1⟩, hx.2.trans ht.2⟩

/-- A field is read from a dictionary only. -/
theorem getD {value default : Json} {key : String} {f : Json → Except PyExc ParserState}
    (hf : isDict value → Checks s (f (entryD value key default)) q) :
    Checks s (value.getD key default >>= f) (isDict value ∧ q) := by
  cases hvalue : isDict value with
  | false =>
    rw [getD_other hvalue, error_bind]
    exact fun h => Bool.false_ne_true h.1
  | true =>
    rw [getD_dict hvalue, ok_bind]
    exact (hf hvalue).congr (and_iff_right rfl).symm

end Checks

theorem finalizeTurn_checks (s : ParserState) :
    Checks s (finalizeTurn s) (0 ≤ s.turnIndex → isComparable s.turnStart) := by
  unfold finalizeTurn
  split
  · rename_i hindex
    exact (Checks.ok (Kept.refl s)).congr
      (iff_of_true trivial fun h => absurd h (not_le.mpr hindex))
  · rename_i hindex
    refine (Checks.bind gtZero_ok_iff fun _ _ => Checks.ok ⟨rfl, rfl, rfl⟩).congr ?_
    rw [and_true, imp_iff_right (not_lt.mp hindex)]

theorem stepStart_judged {s : ParserState} (hs : Counted s) (timestamp : Json) :
    Judged Counted Finishable (stepStart timestamp s) (Finishable s ∧ isComparable timestamp) := by
  have hfinal := finalizeTurn_checks s
  unfold stepStart
  cases hrun : finalizeTurn s with
  | error exc =>
    rw [hrun] at hfinal
    exact Judged.error fun h => hfinal h.1.1
  | ok t =>
    rw [hrun] at hfinal
    obtain ⟨hopen, hkept⟩ := hfinal
    have hbound : -1 ≤ t.turnIndex := hkept.counted hs
    have hpos : 0 ≤ t.turnIndex + 1 := by omega
    rw [ok_bind]
    refine Judged.ok (by unfold Counted; dsimp only; omega) ?_
    unfold Finishable
    dsimp only
    rw [imp_iff_right hpos, hkept.2.2, and_iff_right hopen, and_comm]

theorem textEvent_judged {s : ParserState} (hs : Counted s) (part : Json) :
    Judged Counted Finishable (textEvent part s) (Finishable s ∧ TextShape part) := by
  unfold textEvent TextShape
  cases hpart : isDict part with
  | false =>
    rw [getD_other hpart, error_bind]
    exact Judged.error fun h => Bool.false_ne_true h.2.1
  | true =>
    rw [getD_dict hpart, ok_bind]
    refine Judged.ok hs ?_
    unfold Finishable
    dsimp only
    split
    · rename_i htruthy
      simp only [List.forall_mem_append, List.forall_mem_singleton, htruthy, true_and,
        forall_const, and_assoc]
    · rename_i htruthy
      simp only [htruthy, Bool.false_eq_true, false_implies, and_true]

section Handlers

variable (py : Interpreter)

theorem plus_ok_iff (x : PyFloat) (value : Json) :
    (∃ y, py.plus x value = .ok y) ↔ CostShape py value := by
  unfold Interpreter.plus CostShape Fits
  cases hvalue : number? value with
  | none => simp
  | some n =>
    cases hn : py.toFloat n with
    | ok y => simp [Except.map, hn]
    | error exc => simp [Except.map, hn]

theorem fits_float (x : PyFloat) : Fits py (.float x) := ⟨x, rfl⟩

theorem minus_spans (start stop : Json) :
    (∃ d, py.minus stop start = .ok d ∧ CostShape py d) ↔ Spans py start stop := by
  have hmixed : ∀ x y, (∃ d, (do
      let left ← py.toFloat x
      let right ← py.toFloat y
      return Json.num (.float (py.add left right.neg))) = Except.ok d ∧ CostShape py d) ↔
      Fits py x ∧ Fits py y := by
    intro x y
    unfold Fits
    cases hx : py.toFloat x with
    | error exc => simp [error_bind]
    | ok left =>
      cases hy : py.toFloat y with
      | error exc => simp [ok_bind]
      | ok right =>
        simp only [ok_bind]
        exact iff_of_true ⟨_, rfl, _, rfl, fits_float py _⟩ ⟨⟨_, rfl⟩, _, rfl⟩
  unfold Interpreter.minus Spans
  cases hstop : number? stop with
  | none => simp
  | some x =>
    cases hstart : number? start with
    | none => cases x <;> simp
    | some y =>
      cases x with
      | float a => exact hmixed _ _
      | int m =>
        cases y with
        | float b => exact hmixed _ _
        | int n =>
          dsimp only
          simp [CostShape, number?]

theorem lengthenLast_ok {duration : Json} (h : CostShape py duration) :
    ∀ turns, ∃ later, lengthenLast py duration turns = .ok later
  | [] => ⟨_, rfl⟩
  | [turn] => by
    obtain ⟨y, hy⟩ := (plus_ok_iff py turn.durationMs duration).mpr h
    unfold lengthenLast
    rw [hy]
    exact ⟨_, rfl⟩
  | turn :: next :: rest => by
    obtain ⟨later, hlater⟩ := lengthenLast_ok h (next :: rest)
    unfold lengthenLast
    rw [hlater]
    exact ⟨_, rfl⟩

/-- The time of a tool: the difference is added to the tool's total, and to
the last turn if there is one. -/
theorem timeTool_checks (s : ParserState) (name timing : Json) :
    Checks s (timeTool py name timing s)
      (isDict timing ∧
        ((entryD timing "start" (.ofNat 0)).truthy ∧ (entryD timing "end" (.ofNat 0)).truthy →
          Spans py (entryD timing "start" (.ofNat 0)) (entryD timing "end" (.ofNat 0)))) := by
  unfold timeTool
  refine Checks.getD fun htiming => ?_
  rw [getD_dict htiming, ok_bind]
  split
  · rename_i htruthy
    rw [Bool.and_eq_true] at htruthy
    refine Checks.congr (p := Spans py _ _) ?_ (imp_iff_right htruthy).symm
    cases hminus : py.minus (entryD timing "end" (.ofNat 0)) (entryD timing "start" (.ofNat 0)) with
    | error exc =>
      intro h
      obtain ⟨d, hd, -⟩ := (minus_spans py _ _).mpr h
      rw [hminus] at hd
      cases hd
    | ok duration =>
      rw [ok_bind]
      have hcost : CostShape py duration ↔
          Spans py (entryD timing "start" (.ofNat 0)) (entryD timing "end" (.ofNat 0)) := by
        rw [← minus_spans, hminus]
        constructor
        · exact fun h => ⟨duration, rfl, h⟩
        · rintro ⟨d, hd, h⟩
          cases hd
          exact h
      rw [← hcost, ← and_true (CostShape py duration)]
      refine Checks.bind (plus_ok_iff py _ _) fun total htotal => ?_
      obtain ⟨later, hlater⟩ :=
        lengthenLast_ok py ((plus_ok_iff py _ _).mp ⟨total, htotal⟩) s.turns
      rw [hlater]
      split
      · exact Checks.ok ⟨rfl, rfl, rfl⟩
      · exact Checks.ok ⟨rfl, rfl, rfl⟩
  · rename_i htruthy
    rw [Bool.and_eq_true] at htruthy
    exact (Checks.ok (Kept.refl s)).congr (iff_of_true trivial fun h => absurd h htruthy)

theorem completeTool_checks (s : ParserState) (name : Json) {state : Json}
    (hstate : isDict state) :
    Checks s (completeTool py name state s) (ToolShape py name state) := by
  unfold completeTool ToolShape
  split
  · rename_i hname
    rw [getD_dict hstate, ok_bind]
    refine Checks.congr ?_ (and_iff_right hname).symm
    refine Checks.congr (Checks.of_kept ⟨rfl, rfl, rfl⟩ (Checks.trans
      (timeTool_checks py { s with
        toolCounts := assignKey name ((findKey name s.toolCounts).getD 0 + 1) s.toolCounts
        turnKind := "tool"
        turnTool := name } name _) fun t _ => ?_)) (and_true _).to_iff
    rw [getD_dict hstate, ok_bind]
    exact Checks.ok ⟨rfl, rfl, rfl⟩
  · rename_i hname
    exact fun h => hname h.1

theorem toolUse_checks (s : ParserState) (part : Json) :
    Checks s (toolUse py part s) (UseShape py part) := by
  unfold toolUse UseShape
  refine Checks.getD fun hpart => ?_
  rw [getD_dict hpart, ok_bind]
  refine Checks.getD fun hstate => ?_
  split
  · rename_i hstatus
    exact (completeTool_checks py s _ hstate).congr (imp_iff_right hstatus).symm
  · rename_i hstatus
    exact (Checks.ok (Kept.refl s)).congr (iff_of_true trivial fun h => absurd h hstatus)

theorem takeTokens_checks (s : ParserState) (tokens : Json) :
    Checks s (takeTokens tokens s) (TokensShape tokens) := by
  unfold takeTokens TokensShape
  split
  · rename_i htruthy
    refine Checks.congr ?_ (imp_iff_right htruthy).symm
    refine Checks.getD fun htokens => ?_
    rw [getD_dict htokens, ok_bind, getD_dict htokens, ok_bind, getD_dict htokens, ok_bind]
    rw [← and_true (isDict (entryD tokens "cache" (.obj [])) = true)]
    refine Checks.getD fun hcache => ?_
    rw [getD_dict hcache, ok_bind]
    exact Checks.ok ⟨rfl, rfl, rfl⟩
  · rename_i htruthy
    exact (Checks.ok (Kept.refl s)).congr (iff_of_true trivial fun h => absurd h htruthy)

theorem stepFinish_checks (s : ParserState) (part : Json) :
    Checks s (stepFinish py part s) (FinishShape py part) := by
  unfold stepFinish FinishShape
  refine Checks.getD fun hpart => ?_
  refine Checks.trans (takeTokens_checks s _) fun t _ => ?_
  rw [getD_dict hpart, ok_bind, ← and_true (CostShape py _)]
  refine Checks.bind (plus_ok_iff py _ _) fun total _ => ?_
  rw [getD_dict hpart, ok_bind]
  exact Checks.ok ⟨rfl, rfl, rfl⟩

theorem reasoningEvent_kept (s : ParserState) : Kept s (reasoningEvent s) := ⟨rfl, rfl, rfl⟩

theorem takeEvent_judged {s : ParserState} (hs : Counted s) (event : Json) :
    Judged Counted Finishable (takeEvent py event s) (Finishable s ∧ Tolerated py event) := by
  unfold takeEvent Tolerated
  cases hevent : isDict event with
  | false =>
    rw [getD_other hevent, error_bind]
    exact Judged.error fun h => Bool.false_ne_true h.2.1
  | true =>
    rw [getD_dict hevent, ok_bind, getD_dict hevent, ok_bind, getD_dict hevent, ok_bind,
      and_iff_right rfl]
    dsimp only
    split
    · exact stepStart_judged hs _
    split
    · exact textEvent_judged hs _
    split
    · exact (Checks.ok (reasoningEvent_kept s)).judged hs
    split
    · exact (toolUse_checks py s _).judged hs
    split
    · exact (stepFinish_checks py s _).judged hs
    · exact (Checks.ok (Kept.refl s)).judged hs

theorem takeLine_judged (s : ParserState) (raw : Text) (hs : Counted s) :
    Judged Counted Finishable (takeLine py s raw) (Finishable s ∧ Tolerable py raw) := by
  unfold takeLine Tolerable
  cases hline : decodeLine py raw with
  | error exc => exact Judged.error fun h => h.2
  | ok found =>
    rw [ok_bind]
    cases found with
    | none => exact (Checks.ok (Kept.refl s)).judged hs
    | some event => exact takeEvent_judged py hs event

theorem mapM_joinable_iff (parts : List Json) :
    (∃ texts, parts.mapM joinable = .ok texts) ↔ ∀ part ∈ parts, isStr part := by
  induction parts with
  | nil => simp [pure, Except.pure]
  | cons part rest ih =>
    rw [List.mapM_cons, List.forall_mem_cons, ← ih]
    cases part with
    | str text =>
      cases hrest : rest.mapM joinable with
      | ok texts => exact iff_of_true ⟨_, rfl⟩ ⟨rfl, _, rfl⟩
      | error exc =>
        refine iff_of_false ?_ ?_
        · rintro ⟨_, ⟨⟩⟩
        · rintro ⟨-, _, ⟨⟩⟩
    | _ =>
      refine iff_of_false ?_ fun h => Bool.false_ne_true h.1
      rintro ⟨_, ⟨⟩⟩

theorem finishParser_iff (s : ParserState) : (∃ r, finishParser s = .ok r) ↔ Finishable s := by
  have hfinal := finalizeTurn_checks s
  unfold finishParser
  cases hrun : finalizeTurn s with
  | error exc =>
    rw [hrun] at hfinal
    refine iff_of_false ?_ fun h => hfinal h.1
    rintro ⟨_, ⟨⟩⟩
  | ok t =>
    rw [hrun] at hfinal
    have hparts := mapM_joinable_iff t.textParts
    rw [ok_bind]
    unfold Finishable
    rw [and_iff_right hfinal.1, ← hfinal.2.2.2, ← hparts]
    cases ht : t.textParts.mapM joinable with
    | ok texts => exact iff_of_true ⟨_, rfl⟩ ⟨_, rfl⟩
    | error exc =>
      refine iff_of_false ?_ ?_
      · rintro ⟨_, ⟨⟩⟩
      · rintro ⟨_, ⟨⟩⟩

/-- The parser returns exactly when it tolerates every line. -/
theorem parseJsonl_returns_iff (output : Text) :
    (∃ r, parseJsonl py output = .ok r) ↔ ∀ line ∈ splitlines output, Tolerable py line := by
  have hstart : Counted {} := le_refl _
  have hgood : Finishable {} :=
    ⟨fun h => absurd h (by decide), fun _ h => absurd h List.not_mem_nil⟩
  have hrun := judged_foldlM (fun s raw hs => takeLine_judged py s raw hs)
    (splitlines output) {} hstart
  unfold parseJsonl
  cases hlines : (splitlines output).foldlM (takeLine py) {} with
  | error exc =>
    rw [hlines] at hrun
    refine iff_of_false ?_ fun h => hrun ⟨hgood, h⟩
    rintro ⟨_, ⟨⟩⟩
  | ok t =>
    rw [hlines] at hrun
    rw [ok_bind, finishParser_iff, hrun.2, and_iff_right hgood]

end Handlers

/-- Whether a value of the wrong kind stands under a key. -/
def hasWrong (kind : Json → Bool) (key : String) : Json → Bool
  | .obj fields =>
    match fields.lookup key with
    | some value => !kind value
    | none => false
  | _ => false

/-- The kinds of events that the parser reads. -/
def isKnownType (eventType : Json) : Bool :=
  ["step_start", "text", "reasoning", "tool_use", "step_finish"].any (isText eventType)

/-- An object that is no event of a known shape: its type is unknown, or one of
the nested fields is null or of the wrong type. -/
def Misshapen (event : Json) : Prop :=
  let part := entryD event "part" (.obj [])
  let state := entryD part "state" (.obj [])
  let tokens := entryD part "tokens" (.obj [])
  isKnownType (entryD event "type" (.str "")) = false ∨ hasWrong isDict "part" event ∨
    hasWrong isDict "state" part ∨ hasWrong isDict "time" state ∨
    hasWrong isDict "tokens" part ∨ hasWrong isDict "cache" tokens ∨ hasWrong isNum "cost" part

/-- A line that is not an event of a known shape. -/
def Malformed (line : Text) : Prop :=
  match JsonText.decode (strip line) with
  | some event => isDict event → Misshapen event
  | none => True

/-- An event that changes nothing: its type is unknown, or it is a tool that is
not completed, in a part and a state that are dictionaries. -/
def Quiet (event : Json) : Prop :=
  isDict event ∧
  let eventType := entryD event "type" (.str "")
  let part := entryD event "part" (.obj [])
  let state := entryD part "state" (.obj [])
  (isKnownType eventType = false ∨
    isText eventType "tool_use" ∧ isDict part ∧ isDict state ∧
      isText (entryD state "status" .null) "completed" = false)

section Insertions

variable (py : Interpreter)

/-- A line that holds no event, or one that changes nothing. -/
def Inert (line : Text) : Prop :=
  match decodeLine py line with
  | .ok (some event) => Quiet event
  | .ok none => True
  | .error _ => False

/-- Inserting the line between two lines of any output that is parsed leaves
the text and the metrics. -/
def Unnoticed (line : Text) : Prop :=
  ∀ (output longer : Text) (before behind : List Text) (r : String × AgentMetrics),
    splitlines output = before ++ behind → splitlines longer = before ++ line :: behind →
    parseJsonl py output = .ok r → parseJsonl py longer = .ok r

theorem takeEvent_quiet {event : Json} (h : Quiet event) (s : ParserState) :
    takeEvent py event s = .ok s := by
  obtain ⟨hevent, hquiet⟩ := h
  unfold takeEvent
  rw [getD_dict hevent, ok_bind, getD_dict hevent, ok_bind, getD_dict hevent, ok_bind]
  rcases hquiet with hunknown | ⟨htool, hpart, hstate, hstatus⟩
  · unfold isKnownType at hunknown
    simp only [List.any_cons, List.any_nil, Bool.or_false, Bool.or_eq_false_iff] at hunknown
    obtain ⟨h1, h2, h3, h4, h5⟩ := hunknown
    simp only [h1, h2, h3, h4, h5, Bool.false_eq_true, if_false]
    rfl
  · have hother : ∀ t, t ≠ "tool_use" → isText (entryD event "type" (.str "")) t = false := by
      intro t ht
      unfold isText at htool ⊢
      cases hvalue : entryD event "type" (.str "") with
      | str found =>
        rw [hvalue] at htool
        rw [eq_of_beq htool]
        exact beq_false_of_ne ht.symm
      | _ => rfl
    rw [if_neg (by simp [hother]), if_neg (by simp [hother]), if_neg (by simp [hother]),
      if_pos htool]
    unfold toolUse
    rw [getD_dict hpart, ok_bind, getD_dict hpart, ok_bind, getD_dict hstate, ok_bind,
      if_neg (by simp [hstatus])]
    rfl

theorem takeLine_inert {line : Text} (h : Inert py line) (s : ParserState) :
    takeLine py s line = .ok s := by
  unfold Inert at h
  unfold takeLine
  cases hline : decodeLine py line with
  | error exc =>
    rw [hline] at h
    exact h.elim
  | ok found =>
    rw [hline] at h
    rw [ok_bind]
    cases found with
    | none => rfl
    | some event => exact takeEvent_quiet py h s

theorem Inert.unnoticed {line : Text} (h : Inert py line) : Unnoticed py line := by
  intro output longer before behind r houtput hlonger hrun
  unfold parseJsonl at hrun ⊢
  rw [houtput, List.foldlM_append] at hrun
  rw [hlonger, List.foldlM_append]
  rw [← hrun]
  simp only [List.foldlM_cons, takeLine_inert py h, ok_bind]

end Insertions

end AiosDeck.Runtime
