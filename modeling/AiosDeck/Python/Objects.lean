import AiosDeck.Python.Text

/-!
# Python objects, JSON text and SQLite parameters

Arbitrary Python values, as far as the modelled code asks something of
them: their truth value, their JSON text, and the SQLite value they are
bound as. Each of these can raise.
-/

namespace AiosDeck.Python

/-- The code points of a `str`, lone surrogates included. -/
abbrev Points := List ℕ

/-- The code points of a Lean string. -/
def points (text : String) : Points := text.toList.map Char.toNat

/-- A value as SQLite stores it. -/
inductive SqlValue where
  | null
  | integer (n : ℤ)
  | real (x : PyFloat)
  | text (content : Points)
  | blob (content : List ℕ)
  deriving DecidableEq, Repr

/-- A key of a dictionary. -/
inductive DictKey where
  | none
  | bool (b : Bool)
  | int (n : ℤ)
  | float (x : PyFloat)
  | str (content : Points)
  /-- Any other key, with what it gives as an item of a list. -/
  | other (dumped : Except PyExc Points)

/-- An object of any other class, by what it answers. -/
structure Instance where
  /-- `bool(x)`. -/
  truth : Except PyExc Bool
  /-- `json.dumps(x, ensure_ascii=False)`. -/
  dumped : Except PyExc Points
  /-- `json.dumps(list(x), ensure_ascii=False)`. -/
  listDumped : Except PyExc Points
  /-- Binding as a parameter of a statement. -/
  bound : Except PyExc SqlValue

/-- A Python value. -/
inductive PyVal where
  | none
  | bool (b : Bool)
  | int (n : ℤ)
  | float (x : PyFloat)
  | str (content : Points)
  | bytes (content : List ℕ)
  /-- A list or a tuple. -/
  | list (items : List PyVal)
  | dict (items : List (DictKey × PyVal))
  | other (object : Instance)

/-- `bool(value)`. -/
def PyVal.truth : PyVal → Except PyExc Bool
  | .none => .ok false
  | .bool b => .ok b
  | .int n => .ok (decide (n ≠ 0))
  | .float x => .ok (!(PyNum.float x).isZero)
  | .str content => .ok (!content.isEmpty)
  | .bytes content => .ok (!content.isEmpty)
  | .list items => .ok (!items.isEmpty)
  | .dict items => .ok (!items.isEmpty)
  | .other object => object.truth

/-- Text of an integer; the interpreter refuses more than 4300 digits. -/
def intText (n : ℤ) : Except PyExc Points :=
  if 4300 < (Nat.toDigits 10 n.natAbs).length then
    .error ⟨.valueError, "Exceeds the limit (4300 digits) for integer string conversion"⟩
  else .ok (points (toString n))

/-- Two hexadecimal digits. -/
def hexDigits (n : ℕ) : Points := [(Nat.digitChar (n / 16)).toNat, (Nat.digitChar (n % 16)).toNat]

/-- A code point inside a JSON string. -/
def escapePoint (point : ℕ) : Points :=
  if point = 34 then points "\\\""
  else if point = 92 then points "\\\\"
  else if point = 10 then points "\\n"
  else if point = 13 then points "\\r"
  else if point = 9 then points "\\t"
  else if point = 8 then points "\\b"
  else if point = 12 then points "\\f"
  else if point < 32 then points "\\u00" ++ hexDigits point
  else [point]

/-- A JSON string. -/
def quoted (content : Points) : Points := [34] ++ content.flatMap escapePoint ++ [34]

/-- A key in JSON; a key of any other class is refused. -/
def DictKey.dumps : DictKey → Except PyExc Points
  | .none => .ok (quoted (points "null"))
  | .bool b => .ok (quoted (points (if b then "true" else "false")))
  | .int n => (intText n).map quoted
  | .float x => .ok (quoted (points (Json.numText (.float x))))
  | .str content => .ok (quoted content)
  | .other _ => .error ⟨.typeError, "keys must be str, int, float, bool or None"⟩

/-- Texts between brackets, separated by `", "`. -/
def bracketed (first last : ℕ) (parts : List Points) : Points :=
  [first] ++ (parts.intersperse (points ", ")).flatten ++ [last]

mutual

/-- `json.dumps(value, ensure_ascii=False)`. -/
def PyVal.dumps : PyVal → Except PyExc Points
  | .none => .ok (points "null")
  | .bool b => .ok (points (if b then "true" else "false"))
  | .int n => intText n
  | .float x => .ok (points (Json.numText (.float x)))
  | .str content => .ok (quoted content)
  | .bytes _ => .error ⟨.typeError, "Object of type bytes is not JSON serializable"⟩
  | .list items => (dumpsItems items).map (bracketed 91 93)
  | .dict items => (dumpsPairs items).map (bracketed 123 125)
  | .other object => object.dumped

/-- The items of a list. -/
def dumpsItems : List PyVal → Except PyExc (List Points)
  | [] => .ok []
  | item :: rest => do
    let first ← item.dumps
    let others ← dumpsItems rest
    return first :: others

/-- The items of a dictionary. -/
def dumpsPairs : List (DictKey × PyVal) → Except PyExc (List Points)
  | [] => .ok []
  | (key, value) :: rest => do
    let name ← key.dumps
    let content ← value.dumps
    let others ← dumpsPairs rest
    return (name ++ points ": " ++ content) :: others

end

/-- A key as an item of `list(dictionary)`. -/
def DictKey.itemDumps : DictKey → Except PyExc Points
  | .none => .ok (points "null")
  | .bool b => .ok (points (if b then "true" else "false"))
  | .int n => intText n
  | .float x => .ok (points (Json.numText (.float x)))
  | .str content => .ok (quoted content)
  | .other dumped => dumped

/-- `json.dumps(list(value), ensure_ascii=False)`. -/
def PyVal.listDumps : PyVal → Except PyExc Points
  | .list items => (dumpsItems items).map (bracketed 91 93)
  | .dict items => (items.mapM fun item : DictKey × PyVal => item.1.itemDumps).map (bracketed 91 93)
  | .str content => .ok (bracketed 91 93 (content.map fun point => quoted [point]))
  | .bytes content => .ok (bracketed 91 93 (content.map fun byte => points (toString byte)))
  | .other object => object.listDumped
  | _ => .error ⟨.typeError, "object is not iterable"⟩

/-- Whether a text holds a lone surrogate, which UTF-8 cannot encode. -/
def hasSurrogate (content : Points) : Bool :=
  content.any fun point => decide (0xD800 ≤ point) && decide (point < 0xE000)

/-- No character is a surrogate. -/
theorem hasSurrogate_text (text : List Char) : hasSurrogate (text.map Char.toNat) = false := by
  unfold hasSurrogate
  rw [List.any_map, List.any_eq_false]
  intro c _ h
  simp only [Function.comp, Bool.and_eq_true, decide_eq_true_eq] at h
  have hvalid := c.valid
  have hnat : c.toNat = c.val.toNat := rfl
  rw [hnat] at h
  unfold UInt32.isValidChar Nat.isValidChar at hvalid
  omega

theorem hasSurrogate_points (content : String) : hasSurrogate (points content) = false :=
  hasSurrogate_text content.toList

theorem hasSurrogate_append (first second : Points) :
    hasSurrogate (first ++ second) = (hasSurrogate first || hasSurrogate second) := by
  unfold hasSurrogate
  exact List.any_append

/-- Binding a value as a parameter of a statement. -/
def PyVal.bind : PyVal → Except PyExc SqlValue
  | .none => .ok .null
  | .bool b => .ok (.integer (if b then 1 else 0))
  | .int n =>
    if -2 ^ 63 ≤ n ∧ n < 2 ^ 63 then .ok (.integer n)
    else .error ⟨.overflowError, "Python int too large to convert to SQLite INTEGER"⟩
  -- SQLite stores no NaN
  | .float .nan => .ok .null
  | .float x => .ok (.real x)
  | .str content =>
    if hasSurrogate content then .error ⟨.unicodeError, "surrogates not allowed"⟩
    else .ok (.text content)
  | .bytes content => .ok (.blob content)
  | .list _ => .error ⟨.sqliteInterface, "Error binding parameter: type 'list' is not supported"⟩
  | .dict _ => .error ⟨.sqliteInterface, "Error binding parameter: type 'dict' is not supported"⟩
  | .other object => object.bound

end AiosDeck.Python
