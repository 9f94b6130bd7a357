import Mathlib

/-!
# Python values as the modelled code sees them

Exceptions carry their class and text. Numbers keep the difference between
`int` and `float`, because arithmetic on them raises in different places.
A JSON document is the plain data that `json.loads` builds, with the
subscripts, comparisons and iterations that raise on the wrong shape.
-/

namespace AiosDeck.Python

/-- Exception classes raised or caught by the modelled code. -/
inductive ExcClass where
  | typeError
  | keyError
  | indexError
  | attributeError
  | valueError
  | jsonDecodeError
  | unicodeError
  | overflowError
  | runtimeError
  | recursionError
  | osError
  | permissionError
  | timeoutError
  | sqliteOperational
  | sqliteIntegrity
  | sqliteInterface
  /-- A class that the modelled program itself defines, by name. -/
  | user (name : String)
  deriving DecidableEq, Repr

/-- A raised exception: its class and `str(exc)`. -/
structure PyExc where
  /-- Most specific class of the exception. -/
  cls : ExcClass
  /-- Text of the exception. -/
  message : String
  deriving DecidableEq, Repr

/-- `isinstance(exc, sqlite3.Error)`. -/
def PyExc.isSqlite (exc : PyExc) : Bool :=
  match exc.cls with
  | .sqliteOperational | .sqliteIntegrity | .sqliteInterface => true
  | _ => false

/-- A `float`: an exact finite value, an infinity, or not a number. -/
inductive PyFloat where
  | finite (q : ℚ)
  | posInf
  | negInf
  | nan
  deriving DecidableEq, Repr

/-- An `int` of any size, or a `float`. -/
inductive PyNum where
  | int (n : ℤ)
  | float (x : PyFloat)
  deriving DecidableEq, Repr

/-- `x == 0`; not a number equals nothing. -/
def PyNum.isZero : PyNum → Bool
  | .int n => decide (n = 0)
  | .float (.finite q) => decide (q = 0)
  | .float _ => false

/-- `x > 0`; every comparison with not a number is false. -/
def PyNum.isPos : PyNum → Bool
  | .int n => decide (0 < n)
  | .float (.finite q) => decide (0 < q)
  | .float .posInf => true
  | .float _ => false

/-- Plain data of a JSON document. -/
inductive Json where
  | null
  | bool (b : Bool)
  | num (x : PyNum)
  | str (s : String)
  | arr (items : List Json)
  | obj (fields : List (String × Json))

namespace Json

/-- Truth value of the datum, as in `if value:`. -/
def truthy : Json → Bool
  | .null => false
  | .bool b => b
  | .num x => !x.isZero
  | .str s => s != ""
  | .arr items => !items.isEmpty
  | .obj fields => !fields.isEmpty

/-- `value.get(key)`: only a dictionary has the method. -/
def get? (value : Json) (key : String) : Except PyExc (Option Json) :=
  match value with
  | .obj fields => .ok (fields.lookup key)
  | _ => .error ⟨.attributeError, "object has no attribute 'get'"⟩

/-- `value.get(key, default)`. -/
def getD (value : Json) (key : String) (default : Json) : Except PyExc Json :=
  match value.get? key with
  | .ok found => .ok (found.getD default)
  | .error exc => .error exc

/-- `value[key]` with a string key. -/
def item (value : Json) (key : String) : Except PyExc Json :=
  match value with
  | .obj fields =>
    match fields.lookup key with
    | some found => .ok found
    | none => .error ⟨.keyError, key⟩
  | _ => .error ⟨.typeError, "indices must be integers or slices, not str"⟩

/-- `len(value)`. -/
def len : Json → Except PyExc ℕ
  | .str s => .ok s.length
  | .arr items => .ok items.length
  | .obj fields => .ok fields.length
  | _ => .error ⟨.typeError, "object has no len()"⟩

/-- Items of `for item in value`: characters, elements, or keys. -/
def iter : Json → Except PyExc (List Json)
  | .str s => .ok (s.toList.map fun c => .str (String.singleton c))
  | .arr items => .ok items
  | .obj fields => .ok (fields.map fun field => .str field.1)
  | _ => .error ⟨.typeError, "object is not iterable"⟩

/-- `value == 0`; a boolean counts as its integer. -/
def eqZero : Json → Bool
  | .bool b => !b
  | .num x => x.isZero
  | _ => false

/-- `value > 0`; only numbers and booleans are ordered against an integer. -/
def gtZero : Json → Except PyExc Bool
  | .bool b => .ok b
  | .num x => .ok x.isPos
  | _ => .error ⟨.typeError, "'>' not supported between instances"⟩

/-- Text of a number; a fraction is left in lowest terms. -/
def numText : PyNum → String
  | .int n => toString n
  | .float (.finite q) => toString q
  | .float .posInf => "inf"
  | .float .negInf => "-inf"
  | .float .nan => "nan"

/-- `str(value)` of a scalar; of a container only its kind. -/
def text : Json → String
  | .null => "None"
  | .bool true => "True"
  | .bool false => "False"
  | .num x => numText x
  | .str s => s
  | .arr _ => "[...]"
  | .obj _ => "\x7b...\x7d"

/-- A natural number as JSON. -/
abbrev ofNat (n : ℕ) : Json := .num (.int n)

@[simp] theorem ofNat_eqZero (n : ℕ) : (ofNat n).eqZero = decide (n = 0) := by
  simp [eqZero, PyNum.isZero]

@[simp] theorem ofNat_gtZero (n : ℕ) : (ofNat n).gtZero = .ok (decide (0 < n)) := by
  simp [gtZero, PyNum.isPos]

end Json

/-- Code points that `str.isspace`, `str.strip` and `\s` treat as blank. -/
def isSpace (c : Char) : Bool :=
  let n := c.toNat
  (9 ≤ n && n ≤ 13) || (28 ≤ n && n ≤ 32) || n == 0x85 || n == 0xA0 || n == 0x1680 ||
    (0x2000 ≤ n && n ≤ 0x200A) || n == 0x2028 || n == 0x2029 || n == 0x202F || n == 0x205F ||
    n == 0x3000

/-- `not text.strip()`. -/
def isBlank (text : String) : Bool := text.toList.all isSpace

/-- `sep.join(parts)`. -/
def join (sep : String) (parts : List String) : String := sep.intercalate parts

end AiosDeck.Python
