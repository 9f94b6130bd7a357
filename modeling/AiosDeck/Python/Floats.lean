import AiosDeck.Python.Values

/-!
# Float arithmetic

Rounding to the nearest double, ties to even, and two decimals of a float.
The exponents of the modelled code stay far inside the range of a double.
-/

namespace AiosDeck.Python

/-- The nearest integer, ties to even. -/
def roundHalfEven (q : ℚ) : ℤ :=
  let rest := q - ⌊q⌋
  if rest < 1 / 2 ∨ rest = 1 / 2 ∧ ⌊q⌋ % 2 = 0 then ⌊q⌋ else ⌊q⌋ + 1

/-- The double nearest to a number. -/
def double (q : ℚ) : ℚ :=
  let scale : ℚ := 2 ^ (52 - Int.log 2 |q|)
  roundHalfEven (q * scale) / scale

/-- A decimal literal. -/
def decimal (q : ℚ) : PyFloat := .finite (double q)

/-- A number of fixed decimals, rounded. -/
def formatFixed (decimals : ℕ) : PyFloat → String
  | .finite q =>
    let scaled := (roundHalfEven (|q| * 10 ^ decimals)).toNat
    let digits := (List.range decimals).map fun k => scaled / 10 ^ (decimals - 1 - k) % 10
    (if q < 0 then "-" else "") ++ toString (scaled / 10 ^ decimals) ++ "." ++
      String.join (digits.map toString)
  | .posInf => "inf"
  | .negInf => "-inf"
  | .nan => "nan"

/-- `f"{x:.2f}"`. -/
def formatTwo (x : PyFloat) : String := formatFixed 2 x

/-- `x < y`; every comparison with not a number is false. -/
def PyFloat.lt : PyFloat → PyFloat → Bool
  | .finite p, .finite q => decide (p < q)
  | .negInf, .finite _ | .negInf, .posInf | .finite _, .posInf => true
  | _, _ => false

/-- `x <= y`. -/
def PyFloat.le : PyFloat → PyFloat → Bool
  | .finite p, .finite q => decide (p ≤ q)
  | .negInf, .finite _ | .negInf, .posInf | .finite _, .posInf => true
  | .negInf, .negInf | .posInf, .posInf => true
  | _, _ => false

/-- `float(n)`. -/
def PyNum.toFloat : PyNum → PyFloat
  | .int n => .finite (double n)
  | .float x => x

/-- `x < y` on numbers of either kind, where the second is a float. -/
def PyNum.ltFloat (x : PyNum) (y : PyFloat) : Bool :=
  match x with
  | .int n => PyFloat.lt (.finite n) y
  | .float x => x.lt y

/-- `x <= y`, where the second may be an integer. -/
def PyFloat.leNum (x : PyFloat) : PyNum → Bool
  | .int n => x.le (.finite n)
  | .float y => x.le y

/-- `x <= 0`. -/
def PyNum.leZero : PyNum → Bool
  | .int n => decide (n ≤ 0)
  | .float x => x.le (.finite 0)

theorem PyNum.not_leZero {x : PyNum} (h : x.isPos) : x.leZero = false := by
  unfold PyNum.isPos at h
  split at h
  · exact decide_eq_false (not_le.mpr (of_decide_eq_true h))
  · exact decide_eq_false (not_le.mpr (of_decide_eq_true h))
  · rfl
  · cases h

/-- The float nearest to a number; from the middle behind the largest one on,
an infinity. -/
def PyFloat.ofRat (q : ℚ) : PyFloat :=
  if 2 ^ 1024 ≤ double q then .posInf
  else if double q ≤ -2 ^ 1024 then .negInf
  else .finite (double q)

/-- An integer as the operand of a float. -/
def ofInt (n : ℤ) : Except PyExc PyFloat :=
  match PyFloat.ofRat n with
  | .finite q => .ok (.finite q)
  | _ => .error ⟨.overflowError, "int too large to convert to float"⟩

/-- The sign of a float. -/
def PyFloat.sign : PyFloat → ℤ
  | .finite q => SignType.sign q
  | .posInf => 1
  | .negInf => -1
  | .nan => 0

/-- `x * y`. -/
def PyFloat.mul : PyFloat → PyFloat → PyFloat
  | .finite p, .finite q => .ofRat (p * q)
  | .nan, _ | _, .nan => .nan
  | x, y =>
    if x.sign * y.sign = 1 then .posInf else if x.sign * y.sign = -1 then .negInf else .nan

/-- `x + y`. -/
def PyFloat.add : PyFloat → PyFloat → PyFloat
  | .finite p, .finite q => .ofRat (p + q)
  | .nan, _ | _, .nan | .posInf, .negInf | .negInf, .posInf => .nan
  | .posInf, _ | _, .posInf => .posInf
  | .negInf, _ | _, .negInf => .negInf

/-- `-x`. -/
def PyFloat.neg : PyFloat → PyFloat
  | .finite q => .finite (-q)
  | .posInf => .negInf
  | .negInf => .posInf
  | .nan => .nan

/-- `x - y`. -/
def PyFloat.sub (x y : PyFloat) : PyFloat := x.add y.neg

/-- `x / q` for a positive number. -/
def PyFloat.divPos (x : PyFloat) (q : ℚ) : PyFloat :=
  match x with
  | .finite p => .ofRat (p / q)
  | other => other

end AiosDeck.Python
