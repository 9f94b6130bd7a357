import AiosDeck.Python.Floats

/-!
# Numbers of either kind, and keys

Subtraction and division with the places where they raise, equality of plain data, and what
a datum is equal to as the key of a dictionary.
-/

namespace AiosDeck.Python

/-- The float nearest to a quotient; below the normal range the floats are evenly spaced. -/
def PyFloat.nearest (q : ℚ) : PyFloat :=
  let scale : ℚ := 2 ^ (52 - max (Int.log 2 |q|) (-1022))
  let rounded := roundHalfEven (q * scale) / scale
  if 2 ^ 1024 ≤ rounded then .posInf
  else if rounded ≤ -2 ^ 1024 then .negInf
  else .finite rounded

/-- Division by zero. -/
def zeroDivision (message : String) : PyExc := ⟨.user "ZeroDivisionError", message⟩

/-- `x / y` of floats. -/
def PyFloat.div (x y : PyFloat) : Except PyExc PyFloat :=
  if (PyNum.float y).isZero then .error (zeroDivision "float division by zero")
  else match x, y with
    | .finite p, .finite q => .ok (.nearest (p / q))
    | .nan, _ | _, .nan => .ok .nan
    | .finite _, _ => .ok (.finite 0)
    | x, .finite q => .ok (if 0 < q then x else x.neg)
    | _, _ => .ok .nan

namespace PyNum

/-- A number as the operand of a float. -/
def operand : PyNum → Except PyExc PyFloat
  | .int n => ofInt n
  | .float x => .ok x

/-- `x - y`. -/
def sub : PyNum → PyNum → Except PyExc PyNum
  | .int m, .int n => .ok (.int (m - n))
  | x, y => do
    let p ← x.operand
    let q ← y.operand
    return .float (p.sub q)

/-- `x / y`. -/
def div : PyNum → PyNum → Except PyExc PyFloat
  | .int m, .int n =>
    if n = 0 then .error (zeroDivision "division by zero")
    else match PyFloat.nearest (m / n) with
      | .finite q => .ok (.finite q)
      | _ => .error ⟨.overflowError, "integer division result too large for a float"⟩
  | x, y => do
    let p ← x.operand
    let q ← y.operand
    p.div q

/-- The number is in the range of a float. -/
def InRange : PyNum → Prop
  | .int n => ∃ q, PyFloat.ofRat n = .finite q
  | .float _ => True

/-- The relative change from the first number to the second is one: the first is not zero, and
what becomes a float is in range. -/
def Divisible (first second : PyNum) : Prop :=
  first.isZero = false ∧
    match first, second with
    | .int m, .int n => ∃ q, PyFloat.nearest ((n - m : ℤ) / m) = .finite q
    | first, second => first.InRange ∧ second.InRange

theorem operand_ok_iff (x : PyNum) : (∃ y, x.operand = .ok y) ↔ x.InRange := by
  cases x with
  | int n =>
    unfold operand ofInt InRange
    dsimp only
    cases PyFloat.ofRat (n : ℚ) with
    | finite q => exact ⟨fun _ => ⟨q, rfl⟩, fun _ => ⟨_, rfl⟩⟩
    | posInf => simp
    | negInf => simp
    | nan => simp
  | float x => exact ⟨fun _ => trivial, fun _ => ⟨x, rfl⟩⟩

end PyNum

/-- Rounding keeps what is at least one away from zero. -/
theorem roundHalfEven_ne_zero {q : ℚ} (h : 1 ≤ |q|) : roundHalfEven q ≠ 0 := by
  have hfloor := Int.floor_le q
  have hceil := Int.lt_floor_add_one q
  unfold roundHalfEven
  rcases le_abs.mp h with hpos | hneg
  · have hone : (1 : ℤ) ≤ ⌊q⌋ := Int.le_floor.mpr (by exact_mod_cast hpos)
    dsimp only
    split <;> omega
  · have hle : ⌊q⌋ ≤ -1 := by
      have hq : q ≤ ((-1 : ℤ) : ℚ) := by
        push_cast
        linarith
      exact_mod_cast (Int.floor_le_floor hq).trans_eq (Int.floor_intCast (-1))
    dsimp only
    split
    · omega
    · rename_i hnot
      intro hzero
      have hfl : ⌊q⌋ = -1 := by omega
      have hrest : q - (⌊q⌋ : ℚ) = 0 := by
        rw [hfl] at hfloor ⊢
        push_cast at hfloor ⊢
        linarith
      exact hnot (.inl (by rw [hrest]; norm_num))

/-- An integer other than zero is no zero as a float. -/
theorem double_ne_zero {n : ℤ} (h : n ≠ 0) : double n ≠ 0 := by
  have habs : (0 : ℚ) < |(n : ℚ)| := abs_pos.mpr (by exact_mod_cast h)
  have hlog := Int.zpow_log_le_self (b := 2) (by norm_num) habs
  have hscale : (0 : ℚ) < 2 ^ (52 - Int.log 2 |(n : ℚ)|) := by positivity
  have hlarge : (1 : ℚ) ≤ |(n : ℚ) * 2 ^ (52 - Int.log 2 |(n : ℚ)|)| := by
    rw [abs_mul, abs_of_pos hscale]
    calc (1 : ℚ) ≤ 2 ^ (52 : ℤ) := by norm_num
      _ = 2 ^ Int.log 2 |(n : ℚ)| * 2 ^ (52 - Int.log 2 |(n : ℚ)|) := by
        rw [← zpow_add₀ (by norm_num)]
        congr 1
        omega
      _ ≤ _ := by
        push_cast at hlog
        exact mul_le_mul_of_nonneg_right hlog hscale.le
  unfold double
  exact div_ne_zero (by exact_mod_cast roundHalfEven_ne_zero hlarge) hscale.ne'

namespace PyNum

theorem isZero_operand {x : PyNum} {y : PyFloat} (h : x.operand = .ok y) :
    (PyNum.float y).isZero = x.isZero := by
  cases x with
  | float x =>
    cases h
    rfl
  | int n =>
    unfold operand ofInt at h
    dsimp only at h
    cases hrat : PyFloat.ofRat (n : ℚ) with
    | finite q =>
      rw [hrat] at h
      cases h
      have hq : double n = q := by
        unfold PyFloat.ofRat at hrat
        split at hrat
        · cases hrat
        · split at hrat
          · cases hrat
          · exact PyFloat.finite.inj hrat
      unfold isZero
      dsimp only
      by_cases hn : n = 0
      · subst hn
        rw [← hq]
        decide +kernel
      · rw [decide_eq_false hn, ← hq, decide_eq_false (double_ne_zero hn)]
    | posInf => rw [hrat] at h; cases h
    | negInf => rw [hrat] at h; cases h
    | nan => rw [hrat] at h; cases h

end PyNum

/-- A quotient of floats raises exactly for a zero. -/
theorem PyFloat.div_ok_iff (x y : PyFloat) :
    (∃ z, x.div y = .ok z) ↔ (PyNum.float y).isZero = false := by
  unfold PyFloat.div
  by_cases hzero : (PyNum.float y).isZero = true
  · rw [if_pos hzero, hzero]
    simp
  · rw [if_neg hzero]
    have hfalse : (PyNum.float y).isZero = false := by simpa using hzero
    refine ⟨fun _ => hfalse, fun _ => ?_⟩
    split <;> exact ⟨_, rfl⟩

/-- What a hashable datum is equal to: numbers of all kinds are compared by their values, and
not a number is one object. -/
inductive Atom where
  | none
  | number (x : PyFloat)
  | text (s : String)
  deriving DecidableEq, Repr

namespace Json

/-- The hash of a datum, which lists and dictionaries do not have. -/
def atom : Json → Except PyExc Atom
  | .null => .ok .none
  | .bool b => .ok (.number (.finite (if b then 1 else 0)))
  | .num (.int n) => .ok (.number (.finite n))
  | .num (.float x) => .ok (.number x)
  | .str s => .ok (.text s)
  | .arr _ => .error ⟨.typeError, "unhashable type: 'list'"⟩
  | .obj _ => .error ⟨.typeError, "unhashable type: 'dict'"⟩

mutual

/-- Identical or equal, as the items of containers are compared. -/
def same : Json → Json → Bool
  | .arr xs, .arr ys => sameItems xs ys
  | .obj xs, .obj ys => decide (xs.length = ys.length) && sameFields xs ys
  | .null, .null => true
  | .bool a, y => match y.atom with
    | .ok b => decide (.number (.finite (if a then 1 else 0)) = b)
    | .error _ => false
  | .num (.int n), y => match y.atom with
    | .ok b => decide (.number (.finite n) = b)
    | .error _ => false
  | .num (.float x), y => match y.atom with
    | .ok b => decide (.number x = b)
    | .error _ => false
  | .str s, .str t => s == t
  | _, _ => false

/-- Lists of the same items. -/
def sameItems : List Json → List Json → Bool
  | [], [] => true
  | x :: xs, y :: ys => x.same y && sameItems xs ys
  | _, _ => false

/-- Every field has the same value there. -/
def sameFields : List (String × Json) → List (String × Json) → Bool
  | [], _ => true
  | (key, value) :: rest, fields =>
    (match fields.lookup key with
    | some other => value.same other
    | none => false) && sameFields rest fields

end

/-- `x == y`; not a number equals nothing. -/
def equals (x y : Json) : Bool :=
  match x with
  | .num (.float .nan) => false
  | _ => x.same y

/-- An `int`, `float` or `bool` as a number. -/
def number? : Json → Option PyNum
  | .bool b => some (.int (if b then 1 else 0))
  | .num x => some x
  | _ => none

end Json

/-- `x < y`, which strings and numbers have among themselves. -/
def Atom.lt : Atom → Atom → Except PyExc Bool
  | .number x, .number y => .ok (x.lt y)
  | .text s, .text t => .ok (decide (s < t))
  | _, _ => .error ⟨.typeError, "'<' not supported between instances"⟩

end AiosDeck.Python
