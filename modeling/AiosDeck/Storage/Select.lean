import AiosDeck.Python.Floats
import AiosDeck.Python.Objects

/-!
# Selecting rows

The part of SQL that the stores read with: rows of named cells, conditions
joined by `AND`, one level of `IN (SELECT ...)`, an order and a limit. What
a query selects depends on the rows that its conditions name; a query that
names an owner and asks no other table reads that owner's rows only.
-/

namespace AiosDeck.Storage

open Python

/-- A row, cell by cell. -/
abbrev Row := List (String × SqlValue)

/-- The value in a column. -/
def Row.get (row : Row) (column : String) : SqlValue := (row.lookup column).getD .null

/-- The rows of every table, in the order in which they were inserted. -/
abbrev Tables := String → List Row

/-- `x = y`, which is never true of `NULL`. -/
def sqlEq (x y : SqlValue) : Bool := decide (x ≠ .null) && decide (x = y)

/-- The order of texts by their code points. -/
def pointsLe : Points → Points → Bool
  | [], _ => true
  | _ :: _, [] => false
  | x :: xs, y :: ys => if x = y then pointsLe xs ys else decide (x < y)

/-- Place of a storage class in the order of values. -/
def storageRank : SqlValue → ℕ
  | .null => 0
  | .integer _ | .real _ => 1
  | .text _ => 2
  | .blob _ => 3

/-- The order of values by which rows are sorted. -/
def sortLe : SqlValue → SqlValue → Bool
  | .integer m, .integer n => decide (m ≤ n)
  | .integer m, .real y => PyFloat.le (.finite m) y
  | .real x, .integer n => PyFloat.le x (.finite n)
  | .real x, .real y => PyFloat.le x y
  | .text x, .text y => pointsLe x y
  | .blob x, .blob y => pointsLe x y
  | x, y => decide (storageRank x ≤ storageRank y)

/-- `x <= y`, which is never true of `NULL`. -/
def sqlLe (x y : SqlValue) : Bool :=
  decide (x ≠ .null) && decide (y ≠ .null) && sortLe x y

/-- A condition on a row. -/
inductive Condition where
  /-- `column = ?`. -/
  | equals (column : String) (value : SqlValue)
  /-- `column >= ?`. -/
  | since (column : String) (value : SqlValue)
  /-- `column <= ?`. -/
  | until (column : String) (value : SqlValue)
  /-- `column IN (SELECT column FROM table WHERE other = ?)`. -/
  | among (column table other : String) (value : SqlValue)

namespace Condition

/-- Whether the condition holds of a row. -/
def holds (db : Tables) (row : Row) : Condition → Bool
  | .equals column value => sqlEq (row.get column) value
  | .since column value => sqlLe value (row.get column)
  | .until column value => sqlLe (row.get column) value
  | .among column table other value =>
    (db table).any fun found => sqlEq (found.get other) value &&
      sqlEq (row.get column) (found.get column)

variable {db : Tables} {row : Row} {column : String} {value : SqlValue}

theorem holds_equals : (equals column value).holds db row = sqlEq (row.get column) value := rfl

theorem holds_since : (since column value).holds db row = sqlLe value (row.get column) := rfl

theorem holds_until : (Condition.until column value).holds db row = sqlLe (row.get column) value := rfl

theorem holds_among {table other : String} :
    (among column table other value).holds db row =
      (db table).any fun found => sqlEq (found.get other) value &&
        sqlEq (row.get column) (found.get column) := rfl

/-- The condition asks nothing of another table. -/
def isPlain : Condition → Bool
  | .among _ _ _ _ => false
  | _ => true

end Condition

/-- `SELECT ... FROM table WHERE conditions`, before any order. -/
def select (db : Tables) (table : String) (conditions : List Condition) : List Row :=
  (db table).filter fun row => conditions.all (Condition.holds db row)

/-- `ORDER BY column DESC`; rows that the order leaves alike stay as they were. -/
def orderDesc (columns : List String) (rows : List Row) : List Row :=
  rows.mergeSort fun x y =>
    match columns.find? fun column => decide (x.get column ≠ y.get column) with
    | some column => sortLe (y.get column) (x.get column)
    | none => true

/-- `LIMIT n`; a negative one is none. -/
def limited {α : Type} (limit : ℤ) (rows : List α) : List α :=
  if limit < 0 then rows else rows.take limit.toNat

/-- `GROUP BY columns`: the groups in the order of their first rows. -/
def groupsOf (columns : List String) (rows : List Row) : List (List Row) :=
  let keys := (rows.map fun row => columns.map row.get).eraseDups
  keys.map fun key => rows.filter fun row => decide (columns.map row.get = key)

/-- The database with the rows of one owner only. -/
def ownRows (column : String) (owner : SqlValue) (db : Tables) : Tables := fun table =>
  (db table).filter fun row => sqlEq (row.get column) owner

section Own

variable {column table : String} {owner : SqlValue} {db : Tables} {conditions : List Condition}

theorem sqlEq_iff {x y : SqlValue} : sqlEq x y = true ↔ x ≠ .null ∧ x = y := by
  simp [sqlEq]

theorem mem_ownRows {row : Row} :
    row ∈ ownRows column owner db table ↔ row ∈ db table ∧ sqlEq (row.get column) owner = true := by
  simp [ownRows]

theorem mem_select {row : Row} :
    row ∈ select db table conditions ↔
      row ∈ db table ∧ ∀ condition ∈ conditions, condition.holds db row = true := by
  simp [select]

/-- A plain condition reads the row alone. -/
theorem holds_of_isPlain {condition : Condition} (h : condition.isPlain = true) (other : Tables)
    (row : Row) : condition.holds db row = condition.holds other row := by
  cases condition with
  | among => cases h
  | _ => rfl

/-- Plain conditions that name the owner select the owner's rows. -/
theorem select_ownRows (howner : .equals column owner ∈ conditions)
    (hplain : ∀ condition ∈ conditions, condition.isPlain = true) :
    select (ownRows column owner db) table conditions = select db table conditions := by
  unfold select ownRows
  rw [List.filter_filter]
  refine List.filter_congr fun row _ => ?_
  have hsame : conditions.all (Condition.holds (ownRows column owner db) row) =
      conditions.all (Condition.holds db row) := by
    rw [Bool.eq_iff_iff, List.all_eq_true, List.all_eq_true]
    refine forall₂_congr fun condition hmem => ?_
    rw [holds_of_isPlain (hplain condition hmem) db row]
  unfold ownRows at hsame
  rw [hsame]
  cases hall : conditions.all (Condition.holds db row) with
  | false => rfl
  | true => exact List.all_eq_true.mp hall _ howner

/-- Nothing selected is anything listed. -/
theorem select_eq_nil {condition : Condition} (hmem : condition ∈ conditions)
    (h : ∀ row ∈ db table, condition.holds db row = false) : select db table conditions = [] := by
  unfold select
  refine List.filter_eq_nil_iff.mpr fun row hrow hall => ?_
  have hholds := List.all_eq_true.mp hall condition hmem
  rw [h row hrow] at hholds
  cases hholds

theorem orderDesc_nil (columns : List String) : orderDesc columns [] = [] := by
  unfold orderDesc
  exact List.mergeSort_nil

theorem orderDesc_singleton (columns : List String) (row : Row) : orderDesc columns [row] = [row] := by
  unfold orderDesc
  exact List.mergeSort_singleton row

theorem limited_nil {α : Type} (limit : ℤ) : limited limit ([] : List α) = [] := by
  unfold limited
  split
  · rfl
  · exact List.take_nil

theorem limited_singleton {α : Type} {limit : ℤ} (h : limit ≠ 0) (a : α) : limited limit [a] = [a] := by
  unfold limited
  split
  · rfl
  · have hlength : [a].length ≤ limit.toNat := by
      rw [List.length_singleton]
      omega
    exact List.take_of_length_le hlength

theorem limited_zero {α : Type} (rows : List α) : limited 0 rows = [] := rfl

end Own

end AiosDeck.Storage
