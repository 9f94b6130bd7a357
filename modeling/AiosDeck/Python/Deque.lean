import Mathlib

/-!
# Bounded deques

`collections.deque(maxlen=n)`. Appending on one side of a full deque drops
an item on the other side. The bound is part of the type.
-/

namespace AiosDeck.Python

universe u

/-- A deque with at most `maxlen` items, leftmost first. -/
structure Deque (α : Type u) (maxlen : ℕ) where
  items : List α
  bounded : items.length ≤ maxlen

namespace Deque

variable {α : Type u} {maxlen : ℕ}

/-- The empty deque. -/
def empty : Deque α maxlen := ⟨[], Nat.zero_le _⟩

/-- `deque.append`. -/
def append (d : Deque α maxlen) (x : α) : Deque α maxlen where
  items := (d.items ++ [x]).drop (d.items.length + 1 - maxlen)
  bounded := by
    rw [List.length_drop, List.length_append, List.length_singleton]
    omega

/-- `deque.appendleft`. -/
def appendLeft (d : Deque α maxlen) (x : α) : Deque α maxlen where
  items := (x :: d.items).take maxlen
  bounded := List.length_take_le _ _

/-- `deque.extendleft`. -/
def extendLeft (d : Deque α maxlen) (xs : List α) : Deque α maxlen := xs.foldl appendLeft d

@[simp] theorem empty_items : (empty : Deque α maxlen).items = [] := rfl

/-- What `append` drops: the oldest item of a full deque, and nothing else. -/
def evictedBy (d : Deque α maxlen) (x : α) : List α :=
  (d.items ++ [x]).take (d.items.length + 1 - maxlen)

theorem evictedBy_append (d : Deque α maxlen) (x : α) :
    d.evictedBy x ++ (d.append x).items = d.items ++ [x] := List.take_append_drop _ _

theorem evictedBy_length (d : Deque α maxlen) (x : α) :
    (d.evictedBy x).length = if d.items.length = maxlen then 1 else 0 := by
  have hbound := d.bounded
  rw [evictedBy, List.length_take, List.length_append, List.length_singleton]
  split <;> omega

/-- Extending by a reversed list puts the list in front and cuts behind. -/
theorem extendLeft_reverse (d : Deque α maxlen) (xs : List α) :
    (d.extendLeft xs.reverse).items = (xs ++ d.items).take maxlen := by
  induction xs with
  | nil => exact (List.take_of_length_le d.bounded).symm
  | cons x xs ih =>
    have hstep : d.extendLeft (x :: xs).reverse = (d.extendLeft xs.reverse).appendLeft x := by
      simp only [extendLeft, List.reverse_cons, List.foldl_append, List.foldl_cons, List.foldl_nil]
    rw [hstep]
    change (x :: (d.extendLeft xs.reverse).items).take maxlen = _
    rw [ih]
    cases maxlen with
    | zero => rfl
    | succ n => simp [List.take_take]

end Deque

end AiosDeck.Python
