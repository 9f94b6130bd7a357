import AiosDeck.Logic.Ranked
import AiosDeck.Retrieval.Greedy

/-!
# Sorting by score

What `sorted` with a score as its key returns, best first, and the slice behind it.
-/

namespace AiosDeck.Retrieval

open Python Ranked

universe u

variable {α : Type u} {score : α → PyFloat} {items : List α} {x : α}

/-- `items[:k]`. -/
def firstItems (k : ℤ) (items : List α) : List α :=
  items.take (if 0 ≤ k then k.toNat else items.length - k.natAbs)

/-- `sorted(items, key=score, reverse=True)`. -/
def byScore (score : α → PyFloat) (items : List α) : List α :=
  items.insertionSort fun a b => (score b).le (score a)

theorem byScore_perm (score : α → PyFloat) (items : List α) : (byScore score items).Perm items :=
  List.perm_insertionSort _ _

theorem mem_byScore : x ∈ byScore score items ↔ x ∈ items := (byScore_perm score items).mem_iff

theorem mem_firstItems {k : ℤ} (h : x ∈ firstItems k items) : x ∈ items := List.mem_of_mem_take h

/-- Without a missing number the scores are in order. -/
theorem byScore_eq_ranked (h : ∀ a ∈ items, score a ≠ .nan) :
    byScore score items = ranked (fun a => OrderDual.toDual (place (score a))) items :=
  insertionSort_eq_ranked fun a ha b hb => le_iff_place (h b hb) (h a ha)

theorem byScore_sorted (h : ∀ a ∈ items, score a ≠ .nan) :
    (byScore score items).Pairwise fun a b => (score b).le (score a) = true := by
  have hsorted := ranked_pairwise (fun a => OrderDual.toDual (place (score a))) items
  rw [← byScore_eq_ranked h] at hsorted
  refine hsorted.imp_of_mem fun ha hb hle => ?_
  exact (le_iff_place (h _ (mem_byScore.mp hb)) (h _ (mem_byScore.mp ha))).mpr hle

end AiosDeck.Retrieval
