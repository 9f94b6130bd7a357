import Mathlib

/-!
# The first of a ranking

A list sorted by a key, cut behind some elements. What is left out comes behind what is
taken, and with different keys the order of the list does not matter.
-/

namespace AiosDeck.Ranked

universe u v

variable {α : Type u} {κ : Type v} [LinearOrder κ] {key : α → κ} {xs ys : List α} {x y : α}

/-- A list by its keys, smallest first; equal keys keep their order. -/
def ranked (key : α → κ) (xs : List α) : List α := xs.insertionSort fun a b => key a ≤ key b

theorem ranked_perm (key : α → κ) (xs : List α) : (ranked key xs).Perm xs :=
  List.perm_insertionSort _ _

theorem mem_ranked : x ∈ ranked key xs ↔ x ∈ xs := List.mem_insertionSort _

/-- A comparison that agrees with the keys sorts by them. -/
theorem insertionSort_eq_ranked {r : α → α → Prop} [DecidableRel r]
    (h : ∀ a ∈ xs, ∀ b ∈ xs, r a b ↔ key a ≤ key b) : xs.insertionSort r = ranked key xs := by
  have hmap := List.map_insertionSort r (fun a b => key a ≤ key b) id xs h
  rwa [List.map_id, List.map_id] at hmap

theorem map_ranked (key : α → κ) (xs : List α) :
    (ranked key xs).map key = (xs.map key).insertionSort (· ≤ ·) :=
  List.map_insertionSort _ _ _ _ fun _ _ _ _ => Iff.rfl

theorem ranked_pairwise (key : α → κ) (xs : List α) :
    (ranked key xs).Pairwise fun a b => key a ≤ key b := by
  refine List.pairwise_map.mp ?_
  rw [map_ranked]
  exact List.pairwise_insertionSort _ _

/-- What is not among the first of a ranking comes behind all of them, and they are as many as
are asked for. -/
theorem behind_of_not_mem_take {n : ℕ} (hx : x ∈ xs) (hleft : x ∉ (ranked key xs).take n) :
    ((ranked key xs).take n).length = n ∧ ∀ y ∈ (ranked key xs).take n, key y ≤ key x := by
  have hmem : x ∈ (ranked key xs).take n ++ (ranked key xs).drop n := by
    rw [List.take_append_drop]
    exact mem_ranked.mpr hx
  have hdrop : x ∈ (ranked key xs).drop n := (List.mem_append.mp hmem).resolve_left hleft
  constructor
  · have hlength := List.length_pos_of_mem hdrop
    rw [List.length_drop] at hlength
    rw [List.length_take]
    omega
  · have hsorted := ranked_pairwise key xs
    rw [← List.take_append_drop n (ranked key xs)] at hsorted
    exact fun y hy => (List.pairwise_append.mp hsorted).2.2 y hy x hdrop

/-- Different keys are in one order only. -/
theorem ranked_eq_of_perm (hperm : xs.Perm ys) (hkeys : Set.InjOn key {x | x ∈ xs}) :
    ranked key xs = ranked key ys := by
  have hboth : (ranked key xs).Perm (ranked key ys) :=
    (ranked_perm key xs).trans (hperm.trans (ranked_perm key ys).symm)
  refine hboth.eq_of_pairwise ?_ (ranked_pairwise key xs) (ranked_pairwise key ys)
  intro a b ha hb hab hba
  refine hkeys (mem_ranked.mp ha) ?_ (le_antisymm hab hba)
  exact hperm.mem_iff.mpr (mem_ranked.mp hb)

end AiosDeck.Ranked
