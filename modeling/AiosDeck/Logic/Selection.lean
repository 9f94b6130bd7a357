import Mathlib

/-!
# Choosing from a list

The first element of each key, in order, and a room that is used up by what
is chosen.
-/

namespace AiosDeck.Selection

universe u v

variable {α : Type u} {κ : Type v} [DecidableEq κ]

/-- The elements whose key is neither among `seen` nor that of an earlier one. -/
def firstsFrom (key : α → κ) : List κ → List α → List α
  | _, [] => []
  | seen, x :: rest =>
    if key x ∈ seen then firstsFrom key seen rest
    else x :: firstsFrom key (key x :: seen) rest

/-- The first element of each key. -/
def firsts (key : α → κ) (xs : List α) : List α := firstsFrom key [] xs

theorem firstsFrom_seen {key : α → κ} {seen : List κ} {x : α} {rest : List α} (h : key x ∈ seen) :
    firstsFrom key seen (x :: rest) = firstsFrom key seen rest := by
  rw [firstsFrom, if_pos h]

theorem firstsFrom_new {key : α → κ} {seen : List κ} {x : α} {rest : List α} (h : key x ∉ seen) :
    firstsFrom key seen (x :: rest) = x :: firstsFrom key (key x :: seen) rest := by
  rw [firstsFrom, if_neg h]

/-- Nothing is added and the order stays. -/
theorem firstsFrom_sublist (key : α → κ) (seen : List κ) (xs : List α) :
    (firstsFrom key seen xs).Sublist xs := by
  induction xs generalizing seen with
  | nil => exact List.Sublist.refl []
  | cons x rest ih =>
    by_cases h : key x ∈ seen
    · rw [firstsFrom_seen h]
      exact (ih seen).cons x
    · rw [firstsFrom_new h]
      exact (ih _).cons_cons x

/-- What is chosen is the first of its key. -/
theorem mem_firstsFrom {key : α → κ} {seen : List κ} {xs : List α} {x : α} :
    x ∈ firstsFrom key seen xs ↔
      ∃ before after, xs = before ++ x :: after ∧ key x ∉ seen ∧ key x ∉ before.map key := by
  induction xs generalizing seen with
  | nil => simp [firstsFrom]
  | cons y rest ih =>
    by_cases h : key y ∈ seen
    · rw [firstsFrom_seen h, ih]
      constructor
      · rintro ⟨before, after, rfl, hseen, hbefore⟩
        refine ⟨y :: before, after, rfl, hseen, ?_⟩
        have hne : key x ≠ key y := fun heq => hseen (heq ▸ h)
        simp only [List.map_cons, List.mem_cons, not_or]
        exact ⟨hne, hbefore⟩
      · rintro ⟨before, after, hsplit, hseen, hbefore⟩
        cases before with
        | nil =>
          have hxy : x = y := by simpa using (congrArg List.head? hsplit).symm
          exact absurd (hxy ▸ h) hseen
        | cons z before =>
          have htail : rest = before ++ x :: after := by simpa using congrArg List.tail hsplit
          refine ⟨before, after, htail, hseen, fun hmem => hbefore ?_⟩
          exact List.mem_cons_of_mem _ hmem
    · rw [firstsFrom_new h, List.mem_cons, ih]
      constructor
      · rintro (rfl | ⟨before, after, rfl, hseen, hbefore⟩)
        · exact ⟨[], rest, rfl, h, by simp⟩
        · have hne : key x ≠ key y := fun heq => hseen (heq ▸ List.mem_cons_self)
          refine ⟨y :: before, after, rfl, fun hmem => hseen (List.mem_cons_of_mem _ hmem), ?_⟩
          simp only [List.map_cons, List.mem_cons, not_or]
          exact ⟨hne, hbefore⟩
      · rintro ⟨before, after, hsplit, hseen, hbefore⟩
        cases before with
        | nil =>
          have hxy : x = y := by simpa using (congrArg List.head? hsplit).symm
          exact .inl hxy
        | cons z before =>
          have htail : rest = before ++ x :: after := by simpa using congrArg List.tail hsplit
          have hzy : z = y := by simpa using (congrArg List.head? hsplit).symm
          rw [List.map_cons, List.mem_cons, not_or, hzy] at hbefore
          refine .inr ⟨before, after, htail, ?_, hbefore.2⟩
          rw [List.mem_cons, not_or]
          exact ⟨hbefore.1, hseen⟩

/-- Each key is chosen once. -/
theorem firstsFrom_nodup (key : α → κ) (seen : List κ) (xs : List α) :
    ((firstsFrom key seen xs).map key).Nodup := by
  induction xs generalizing seen with
  | nil => exact List.nodup_nil
  | cons x rest ih =>
    by_cases h : key x ∈ seen
    · rw [firstsFrom_seen h]
      exact ih seen
    · rw [firstsFrom_new h, List.map_cons, List.nodup_cons]
      refine ⟨fun hmem => ?_, ih _⟩
      obtain ⟨y, hy, hkey⟩ := List.mem_map.mp hmem
      obtain ⟨before, after, -, hnew, -⟩ := mem_firstsFrom.mp hy
      exact hnew (hkey ▸ List.mem_cons_self)

/-- Every key that was not seen is chosen. -/
theorem exists_firstsFrom {key : α → κ} {seen : List κ} {xs : List α} {x : α} (hx : x ∈ xs)
    (hseen : key x ∉ seen) : ∃ first ∈ firstsFrom key seen xs, key first = key x := by
  induction xs generalizing seen with
  | nil => cases hx
  | cons y rest ih =>
    by_cases h : key y ∈ seen
    · rw [firstsFrom_seen h]
      obtain rfl | hrest := List.mem_cons.mp hx
      · exact absurd h hseen
      · exact ih hrest hseen
    · rw [firstsFrom_new h]
      by_cases hsame : key x = key y
      · exact ⟨y, List.mem_cons_self, hsame.symm⟩
      · obtain rfl | hrest := List.mem_cons.mp hx
        · exact absurd rfl hsame
        · have hboth : key x ∉ key y :: seen := by
            rw [List.mem_cons, not_or]
            exact ⟨hsame, hseen⟩
          obtain ⟨first, hfirst, hkey⟩ := ih hrest hboth
          exact ⟨first, List.mem_cons_of_mem _ hfirst, hkey⟩

/-- What is chosen by a key of the images. -/
theorem map_firstsFrom {β : Type*} (f : β → α) (key : α → κ) (seen : List κ) (ys : List β) :
    (firstsFrom (fun y => key (f y)) seen ys).map f = firstsFrom key seen (ys.map f) := by
  induction ys generalizing seen with
  | nil => rfl
  | cons y rest ih =>
    rw [List.map_cons]
    by_cases h : key (f y) ∈ seen
    · have hseen : firstsFrom (fun y => key (f y)) seen (y :: rest) =
          firstsFrom (fun y => key (f y)) seen rest := firstsFrom_seen h
      rw [hseen, firstsFrom_seen h, ih]
    · have hnew : firstsFrom (fun y => key (f y)) seen (y :: rest) =
          y :: firstsFrom (fun y => key (f y)) (key (f y) :: seen) rest := firstsFrom_new h
      rw [hnew, firstsFrom_new h, List.map_cons, ih]

section Room

/-- What is left of a room after these costs. A cost that does not fit uses
up the rest. -/
def room (start : ℤ) (costs : List ℤ) : ℤ := costs.foldl (fun left cost => max 0 (left - cost)) start

theorem room_append (start : ℤ) (costs more : List ℤ) :
    room start (costs ++ more) = room (room start costs) more := List.foldl_append

theorem room_nonneg {start : ℤ} (h : 0 ≤ start) (costs : List ℤ) : 0 ≤ room start costs := by
  induction costs generalizing start with
  | nil => exact h
  | cons cost rest ih => exact ih (le_max_left 0 _)

/-- Without room nothing more of it is left. -/
theorem room_zero {costs : List ℤ} (h : ∀ cost ∈ costs, 0 ≤ cost) : room 0 costs = 0 := by
  induction costs with
  | nil => rfl
  | cons cost rest ih =>
    have hcost : 0 ≤ cost := h cost List.mem_cons_self
    have hstep : max 0 (0 - cost) = 0 := by omega
    have hrest := ih fun other hother => h other (List.mem_cons_of_mem _ hother)
    rw [room, List.foldl_cons, hstep]
    exact hrest

end Room

end AiosDeck.Selection
