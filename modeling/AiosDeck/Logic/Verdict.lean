import Mathlib

/-!
# Verdicts on fallible runs

A step of a run may raise at once, or leave a state from which the run can only
raise later. A verdict says of both at the same time that something was wrong,
and verdicts of steps add up to one of the whole run.
-/

namespace AiosDeck.Verdict

variable {ε σ α : Type}

/-- A computation ends well exactly under a condition: it raises, or its state
is not good, when the condition fails. Every state it ends in is an expected one. -/
def Judged (expected good : σ → Prop) (x : Except ε σ) (p : Prop) : Prop :=
  match x with
  | .ok t => expected t ∧ (good t ↔ p)
  | .error _ => ¬p

variable {expected good : σ → Prop} {p q : Prop}

theorem Judged.ok {t : σ} (h : expected t) (hgood : good t ↔ p) :
    Judged expected good (.ok t : Except ε σ) p :=
  ⟨h, hgood⟩

theorem Judged.error {exc : ε} (h : ¬p) : Judged expected good (.error exc : Except ε σ) p := h

theorem Judged.congr {x : Except ε σ} (h : Judged expected good x p) (hpq : p ↔ q) :
    Judged expected good x q := by
  cases x with
  | ok t => exact ⟨h.1, h.2.trans hpq⟩
  | error exc => exact fun hq => h (hpq.mpr hq)

/-- A state that is not good stays so, and what a step does not accept is never
made up for: the run ends well exactly if it starts well and accepts every item. -/
theorem judged_foldlM {step : σ → α → Except ε σ} {accepts : α → Prop}
    (hstep : ∀ s a, expected s → Judged expected good (step s a) (good s ∧ accepts a)) :
    ∀ (items : List α) (s : σ), expected s →
      Judged expected good (items.foldlM step s) (good s ∧ ∀ a ∈ items, accepts a) := by
  intro items
  induction items with
  | nil =>
    intro s hs
    rw [List.foldlM_nil]
    exact Judged.ok hs (by simp)
  | cons a items ih =>
    intro s hs
    rw [List.foldlM_cons]
    have ha := hstep s a hs
    cases hrun : step s a with
    | error exc =>
      rw [hrun] at ha
      exact Judged.error fun h => ha ⟨h.1, h.2 a List.mem_cons_self⟩
    | ok t =>
      rw [hrun] at ha
      have hrest := ih t ha.1
      refine hrest.congr ?_
      rw [ha.2, List.forall_mem_cons, and_assoc]

/-- A computation in two parts ends when both end. -/
theorem bind_eq_ok {β : Type} {x : Except ε α} {f : α → Except ε β} {b : β} :
    x >>= f = .ok b ↔ ∃ a, x = .ok a ∧ f a = .ok b := by
  cases x with
  | error exc =>
    constructor
    · intro h
      cases h
    · rintro ⟨a, ha, -⟩
      cases ha
  | ok a =>
    constructor
    · exact fun h => ⟨a, rfl, h⟩
    · rintro ⟨a', ha, h⟩
      cases ha
      exact h

/-- What every step that ends asks of its item holds of all items of a run that ends. -/
theorem forall_of_foldlM {step : σ → α → Except ε σ} {accepts : α → Prop}
    (hstep : ∀ s a t, step s a = .ok t → accepts a) :
    ∀ (items : List α) (s t : σ), items.foldlM step s = .ok t → ∀ a ∈ items, accepts a := by
  intro items
  induction items with
  | nil => exact fun s t _ a ha => absurd ha List.not_mem_nil
  | cons a items ih =>
    intro s t h
    rw [List.foldlM_cons] at h
    cases hrun : step s a with
    | error exc =>
      rw [hrun] at h
      cases h
    | ok next =>
      rw [hrun] at h
      exact List.forall_mem_cons.mpr ⟨hstep s a next hrun, ih next t h⟩

/-- What a map that ends returns, item by item. -/
theorem forall₂_of_mapM {β : Type} {f : α → Except ε β} {xs : List α} {ys : List β}
    (h : xs.mapM f = .ok ys) : List.Forall₂ (fun x y => f x = .ok y) xs ys := by
  induction xs generalizing ys with
  | nil =>
    rw [List.mapM_nil] at h
    cases h
    exact .nil
  | cons x xs ih =>
    rw [List.mapM_cons] at h
    cases hx : f x with
    | error exc =>
      rw [hx] at h
      cases h
    | ok y =>
      rw [hx] at h
      cases hrest : xs.mapM f with
      | error exc =>
        rw [hrest] at h
        cases h
      | ok rest =>
        rw [hrest] at h
        cases h
        exact .cons hx (ih hrest)

/-- Every item has its image, and the images come from the items. -/
theorem mem_of_forall₂ {β : Type} {r : α → β → Prop} {xs : List α} {ys : List β}
    (h : List.Forall₂ r xs ys) : (∀ x ∈ xs, ∃ y ∈ ys, r x y) ∧ ∀ y ∈ ys, ∃ x ∈ xs, r x y := by
  induction h with
  | nil => exact ⟨fun x hx => absurd hx List.not_mem_nil, fun y hy => absurd hy List.not_mem_nil⟩
  | @cons x y xs ys hfirst _ ih =>
    constructor
    · intro a ha
      rcases List.mem_cons.mp ha with rfl | hrest
      · exact ⟨y, List.mem_cons_self .., hfirst⟩
      · obtain ⟨b, hb, hr⟩ := ih.1 a hrest
        exact ⟨b, List.mem_cons_of_mem _ hb, hr⟩
    · intro b hb
      rcases List.mem_cons.mp hb with rfl | hrest
      · exact ⟨x, List.mem_cons_self .., hfirst⟩
      · obtain ⟨a, ha, hr⟩ := ih.2 b hrest
        exact ⟨a, List.mem_cons_of_mem _ ha, hr⟩

/-- What the images have in common with their items. -/
theorem map_eq_of_forall₂ {β γ : Type} {r : α → β → Prop} {xs : List α} {ys : List β}
    (h : List.Forall₂ r xs ys) {f : α → γ} {g : β → γ} (hfg : ∀ x y, r x y → g y = f x) :
    ys.map g = xs.map f := by
  induction h with
  | nil => rfl
  | cons hfirst _ ih => rw [List.map_cons, List.map_cons, ih, hfg _ _ hfirst]

/-- A map ends when it ends on every item. -/
theorem mapM_ok {β : Type} {f : α → Except ε β} {xs : List α}
    (h : ∀ x ∈ xs, ∃ y, f x = .ok y) : ∃ ys, xs.mapM f = .ok ys := by
  induction xs with
  | nil => exact ⟨[], rfl⟩
  | cons x xs ih =>
    obtain ⟨hx, hxs⟩ := List.forall_mem_cons.mp h
    obtain ⟨y, hy⟩ := hx
    obtain ⟨ys, hys⟩ := ih hxs
    refine ⟨y :: ys, ?_⟩
    rw [List.mapM_cons, hy, hys]
    rfl

end AiosDeck.Verdict
