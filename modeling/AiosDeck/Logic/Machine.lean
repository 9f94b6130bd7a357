import Mathlib

/-!
# Deterministic machines with labelled steps

A machine takes one labelled step at a time, or refuses it. A run is a list
of labels; every interleaving of a concurrent program is such a list. What
every permitted step preserves holds after every run of permitted steps.
-/

namespace AiosDeck.Machine

universe u v

variable {σ : Type u} {α : Type v}

/-- The state after a run, when no step of it is refused. -/
def run (step : σ → α → Option σ) : σ → List α → Option σ
  | s, [] => some s
  | s, a :: rest => (step s a).bind fun t => run step t rest

variable {step : σ → α → Option σ}

theorem run_cons {s u : σ} {a : α} {rest : List α} (h : run step s (a :: rest) = some u) :
    ∃ t, step s a = some t ∧ run step t rest = some u := by
  cases ht : step s a with
  | none => simp [run, ht] at h
  | some t => exact ⟨t, rfl, by simpa [run, ht] using h⟩

/-- The invariant rule: what permitted steps preserve holds after every run
of permitted steps. -/
theorem run_invariant {P : α → Prop} {I : σ → Prop}
    (hstep : ∀ s a t, P a → I s → step s a = some t → I t) {s u : σ} {as : List α}
    (hs : I s) (has : ∀ a ∈ as, P a) (h : run step s as = some u) : I u := by
  induction as generalizing s with
  | nil =>
    cases h
    exact hs
  | cons a rest ih =>
    obtain ⟨t, ht, hrest⟩ := run_cons h
    refine ih (hstep s a t (has a (List.mem_cons_self ..)) hs ht) ?_ hrest
    exact fun b hb => has b (List.mem_cons_of_mem a hb)

end AiosDeck.Machine
