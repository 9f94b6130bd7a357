import Mathlib

/-!
# Traces and what precedes an event

A trace grows at its end. `Appends` says what may be added to it. `Each`
states a past-time property: every event meets a condition on the part of
the trace in front of it. `Before` is the case of the events of one kind.
-/

namespace AiosDeck.Trace

universe u

variable {α : Type u} {allowed : α → Prop} {trigger : α → Prop} {past : List α → Prop}

/-- The trace has grown by events that are all allowed. -/
def Appends (allowed : α → Prop) (old new : List α) : Prop :=
  ∃ more, new = old ++ more ∧ ∀ e ∈ more, allowed e

theorem Appends.refl (trace : List α) : Appends allowed trace trace :=
  ⟨[], by simp, fun _ h => nomatch h⟩

theorem Appends.trans {first second third : List α} (h : Appends allowed first second)
    (h' : Appends allowed second third) : Appends allowed first third := by
  obtain ⟨xs, rfl, hxs⟩ := h
  obtain ⟨ys, rfl, hys⟩ := h'
  refine ⟨xs ++ ys, List.append_assoc _ _ _, ?_⟩
  intro e he
  rcases List.mem_append.mp he with he | he
  · exact hxs e he
  · exact hys e he

theorem Appends.single {e : α} (trace : List α) (h : allowed e) :
    Appends allowed trace (trace ++ [e]) := by
  refine ⟨[e], rfl, ?_⟩
  intro e' he
  rcases List.mem_singleton.mp he with rfl
  exact h

theorem Appends.mono {allowed' : α → Prop} {old new : List α} (h : Appends allowed old new)
    (hle : ∀ e, allowed e → allowed' e) : Appends allowed' old new := by
  obtain ⟨more, heq, hmore⟩ := h
  exact ⟨more, heq, fun e he => hle e (hmore e he)⟩

/-- What an appended trace contains was there before or is allowed. -/
theorem Appends.mem {old new : List α} (h : Appends allowed old new) {e : α} (he : e ∈ new) :
    e ∈ old ∨ allowed e := by
  obtain ⟨more, rfl, hmore⟩ := h
  rcases List.mem_append.mp he with he | he
  · exact .inl he
  · exact .inr (hmore e he)

/-- Nothing is lost from a trace. -/
theorem Appends.subset {old new : List α} (h : Appends allowed old new) {e : α} (he : e ∈ old) :
    e ∈ new := by
  obtain ⟨more, rfl, -⟩ := h
  exact List.mem_append_left _ he

/-- Every event meets a condition on what came before it. -/
def Each (admits : List α → α → Prop) (trace : List α) : Prop :=
  ∀ front e rest, trace = front ++ e :: rest → admits front e

section Each

variable {admits : List α → α → Prop}

/-- A trace grows by a part whose events meet the condition, counting what
came before that part. -/
theorem Each.append {old more : List α} (h : Each admits old)
    (hmore : ∀ front e rest, more = front ++ e :: rest → admits (old ++ front) e) :
    Each admits (old ++ more) := by
  intro front e rest heq
  rcases List.append_eq_append_iff.mp heq with ⟨middle, hfront, hrest⟩ | ⟨middle, hold, hrest⟩
  · rw [hfront]
    exact hmore middle e rest hrest
  · cases middle with
    | nil =>
      have hfront : front = old ++ [] := by simpa using hold.symm
      rw [hfront]
      exact hmore [] e rest (by simpa using hrest.symm)
    | cons first middle =>
      obtain ⟨rfl, -⟩ := List.cons.inj hrest
      exact h front e middle hold

/-- One more event. -/
theorem Each.concat {old : List α} {e : α} (h : Each admits old) (he : admits old e) :
    Each admits (old ++ [e]) := by
  refine h.append fun front e' rest heq => ?_
  cases front with
  | nil =>
    obtain ⟨rfl, -⟩ := List.cons.inj heq
    rw [List.append_nil]
    exact he
  | cons first front => simp at heq

/-- A part of the trace from its start. -/
theorem Each.of_append {old more : List α} (h : Each admits (old ++ more)) : Each admits old := by
  intro front e rest heq
  refine h front e (rest ++ more) ?_
  rw [heq, List.append_assoc]
  rfl

end Each

/-- In front of every event of the kind `trigger` the trace meets `past`. -/
abbrev Before (trigger : α → Prop) (past : List α → Prop) (trace : List α) : Prop :=
  Each (fun front e => trigger e → past front) trace

/-- Without events of the kind there is nothing to meet. -/
theorem Before.of_none {trace : List α} (h : ∀ e ∈ trace, ¬trigger e) :
    Before trigger past trace := by
  intro front e rest heq he
  have hmem : e ∈ trace := by simp [heq]
  exact absurd he (h e hmem)

end AiosDeck.Trace
