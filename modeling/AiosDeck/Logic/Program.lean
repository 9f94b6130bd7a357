import Mathlib

/-!
# Hoare triples for programs with a state and exceptions

A program of `EStateM ε σ α` keeps its state when it raises. A triple
therefore has two postconditions, one for the returned value and one for
the exception, and both see the state that the run leaves behind. A frame
relates the states before and after by a preorder, whatever the outcome.
-/

namespace AiosDeck.Program

universe u

variable {ε σ α β : Type u}

/-- Runs from `P` return under `Q` or raise under `E`. -/
def Triple (P : σ → Prop) (x : EStateM ε σ α) (Q : α → σ → Prop) (E : ε → σ → Prop) : Prop :=
  ∀ s, P s → match x s with
    | .ok a t => Q a t
    | .error e t => E e t

/-- The state a run leaves, whether it returns or raises. -/
def after (x : EStateM ε σ α) (s : σ) : σ :=
  match x s with
  | .ok _ t => t
  | .error _ t => t

/-- One assertion kept by every run, on return and on exception alike. -/
abbrev Keeps (I : σ → Prop) (x : EStateM ε σ α) : Prop :=
  Triple I x (fun _ => I) (fun _ => I)

theorem Triple.of_ok {P : σ → Prop} {x : EStateM ε σ α} {Q : α → σ → Prop} {E : ε → σ → Prop}
    (h : Triple P x Q E) {s t : σ} {a : α} (hp : P s) (hx : x s = .ok a t) : Q a t := by
  have hs := h s hp
  rw [hx] at hs
  exact hs

theorem Triple.of_error {P : σ → Prop} {x : EStateM ε σ α} {Q : α → σ → Prop} {E : ε → σ → Prop}
    (h : Triple P x Q E) {s t : σ} {e : ε} (hp : P s) (hx : x s = .error e t) : E e t := by
  have hs := h s hp
  rw [hx] at hs
  exact hs

/-- A run goes on behind a part that returned. -/
theorem after_bind_ok {x : EStateM ε σ α} {f : α → EStateM ε σ β} {s t : σ} {a : α}
    (h : x s = .ok a t) : after (x >>= f) s = after (f a) t := by
  change after (EStateM.bind x f) s = after (f a) t
  unfold after EStateM.bind
  rw [h]

/-- A run stops where a part of it raised. -/
theorem after_bind_error {x : EStateM ε σ α} {f : α → EStateM ε σ β} {s t : σ} {e : ε}
    (h : x s = .error e t) : after (x >>= f) s = t := by
  change after (EStateM.bind x f) s = t
  unfold after EStateM.bind
  rw [h]

/-- The value of a run does not matter to the state. -/
theorem after_map (f : α → β) (x : EStateM ε σ α) (s : σ) : after (f <$> x) s = after x s := by
  change after (EStateM.map f x) s = after x s
  unfold after EStateM.map
  cases x s with
  | ok a t => rfl
  | error e t => rfl

/-- One postcondition on the state holds of the state that a run leaves. -/
theorem Triple.after {P I : σ → Prop} {x : EStateM ε σ α}
    (h : Triple P x (fun _ => I) (fun _ => I)) {s : σ} (hs : P s) : I (Program.after x s) := by
  have hx := h s hs
  unfold Program.after
  split <;> simp_all

/-- A triple with one postcondition on the state, from the states left. -/
theorem Triple.of_after {P I : σ → Prop} {x : EStateM ε σ α} (h : ∀ s, P s → I (Program.after x s)) :
    Triple P x (fun _ => I) (fun _ => I) := by
  intro s hs
  have hx := h s hs
  unfold Program.after at hx
  cases hr : x s with
  | ok a t => rw [hr] at hx; exact hx
  | error e t => rw [hr] at hx; exact hx

/-- Consequence: stronger precondition, weaker postconditions. -/
theorem Triple.conseq {P P' : σ → Prop} {x : EStateM ε σ α} {Q Q' : α → σ → Prop}
    {E E' : ε → σ → Prop} (h : Triple P x Q E) (hp : ∀ s, P' s → P s)
    (hq : ∀ a s, Q a s → Q' a s) (he : ∀ e s, E e s → E' e s) : Triple P' x Q' E' := by
  intro s hs
  have hx := h s (hp s hs)
  cases hr : x s with
  | ok a t => rw [hr] at hx; exact hq a t hx
  | error e t => rw [hr] at hx; exact he e t hx

theorem Triple.weaken_pre {P P' : σ → Prop} {x : EStateM ε σ α} {Q : α → σ → Prop}
    {E : ε → σ → Prop} (h : Triple P x Q E) (hp : ∀ s, P' s → P s) : Triple P' x Q E :=
  h.conseq hp (fun _ _ hq => hq) (fun _ _ he => he)

theorem Triple.strengthen_post {P : σ → Prop} {x : EStateM ε σ α} {Q Q' : α → σ → Prop}
    {E : ε → σ → Prop} (h : Triple P x Q E) (hq : ∀ a s, Q a s → Q' a s) : Triple P x Q' E :=
  h.conseq (fun _ hp => hp) hq (fun _ _ he => he)

/-- A program that never raises meets every exceptional postcondition. -/
theorem Triple.total {P : σ → Prop} {x : EStateM ε σ α} {Q : α → σ → Prop} {E : ε → σ → Prop}
    (h : Triple P x Q fun _ _ => False) : Triple P x Q E :=
  h.conseq (fun _ hp => hp) (fun _ _ hq => hq) (fun _ _ he => he.elim)

/-- A program that never raises returns. -/
theorem Triple.returns {P : σ → Prop} {x : EStateM ε σ α} {Q : α → σ → Prop}
    (h : Triple P x Q fun _ _ => False) {s : σ} (hp : P s) : ∃ a t, x s = .ok a t ∧ Q a t := by
  have hs := h s hp
  cases hr : x s with
  | ok a t => rw [hr] at hs; exact ⟨a, t, rfl, hs⟩
  | error e t => rw [hr] at hs; exact hs.elim

/-- Nothing is said about a program. -/
theorem Triple.any (P : σ → Prop) (x : EStateM ε σ α) :
    Triple P x (fun _ _ => True) (fun _ _ => True) := by
  intro s _
  cases x s <;> trivial

/-- A fact that does not depend on the state holds in every outcome. -/
theorem Triple.const {p : Prop} {P : σ → Prop} (x : EStateM ε σ α) (h : ∀ s, P s → p) :
    Triple P x (fun _ _ => p) (fun _ _ => p) := by
  intro s hs
  cases x s <;> exact h s hs

/-- Two triples about one program hold together. -/
theorem Triple.and {P P' : σ → Prop} {x : EStateM ε σ α} {Q Q' : α → σ → Prop}
    {E E' : ε → σ → Prop} (h : Triple P x Q E) (h' : Triple P' x Q' E') :
    Triple (fun s => P s ∧ P' s) x (fun a s => Q a s ∧ Q' a s) (fun e s => E e s ∧ E' e s) := by
  intro s hs
  have h1 := h s hs.1
  have h2 := h' s hs.2
  cases hr : x s with
  | ok a t => rw [hr] at h1 h2; exact ⟨h1, h2⟩
  | error e t => rw [hr] at h1 h2; exact ⟨h1, h2⟩

/-- A precondition that holds under a fact may be used with that fact. -/
theorem Triple.of_pre {p : Prop} {P : σ → Prop} {x : EStateM ε σ α} {Q : α → σ → Prop}
    {E : ε → σ → Prop} (h : p → Triple P x Q E) : Triple (fun s => p ∧ P s) x Q E :=
  fun s hs => h hs.1 s hs.2

/-- Fix the initial state: its facts may then be named. -/
theorem Triple.fix {P : σ → Prop} {x : EStateM ε σ α} {Q : α → σ → Prop} {E : ε → σ → Prop}
    (h : ∀ s, P s → Triple (fun t => t = s) x Q E) : Triple P x Q E :=
  fun s hs => h s hs s rfl

theorem Triple.pure {P : σ → Prop} {Q : α → σ → Prop} {E : ε → σ → Prop} {a : α}
    (h : ∀ s, P s → Q a s) : Triple P (Pure.pure a : EStateM ε σ α) Q E :=
  fun s hs => h s hs

/-- Sequencing: the middle assertion is that of the first program's value. -/
theorem Triple.bind {P : σ → Prop} {x : EStateM ε σ α} {f : α → EStateM ε σ β}
    {R : α → σ → Prop} {Q : β → σ → Prop} {E : ε → σ → Prop}
    (hx : Triple P x R E) (hf : ∀ a, Triple (R a) (f a) Q E) : Triple P (x >>= f) Q E := by
  intro s hs
  have h1 := hx s hs
  change match EStateM.bind x f s with
    | .ok a t => Q a t
    | .error e t => E e t
  unfold EStateM.bind
  cases hr : x s with
  | ok a t => rw [hr] at h1; exact hf a t h1
  | error e t => rw [hr] at h1; exact h1

theorem Triple.map {P : σ → Prop} {x : EStateM ε σ α} {f : α → β}
    {Q : β → σ → Prop} {E : ε → σ → Prop}
    (hx : Triple P x (fun a => Q (f a)) E) : Triple P (f <$> x) Q E := by
  intro s hs
  have h1 := hx s hs
  change match EStateM.map f x s with
    | .ok a t => Q a t
    | .error e t => E e t
  unfold EStateM.map
  cases hr : x s with
  | ok a t => rw [hr] at h1; exact h1
  | error e t => rw [hr] at h1; exact h1

theorem Triple.get {P : σ → Prop} {Q : σ → σ → Prop} {E : ε → σ → Prop}
    (h : ∀ s, P s → Q s s) : Triple P (MonadState.get : EStateM ε σ σ) Q E :=
  fun s hs => h s hs

theorem Triple.modify {P : σ → Prop} {Q : PUnit → σ → Prop} {E : ε → σ → Prop} {f : σ → σ}
    (h : ∀ s, P s → Q ⟨⟩ (f s)) : Triple P (modify f : EStateM ε σ PUnit) Q E :=
  fun s hs => h s hs

theorem Triple.throw {P : σ → Prop} {Q : α → σ → Prop} {E : ε → σ → Prop} {e : ε}
    (h : ∀ s, P s → E e s) : Triple P (throw e : EStateM ε σ α) Q E :=
  fun s hs => h s hs

theorem Triple.ite {c : Prop} [Decidable c] {P : σ → Prop} {x y : EStateM ε σ α}
    {Q : α → σ → Prop} {E : ε → σ → Prop} (hx : c → Triple P x Q E) (hy : ¬c → Triple P y Q E) :
    Triple P (if c then x else y) Q E := by
  split
  · exact hx ‹_›
  · exact hy ‹_›

/-- A handler takes over from the state the body had reached. -/
theorem Triple.tryCatch {P : σ → Prop} {x : EStateM ε σ α} {h : ε → EStateM ε σ α}
    {Q : α → σ → Prop} {R E : ε → σ → Prop} (hx : Triple P x Q R)
    (hh : ∀ e, Triple (R e) (h e) Q E) : Triple P (tryCatch x h : EStateM ε σ α) Q E := by
  intro s hs
  have h1 := hx s hs
  change match EStateM.tryCatch x h s with
    | .ok a t => Q a t
    | .error e t => E e t
  unfold EStateM.tryCatch
  cases hr : x s with
  | ok a t => rw [hr] at h1; exact h1
  | error e t => rw [hr] at h1; exact hh e t h1

/-- A frame: every run relates its first and last state by `R`. -/
def Framed (R : σ → σ → Prop) (x : EStateM ε σ α) : Prop := ∀ s, R s (after x s)

section Frames

variable {R : σ → σ → Prop}

/-- A frame turns an assertion closed under its relation into an invariant. -/
theorem Framed.keeps {I : σ → Prop} {x : EStateM ε σ α} (h : Framed R x)
    (hi : ∀ s t, R s t → I s → I t) : Keeps I x := by
  refine Triple.of_after fun s hs => ?_
  exact hi s _ (h s) hs

theorem Framed.pure [Std.Refl R] (a : α) : Framed R (Pure.pure a : EStateM ε σ α) :=
  fun s => Std.Refl.refl s

theorem Framed.throw [Std.Refl R] (e : ε) : Framed R (throw e : EStateM ε σ α) :=
  fun s => Std.Refl.refl s

theorem Framed.get [Std.Refl R] : Framed R (MonadState.get : EStateM ε σ σ) :=
  fun s => Std.Refl.refl s

theorem Framed.modify {f : σ → σ} (h : ∀ s, R s (f s)) :
    Framed R (modify f : EStateM ε σ PUnit) := h

theorem Framed.bind [IsTrans σ R] {x : EStateM ε σ α} {f : α → EStateM ε σ β}
    (hx : Framed R x) (hf : ∀ a, Framed R (f a)) : Framed R (x >>= f) := by
  intro s
  have h1 := hx s
  change R s (match EStateM.bind x f s with
    | .ok _ t => t
    | .error _ t => t)
  unfold after at h1
  unfold EStateM.bind
  cases hr : x s with
  | ok a t => rw [hr] at h1; exact IsTrans.trans _ _ _ h1 (hf a t)
  | error e t => rw [hr] at h1; exact h1

theorem Framed.ite {c : Prop} [Decidable c] {x y : EStateM ε σ α} (hx : Framed R x)
    (hy : Framed R y) : Framed R (if c then x else y) := by
  split
  · exact hx
  · exact hy

theorem Framed.map {x : EStateM ε σ α} {f : α → β} (hx : Framed R x) : Framed R (f <$> x) := by
  intro s
  have h1 := hx s
  change R s (match EStateM.map f x s with
    | .ok _ t => t
    | .error _ t => t)
  unfold after at h1
  unfold EStateM.map
  cases hr : x s with
  | ok a t => rw [hr] at h1; exact h1
  | error e t => rw [hr] at h1; exact h1

theorem Framed.tryCatch [IsTrans σ R] {x : EStateM ε σ α} {h : ε → EStateM ε σ α}
    (hx : Framed R x) (hh : ∀ e, Framed R (h e)) :
    Framed R (tryCatch x h : EStateM ε σ α) := by
  intro s
  have h1 := hx s
  change R s (match EStateM.tryCatch x h s with
    | .ok _ t => t
    | .error _ t => t)
  unfold after at h1
  unfold EStateM.tryCatch
  cases hr : x s with
  | ok a t => rw [hr] at h1; exact h1
  | error e t => rw [hr] at h1; exact IsTrans.trans _ _ _ h1 (hh e t)

end Frames

end AiosDeck.Program
