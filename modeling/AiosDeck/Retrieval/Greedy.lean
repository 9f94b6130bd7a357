import AiosDeck.Retrieval.Selector

/-!
# What the selector returns

The chunks are the best ones of their sources in the order of the ranking.
Each best chunk is returned, or does not fit behind the chunks that are
returned before it. Behind a chunk that was cut nothing fits any more.
-/

namespace AiosDeck.Retrieval

open Python Knowledge Selection

section Ranking

/-- Scores in their order; not a number has no place of its own. -/
def place : PyFloat → WithBot (WithTop ℚ)
  | .finite q => ((q : WithTop ℚ) : WithBot (WithTop ℚ))
  | .posInf => ((⊤ : WithTop ℚ) : WithBot (WithTop ℚ))
  | .negInf | .nan => ⊥

/-- Numbers compare as their places. -/
theorem le_iff_place {x y : PyFloat} (hx : x ≠ .nan) (hy : y ≠ .nan) :
    x.le y = true ↔ place x ≤ place y := by
  cases x with
  | finite p =>
    cases y with
    | finite q => simp [PyFloat.le, place]
    | posInf => simp [PyFloat.le, place]
    | negInf => simp [PyFloat.le, place]
    | nan => exact absurd rfl hy
  | posInf =>
    cases y with
    | finite q => simp [PyFloat.le, place]
    | posInf => simp [PyFloat.le, place]
    | negInf => simp [PyFloat.le, place]
    | nan => exact absurd rfl hy
  | negInf =>
    cases y with
    | finite q => simp [PyFloat.le, place]
    | posInf => simp [PyFloat.le, place]
    | negInf => simp [PyFloat.le, place]
    | nan => exact absurd rfl hy
  | nan => exact absurd rfl hx

/-- A boosted score is a number, whatever the score was. -/
theorem boosted_score (s : ScoredResult) : s.boosted.score ≠ .nan := by
  unfold ScoredResult.boosted
  dsimp only
  split
  · rename_i hlt
    intro hnan
    rw [hnan] at hlt
    cases hlt
  · exact fun h => by cases h

theorem rank_score {candidates : List ScoredResult} {s : ScoredResult}
    (h : s ∈ ContextSelector.rank candidates) : s.score ≠ .nan := by
  have hmem : s ∈ candidates.map ScoredResult.boosted := (List.mem_insertionSort _).mp h
  obtain ⟨candidate, -, rfl⟩ := List.mem_map.mp hmem
  exact boosted_score candidate

/-- The ranking is by score, best first. -/
theorem rank_sorted (candidates : List ScoredResult) :
    (ContextSelector.rank candidates).Pairwise fun r other => other.score.le r.score = true := by
  have hplaces : (ContextSelector.rank candidates).map (fun s => place s.score) =
      ((candidates.map ScoredResult.boosted).map fun s => place s.score).insertionSort
        (fun a b => b ≤ a) := by
    refine List.map_insertionSort _ (fun a b : WithBot (WithTop ℚ) => b ≤ a) _ _ ?_
    intro s hs t ht
    obtain ⟨first, -, rfl⟩ := List.mem_map.mp hs
    obtain ⟨second, -, rfl⟩ := List.mem_map.mp ht
    exact le_iff_place (boosted_score second) (boosted_score first)
  have hsorted : ((ContextSelector.rank candidates).map fun s => place s.score).Pairwise
      (fun a b => b ≤ a) := by
    rw [hplaces]
    exact List.pairwise_insertionSort _ _
  refine (List.pairwise_map.mp hsorted).imp_of_mem fun hs ht hle => ?_
  exact (le_iff_place (rank_score ht) (rank_score hs)).mpr hle

end Ranking

/-- What is returned for a chunk: the chunk, or as much of one that is over
the limit as the limit allows. -/
def Returned (limit : ℤ) (s chunk : ScoredResult) : Prop :=
  chunk = s.justified false ∨ limit < s.tokens ∧ chunk = (s.truncated limit).justified false

namespace Returned

variable {limit : ℤ} {s chunk : ScoredResult}

theorem score (h : Returned limit s chunk) : chunk.score = s.score := by
  obtain rfl | ⟨-, rfl⟩ := h
  · rfl
  · rfl

theorem sourceId (h : Returned limit s chunk) : chunk.sourceId = s.sourceId := by
  obtain rfl | ⟨-, rfl⟩ := h
  · rfl
  · rfl

end Returned

/-- A decision on each chunk of a list: it is returned, or it is over the
limit behind those that are returned before it. -/
structure Decided (limit used : ℤ) (scored : List ScoredResult)
    (decisions : List (Option ScoredResult)) : Prop where
  length : decisions.length = scored.length
  decided : ∀ (i : ℕ) (s : ScoredResult), scored[i]? = some s →
    (∃ chunk, decisions[i]? = some (some chunk) ∧ Returned limit s chunk) ∨
      decisions[i]? = some none ∧ limit < used + totalTokens (decisions.take i).reduceOption + s.tokens

namespace Decided

variable {limit used : ℤ} {s chunk : ScoredResult} {rest : List ScoredResult}
  {decisions : List (Option ScoredResult)}

/-- A chunk is returned before the others. -/
theorem returned (h : Decided limit (used + chunk.tokens) rest decisions)
    (hchunk : Returned limit s chunk) : Decided limit used (s :: rest) (some chunk :: decisions) := by
  refine ⟨by rw [List.length_cons, List.length_cons, h.length], fun i t ht => ?_⟩
  cases i with
  | zero =>
    have hst : s = t := by simpa using ht
    subst hst
    exact .inl ⟨chunk, rfl, hchunk⟩
  | succ i =>
    have hbehind := h.decided i t (by simpa using ht)
    have htotal : totalTokens ((some chunk :: decisions).take (i + 1)).reduceOption =
        chunk.tokens + totalTokens (decisions.take i).reduceOption := by
      rw [List.take_succ_cons, List.reduceOption_cons_of_some]
      simp [totalTokens]
    rw [List.getElem?_cons_succ, htotal]
    have hsum : used + (chunk.tokens + totalTokens (decisions.take i).reduceOption) + t.tokens =
        used + chunk.tokens + totalTokens (decisions.take i).reduceOption + t.tokens := by ring
    rw [hsum]
    exact hbehind

/-- A chunk that does not fit is passed over. -/
theorem skipped (h : Decided limit used rest decisions) (hover : limit < used + s.tokens) :
    Decided limit used (s :: rest) (none :: decisions) := by
  refine ⟨by rw [List.length_cons, List.length_cons, h.length], fun i t ht => ?_⟩
  cases i with
  | zero =>
    have hst : s = t := by simpa using ht
    subst hst
    have hnone : totalTokens ((none :: decisions).take 0).reduceOption = 0 := rfl
    rw [hnone, add_zero]
    exact .inr ⟨rfl, hover⟩
  | succ i =>
    have hbehind := h.decided i t (by simpa using ht)
    rw [List.take_succ_cons, List.reduceOption_cons_of_none, List.getElem?_cons_succ]
    exact hbehind

/-- Behind a used up limit nothing is returned. -/
theorem exhausted (hall : ∀ t ∈ rest, limit < used + t.tokens) :
    Decided limit used rest (List.replicate rest.length none) := by
  induction rest with
  | nil => exact ⟨rfl, fun i t ht => by cases ht⟩
  | cons t rest ih =>
    have hbehind := ih fun other hother => hall other (List.mem_cons_of_mem _ hother)
    exact hbehind.skipped (hall t List.mem_cons_self)

/-- The chunks that are returned are those of a part of the list. -/
theorem picked (h : Decided limit used rest decisions) :
    ∃ picks : List ScoredResult, picks.Sublist rest ∧
      List.Forall₂ (Returned limit) picks decisions.reduceOption := by
  induction rest generalizing used decisions with
  | nil =>
    have hnil : decisions = [] := List.eq_nil_of_length_eq_zero h.length
    subst hnil
    exact ⟨[], List.Sublist.refl _, List.Forall₂.nil⟩
  | cons s rest ih =>
    cases decisions with
    | nil => cases h.length
    | cons decision decisions =>
      have hbehind : Decided limit (used + totalTokens [decision].reduceOption) rest decisions := by
        refine ⟨by simpa using h.length, fun i t ht => ?_⟩
        have hnext := h.decided (i + 1) t (by simpa using ht)
        have htotal : used + totalTokens [decision].reduceOption +
              totalTokens (decisions.take i).reduceOption + t.tokens =
            used + totalTokens ((decision :: decisions).take (i + 1)).reduceOption + t.tokens := by
          have hsplit : decision :: decisions.take i = [decision] ++ decisions.take i := rfl
          rw [List.take_succ_cons, hsplit, List.reduceOption_append]
          simp only [totalTokens, List.map_append, List.sum_append]
          ring
        rw [htotal]
        simpa using hnext
      obtain ⟨picks, hsub, hpicks⟩ := ih hbehind
      obtain ⟨chunk, hchunk, hreturned⟩ | ⟨hnone, -⟩ := h.decided 0 s rfl
      · have hdecision : decision = some chunk := by simpa using hchunk
        subst hdecision
        refine ⟨s :: picks, hsub.cons_cons s, ?_⟩
        rw [List.reduceOption_cons_of_some]
        exact List.Forall₂.cons hreturned hpicks
      · have hdecision : decision = none := by simpa using hnone
        subst hdecision
        refine ⟨picks, hsub.cons s, ?_⟩
        rw [List.reduceOption_cons_of_none]
        exact hpicks

end Decided

/-- The loop decides on each chunk, keeps to the limit, and counts what it
returns. -/
theorem greedyLoop_decided {limit : ℤ} (hlimit : 0 ≤ limit) (scored selected : List ScoredResult)
    {used : ℤ} (hused : 0 ≤ used ∧ used ≤ limit)
    (hscored : ∀ s ∈ scored, 0 < s.tokens ∧
      tokenEstimate s.result.content = s.result.tokenEstimate) :
    ∃ decisions : List (Option ScoredResult), Decided limit used scored (decisions.map (Option.map (ScoredResult.justified false))) ∧
      (ContextSelector.greedyLoop limit scored selected used).1 = selected ++ decisions.reduceOption ∧
      (ContextSelector.greedyLoop limit scored selected used).2 =
        used + totalTokens decisions.reduceOption ∧
      (ContextSelector.greedyLoop limit scored selected used).2 ≤ limit := by
  induction scored generalizing selected used with
  | nil =>
    refine ⟨[], ⟨rfl, fun i t ht => by cases ht⟩, ?_, ?_, hused.2⟩
    · simp [ContextSelector.greedyLoop]
    · simp [ContextSelector.greedyLoop, totalTokens]
  | cons s rest ih =>
    obtain ⟨hpos, hwords⟩ := hscored s List.mem_cons_self
    have hrest : ∀ t ∈ rest, 0 < t.tokens ∧
        tokenEstimate t.result.content = t.result.tokenEstimate :=
      fun t ht => hscored t (List.mem_cons_of_mem _ ht)
    by_cases hfits : used + s.tokens ≤ limit
    · have hmore : 0 ≤ used + s.tokens ∧ used + s.tokens ≤ limit := ⟨by omega, hfits⟩
      obtain ⟨decisions, hdecided, hchunks, hcount, hbound⟩ := ih (selected ++ [s]) hmore hrest
      have hstep : ContextSelector.greedyLoop limit (s :: rest) selected used =
          ContextSelector.greedyLoop limit rest (selected ++ [s]) (used + s.tokens) := by
        rw [ContextSelector.greedyLoop, if_pos hfits]
      refine ⟨some s :: decisions, ?_, ?_, ?_, ?_⟩
      · have hreturned : Returned limit s (s.justified false) := .inl rfl
        exact Decided.returned hdecided hreturned
      · rw [hstep, hchunks, List.reduceOption_cons_of_some, List.append_assoc]
        rfl
      · rw [hstep, hcount, List.reduceOption_cons_of_some]
        simp only [totalTokens, List.map_cons, List.sum_cons]
        ring
      · rw [hstep]
        exact hbound
    · by_cases hlong : limit < s.tokens ∧ used = 0
      · -- the first chunk alone is over the limit: it is cut, and the loop stops
        obtain ⟨hover, hzero⟩ := hlong
        have hcut : (s.truncated limit).tokens = limit :=
          ScoredResult.truncated_tokens hlimit hwords hover
        have hstep : ContextSelector.greedyLoop limit (s :: rest) selected used =
            (selected ++ [s.truncated limit], limit) := by
          rw [ContextSelector.greedyLoop, if_neg hfits, if_pos ⟨hover, hzero⟩]
        have hnone : (List.replicate rest.length (none : Option ScoredResult)).reduceOption = [] :=
          List.reduceOption_replicate_none
        refine ⟨some (s.truncated limit) :: List.replicate rest.length none, ?_, ?_, ?_, ?_⟩
        · have hfull : ∀ t ∈ rest, limit < used + ((s.truncated limit).justified false).tokens +
              t.tokens := by
            intro t ht
            have htpos := (hrest t ht).1
            rw [ScoredResult.justified_tokens, hcut]
            omega
          rw [List.map_cons, List.map_replicate]
          exact (Decided.exhausted hfull).returned (.inr ⟨hover, rfl⟩)
        · rw [hstep, List.reduceOption_cons_of_some, hnone]
        · rw [hstep, List.reduceOption_cons_of_some, hnone]
          simp only [totalTokens, List.map_cons, List.map_nil, List.sum_cons, List.sum_nil]
          omega
        · rw [hstep]
      · obtain ⟨decisions, hdecided, hchunks, hcount, hbound⟩ := ih selected hused hrest
        have hstep : ContextSelector.greedyLoop limit (s :: rest) selected used =
            ContextSelector.greedyLoop limit rest selected used := by
          rw [ContextSelector.greedyLoop, if_neg hfits, if_neg hlong]
        refine ⟨none :: decisions, ?_, ?_, ?_, ?_⟩
        · exact hdecided.skipped (by omega)
        · rw [hstep, hchunks, List.reduceOption_cons_of_none]
        · rw [hstep, hcount, List.reduceOption_cons_of_none]
        · rw [hstep]
          exact hbound

/-- A boosted chunk has the text and the estimate that it had. -/
theorem boosted_counted {s : ScoredResult}
    (h : 0 < s.result.tokenEstimate ∧ tokenEstimate s.result.content = s.result.tokenEstimate) :
    0 < s.boosted.tokens ∧
      tokenEstimate s.boosted.result.content = s.boosted.result.tokenEstimate := by
  have htokens : s.boosted.tokens = s.result.tokenEstimate := rfl
  refine ⟨?_, h.2⟩
  rw [htokens]
  exact_mod_cast h.1

end AiosDeck.Retrieval
