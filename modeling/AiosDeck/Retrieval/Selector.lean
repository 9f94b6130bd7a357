import AiosDeck.Knowledge.Store
import AiosDeck.Logic.Selection
import AiosDeck.Python.Floats
import AiosDeck.Python.Words

/-!
# The context selector

Retrieved chunks are ranked by their boosted score, cut down to the best one
of each source, and taken one after the other while they fit into the budget
of the agent. When the very first one is too long, it is cut to the budget
and nothing else is taken.
-/

namespace AiosDeck.Retrieval

open Python Knowledge Selection

/-- `_truncate_to_tokens`. -/
def truncateToTokens (content : Text) (maxTokens : ℤ) : Text :=
  if maxTokens ≤ 0 then []
  else if (words content).length ≤ maxTokens then content
  else joinWords ((words content).take maxTokens.toNat)

/-- The words that are left, when there is room for some. -/
theorem words_truncateToTokens {content : Text} {maxTokens : ℤ} (h : 0 ≤ maxTokens) :
    words (truncateToTokens content maxTokens) = (words content).take maxTokens.toNat := by
  unfold truncateToTokens
  by_cases hzero : maxTokens ≤ 0
  · have hnone : maxTokens.toNat = 0 := by omega
    rw [if_pos hzero, hnone, List.take_zero]
    rfl
  · rw [if_neg hzero]
    by_cases hfits : (words content).length ≤ maxTokens
    · have hall : (words content).length ≤ maxTokens.toNat := by omega
      rw [if_pos hfits, List.take_of_length_le hall]
    · rw [if_neg hfits]
      refine words_joinWords fun word hword => ?_
      exact words_isWord (List.mem_of_mem_take hword)

/-- A cut content has at most as many words as it was cut to. -/
theorem length_truncateToTokens (content : Text) {maxTokens : ℤ} (h : 0 ≤ maxTokens) :
    ((words (truncateToTokens content maxTokens)).length : ℤ) ≤ maxTokens := by
  have hlength : ((words content).take maxTokens.toNat).length ≤ maxTokens.toNat :=
    List.length_take_le _ _
  rw [words_truncateToTokens h]
  omega

/-- `ScoredResult`. -/
structure ScoredResult where
  result : KnowledgeResult
  score : PyFloat
  justification : Text := []
  deriving DecidableEq

/-- `_DEFAULT_BUDGETS`. -/
def DEFAULT_BUDGETS : List (Text × ℤ) :=
  [("planner".toList, 3000), ("research".toList, 5000), ("reviewer".toList, 2000)]

/-- `_FALLBACK_DEFAULT`. -/
def FALLBACK_DEFAULT : ℤ := 3000

/-- `_SOURCE_BOOST`. -/
def SOURCE_BOOST : List (Text × PyFloat) :=
  [("project_dna".toList, decimal 0.12), ("code".toList, decimal 0.10), ("adr".toList, decimal 0.08),
    ("documentation".toList, decimal 0.05), ("research".toList, decimal 0.06),
    ("skill".toList, decimal 0.07), ("memory".toList, decimal 0.04)]

/-- `ContextBudget`, by the budgets that override the default ones. -/
structure ContextBudget where
  overrides : List (Text × ℤ) := []

/-- `ContextBudget.for_agent`. -/
def ContextBudget.forAgent (budget : ContextBudget) (agent : Text) : ℤ :=
  ((budget.overrides ++ DEFAULT_BUDGETS).lookup agent).getD FALLBACK_DEFAULT

/-- `SelectionResult`, but for the latency. -/
structure SelectionResult where
  chunks : List ScoredResult
  promptContext : Text
  selectedCount : ℕ
  chunksRetrieved : ℕ
  chunksSelected : ℕ
  tokensBefore : ℤ
  tokensAfter : ℤ
  compressionRatio : PyFloat

/-- `ContextSelector`, with retrievers as functions of the query and `k`. -/
structure ContextSelector where
  retriever : Text → ℤ → List ScoredResult
  budget : ContextBudget := {}
  fallback : Option (Text → ℤ → List ScoredResult) := none

namespace ScoredResult

/-- The estimate of the chunk. -/
def tokens (s : ScoredResult) : ℤ := s.result.tokenEstimate

/-- The source of the chunk. -/
def sourceId (s : ScoredResult) : Text := s.result.sourceId

/-- `f"{source_type}/{source_path}"`. -/
def source (s : ScoredResult) : Text := s.result.sourceType ++ ['/'] ++ s.result.sourcePath

/-- `_build_justification`. -/
def justified (dropped : Bool) (s : ScoredResult) : ScoredResult :=
  { s with
    justification := (if dropped then "dropped" else "selected").toList ++ ": score=".toList ++
      (formatFixed 3 s.score).toList ++ "; source=".toList ++ s.source ++ "; tokens=".toList ++
      (toString s.result.tokenEstimate).toList }

/-- The score with the boost of its source, at most one. -/
def boosted (s : ScoredResult) : ScoredResult :=
  let boost := (SOURCE_BOOST.lookup s.result.sourceType).getD (.finite 0)
  let raised := s.score.add boost
  -- `min(1.0, raised)` is its first argument unless the second is smaller
  { s with score := if raised.lt (.finite 1) then raised else .finite 1 }

/-- The chunk cut to this many tokens. -/
def truncated (limit : ℤ) (s : ScoredResult) : ScoredResult :=
  let content := truncateToTokens s.result.content limit
  { s with result := { s.result with content, tokenEstimate := tokenEstimate content } }

@[simp] theorem justified_tokens (dropped : Bool) (s : ScoredResult) :
    (s.justified dropped).tokens = s.tokens := rfl

@[simp] theorem justified_score (dropped : Bool) (s : ScoredResult) :
    (s.justified dropped).score = s.score := rfl

@[simp] theorem justified_sourceId (dropped : Bool) (s : ScoredResult) :
    (s.justified dropped).sourceId = s.sourceId := rfl

@[simp] theorem truncated_score (limit : ℤ) (s : ScoredResult) :
    (s.truncated limit).score = s.score := rfl

@[simp] theorem truncated_sourceId (limit : ℤ) (s : ScoredResult) :
    (s.truncated limit).sourceId = s.sourceId := rfl

/-- A chunk with more words than the limit is cut to the limit. -/
theorem truncated_tokens {limit : ℤ} {s : ScoredResult} (hlimit : 0 ≤ limit)
    (hwords : tokenEstimate s.result.content = s.result.tokenEstimate) (hlong : limit < s.tokens) :
    (s.truncated limit).tokens = limit := by
  have hmin : (words (truncateToTokens s.result.content limit)).length = limit.toNat := by
    have hlength : (words s.result.content).length = s.result.tokenEstimate := hwords
    have hestimate : limit < (s.result.tokenEstimate : ℤ) := hlong
    rw [words_truncateToTokens hlimit, List.length_take, hlength]
    omega
  have htokens : (s.truncated limit).tokens =
      ((words (truncateToTokens s.result.content limit)).length : ℤ) := rfl
  rw [htokens, hmin]
  omega

end ScoredResult

/-- The estimates of some chunks, together. -/
def totalTokens (chunks : List ScoredResult) : ℤ := (chunks.map ScoredResult.tokens).sum

namespace ContextSelector

/-- `_rank`. -/
def rank (scored : List ScoredResult) : List ScoredResult :=
  (scored.map ScoredResult.boosted).insertionSort fun r other => other.score.le r.score

/-- The loop of `_dedupe`. -/
def dedupeFrom : List Text → List ScoredResult → List ScoredResult
  | _, [] => []
  | seenSources, s :: rest =>
    let key := s.sourceId
    if key ∉ seenSources then s :: dedupeFrom (key :: seenSources) rest
    else dedupeFrom seenSources rest

/-- `_dedupe`. -/
def dedupe (scored : List ScoredResult) : List ScoredResult := dedupeFrom [] scored

/-- The loop of `_greedy_select`. What a chunk that is passed over is told
about itself is read by nobody. -/
def greedyLoop (tokenLimit : ℤ) : List ScoredResult → List ScoredResult → ℤ → List ScoredResult × ℤ
  | [], selected, used => (selected, used)
  | s :: rest, selected, used =>
    if used + s.tokens ≤ tokenLimit then greedyLoop tokenLimit rest (selected ++ [s]) (used + s.tokens)
    else if tokenLimit < s.tokens ∧ used = 0 then
      (selected ++ [s.truncated tokenLimit], tokenLimit)
    else greedyLoop tokenLimit rest selected used

/-- `_greedy_select`. -/
def greedySelect (scored : List ScoredResult) (tokenLimit : ℤ) : List ScoredResult × ℤ :=
  let (selected, used) := greedyLoop tokenLimit scored [] 0
  (selected.map (ScoredResult.justified false), used)

/-- The lines of one chunk in the prompt. -/
def promptLines (i : ℕ) (c : ScoredResult) : List Text :=
  ["[".toList ++ (toString i).toList ++ "] source=".toList ++ c.source ++ " (score=".toList ++
      (formatTwo c.score).toList ++ ") [pos=".toList ++ (toString c.result.position).toList ++
      "]".toList,
    c.result.content, []]

/-- `_build_prompt_context`. -/
def buildPromptContext (chunks : List ScoredResult) : Text :=
  if chunks.isEmpty then []
  else joinLines ("[Knowledge]".toList :: (chunks.zipIdx 1).flatMap fun c => promptLines c.2 c.1)

/-- What the retriever found, or else the fallback. -/
def candidates (selector : ContextSelector) (query : Text) (k : ℤ) : List ScoredResult :=
  match selector.retriever query k, selector.fallback with
  | [], some fallback => fallback query k
  | found, _ => found

/-- `ContextSelector.select`. -/
def select (selector : ContextSelector) (query agent : Text) (k : ℤ) : SelectionResult :=
  let tokenLimit := selector.budget.forAgent agent
  let candidates := selector.candidates query k
  let tokensBefore := totalTokens candidates
  let diverse := dedupe (rank candidates)
  let (selected, tokensAfter) := greedySelect diverse tokenLimit
  { chunks := selected
    promptContext := buildPromptContext selected
    selectedCount := selected.length
    chunksRetrieved := candidates.length
    chunksSelected := selected.length
    tokensBefore, tokensAfter
    compressionRatio :=
      if 0 < tokensBefore ∧ 0 < tokensAfter then
        PyFloat.sub (.finite 1) (.ofRat ((tokensAfter : ℚ) / tokensBefore))
      else .finite 0 }

/-- The best chunk of each source, best first. -/
def bestOfSource (candidates : List ScoredResult) : List ScoredResult :=
  firsts ScoredResult.sourceId (rank candidates)

theorem dedupeFrom_eq (seen : List Text) (scored : List ScoredResult) :
    dedupeFrom seen scored = firstsFrom ScoredResult.sourceId seen scored := by
  induction scored generalizing seen with
  | nil => rfl
  | cons s rest ih =>
    by_cases h : s.sourceId ∈ seen
    · rw [firstsFrom_seen h, ← ih]
      simp [dedupeFrom, h]
    · rw [firstsFrom_new h, ← ih]
      simp [dedupeFrom, h]

theorem dedupe_rank (candidates : List ScoredResult) :
    dedupe (rank candidates) = bestOfSource candidates := dedupeFrom_eq [] _

end ContextSelector

end AiosDeck.Retrieval
