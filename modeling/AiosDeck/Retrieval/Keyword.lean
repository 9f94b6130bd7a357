import AiosDeck.Knowledge.Engine
import AiosDeck.Knowledge.Estimates
import AiosDeck.Python.Rounding
import AiosDeck.Retrieval.Ordering

/-!
# Keyword retrieval

What the store finds is scored by the words of the query that it contains. The engine cuts
the results down to the budget of an agent.
-/

namespace AiosDeck.Retrieval

open Python Knowledge Selection

section Tokens

/-- `_STOPWORDS`. -/
def STOPWORDS : List Text :=
  ["a", "an", "and", "are", "as", "at", "be", "by", "does", "for", "from", "how", "in", "into", "is",
    "it", "of", "on", "or", "that", "the", "this", "to", "was", "what", "when", "where", "which",
    "with", "do", "should", "we", "you", "i", "me", "my"].map String.toList

/-- `[a-zA-Z0-9_]`. -/
def isTokenChar (c : Char) : Bool := c.isAlphanum || c == '_'

/-- `_QUERY_TOKEN_RE.findall(text)`. -/
def tokenRuns (text : Text) : List Text :=
  (text.splitOnP fun c => !isTokenChar c).filter fun run => 2 ≤ run.length

/-- `_tokenize`; the letters of a token are ASCII. -/
def tokenize (text : Text) : List Text :=
  ((tokenRuns text).map fun run => run.map Char.toLower).filter fun token => token ∉ STOPWORDS

-- `str.lower`, by the case tables of the interpreter
variable (lower : Text → Text)

/-- The tokens that a content has. -/
def tokenMatches (queryTokens : List Text) (content : Text) : List Text :=
  queryTokens.filter fun token => decide (token <:+: lower content)

/-- `_lexical_score`. -/
def lexicalScore (queryTokens : List Text) (content : Text) : PyFloat :=
  if queryTokens = [] then .finite 0
  else PyFloat.nearest ((tokenMatches lower queryTokens content).length / queryTokens.length)

end Tokens

section Retriever

variable (lower : Text → Text)

/-- The scored results, without those that score nothing. -/
def scoredResults (tokens : List Text) (results : List KnowledgeResult) : List ScoredResult :=
  (results.map fun r => ({ result := r, score := lexicalScore lower tokens r.content } : ScoredResult))
    |>.filter fun s => !s.score.le (.finite 0)

/-- `KeywordRetriever.retrieve`. -/
def keywordRetrieve (store : KnowledgeStore) (query : Text) (k : ℤ) (sourceTypes : Option (List Text)) :
    KnowledgeStore.Query (List ScoredResult) := do
  let text := strip query
  if text = [] then return []
  let results ← store.search { text, limit := max k 20, sourceTypes }
  return firstItems k (byScore ScoredResult.score (scoredResults lower (tokenize text) results))

/-- `KnowledgeEngine.retrieve_raw`. -/
def retrieveRaw (engine : KnowledgeEngine) (query : Text) (limit : ℤ)
    (sourceTypes : Option (List Text)) : KnowledgeStore.Query (List ScoredResult) :=
  keywordRetrieve lower engine.store query limit (sourceTypes.filter fun types => types ≠ [])

/-- `KnowledgeEngine.retrieve`, by keywords. -/
def retrieve (engine : KnowledgeEngine) (query agent : Text) (limit : ℤ) (budget : ContextBudget) :
    KnowledgeStore.Query SelectionResult := do
  let found ← keywordRetrieve lower engine.store query limit none
  return ({ retriever := fun _ _ => found, budget } : ContextSelector).select query agent limit

end Retriever

section Scores

variable {lower : Text → Text} {tokens : List Text} {results : List KnowledgeResult}
  {s : ScoredResult}

/-- A lexical score is a number between zero and one, and more than zero only with a token. -/
theorem lexicalScore_unit (lower : Text → Text) (tokens : List Text) (content : Text) :
    ∃ q, lexicalScore lower tokens content = .finite q ∧ 0 ≤ q ∧ q ≤ 1 ∧
      (0 < q → tokenMatches lower tokens content ≠ []) := by
  unfold lexicalScore
  by_cases hnone : tokens = []
  · rw [if_pos hnone]
    exact ⟨0, rfl, le_rfl, zero_le_one, fun h => absurd h (lt_irrefl 0)⟩
  · have hpos : (0 : ℚ) < tokens.length := Nat.cast_pos.mpr (List.length_pos_of_ne_nil hnone)
    have hle : ((tokenMatches lower tokens content).length : ℚ) ≤ tokens.length :=
      Nat.cast_le.mpr (List.length_filter_le _ _)
    obtain ⟨q, hq, hlower, hupper, -, hzero⟩ :=
      nearest_share (div_nonneg (Nat.cast_nonneg _) hpos.le) ((div_le_one hpos).mpr hle)
    rw [if_neg hnone]
    refine ⟨q, hq, hlower, hupper, fun hmore hempty => ?_⟩
    rw [hzero (by rw [hempty, List.length_nil, Nat.cast_zero, zero_div])] at hmore
    exact lt_irrefl 0 hmore

/-- What is scored is one of the results, with a token of the query. -/
theorem mem_scoredResults (h : s ∈ scoredResults lower tokens results) :
    s.result ∈ results ∧ tokenMatches lower tokens s.result.content ≠ [] ∧
      ∃ q, s.score = .finite q ∧ 0 < q ∧ q ≤ 1 := by
  unfold scoredResults at h
  obtain ⟨hmem, hscore⟩ := List.mem_filter.mp h
  obtain ⟨r, hr, rfl⟩ := List.mem_map.mp hmem
  obtain ⟨q, hq, -, hupper, hmatch⟩ := lexicalScore_unit lower tokens r.content
  dsimp only at hscore ⊢
  rw [hq] at hscore
  have hpos : 0 < q := by simpa [PyFloat.le] using hscore
  exact ⟨hr, hmatch hpos, q, hq, hpos, hupper⟩

end Scores

section Reached

variable {fts : Fts5} {db : Db} {store : KnowledgeStore} {lower : Text → Text}

/-- A chunk of the project that a query finds and that has one of its tokens. -/
structure Relevant (lower : Text → Text) (store : KnowledgeStore) (query : KnowledgeQuery) (db : Db)
    (s : ScoredResult) (row : ChunkRow) : Prop where
  own : row ∈ db.ownChunks store.projectId
  found : store.finds query row.content = true
  asked : KnowledgeStore.asked query (db.ownSources store.projectId) row = true
  token : ∃ token ∈ tokenize query.text, token <:+: lower row.content
  result : s.result = KnowledgeStore.toResult (store.findSource row.sourceId db) row

/-- The retriever returns, best first, at most `k` relevant chunks, each once. -/
structure Retrieved (lower : Text → Text) (store : KnowledgeStore) (query : Text) (k : ℤ)
    (sourceTypes : Option (List Text)) (db : Db) (results : List ScoredResult) : Prop where
  relevant : ∀ s ∈ results, ∃ row,
    Relevant lower store { text := strip query, limit := max k 20, sourceTypes } db s row
  scores : ∀ s ∈ results, ∃ q, s.score = .finite q ∧ 0 < q ∧ q ≤ 1
  ordered : results.Pairwise fun s later => later.score.le s.score = true
  once : (results.map fun s => s.result.chunkId).Nodup
  counted : ∀ s ∈ results, 0 < s.result.tokenEstimate ∧
    tokenEstimate s.result.content = s.result.tokenEstimate

/-- A scored result comes from the result. -/
theorem scoredResults_chunkIds (lower : Text → Text) (tokens : List Text)
    (results : List KnowledgeResult) :
    ((scoredResults lower tokens results).map fun s => s.result.chunkId).Sublist
      (results.map KnowledgeResult.chunkId) := by
  have hmap : (results.map KnowledgeResult.chunkId) = (results.map fun r =>
      ({ result := r, score := lexicalScore lower tokens r.content } : ScoredResult)).map
        fun s => s.result.chunkId := by
    rw [List.map_map]
    rfl
  rw [hmap]
  exact List.filter_sublist.map _

/-- A program whose result is only looked at. -/
theorem outcome_bind_pure {D α β : Type} {x : Storage.Sql D α} {d e : D} {a : α}
    (h : Storage.outcome x d = (.ok a, e)) (f : α → β) :
    Storage.outcome (x >>= fun a => pure (f a)) d = (.ok (f a), e) := by
  unfold Storage.outcome at h ⊢
  cases hx : x ⟨d, 0, none⟩ with
  | ok b t =>
    have hrun : (x >>= fun a => pure (f a)) ⟨d, 0, none⟩ = .ok (f b) t := by
      change EStateM.bind x _ _ = _
      unfold EStateM.bind
      rw [hx]
      rfl
    rw [hx] at h
    obtain ⟨hb, rfl⟩ := Prod.mk.inj h
    rw [hrun, Except.ok.inj hb]
  | error exc t =>
    rw [hx] at h
    cases (Prod.mk.inj h).1

/-- In every database that permitted calls lead to, the retriever returns relevant chunks. -/
theorem keywordRetrieve_reached (h : Reached fts db) (hfts : store.fts = fts) (lower : Text → Text)
    (query : Text) (k : ℤ) (sourceTypes : Option (List Text)) :
    ∃ results, Storage.outcome (keywordRetrieve lower store query k sourceTypes) db =
        (.ok results, db) ∧ Retrieved lower store query k sourceTypes db results := by
  unfold keywordRetrieve
  dsimp only
  by_cases hblank : strip query = []
  · rw [if_pos hblank]
    refine ⟨[], rfl, ?_⟩
    constructor <;> simp
  · rw [if_neg hblank]
    obtain ⟨found, hfound, honce, hconfined⟩ := KnowledgeStore.search_confined
      (hfts ▸ h.sound.coherent store.projectId)
      { text := strip query, limit := max k 20, sourceTypes }
    have hsearch : Storage.outcome (store.search
        { text := strip query, limit := max k 20, sourceTypes }) db = (.ok found, db) := by
      rw [KnowledgeStore.search_outcome] at hfound ⊢
      exact Prod.ext hfound rfl
    refine ⟨_, outcome_bind_pure hsearch _, ?_⟩
    have hscored : ∀ s ∈ firstItems k (byScore ScoredResult.score
        (scoredResults lower (tokenize (strip query)) found)), s ∈ scoredResults lower
          (tokenize (strip query)) found :=
      fun s hs => mem_byScore.mp (mem_firstItems hs)
    have hrows : ∀ s ∈ firstItems k (byScore ScoredResult.score
        (scoredResults lower (tokenize (strip query)) found)), ∃ row, Relevant lower store
          { text := strip query, limit := max k 20, sourceTypes } db s row := by
      intro s hs
      obtain ⟨hmem, htokens, -⟩ := mem_scoredResults (hscored s hs)
      obtain ⟨row, hown, hfinds, hasked, hresult⟩ := hconfined s.result hmem
      obtain ⟨token, htoken⟩ := List.exists_mem_of_ne_nil _ htokens
      obtain ⟨hquery, hcontent⟩ := List.mem_filter.mp htoken
      rw [hresult] at hcontent
      exact ⟨row, hown, hfinds, hasked, ⟨token, hquery, of_decide_eq_true hcontent⟩, hresult⟩
    have hnumbers : ∀ s ∈ scoredResults lower (tokenize (strip query)) found, s.score ≠ .nan := by
      intro s hs hnan
      obtain ⟨-, -, q, hq, -⟩ := mem_scoredResults hs
      rw [hq] at hnan
      cases hnan
    refine
      { relevant := hrows
        scores := fun s hs => (mem_scoredResults (hscored s hs)).2.2
        ordered := (byScore_sorted hnumbers).sublist (List.take_sublist _ _)
        once := ?_
        counted := fun s hs => ?_ }
    · have hsorted := ((byScore_perm ScoredResult.score (scoredResults lower
        (tokenize (strip query)) found)).map fun s => s.result.chunkId).nodup_iff.mpr
          (honce.sublist (scoredResults_chunkIds lower (tokenize (strip query)) found))
      exact hsorted.sublist ((List.take_sublist _ _).map _)
    · obtain ⟨row, hrow⟩ := hrows s hs
      obtain ⟨hestimate, hpos⟩ := h.counted row (Db.mem_ownChunks.mp hrow.own).1
      rw [hrow.result]
      exact ⟨hpos, hestimate.symm⟩

end Reached

section Selecting

variable {selector : ContextSelector} {query agent : Text} {k : ℤ}

/-- The loop takes something of a list that is not empty. -/
theorem greedyLoop_ne_nil {limit : ℤ} (hlimit : 0 ≤ limit) {s : ScoredResult}
    {rest : List ScoredResult} (hcounted : ∀ t ∈ s :: rest, 0 < t.tokens ∧
      tokenEstimate t.result.content = t.result.tokenEstimate) :
    (ContextSelector.greedyLoop limit (s :: rest) [] 0).1 ≠ [] := by
  rw [ContextSelector.greedyLoop]
  by_cases hfits : 0 + s.tokens ≤ limit
  · have hpos := (hcounted s List.mem_cons_self).1
    have hused : 0 ≤ 0 + s.tokens ∧ 0 + s.tokens ≤ limit := ⟨by omega, hfits⟩
    obtain ⟨decisions, -, htaken, -⟩ := greedyLoop_decided hlimit rest ([] ++ [s]) hused
      fun t ht => hcounted t (List.mem_cons_of_mem _ ht)
    rw [if_pos hfits, htaken]
    exact List.cons_ne_nil _ _
  · have hlong : limit < s.tokens ∧ (0 : ℤ) = 0 := ⟨by omega, rfl⟩
    rw [if_neg hfits, if_pos hlong]
    exact List.cons_ne_nil _ _

/-- What is selected is returned for a part of the best chunks, within the limit, and is
nothing only when there is nothing to select from. -/
theorem select_returned (hcounted : ∀ s ∈ selector.candidates query k, 0 < s.result.tokenEstimate ∧
      tokenEstimate s.result.content = s.result.tokenEstimate)
    (hlimit : 0 ≤ selector.budget.forAgent agent) :
    (∃ picks : List ScoredResult,
      picks.Sublist (ContextSelector.bestOfSource (selector.candidates query k)) ∧
        List.Forall₂ (Returned (selector.budget.forAgent agent)) picks
          (selector.select query agent k).chunks) ∧
      (selector.select query agent k).tokensAfter =
        totalTokens (selector.select query agent k).chunks ∧
      totalTokens (selector.select query agent k).chunks ≤ selector.budget.forAgent agent ∧
      ((selector.select query agent k).chunks = [] ↔ selector.candidates query k = []) := by
  have hsame : ContextSelector.dedupe (ContextSelector.rank (selector.candidates query k)) =
      ContextSelector.bestOfSource (selector.candidates query k) := ContextSelector.dedupe_rank _
  have hbest : ∀ s ∈ ContextSelector.bestOfSource (selector.candidates query k), 0 < s.tokens ∧
      tokenEstimate s.result.content = s.result.tokenEstimate := by
    intro s hs
    have hranked := (List.mem_insertionSort _).mp ((firstsFrom_sublist _ _ _).subset hs)
    obtain ⟨candidate, hcandidate, rfl⟩ := List.mem_map.mp hranked
    exact boosted_counted (hcounted candidate hcandidate)
  have hempty : ContextSelector.bestOfSource (selector.candidates query k) = [] ↔
      selector.candidates query k = [] := by
    constructor
    · intro hnone
      by_contra hsome
      obtain ⟨s, hs⟩ := List.exists_mem_of_ne_nil _ hsome
      have hranked : s.boosted ∈ ContextSelector.rank (selector.candidates query k) :=
        (List.mem_insertionSort _).mpr (List.mem_map_of_mem hs)
      obtain ⟨first, hfirst, -⟩ := @exists_firstsFrom _ _ _ ScoredResult.sourceId [] _ _ hranked
        List.not_mem_nil
      unfold ContextSelector.bestOfSource firsts at hnone
      rw [hnone] at hfirst
      exact List.not_mem_nil hfirst
    · intro hnone
      rw [hnone]
      rfl
  obtain ⟨decisions, hdecided, htaken, hcount, hbound⟩ :=
    greedyLoop_decided hlimit (ContextSelector.bestOfSource (selector.candidates query k)) []
      ⟨le_refl 0, hlimit⟩ hbest
  have hchunks : (selector.select query agent k).chunks =
      (ContextSelector.greedyLoop (selector.budget.forAgent agent)
        (ContextSelector.bestOfSource (selector.candidates query k)) [] 0).1.map
          (ScoredResult.justified false) := by
    dsimp only [ContextSelector.select, ContextSelector.greedySelect]
    rw [hsame]
  have hafter : (selector.select query agent k).tokensAfter =
      (ContextSelector.greedyLoop (selector.budget.forAgent agent)
        (ContextSelector.bestOfSource (selector.candidates query k)) [] 0).2 := by
    dsimp only [ContextSelector.select, ContextSelector.greedySelect]
    rw [hsame]
  have htotal : totalTokens (selector.select query agent k).chunks =
      totalTokens decisions.reduceOption := by
    rw [hchunks, htaken, List.nil_append]
    unfold totalTokens
    rw [List.map_map]
    rfl
  refine ⟨?_, ?_, ?_, ?_⟩
  · obtain ⟨picks, hsub, hpicks⟩ := hdecided.picked
    rw [List.reduceOption_map, ← List.nil_append decisions.reduceOption, ← htaken, ← hchunks] at hpicks
    exact ⟨picks, hsub, hpicks⟩
  · rw [hafter, htotal, hcount, zero_add]
  · rw [htotal, ← zero_add (totalTokens decisions.reduceOption), ← hcount]
    exact hbound
  · rw [hchunks, List.map_eq_nil_iff, ← hempty]
    constructor
    · intro hnone
      cases hlist : ContextSelector.bestOfSource (selector.candidates query k) with
      | nil => rfl
      | cons s rest =>
        rw [hlist] at hnone hbest
        exact absurd hnone (greedyLoop_ne_nil hlimit hbest)
    · intro hnone
      rw [hnone]
      rfl

end Selecting

section Context

variable {fts : Fts5} {db : Db}

/-- Every element of the second list is related to one of the first. -/
theorem exists_related {α β : Type} {R : α → β → Prop} {as : List α} {bs : List β}
    (h : List.Forall₂ R as bs) {b : β} (hb : b ∈ bs) : ∃ a ∈ as, R a b := by
  induction h with
  | nil => cases hb
  | cons hfirst _ ih =>
    obtain rfl | hrest := List.mem_cons.mp hb
    · exact ⟨_, List.mem_cons_self, hfirst⟩
    · obtain ⟨a, ha, hrelated⟩ := ih hrest
      exact ⟨a, List.mem_cons_of_mem _ ha, hrelated⟩

/-- The context of an agent: chunks of the project that the query finds, with one of its
tokens, whole or cut to the budget, one of a source and best first, within the budget. -/
structure Context (lower : Text → Text) (store : KnowledgeStore) (query : Text) (k budget : ℤ)
    (db : Db) (result : SelectionResult) : Prop where
  within : totalTokens result.chunks ≤ budget
  counted : result.tokensAfter = totalTokens result.chunks
  ordered : result.chunks.Pairwise fun chunk later => later.score.le chunk.score = true
  sources : (result.chunks.map ScoredResult.sourceId).Nodup
  /-- The content is that of the chunk, or the beginning of one that is over the budget. -/
  origin : ∀ chunk ∈ result.chunks, ∃ s row,
    Relevant lower store { text := strip query, limit := max k 20 } db s row ∧
      chunk.sourceId = row.sourceId ∧ (chunk.result.content = row.content ∨
        budget < row.tokenEstimate ∧ chunk.result.content = truncateToTokens row.content budget)
  /-- Something is selected when something is retrieved. -/
  found : result.chunks = [] ↔ result.chunksRetrieved = 0

/-- What the engine returns is selected from what the retriever finds. -/
theorem retrieve_picked (h : Reached fts db) (engine : KnowledgeEngine)
    (hfts : engine.store.fts = fts) (lower : Text → Text) (query agent : Text) (k : ℤ)
    (budget : ContextBudget) (hbudget : 0 ≤ budget.forAgent agent) :
    ∃ results result, Retrieved lower engine.store query k none db results ∧
      Storage.outcome (retrieve lower engine query agent k budget) db = (.ok result, db) ∧
      (∃ picks : List ScoredResult, picks.Sublist (ContextSelector.bestOfSource results) ∧
        List.Forall₂ (Returned (budget.forAgent agent)) picks result.chunks) ∧
      result.chunksRetrieved = results.length ∧ result.tokensAfter = totalTokens result.chunks ∧
      totalTokens result.chunks ≤ budget.forAgent agent ∧ (result.chunks = [] ↔ results = []) := by
  obtain ⟨results, hresults, hretrieved⟩ := keywordRetrieve_reached h hfts lower query k none
  refine ⟨results, _, hretrieved, outcome_bind_pure hresults _, ?_⟩
  generalize hselector : ({ retriever := fun _ _ => results, budget } : ContextSelector) = selector
  have hcandidates : selector.candidates query k = results := by
    rw [← hselector]
    unfold ContextSelector.candidates
    cases results <;> rfl
  have hforAgent : selector.budget.forAgent agent = budget.forAgent agent := by rw [← hselector]
  have hcount : (selector.select query agent k).chunksRetrieved = results.length := by
    rw [← hcandidates]
    rfl
  have hselected := @select_returned selector query agent k
    (by rw [hcandidates]; exact hretrieved.counted) (by rw [hforAgent]; exact hbudget)
  rw [hforAgent, hcandidates] at hselected
  exact ⟨hselected.1, hcount, hselected.2⟩

/-- In every database that permitted calls lead to, the engine returns a context that is
relevant and within the budget, and writes nothing. -/
theorem retrieve_context (h : Reached fts db) (engine : KnowledgeEngine)
    (hfts : engine.store.fts = fts) (lower : Text → Text) (query agent : Text) (k : ℤ)
    (budget : ContextBudget) (hbudget : 0 ≤ budget.forAgent agent) :
    ∃ result, Storage.outcome (retrieve lower engine query agent k budget) db = (.ok result, db) ∧
      Context lower engine.store query k (budget.forAgent agent) db result := by
  obtain ⟨results, result, hretrieved, houtcome, ⟨picks, hsub, hpicks⟩, hcount, hafter, hwithin,
    hempty⟩ := retrieve_picked h engine hfts lower query agent k budget hbudget
  have hscores : picks.map ScoredResult.score = result.chunks.map ScoredResult.score :=
    List.forall₂_eq_eq_eq ▸ List.forall₂_map_left_iff.mpr (List.forall₂_map_right_iff.mpr
      (hpicks.imp fun _ _ h => h.score.symm))
  have hsources : picks.map ScoredResult.sourceId = result.chunks.map ScoredResult.sourceId :=
    List.forall₂_eq_eq_eq ▸ List.forall₂_map_left_iff.mpr (List.forall₂_map_right_iff.mpr
      (hpicks.imp fun _ _ h => h.sourceId.symm))
  refine ⟨result, houtcome, hwithin, hafter, ?_, ?_, fun chunk hchunk => ?_, ?_⟩
  · have hranked := ((rank_sorted results).sublist
      (firstsFrom_sublist ScoredResult.sourceId [] _)).sublist hsub
    have hplaced : (picks.map ScoredResult.score).Pairwise fun x y => y.le x = true :=
      List.pairwise_map.mpr hranked
    rw [hscores] at hplaced
    exact List.pairwise_map.mp hplaced
  · rw [← hsources]
    exact (firstsFrom_nodup _ _ _).sublist (hsub.map _)
  · obtain ⟨pick, hpick, hreturned⟩ := exists_related hpicks hchunk
    have hranked := (firstsFrom_sublist _ _ _).subset (hsub.subset hpick)
    obtain ⟨candidate, hcandidate, rfl⟩ := List.mem_map.mp ((List.mem_insertionSort _).mp hranked)
    obtain ⟨row, hrow⟩ := hretrieved.relevant candidate hcandidate
    have hsource : candidate.boosted.sourceId = row.sourceId := congrArg _ hrow.result
    have hcontent : candidate.boosted.result.content = row.content := congrArg _ hrow.result
    have htokens : candidate.boosted.tokens = row.tokenEstimate :=
      congrArg (fun result => (KnowledgeResult.tokenEstimate result : ℤ)) hrow.result
    refine ⟨candidate, row, hrow, hreturned.sourceId.trans hsource, ?_⟩
    obtain rfl | ⟨hover, rfl⟩ := hreturned
    · exact .inl hcontent
    · exact .inr ⟨htokens ▸ hover, congrArg (fun content => truncateToTokens content _) hcontent⟩
  · rw [hempty, hcount, List.length_eq_zero_iff]

/-- The engine of the project with a memo. -/
def memoEngine : KnowledgeEngine where
  store := memoStore "a"
  listText := fun _ => []
  parameterLimit := 32766

theorem retrieve_context_memo : ∃ result,
    Storage.outcome (retrieve id memoEngine "alpha".toList "planner".toList 20 {}) memoDb =
        (.ok result, memoDb) ∧
      Context id memoEngine.store "alpha".toList 20 3000 memoDb result := by
  have hfirst : (memoStore "a").Permitted {} (.index (memo "a.md" "alpha")) := by
    intro _ _
    constructor <;> decide +kernel
  have hreached : Reached wordFts memoDb := .call _ _ rfl .empty hfirst
  exact retrieve_context hreached memoEngine rfl id "alpha".toList "planner".toList 20 {} (by decide)

end Context

end AiosDeck.Retrieval
