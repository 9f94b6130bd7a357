import AiosDeck.Skills.Discovery

/-!
# Retrieving skills

The chunks of the discovered skills, most relevant skill first and best chunks first, as long
as they fit into the budget of the agent.
-/

namespace AiosDeck.Skills

open Python Knowledge Retrieval Ranked

section Names

/-- `Path(path).parts`. -/
def pathParts (path : Text) : List Text :=
  let root : List Text :=
    if "//".toList.isPrefixOf path && !"///".toList.isPrefixOf path then ["//".toList]
    else if "/".toList.isPrefixOf path then ["/".toList]
    else []
  root ++ (path.splitOn '/').filter fun part => part ≠ [] ∧ part ≠ ['.']

/-- `_extract_skill_name`. -/
def extractSkillName (sourcePath : Text) : Option Text :=
  ((pathParts sourcePath).dropWhile fun part => part ≠ "skills".toList).tail.head?

end Names

section Sections

/-- `SkillContext`. -/
structure SkillContext where
  skill : ScoredSkill
  chunks : List ScoredResult
  promptSection : Text
  tokensUsed : ℤ
  relevanceScore : PyFloat

/-- `", ".join(items)` behind a label in brackets, where there are any. -/
def bracketed (label : String) (items : List Text) : Text :=
  if items = [] then []
  else " [".toList ++ label.toList ++ ": ".toList ++ ", ".toList.intercalate items ++ "]".toList

/-- `format_skill_header`. -/
def formatSkillHeader (scored : ScoredSkill) : Text :=
  let line := "- **".toList ++ scored.skill.name ++ "** (score=".toList ++
    (formatTwo scored.score).toList ++ ")".toList ++ bracketed "triggers" scored.triggerMatches ++
    bracketed "scope" scored.scopeMatches
  joinLines (if scored.skill.description = [] then [line]
    else [line, "  ".toList ++ scored.skill.description])

/-- `_format_skill_section`. -/
def formatSkillSection (scored : ScoredSkill) (chunks : List ScoredResult) : Text :=
  joinLines ("## Relevant Skills".toList :: formatSkillHeader scored ::
    chunks.flatMap fun chunk => [[], chunk.result.content])

end Sections

section Retrieve

/-- `_SKILL_SOURCE_TYPES`. -/
def SKILL_SOURCE_TYPES : List Text := ["skill".toList, "project_dna".toList]

/-- `SkillRetrievalService`, with `retrieve_raw` as a function of the query, the limit and the
source types. -/
structure SkillRetrievalService where
  retrieveRaw : Text → ℤ → List Text → Except PyExc (List ScoredResult)
  budget : ContextBudget := {}

/-- `chunks_by_skill.setdefault(name, []).append(r)`. -/
def addChunk (name : Text) (r : ScoredResult) :
    List (Text × List ScoredResult) → List (Text × List ScoredResult)
  | [] => [(name, [r])]
  | (other, chunks) :: rest =>
    if other = name then (other, chunks ++ [r]) :: rest else (other, chunks) :: addChunk name r rest

/-- The last of some skills with a name. -/
def skillNamed (scored : List ScoredSkill) (name : Text) : Option ScoredSkill :=
  scored.reverse.find? fun s => s.skill.name = name

/-- The discovered skill that a chunk belongs to. -/
def skillOf (scored : List ScoredSkill) (r : ScoredResult) : Option Text :=
  (extractSkillName r.result.sourcePath).filter fun name =>
    name ≠ [] && (skillNamed scored name).isSome

/-- `chunks_by_skill`. -/
def chunksBySkill (scored : List ScoredSkill) (raw : List ScoredResult) :
    List (Text × List ScoredResult) :=
  raw.foldl (fun groups r =>
    match skillOf scored r with
    | some name => addChunk name r groups
    | none => groups) []

/-- The chunks of one skill, until one does not fit, with the tokens of all so far. -/
def takeChunks (tokenLimit : ℤ) : List ScoredResult → ℤ → List ScoredResult × ℤ
  | [], total => ([], total)
  | chunk :: rest, total =>
    if tokenLimit < total + chunk.tokens then ([], total)
    else
      let (more, last) := takeChunks tokenLimit rest (total + chunk.tokens)
      (chunk :: more, last)

/-- The context of one skill. -/
def contextOf (skill : ScoredSkill) (chunks : List ScoredResult) : SkillContext where
  skill := skill
  chunks := chunks
  promptSection := formatSkillSection skill chunks
  tokensUsed := totalTokens chunks
  relevanceScore := skill.score

/-- The loop over the skills. -/
def contextLoop (tokenLimit maxChunks : ℤ) : List (ScoredSkill × List ScoredResult) → ℤ →
    List SkillContext
  | [], _ => []
  | (skill, chunks) :: rest, total =>
    if tokenLimit ≤ total then []
    else
      let (selected, last) :=
        takeChunks tokenLimit (firstItems maxChunks (byScore ScoredResult.score chunks)) total
      if selected = [] then contextLoop tokenLimit maxChunks rest last
      else contextOf skill selected :: contextLoop tokenLimit maxChunks rest last

/-- `context_order`, each skill with its chunks. -/
def contextOrder (scored : List ScoredSkill) (raw : List ScoredResult) :
    List (ScoredSkill × List ScoredResult) :=
  byScore (fun group => group.1.score) ((chunksBySkill scored raw).filterMap fun group =>
    (skillNamed scored group.1).map fun skill => (skill, group.2))

/-- `SkillRetrievalService.retrieve`. -/
def SkillRetrievalService.retrieve (service : SkillRetrievalService) (scored : List ScoredSkill)
    (intent agent : Text) (maxChunks : ℤ) : Except PyExc (List SkillContext) := do
  if scored = [] then return []
  let raw ← service.retrieveRaw intent 50 SKILL_SOURCE_TYPES
  return contextLoop (service.budget.forAgent agent) maxChunks (contextOrder scored raw) 0

end Retrieve

section Taking

variable {limit used : ℤ} {chunks : List ScoredResult} {next : ScoredResult}

theorem totalTokens_cons (chunk : ScoredResult) (chunks : List ScoredResult) :
    totalTokens (chunk :: chunks) = chunk.tokens + totalTokens chunks := List.sum_cons

theorem totalTokens_nonneg (chunks : List ScoredResult) : 0 ≤ totalTokens chunks := by
  induction chunks with
  | nil => exact le_rfl
  | cons chunk rest ih =>
    have htokens : 0 ≤ chunk.tokens := Int.natCast_nonneg _
    rw [totalTokens_cons]
    omega

/-- Chunks are taken from the front, as long as they fit. -/
theorem takeChunks_fitting (limit : ℤ) (chunks : List ScoredResult) (used : ℤ) :
    (takeChunks limit chunks used).1 <+: chunks ∧
      (takeChunks limit chunks used).2 = used + totalTokens (takeChunks limit chunks used).1 ∧
      ((takeChunks limit chunks used).1 ≠ [] → (takeChunks limit chunks used).2 ≤ limit) ∧
      ∀ next, chunks[(takeChunks limit chunks used).1.length]? = some next →
        limit < (takeChunks limit chunks used).2 + next.tokens := by
  induction chunks generalizing used with
  | nil =>
    refine ⟨List.prefix_rfl, ?_, fun h => absurd rfl h, fun next h => by cases h⟩
    simp [takeChunks, totalTokens]
  | cons chunk rest ih =>
    by_cases hfull : limit < used + chunk.tokens
    · have hstep : takeChunks limit (chunk :: rest) used = ([], used) := by
        rw [takeChunks, if_pos hfull]
      rw [hstep]
      refine ⟨List.nil_prefix, ?_, fun h => absurd rfl h, fun next h => ?_⟩
      · simp [totalTokens]
      · have hsame : chunk = next := by simpa using h
        exact hsame ▸ hfull
    · have hstep : takeChunks limit (chunk :: rest) used =
          (chunk :: (takeChunks limit rest (used + chunk.tokens)).1,
            (takeChunks limit rest (used + chunk.tokens)).2) := by
        rw [takeChunks, if_neg hfull]
      obtain ⟨hfront, htotal, hwithin, hnext⟩ := ih (used + chunk.tokens)
      rw [hstep]
      refine ⟨(List.prefix_cons_inj chunk).mpr hfront, ?_, fun _ => ?_, fun next h => ?_⟩
      · have hcons := totalTokens_cons chunk (takeChunks limit rest (used + chunk.tokens)).1
        dsimp only
        omega
      · by_cases hnone : (takeChunks limit rest (used + chunk.tokens)).1 = []
        · rw [hnone] at htotal
          have hzero : totalTokens [] = 0 := rfl
          dsimp only
          omega
        · exact hwithin hnone
      · exact hnext next (by simpa using h)

/-- Nothing fits behind the limit. -/
theorem takeChunks_full (hused : limit ≤ used) (hpos : ∀ chunk ∈ chunks, 0 < chunk.tokens) :
    takeChunks limit chunks used = ([], used) := by
  cases chunks with
  | nil => rfl
  | cons chunk rest =>
    have hchunk := hpos chunk List.mem_cons_self
    have hover : limit < used + chunk.tokens := by omega
    rw [takeChunks, if_pos hover]

end Taking

section Picks

variable {limit maxChunks used : ℤ} {groups : List (ScoredSkill × List ScoredResult)}

/-- The chunks of a skill that are tried. -/
def offered (maxChunks : ℤ) (chunks : List ScoredResult) : List ScoredResult :=
  firstItems maxChunks (byScore ScoredResult.score chunks)

/-- What is taken of each skill, without a stop at the limit. -/
def picks (limit maxChunks : ℤ) : List (ScoredSkill × List ScoredResult) → ℤ →
    List (ScoredSkill × List ScoredResult)
  | [], _ => []
  | (skill, chunks) :: rest, used =>
    (skill, (takeChunks limit (offered maxChunks chunks) used).1) ::
      picks limit maxChunks rest (takeChunks limit (offered maxChunks chunks) used).2

/-- The tokens of what is taken. -/
def pickedTokens (picked : List (ScoredSkill × List ScoredResult)) : ℤ :=
  (picked.map fun group => totalTokens group.2).sum

theorem pickedTokens_nonneg (picked : List (ScoredSkill × List ScoredResult)) :
    0 ≤ pickedTokens picked :=
  List.sum_nonneg fun _ hx => by
    obtain ⟨group, -, rfl⟩ := List.mem_map.mp hx
    exact totalTokens_nonneg group.2

theorem picks_append (groups more : List (ScoredSkill × List ScoredResult)) (used : ℤ) :
    picks limit maxChunks (groups ++ more) used = picks limit maxChunks groups used ++
      picks limit maxChunks more (used + pickedTokens (picks limit maxChunks groups used)) := by
  induction groups generalizing used with
  | nil =>
    rw [List.nil_append, picks, List.nil_append]
    simp [pickedTokens]
  | cons group rest ih =>
    obtain ⟨skill, chunks⟩ := group
    obtain ⟨-, htotal, -⟩ := takeChunks_fitting limit (offered maxChunks chunks) used
    rw [List.cons_append, picks, picks, ih, List.cons_append]
    have hsum : (takeChunks limit (offered maxChunks chunks) used).2 + pickedTokens (picks limit
        maxChunks rest (takeChunks limit (offered maxChunks chunks) used).2) =
        used + pickedTokens ((skill, (takeChunks limit (offered maxChunks chunks) used).1) ::
          picks limit maxChunks rest (takeChunks limit (offered maxChunks chunks) used).2) := by
      unfold pickedTokens
      rw [List.map_cons, List.sum_cons, ← add_assoc, ← htotal]
    rw [hsum]

theorem picks_skills (groups : List (ScoredSkill × List ScoredResult)) (used : ℤ) :
    (picks limit maxChunks groups used).map Prod.fst = groups.map Prod.fst := by
  induction groups generalizing used with
  | nil => rfl
  | cons group rest ih => rw [picks, List.map_cons, List.map_cons, ih]

/-- Everything that is taken fits. -/
theorem picks_within (hused : used ≤ max 0 limit) :
    used + pickedTokens (picks limit maxChunks groups used) ≤ max 0 limit := by
  induction groups generalizing used with
  | nil => simpa [picks, pickedTokens] using hused
  | cons group rest ih =>
    obtain ⟨skill, chunks⟩ := group
    obtain ⟨-, htotal, hwithin, -⟩ := takeChunks_fitting limit (offered maxChunks chunks) used
    have hlast : (takeChunks limit (offered maxChunks chunks) used).2 ≤ max 0 limit := by
      by_cases hnone : (takeChunks limit (offered maxChunks chunks) used).1 = []
      · have hzero : totalTokens [] = 0 := rfl
        rw [hnone, hzero] at htotal
        omega
      · exact (hwithin hnone).trans (le_max_right _ _)
    have hrest := ih hlast
    rw [picks]
    unfold pickedTokens at hrest ⊢
    rw [List.map_cons, List.sum_cons, ← add_assoc, ← htotal]
    exact hrest

/-- What is taken of the skill behind some others. -/
theorem mem_picks {picked : ScoredSkill × List ScoredResult}
    (h : picked ∈ picks limit maxChunks groups used) :
    ∃ chunks, (picked.1, chunks) ∈ groups ∧ picked.2 <+: offered maxChunks chunks := by
  induction groups generalizing used with
  | nil => cases h
  | cons group rest ih =>
    obtain ⟨skill, chunks⟩ := group
    rw [picks] at h
    obtain rfl | hrest := List.mem_cons.mp h
    · exact ⟨chunks, List.mem_cons_self, (takeChunks_fitting limit _ used).1⟩
    · obtain ⟨others, hothers, hfront⟩ := ih hrest
      exact ⟨others, List.mem_cons_of_mem _ hothers, hfront⟩

/-- The contexts of what is taken. -/
def contextsOf (picked : List (ScoredSkill × List ScoredResult)) : List SkillContext :=
  (picked.filter fun group => group.2 ≠ []).map fun group => contextOf group.1 group.2

theorem contextsOf_append (picked more : List (ScoredSkill × List ScoredResult)) :
    contextsOf (picked ++ more) = contextsOf picked ++ contextsOf more := by
  unfold contextsOf
  rw [List.filter_append, List.map_append]

/-- The tokens of the contexts are those of all that is taken. -/
theorem contextsOf_tokens (picked : List (ScoredSkill × List ScoredResult)) :
    ((contextsOf picked).map SkillContext.tokensUsed).sum = pickedTokens picked := by
  induction picked with
  | nil => rfl
  | cons group rest ih =>
    have hsplit : contextsOf (group :: rest) = contextsOf [group] ++ contextsOf rest :=
      contextsOf_append [group] rest
    have hcons : pickedTokens (group :: rest) = totalTokens group.2 + pickedTokens rest :=
      List.sum_cons
    have hgroup : ((contextsOf [group]).map SkillContext.tokensUsed).sum = totalTokens group.2 := by
      by_cases hnone : group.2 = []
      · simp [contextsOf, hnone, totalTokens]
      · simp [contextsOf, hnone, contextOf]
    rw [hsplit, List.map_append, List.sum_append, ih, hgroup, hcons]

/-- The stop at the limit leaves nothing out. -/
theorem contextLoop_eq (hpos : ∀ group ∈ groups, ∀ chunk ∈ group.2, 0 < chunk.tokens) :
    contextLoop limit maxChunks groups used = contextsOf (picks limit maxChunks groups used) := by
  induction groups generalizing used with
  | nil => rfl
  | cons group rest ih =>
    obtain ⟨skill, chunks⟩ := group
    obtain ⟨hchunks, hrest⟩ := List.forall_mem_cons.mp hpos
    have hoffered : ∀ chunk ∈ offered maxChunks chunks, 0 < chunk.tokens :=
      fun chunk hchunk => hchunks chunk (mem_byScore.mp (mem_firstItems hchunk))
    have hsplit : ∀ (taken : List ScoredResult) (more : List (ScoredSkill × List ScoredResult)),
        contextsOf ((skill, taken) :: more) =
          if taken = [] then contextsOf more else contextOf skill taken :: contextsOf more := by
      intro taken more
      unfold contextsOf
      by_cases hnone : taken = []
      · simp [hnone]
      · simp [hnone]
    rw [picks, hsplit, contextLoop]
    by_cases hfull : limit ≤ used
    · have hstop : ∀ rest : List (ScoredSkill × List ScoredResult),
          contextLoop limit maxChunks rest used = [] := by
        intro rest
        cases rest with
        | nil => rfl
        | cons other more => rw [contextLoop, if_pos hfull]
      rw [if_pos hfull, takeChunks_full hfull hoffered]
      dsimp only
      rw [if_pos rfl, ← ih hrest, hstop]
    · rw [if_neg hfull, ← ih hrest]
      rfl

end Picks

section Groups

variable {scored : List ScoredSkill} {raw : List ScoredResult} {name other : Text}
  {chunks : List ScoredResult} {groups : List (Text × List ScoredResult)}

/-- The chunks of one skill. -/
def skillChunks (scored : List ScoredSkill) (raw : List ScoredResult) (name : Text) :
    List ScoredResult :=
  raw.filter fun r => skillOf scored r = some name

theorem addChunk_names (name : Text) (r : ScoredResult) (groups : List (Text × List ScoredResult)) :
    (addChunk name r groups).map Prod.fst =
      if name ∈ groups.map Prod.fst then groups.map Prod.fst else groups.map Prod.fst ++ [name] := by
  induction groups with
  | nil => rfl
  | cons group rest ih =>
    by_cases hsame : group.1 = name
    · simp [addChunk, hsame]
    · have hne : ¬name = group.1 := fun h => hsame h.symm
      have hmem : name ∈ (group :: rest).map Prod.fst ↔ name ∈ rest.map Prod.fst := by
        rw [List.map_cons, List.mem_cons, or_iff_right hne]
      rw [addChunk, if_neg hsame, List.map_cons, List.map_cons, ih]
      by_cases hrest : name ∈ rest.map Prod.fst
      · rw [if_pos hrest, if_pos (List.mem_cons_of_mem _ hrest)]
      · have hboth : name ∉ (group :: rest).map Prod.fst := fun h => hrest (hmem.mp h)
        rw [List.map_cons] at hboth
        rw [if_neg hrest, if_neg hboth, List.cons_append]

/-- A chunk is added behind the chunks of its skill. -/
theorem mem_addChunk (hdistinct : (groups.map Prod.fst).Nodup) (r : ScoredResult) :
    (other, chunks) ∈ addChunk name r groups ↔
      other ≠ name ∧ (other, chunks) ∈ groups ∨
        other = name ∧ ((∃ old, (name, old) ∈ groups ∧ chunks = old ++ [r]) ∨
          name ∉ groups.map Prod.fst ∧ chunks = [r]) := by
  induction groups with
  | nil =>
    rw [addChunk]
    simp
  | cons group rest ih =>
    obtain ⟨first, old⟩ := group
    rw [List.map_cons, List.nodup_cons] at hdistinct
    have hfirst : ∀ cs, (first, cs) ∉ rest := fun cs h =>
      hdistinct.1 (List.mem_map.mpr ⟨(first, cs), h, rfl⟩)
    by_cases hsame : first = name
    · subst hsame
      rw [addChunk, if_pos rfl]
      constructor
      · intro h
        obtain heq | hrest := List.mem_cons.mp h
        · obtain ⟨rfl, rfl⟩ := Prod.mk.inj heq
          exact .inr ⟨rfl, .inl ⟨old, List.mem_cons_self, rfl⟩⟩
        · refine .inl ⟨fun heq => ?_, List.mem_cons_of_mem _ hrest⟩
          exact hfirst chunks (heq ▸ hrest)
      · rintro (⟨hne, hmem⟩ | ⟨rfl, ⟨cs, hcs, rfl⟩ | ⟨hnew, -⟩⟩)
        · obtain heq | hrest := List.mem_cons.mp hmem
          · exact absurd (Prod.mk.inj heq).1 hne
          · exact List.mem_cons_of_mem _ hrest
        · obtain heq | hrest := List.mem_cons.mp hcs
          · rw [(Prod.mk.inj heq).2]
            exact List.mem_cons_self
          · exact absurd hrest (hfirst cs)
        · exact absurd List.mem_cons_self hnew
    · have hnames : name ∉ first :: rest.map Prod.fst ↔ name ∉ rest.map Prod.fst := by
        rw [List.mem_cons, or_iff_right fun h => hsame h.symm]
      have hold : ∀ cs, (name, cs) ∈ (first, old) :: rest ↔ (name, cs) ∈ rest := by
        intro cs
        rw [List.mem_cons, or_iff_right fun h => hsame (Prod.mk.inj h).1.symm]
      rw [addChunk, if_neg hsame, List.mem_cons, ih hdistinct.2, List.map_cons, hnames]
      simp only [hold]
      constructor
      · rintro (heq | ⟨hne, hmem⟩ | hnew)
        · refine .inl ⟨fun h => hsame ?_, heq ▸ List.mem_cons_self⟩
          exact (Prod.mk.inj heq).1.symm.trans h
        · exact .inl ⟨hne, List.mem_cons_of_mem _ hmem⟩
        · exact .inr hnew
      · rintro (⟨hne, hmem⟩ | hnew)
        · obtain heq | hrest := List.mem_cons.mp hmem
          · exact .inl heq
          · exact .inr (.inl ⟨hne, hrest⟩)
        · exact .inr (.inr hnew)

/-- The groups are the chunks of the skills that have some. -/
theorem chunksBySkill_groups (scored : List ScoredSkill) (raw : List ScoredResult) :
    ((chunksBySkill scored raw).map Prod.fst).Nodup ∧ ∀ name chunks,
      (name, chunks) ∈ chunksBySkill scored raw ↔
        chunks = skillChunks scored raw name ∧ chunks ≠ [] := by
  induction raw using List.reverseRecOn with
  | nil =>
    refine ⟨List.nodup_nil, fun name chunks => ⟨fun h => absurd h List.not_mem_nil, ?_⟩⟩
    rintro ⟨rfl, hsome⟩
    exact absurd rfl hsome
  | append_singleton raw r ih =>
    obtain ⟨hdistinct, hgroups⟩ := ih
    have hchunks : ∀ name, skillChunks scored (raw ++ [r]) name =
        skillChunks scored raw name ++ if skillOf scored r = some name then [r] else [] := by
      intro name
      unfold skillChunks
      rw [List.filter_append, List.filter_singleton]
      simp
    cases hskill : skillOf scored r with
    | none =>
      have hstep : chunksBySkill scored (raw ++ [r]) = chunksBySkill scored raw := by
        unfold chunksBySkill
        rw [List.foldl_append, List.foldl_cons, hskill]
        rfl
      rw [hstep]
      refine ⟨hdistinct, fun name chunks => ?_⟩
      rw [hgroups, hchunks, hskill, if_neg (Option.some_ne_none name).symm, List.append_nil]
    | some found =>
      have hstep : chunksBySkill scored (raw ++ [r]) =
          addChunk found r (chunksBySkill scored raw) := by
        unfold chunksBySkill
        rw [List.foldl_append, List.foldl_cons, hskill]
        rfl
      rw [hstep]
      have hnames : found ∉ (chunksBySkill scored raw).map Prod.fst ↔
          skillChunks scored raw found = [] := by
        constructor
        · intro hnew
          by_contra hsome
          refine hnew (List.mem_map.mpr ⟨(found, skillChunks scored raw found), ?_, rfl⟩)
          exact (hgroups found _).mpr ⟨rfl, hsome⟩
        · intro hnone hmem
          obtain ⟨⟨name, chunks⟩, hgroup, rfl⟩ := List.mem_map.mp hmem
          obtain ⟨rfl, hsome⟩ := (hgroups name chunks).mp hgroup
          exact hsome hnone
      constructor
      · rw [addChunk_names]
        split
        · exact hdistinct
        · rename_i hnew
          exact hdistinct.append (List.nodup_singleton _) (List.disjoint_singleton.mpr hnew)
      · intro name chunks
        rw [mem_addChunk hdistinct, hnames, hchunks, hskill]
        by_cases hsame : name = found
        · subst hsame
          rw [if_pos rfl]
          constructor
          · rintro (⟨hne, -⟩ | ⟨-, ⟨old, hold, rfl⟩ | ⟨hnone, rfl⟩⟩)
            · exact absurd rfl hne
            · rw [((hgroups name old).mp hold).1]
              exact ⟨rfl, by simp⟩
            · rw [hnone]
              exact ⟨rfl, List.cons_ne_nil _ _⟩
          · rintro ⟨rfl, -⟩
            refine .inr ⟨rfl, ?_⟩
            by_cases hnone : skillChunks scored raw name = []
            · rw [hnone]
              exact .inr ⟨rfl, rfl⟩
            · exact .inl ⟨_, (hgroups name _).mpr ⟨rfl, hnone⟩, rfl⟩
        · have hne : ¬some found = some name := fun h => hsame (Option.some.inj h).symm
          rw [if_neg hne, List.append_nil, hgroups]
          simp [hsame]

theorem skillNamed_some {skill : ScoredSkill} (h : skillNamed scored name = some skill) :
    skill ∈ scored ∧ skill.skill.name = name := by
  unfold skillNamed at h
  have hname := List.find?_some h
  exact ⟨List.mem_reverse.mp (List.mem_of_find?_eq_some h), of_decide_eq_true hname⟩

/-- The skills of the groups were discovered. -/
theorem mem_contextOrder {skill : ScoredSkill} :
    (skill, chunks) ∈ contextOrder scored raw ↔
      skillNamed scored skill.skill.name = some skill ∧
        chunks = skillChunks scored raw skill.skill.name ∧ chunks ≠ [] := by
  unfold contextOrder
  rw [mem_byScore, List.mem_filterMap]
  constructor
  · rintro ⟨⟨name, others⟩, hgroup, hskill⟩
    obtain ⟨found, hfound, heq⟩ := Option.map_eq_some_iff.mp hskill
    obtain ⟨rfl, rfl⟩ := Prod.mk.inj heq
    have hname := (skillNamed_some hfound).2
    dsimp only at hfound hname
    subst hname
    exact ⟨hfound, ((chunksBySkill_groups scored raw).2 _ _).mp hgroup⟩
  · rintro ⟨hskill, hchunks⟩
    refine ⟨(skill.skill.name, chunks), ((chunksBySkill_groups scored raw).2 _ _).mpr hchunks, ?_⟩
    rw [hskill]
    rfl

/-- Each skill has one group. -/
theorem contextOrder_distinct (scored : List ScoredSkill) (raw : List ScoredResult) :
    ((contextOrder scored raw).map fun group => group.1.skill.name).Nodup := by
  have hsub : ∀ groups : List (Text × List ScoredResult),
      ((groups.filterMap fun group =>
        (skillNamed scored group.1).map fun skill => (skill, group.2)).map fun group =>
          group.1.skill.name).Sublist (groups.map Prod.fst) := by
    intro groups
    induction groups with
    | nil => exact List.Sublist.refl _
    | cons group rest ih =>
      cases hskill : skillNamed scored group.1 with
      | none =>
        rw [List.filterMap_cons_none (by rw [hskill]; rfl)]
        exact ih.cons _
      | some skill =>
        rw [List.filterMap_cons_some (b := (skill, group.2)) (by rw [hskill]; rfl), List.map_cons,
          List.map_cons, (skillNamed_some hskill).2]
        exact ih.cons_cons _
  unfold contextOrder
  rw [((byScore_perm _ _).map _).nodup_iff]
  exact ((chunksBySkill_groups scored raw).1).sublist (hsub _)

end Groups

section Contexts

variable {limit maxChunks : ℤ} {scored : List ScoredSkill} {raw : List ScoredResult}

/-- Contexts within a limit, of discovered skills with some of their chunks. -/
structure Within (limit maxChunks : ℤ) (scored : List ScoredSkill) (raw : List ScoredResult)
    (contexts : List SkillContext) : Prop where
  within : (contexts.map SkillContext.tokensUsed).sum ≤ max 0 limit
  formed : ∀ c ∈ contexts, c = contextOf c.skill c.chunks ∧ c.chunks ≠ []
  skills : ∀ c ∈ contexts, skillNamed scored c.skill.skill.name = some c.skill
  once : (contexts.map fun c => c.skill.skill.name).Nodup
  chunks : ∀ c ∈ contexts,
    c.chunks <+: offered maxChunks (skillChunks scored raw c.skill.skill.name)

/-- The contexts of the skills in their order with the best chunks of each, as many as fit. -/
structure Greedy (limit maxChunks : ℤ) (scored : List ScoredSkill) (raw : List ScoredResult)
    (contexts : List SkillContext) : Prop extends Within limit maxChunks scored raw contexts where
  ordered : contexts.Pairwise fun c later => later.relevanceScore.le c.relevanceScore = true
  best : ∀ c ∈ contexts, c.chunks.Pairwise fun chunk later => later.score.le chunk.score = true
  /-- What is left out does not fit behind what is at least as relevant. -/
  complete : ∀ skill, skillNamed scored skill.skill.name = some skill →
    ∃ taken, (taken ≠ [] → contextOf skill taken ∈ contexts) ∧
      taken <+: offered maxChunks (skillChunks scored raw skill.skill.name) ∧
      ∀ next, (offered maxChunks (skillChunks scored raw skill.skill.name))[taken.length]? =
        some next → limit < ((contexts.filter fun c => skill.score.le c.relevanceScore).map
          SkillContext.tokensUsed).sum + next.tokens

theorem mem_contextsOf {picked : List (ScoredSkill × List ScoredResult)} {c : SkillContext} :
    c ∈ contextsOf picked ↔
      ∃ group ∈ picked, group.2 ≠ [] ∧ contextOf group.1 group.2 = c := by
  unfold contextsOf
  simp only [List.mem_map, List.mem_filter, decide_eq_true_eq, and_assoc]

/-- What holds of the skills in their order holds of their contexts. -/
theorem contextsOf_pairwise {picked : List (ScoredSkill × List ScoredResult)}
    {r : ScoredSkill → ScoredSkill → Prop} (h : (picked.map Prod.fst).Pairwise r) :
    (contextsOf picked).Pairwise fun c later => r c.skill later.skill := by
  unfold contextsOf
  exact List.pairwise_map.mpr ((List.pairwise_map.mp h).sublist List.filter_sublist)

/-- The groups in their order have scores in their order. -/
theorem contextOrder_sorted (hscored : ∀ s ∈ scored, s.score ≠ .nan) :
    ((contextOrder scored raw).map Prod.fst).Pairwise fun skill later =>
      later.score.le skill.score = true := by
  refine List.pairwise_map.mpr (byScore_sorted fun group hgroup => ?_)
  obtain ⟨named, -, hskill⟩ := List.mem_filterMap.mp hgroup
  obtain ⟨skill, hfound, rfl⟩ := Option.map_eq_some_iff.mp hskill
  exact hscored skill (skillNamed_some hfound).1

theorem le_of_number {x : PyFloat} (h : x ≠ .nan) : x.le x = true := (le_iff_place h h).mpr le_rfl

/-- What is taken of a skill stops where nothing fits behind the skills before it. -/
theorem contextsOf_complete (hscored : ∀ s ∈ scored, s.score ≠ .nan) {skill : ScoredSkill}
    {chunks : List ScoredResult} (hgroup : (skill, chunks) ∈ contextOrder scored raw) :
    ∃ taken, (taken ≠ [] → contextOf skill taken ∈
        contextsOf (picks limit maxChunks (contextOrder scored raw) 0)) ∧
      taken <+: offered maxChunks chunks ∧
      ∀ next, (offered maxChunks chunks)[taken.length]? = some next →
        limit < (((contextsOf (picks limit maxChunks (contextOrder scored raw) 0)).filter fun c =>
          skill.score.le c.relevanceScore).map SkillContext.tokensUsed).sum + next.tokens := by
  have hsorted := @contextOrder_sorted scored raw hscored
  obtain ⟨before, after, hsplit⟩ := List.append_of_mem hgroup
  rw [hsplit] at hsorted ⊢
  rw [picks_append, picks, contextsOf_append]
  generalize hused : 0 + pickedTokens (picks limit maxChunks before 0) = used
  obtain ⟨hfront, htotal, -, hnext⟩ := takeChunks_fitting limit (offered maxChunks chunks) used
  generalize takeChunks limit (offered maxChunks chunks) used = taken at hfront htotal hnext ⊢
  refine ⟨taken.1, fun hsome => ?_, hfront, fun next hleft => ?_⟩
  · refine List.mem_append_right _ (mem_contextsOf.mpr ?_)
    exact ⟨(skill, taken.1), List.mem_cons_self, hsome, rfl⟩
  · -- the skills up to this one are at least as relevant
    have hpart : contextsOf ((skill, taken.1) :: picks limit maxChunks after taken.2) =
        contextsOf [(skill, taken.1)] ++ contextsOf (picks limit maxChunks after taken.2) :=
      contextsOf_append [(skill, taken.1)] _
    have hrelevant : ∀ c ∈ contextsOf (picks limit maxChunks before 0) ++
        contextsOf [(skill, taken.1)], skill.score.le c.relevanceScore = true := by
      intro c hc
      obtain hbefore | hown := List.mem_append.mp hc
      · obtain ⟨group, hpicked, -, rfl⟩ := mem_contextsOf.mp hbefore
        obtain ⟨others, hothers, -⟩ := mem_picks hpicked
        rw [List.map_append, List.pairwise_append] at hsorted
        refine hsorted.2.2 group.1 (List.mem_map.mpr ⟨_, hothers, rfl⟩) skill ?_
        exact List.mem_map.mpr ⟨(skill, chunks), List.mem_cons_self, rfl⟩
      · obtain ⟨group, hpicked, -, rfl⟩ := mem_contextsOf.mp hown
        obtain rfl := List.mem_singleton.mp hpicked
        exact le_of_number (hscored skill (skillNamed_some (mem_contextOrder.mp hgroup).1).1)
    have htokens : taken.2 = ((contextsOf (picks limit maxChunks before 0) ++
        contextsOf [(skill, taken.1)]).map SkillContext.tokensUsed).sum := by
      have hown : pickedTokens [(skill, taken.1)] = totalTokens taken.1 := by simp [pickedTokens]
      rw [List.map_append, List.sum_append, contextsOf_tokens, contextsOf_tokens, hown, htotal]
      omega
    have hmore : 0 ≤ (((contextsOf (picks limit maxChunks after taken.2)).filter fun c =>
        skill.score.le c.relevanceScore).map SkillContext.tokensUsed).sum := by
      refine List.sum_nonneg fun x hx => ?_
      obtain ⟨c, hc, rfl⟩ := List.mem_map.mp hx
      obtain ⟨group, -, -, rfl⟩ := mem_contextsOf.mp (List.mem_of_mem_filter hc)
      exact totalTokens_nonneg group.2
    have hover := hnext next hleft
    rw [hpart, ← List.append_assoc, List.filter_append, List.filter_eq_self.mpr hrelevant,
      List.map_append, List.sum_append, ← htokens]
    omega

variable {service : SkillRetrievalService} {intent agent : Text} {contexts : List SkillContext}

/-- What is retrieved are the contexts of what is taken. -/
theorem retrieve_picks (hraw : service.retrieveRaw intent 50 SKILL_SOURCE_TYPES = .ok raw)
    (hpos : ∀ r ∈ raw, 0 < r.tokens)
    (hcontexts : service.retrieve scored intent agent maxChunks = .ok contexts) :
    contexts = contextsOf (picks (service.budget.forAgent agent) maxChunks
      (contextOrder scored raw) 0) := by
  have hchunks : ∀ group ∈ contextOrder scored raw, ∀ chunk ∈ group.2, 0 < chunk.tokens := by
    intro group hgroup chunk hchunk
    rw [(mem_contextOrder.mp hgroup).2.1] at hchunk
    exact hpos chunk (List.mem_of_mem_filter hchunk)
  rw [← contextLoop_eq hchunks]
  unfold SkillRetrievalService.retrieve at hcontexts
  by_cases hnone : scored = []
  · have hempty : contextOrder scored raw = [] := by
      refine List.eq_nil_iff_forall_not_mem.mpr fun group hgroup => ?_
      have hmem := (skillNamed_some (mem_contextOrder.mp hgroup).1).1
      rw [hnone] at hmem
      exact List.not_mem_nil hmem
    rw [hempty]
    rw [if_pos hnone] at hcontexts
    exact (Except.ok.inj hcontexts).symm
  · rw [if_neg hnone] at hcontexts
    simp only [bind, Except.bind, hraw, pure, Except.pure] at hcontexts
    exact (Except.ok.inj hcontexts).symm

theorem contextsOf_within (limit maxChunks : ℤ) (scored : List ScoredSkill)
    (raw : List ScoredResult) : Within limit maxChunks scored raw
      (contextsOf (picks limit maxChunks (contextOrder scored raw) 0)) := by
  have hpicked : ∀ c ∈ contextsOf (picks limit maxChunks (contextOrder scored raw) 0),
      c = contextOf c.skill c.chunks ∧ c.chunks ≠ [] ∧
        skillNamed scored c.skill.skill.name = some c.skill ∧
        c.chunks <+: offered maxChunks (skillChunks scored raw c.skill.skill.name) := by
    intro c hc
    obtain ⟨group, hgroup, hsome, rfl⟩ := mem_contextsOf.mp hc
    obtain ⟨chunks, hchunks, hfront⟩ := mem_picks hgroup
    obtain ⟨hnamed, rfl, -⟩ := mem_contextOrder.mp hchunks
    exact ⟨rfl, hsome, hnamed, hfront⟩
  refine
    { within := ?_
      formed := fun c hc => ⟨(hpicked c hc).1, (hpicked c hc).2.1⟩
      skills := fun c hc => (hpicked c hc).2.2.1
      once := ?_
      chunks := fun c hc => (hpicked c hc).2.2.2 }
  · have hfits := @picks_within limit maxChunks 0 (contextOrder scored raw) (le_max_left 0 limit)
    rw [contextsOf_tokens]
    omega
  · have hnames : ((picks limit maxChunks (contextOrder scored raw) 0).map Prod.fst).Pairwise
        fun s other => s.skill.name ≠ other.skill.name := by
      rw [picks_skills]
      exact List.pairwise_map.mpr (List.pairwise_map.mp (contextOrder_distinct scored raw))
    exact List.pairwise_map.mpr (contextsOf_pairwise hnames)

/-- The contexts of an agent are within its budget, in the order of the skills, with the best
chunks of each, and what is left out would not fit. -/
theorem retrieve_greedy (service : SkillRetrievalService) (scored : List ScoredSkill)
    (intent agent : Text) (maxChunks : ℤ) {raw : List ScoredResult} {contexts : List SkillContext}
    (hraw : service.retrieveRaw intent 50 SKILL_SOURCE_TYPES = .ok raw)
    (hcounted : ∀ r ∈ raw, 0 < r.tokens ∧ r.score ≠ .nan)
    (hscored : ∀ s ∈ scored, s.score ≠ .nan)
    (hcontexts : service.retrieve scored intent agent maxChunks = .ok contexts) :
    Greedy (service.budget.forAgent agent) maxChunks scored raw contexts := by
  have hpicks := retrieve_picks hraw (fun r hr => (hcounted r hr).1) hcontexts
  have hwithin := contextsOf_within (service.budget.forAgent agent) maxChunks scored raw
  rw [← hpicks] at hwithin
  refine { hwithin with ordered := ?_, best := fun c hc => ?_, complete := fun skill hskill => ?_ }
  · have hsorted := @contextOrder_sorted scored raw hscored
    rw [← @picks_skills (service.budget.forAgent agent) maxChunks (contextOrder scored raw) 0]
      at hsorted
    have hskills := contextsOf_pairwise hsorted
    rw [← hpicks] at hskills
    refine hskills.imp_of_mem fun hc hlater h => ?_
    rw [(hwithin.formed _ hc).1, (hwithin.formed _ hlater).1]
    exact h
  · refine (byScore_sorted fun r hr => ?_).sublist
      ((hwithin.chunks c hc).sublist.trans (List.take_sublist _ _))
    exact (hcounted r (List.mem_of_mem_filter hr)).2
  · by_cases hnone : skillChunks scored raw skill.skill.name = []
    · have hempty : offered maxChunks [] = [] := List.take_nil
      rw [hnone, hempty]
      exact ⟨[], fun h => absurd rfl h, List.nil_prefix, fun next h => by cases h⟩
    · rw [hpicks]
      exact contextsOf_complete hscored (mem_contextOrder.mpr ⟨hskill, rfl, hnone⟩)

/-- A chunk of the file of a skill. -/
def skillFileChunk (name content : String) : ScoredResult where
  result :=
    { chunkId := content.toList
      sourceId := name.toList
      sourceType := "skill".toList
      sourcePath := "skills/".toList ++ name.toList ++ "/SKILL.md".toList
      documentId := name.toList
      content := content.toList
      position := 0
      contentHash := []
      tokenEstimate := tokenEstimate content.toList
      metadata := [] }
  score := .finite (1 / 2)

/-- A skill with a score. -/
def namedSkill (name : String) (score : ℚ) : ScoredSkill where
  skill := { name := name.toList, description := "A skill".toList }
  score := .finite score
  triggerMatches := []
  scopeMatches := []
  priorityScore := .finite 0

/-- Three chunks of two skills, for a planner with five tokens. -/
def sampleRetrieval : SkillRetrievalService where
  retrieveRaw := fun _ _ _ => .ok [skillFileChunk "style" "Keep lines short",
    skillFileChunk "testing" "Test first", skillFileChunk "testing" "Name tests well"]
  budget := { overrides := [("planner".toList, 5)] }

theorem retrieve_greedy_sample :
    (((contextLoop 5 2 (contextOrder [namedSkill "testing" (3 / 4), namedSkill "style" (1 / 4)]
      [skillFileChunk "style" "Keep lines short", skillFileChunk "testing" "Test first",
        skillFileChunk "testing" "Name tests well"]) 0)).map SkillContext.tokensUsed).sum ≤ 5 :=
  (retrieve_greedy sampleRetrieval [namedSkill "testing" (3 / 4), namedSkill "style" (1 / 4)]
    "write".toList "planner".toList 2 rfl (by decide) (by decide) rfl).within

end Contexts

end AiosDeck.Skills
