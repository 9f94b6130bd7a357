import AiosDeck.Research.Agent

/-!
# Validity of the results of research

Without anything injected, a result is valid when every file that is quoted says
something where it is quoted.
-/

namespace AiosDeck.Research

open Python Agents

section Collection

variable (world : World) (project : Project) (keywords : List Text)

/-- A file that contains a keyword, with its text. -/
def matched (parts : List Text) : Option (List Text × Text) :=
  match project.read (asPosix parts) with
  | none => none
  | some text => if mentions world keywords parts text then some (parts, text) else none

/-- The files that are quoted: the first ones that contain a keyword. -/
def quoted : List (List Text × Text) :=
  ((iterTextFiles project).filterMap (matched world project keywords)).take MAX_LOCAL_SOURCES

/-- The sources of files, numbered from some number on. -/
def numbered (first : ℕ) (files : List (List Text × Text)) : List ResearchSource :=
  files.mapIdx fun index file => localSource world keywords (first + index) file.1 file.2

variable {world project keywords}

theorem numbered_cons {first : ℕ} {file : List Text × Text} {files : List (List Text × Text)} :
    numbered world keywords first (file :: files) =
      localSource world keywords first file.1 file.2 ::
        numbered world keywords (first + 1) files := by
  have hshift : (fun index (file : List Text × Text) =>
      localSource world keywords (first + (index + 1)) file.1 file.2) =
      fun index file => localSource world keywords (first + 1 + index) file.1 file.2 := by
    funext index file
    have hindex : first + (index + 1) = first + 1 + index := by omega
    rw [hindex]
  unfold numbered
  rw [List.mapIdx_cons, hshift]
  rfl

/-- The loop collects the first files that contain a keyword. -/
theorem collectFrom_eq {sources : List ResearchSource} (paths : List (List Text))
    (hroom : sources.length < MAX_LOCAL_SOURCES) :
    collectFrom world project keywords sources paths =
      sources ++ numbered world keywords (sources.length + 1)
        ((paths.filterMap (matched world project keywords)).take
          (MAX_LOCAL_SOURCES - sources.length)) := by
  induction paths generalizing sources with
  | nil => simp [collectFrom, numbered]
  | cons parts rest ih =>
    rw [collectFrom]
    cases hread : project.read (asPosix parts) with
    | none =>
      have hnone : matched world project keywords parts = none := by simp [matched, hread]
      rw [List.filterMap_cons_none hnone]
      exact ih hroom
    | some text =>
      by_cases hmentions : mentions world keywords parts text = true
      · have hsome : matched world project keywords parts = some (parts, text) := by
          simp [matched, hread, hmentions]
        obtain ⟨room, hroom'⟩ : ∃ room, MAX_LOCAL_SOURCES - sources.length = room + 1 :=
          ⟨MAX_LOCAL_SOURCES - sources.length - 1, by omega⟩
        rw [List.filterMap_cons_some hsome, hroom', List.take_succ_cons, numbered_cons]
        simp only [hmentions, if_true]
        have hlength : (sources ++ [localSource world keywords (sources.length + 1) parts
            text]).length = sources.length + 1 := by simp
        split
        · rename_i hfull
          rw [hlength] at hfull
          have hnone : room = 0 := by omega
          simp [hnone, numbered]
        · rename_i hfree
          rw [ih (by omega), hlength, List.append_assoc, List.singleton_append]
          have hroom'' : MAX_LOCAL_SOURCES - (sources.length + 1) = room := by omega
          rw [hroom'']
      · have hnone : matched world project keywords parts = none := by
          simp [matched, hread, hmentions]
        rw [List.filterMap_cons_none hnone]
        simp only [hmentions]
        exact ih hroom

/-- What a task finds in the project. -/
theorem collectLocal_eq {task : ResearchTask} {root : Option String}
    (hroot : projectRoot task.contextPacket = .ok root) :
    collectLocal world task = .ok (numbered world (Research.keywords world task.question) 1
      (quoted world (world.disk root) (Research.keywords world task.question))) := by
  unfold collectLocal
  rw [hroot]
  by_cases hempty : (Research.keywords world task.question).isEmpty = true
  · have hnil : Research.keywords world task.question = [] := List.isEmpty_iff.mp hempty
    have hmatched : ∀ parts, matched world (world.disk root) [] parts = none := by
      intro parts
      unfold matched
      cases (world.disk root).read (asPosix parts) <;> simp [mentions]
    have hnone : (iterTextFiles (world.disk root)).filterMap (matched world (world.disk root) []) =
        [] := List.filterMap_eq_nil_iff.mpr fun parts _ => hmatched parts
    simp [hnil, quoted, hnone, numbered, bind, Except.bind, pure, Except.pure]
  · have hloop := @collectFrom_eq world (world.disk root)
      (Research.keywords world task.question) [] (iterTextFiles (world.disk root)) (by decide)
    simp only [bind, Except.bind, pure, Except.pure, hempty, Bool.false_eq_true, if_false]
    rw [hloop]
    rfl

end Collection

section Deduplication

variable {world : World} {keywords : List Text}

/-- What is kept comes from the sources, in their order. -/
theorem dedupeSources_sublist (seen : List Text) (sources : List ResearchSource) :
    (dedupeSources seen sources).Sublist sources := by
  induction sources generalizing seen with
  | nil => exact .slnil
  | cons source rest ih =>
    rw [dedupeSources]
    split
    · exact (ih seen).cons source
    · exact (ih _).cons_cons source

/-- For a source that is dropped, one with the same key is kept, or was seen before. -/
theorem exists_kept {seen : List Text} {sources : List ResearchSource} {source : ResearchSource}
    (hmem : source ∈ sources) (hkey : strip source.url ≠ []) (hnew : strip source.url ∉ seen) :
    ∃ kept ∈ dedupeSources seen sources, strip kept.url = strip source.url := by
  induction sources generalizing seen with
  | nil => exact absurd hmem List.not_mem_nil
  | cons first rest ih =>
    rw [dedupeSources]
    split
    · rename_i hskip
      cases List.mem_cons.mp hmem with
      | inl heq =>
        rw [← heq] at hskip
        tauto
      | inr hmem => exact ih hmem hnew
    · by_cases hsame : strip first.url = strip source.url
      · exact ⟨first, List.mem_cons_self, hsame⟩
      · have hnew' : strip source.url ∉ strip first.url :: seen := by
          intro hseen
          cases List.mem_cons.mp hseen with
          | inl heq => exact hsame heq.symm
          | inr hseen => exact hnew hseen
        cases List.mem_cons.mp hmem with
        | inl heq => exact absurd (heq ▸ rfl) hsame
        | inr hmem =>
          obtain ⟨kept, hkept, hsame⟩ := ih hmem hnew'
          exact ⟨kept, List.mem_cons_of_mem first hkept, hsame⟩

end Deduplication

section Paths

/-- The extensions end with a letter. -/
theorem extension_last {ending : Text} (h : ending ∈ TEXT_EXTENSIONS) :
    ∃ c, ending.getLast? = some c ∧ isSpace c = false := by
  have hall : TEXT_EXTENSIONS.all (fun ending => ending.getLast?.any fun c => !isSpace c) =
      true := by decide
  have hlast := List.all_eq_true.mp hall ending h
  cases hget : ending.getLast? with
  | none =>
    rw [hget] at hlast
    cases hlast
  | some c =>
    rw [hget] at hlast
    exact ⟨c, rfl, by simpa using hlast⟩

/-- A path with a name ends with the name. -/
theorem asPosix_suffix (front : List Text) (name : Text) : name <:+ asPosix (front ++ [name]) := by
  induction front with
  | nil => simp [asPosix]
  | cons part front ih =>
    have hne : front ++ [name] ≠ [] := by simp
    unfold asPosix at ih ⊢
    rw [List.cons_append, List.intercalate_cons_of_ne_nil hne]
    exact ih.trans (List.suffix_append _ _)

mutual

/-- The last part of every path is the name of a text file. -/
theorem textFiles_named (directory : Directory) (parts path : List Text)
    (h : path ∈ directory.textFiles parts) :
    ∃ front name, path = front ++ [name] ∧ isTextFile name = true := by
  cases directory with
  | node files children =>
    rw [Directory.textFiles] at h
    cases List.mem_append.mp h with
    | inl hmem =>
      obtain ⟨name, hname, rfl⟩ := List.mem_map.mp hmem
      exact ⟨parts, name, rfl, (List.mem_filter.mp hname).2⟩
    | inr hmem => exact childFiles_named children parts path hmem

theorem childFiles_named (children : List (Text × Directory)) (parts path : List Text)
    (h : path ∈ childFiles parts children) :
    ∃ front name, path = front ++ [name] ∧ isTextFile name = true := by
  cases children with
  | nil => exact absurd h List.not_mem_nil
  | cons child rest =>
    rw [childFiles] at h
    cases List.mem_append.mp h with
    | inl hmem =>
      split at hmem
      · exact absurd hmem List.not_mem_nil
      · exact textFiles_named child.2 (parts ++ [child.1]) path hmem
    | inr hmem => exact childFiles_named rest parts path hmem

end

/-- The path of a text file ends with a letter. -/
theorem asPosix_last {project : Project} {parts : List Text} (h : parts ∈ iterTextFiles project) :
    ∃ c, (asPosix parts).getLast? = some c ∧ isSpace c = false := by
  unfold iterTextFiles at h
  cases htree : project.tree with
  | none =>
    rw [htree] at h
    exact absurd h List.not_mem_nil
  | some directory =>
    rw [htree] at h
    obtain ⟨front, name, rfl, hname⟩ := textFiles_named directory [] parts h
    obtain ⟨ending, hending, hends⟩ := List.any_eq_true.mp hname
    obtain ⟨c, hlast, hspace⟩ := extension_last hending
    obtain ⟨lead, hlead⟩ := (List.isSuffixOf_iff_suffix.mp hends).trans (asPosix_suffix front name)
    refine ⟨c, ?_, hspace⟩
    rw [← hlead, List.getLast?_append, hlast]
    rfl

variable {world : World} {keywords : List Text} {parts : List Text} {text : Text} {number : ℕ}

/-- The key of the source of a file is its address. -/
theorem strip_url {c : Char} (hlast : (asPosix parts).getLast? = some c)
    (hspace : isSpace c = false) :
    strip (localSource world keywords number parts text).url = "file://".toList ++ asPosix parts := by
  have hend : ("file://".toList ++ asPosix parts).getLast? = some c := by
    rw [List.getLast?_append, hlast]
    rfl
  exact strip_eq_self rfl hend (by decide) hspace

/-- A text with a letter is filled. -/
theorem filled_iff {text : Text} : filled text = true ↔ ∃ c ∈ text, isSpace c = false := by
  simp [filled]

end Paths

section Quotes

/-- What is quoted of a file says something: its beginning, where only the path contains a
keyword, and its path, where nothing of the text is quoted. -/
structure Quotable (world : World) (keywords : List Text) (parts : List Text) (text : Text) :
    Prop where
  opening : (∀ keyword ∈ keywords, find? (world.lower text) keyword = none) → text ≠ [] →
    filled (text.take SNIPPET_CHARS) = true
  path : snippet world text keywords = [] → filled ((asPosix parts).take 200) = true

variable {world : World} {keywords : List Text} {parts : List Text} {text : Text}

/-- Where no keyword is in the text, its beginning is quoted. -/
theorem snippet_of_none (h : ∀ keyword ∈ keywords, find? (world.lower text) keyword = none) :
    snippet world text keywords = text.take SNIPPET_CHARS := by
  have hnone : keywords.filterMap (fun kw => find? (world.lower text) kw) = [] :=
    List.filterMap_eq_nil_iff.mpr h
  rw [snippet, hnone]

/-- Where a keyword is in the text, what is quoted is stripped. -/
theorem snippet_of_some (h : ¬ ∀ keyword ∈ keywords, find? (world.lower text) keyword = none) :
    ∃ window, snippet world text keywords = strip window ∧ window.length ≤ SNIPPET_CHARS := by
  cases hpositions : keywords.filterMap (fun kw => find? (world.lower text) kw) with
  | nil => exact absurd (List.filterMap_eq_nil_iff.mp hpositions) h
  | cons first others =>
    refine ⟨slice text (others.foldl min first - SNIPPET_CHARS / 2)
      (others.foldl min first - SNIPPET_CHARS / 2 + SNIPPET_CHARS), ?_, ?_⟩
    · rw [snippet, hpositions]
    · unfold slice
      rw [List.length_drop, List.length_take]
      omega

/-- What is quoted is short. -/
theorem length_snippet_le : (snippet world text keywords).length ≤ 200 := by
  have hshort : SNIPPET_CHARS ≤ 200 := by decide
  by_cases hnone : ∀ keyword ∈ keywords, find? (world.lower text) keyword = none
  · rw [snippet_of_none hnone, List.length_take]
    omega
  · obtain ⟨window, hsnippet, hlength⟩ := snippet_of_some hnone
    have hstrip := length_strip_le window
    rw [hsnippet]
    omega

/-- A stripped text that is left is filled. -/
theorem filled_strip {window : Text} (h : strip window ≠ []) : filled (strip window) = true := by
  by_contra hblank
  have hall : ∀ c ∈ strip window, isSpace c = true := by
    intro c hmem
    by_contra hspace
    exact hblank (filled_iff.mpr ⟨c, hmem, by simpa using hspace⟩)
  exact h (strip_blank (blank_of_strip hall))

/-- The claim about a file says something exactly when the file can be quoted. -/
theorem filled_claim_iff {finding number : ℕ} :
    filled (sourceFinding finding (localSource world keywords number parts text)).claim = true ↔
      Quotable world keywords parts text := by
  have hclaim : (sourceFinding finding (localSource world keywords number parts text)).claim =
      (if snippet world text keywords = [] then asPosix parts
        else snippet world text keywords).take 200 := rfl
  rw [hclaim]
  by_cases hempty : snippet world text keywords = []
  · rw [if_pos hempty]
    constructor
    · intro hpath
      refine ⟨fun hnone hne => ?_, fun _ => hpath⟩
      rw [snippet_of_none hnone] at hempty
      cases text with
      | nil => exact absurd rfl hne
      | cons c rest => cases hempty
    · intro hquotable
      exact hquotable.path hempty
  · rw [if_neg hempty, List.take_of_length_le length_snippet_le]
    by_cases hnone : ∀ keyword ∈ keywords, find? (world.lower text) keyword = none
    · rw [snippet_of_none hnone] at hempty ⊢
      constructor
      · intro hopening
        refine ⟨fun _ _ => hopening, fun hnil => ?_⟩
        rw [snippet_of_none hnone] at hnil
        exact absurd hnil hempty
      · intro hquotable
        refine hquotable.opening hnone fun hnil => hempty ?_
        rw [hnil, List.take_nil]
    · obtain ⟨window, hsnippet, -⟩ := snippet_of_some hnone
      have hfilled : filled (snippet world text keywords) = true := by
        rw [hsnippet] at hempty ⊢
        exact filled_strip hempty
      exact ⟨fun _ => ⟨fun hnone' => absurd hnone' hnone, fun hnil => absurd hnil hempty⟩,
        fun _ => hfilled⟩

end Quotes

section Numbers

/-- Different numbers give different labels. -/
theorem label_injective {label : String} {m n : ℕ}
    (h : label ++ toString m = label ++ toString n) : m = n := by
  have htext := congrArg String.toList h
  rw [String.toList_append, String.toList_append] at htext
  exact Nat.repr_injective (String.ext (List.append_cancel_left htext))

/-- Labels with consecutive numbers are all different. -/
theorem nodup_labels {α β : Type} (label : String) (first : ℕ) (items : List α)
    {make : ℕ → α → β} {id : β → String}
    (hid : ∀ index item, id (make index item) = label ++ toString (first + index)) :
    ((items.mapIdx make).map id).Nodup := by
  unfold List.Nodup
  rw [List.pairwise_iff_getElem]
  intro i j hi hj hlt heq
  rw [List.getElem_map, List.getElem_map, List.getElem_mapIdx, List.getElem_mapIdx, hid,
    hid] at heq
  have hsame := label_injective heq
  omega

/-- The score of every local source. -/
def LOCAL_SCORE : PyFloat := decimal (7 / 10)

/-- The mean of up to ten scores that are all the same. -/
theorem mean_localScore : ∀ n ∈ List.range 11, n ≠ 0 →
    roundTwo ((sumFrom (.finite 0) (.finite 0) (List.replicate n LOCAL_SCORE)).divPos n) =
      LOCAL_SCORE := by
  decide +kernel

theorem overallConfidence_local {sources : List ResearchSource} (hne : sources ≠ [])
    (hfew : sources.length ≤ MAX_LOCAL_SOURCES)
    (hscore : ∀ source ∈ sources, source.trustScore = LOCAL_SCORE) :
    overallConfidence sources = LOCAL_SCORE := by
  have hscores : sources.map ResearchSource.trustScore =
      List.replicate sources.length LOCAL_SCORE := by
    rw [List.eq_replicate_iff, List.length_map]
    refine ⟨rfl, fun score hmem => ?_⟩
    obtain ⟨source, hsource, rfl⟩ := List.mem_map.mp hmem
    exact hscore source hsource
  have hempty : sources.isEmpty = false := by simpa using hne
  have hrange : sources.length ∈ List.range 11 := List.mem_range.mpr (Nat.lt_succ_of_le hfew)
  unfold overallConfidence
  rw [hempty, hscores, if_neg Bool.false_ne_true]
  exact mean_localScore _ hrange (by simpa using hne)

/-- The summary of up to ten local sources is short. -/
theorem length_summary : ∀ n ∈ List.range 11,
    ("Collected " ++ toString n ++ " source(s), " ++ toString n ++ " finding(s), confidence " ++
      formatTwo LOCAL_SCORE ++ ".").length ≤ SUMMARY_LIMIT := by
  decide +kernel

end Numbers

section LocalSources

variable {world : World} {project : Project} {keywords : List Text}

theorem mem_numbered {first : ℕ} {files : List (List Text × Text)} {source : ResearchSource} :
    source ∈ numbered world keywords first files →
      ∃ number, ∃ file ∈ files, source = localSource world keywords number file.1 file.2 := by
  intro hmem
  obtain ⟨index, hindex, rfl⟩ := List.mem_mapIdx.mp hmem
  exact ⟨first + index, _, List.getElem_mem hindex, rfl⟩

theorem numbered_mem {first : ℕ} {files : List (List Text × Text)} {file : List Text × Text}
    (h : file ∈ files) :
    ∃ number, localSource world keywords number file.1 file.2 ∈
      numbered world keywords first files := by
  obtain ⟨index, hindex, rfl⟩ := List.mem_iff_getElem.mp h
  exact ⟨first + index, List.mem_mapIdx.mpr ⟨index, hindex, rfl⟩⟩

/-- A file that is quoted is a text file of the project, with its text. -/
theorem mem_quoted {file : List Text × Text} (h : file ∈ quoted world project keywords) :
    file.1 ∈ iterTextFiles project ∧ project.read (asPosix file.1) = some file.2 := by
  obtain ⟨parts, hparts, hmatched⟩ := List.mem_filterMap.mp (List.mem_of_mem_take h)
  unfold matched at hmatched
  cases hread : project.read (asPosix parts) with
  | none => simp [hread] at hmatched
  | some text =>
    rw [hread] at hmatched
    dsimp only at hmatched
    split at hmatched
    · cases hmatched
      exact ⟨hparts, hread⟩
    · cases hmatched

/-- The sources of a task without a fetcher. -/
def localSources (world : World) (project : Project) (keywords : List Text) :
    List ResearchSource :=
  dedupeSources [] (numbered world keywords 1 (quoted world project keywords))

theorem mem_localSources {source : ResearchSource}
    (h : source ∈ localSources world project keywords) :
    ∃ number, ∃ file ∈ quoted world project keywords,
      source = localSource world keywords number file.1 file.2 :=
  mem_numbered ((dedupeSources_sublist [] _).subset h)

/-- The claims about the sources say something exactly when the files that are quoted can
be: a source that is dropped says what the one that is kept says. -/
theorem filled_claims_iff :
    (∀ source ∈ localSources world project keywords,
        filled (sourceFinding 0 source).claim = true) ↔
      ∀ file ∈ quoted world project keywords, Quotable world keywords file.1 file.2 := by
  constructor
  · intro hclaims file hfile
    obtain ⟨number, hnumbered⟩ := @numbered_mem world keywords 1 _ _ hfile
    obtain ⟨c, hlast, hspace⟩ := asPosix_last (mem_quoted hfile).1
    have hkey := @strip_url world keywords file.1 file.2 number c hlast hspace
    obtain ⟨kept, hkept, hsame⟩ := exists_kept hnumbered (by simp [hkey]) List.not_mem_nil
    obtain ⟨number', other, hother, rfl⟩ := mem_localSources hkept
    obtain ⟨c', hlast', hspace'⟩ := asPosix_last (mem_quoted hother).1
    rw [hkey, strip_url hlast' hspace'] at hsame
    have hpath : asPosix other.1 = asPosix file.1 := List.append_cancel_left hsame
    have htext : other.2 = file.2 := by
      have hread := (mem_quoted hother).2
      rw [hpath, (mem_quoted hfile).2] at hread
      exact (Option.some.inj hread).symm
    have hquotable := filled_claim_iff.mp (hclaims _ hkept)
    rw [htext] at hquotable
    exact ⟨hquotable.opening, fun hnil => hpath ▸ hquotable.path hnil⟩
  · intro hquotable source hsource
    obtain ⟨number, file, hfile, rfl⟩ := mem_localSources hsource
    exact filled_claim_iff.mpr (hquotable file hfile)

theorem length_localSources_le :
    (localSources world project keywords).length ≤ MAX_LOCAL_SOURCES := by
  have hnumbered : (numbered world keywords 1 (quoted world project keywords)).length =
      (quoted world project keywords).length := List.length_mapIdx
  have hquoted : (quoted world project keywords).length ≤ MAX_LOCAL_SOURCES :=
    List.length_take_le _ _
  have hsublist := (dedupeSources_sublist []
    (numbered world keywords 1 (quoted world project keywords))).length_le
  unfold localSources
  omega

theorem nodup_localSources :
    ((localSources world project keywords).map ResearchSource.id).Nodup := by
  have hnodup : ((numbered world keywords 1 (quoted world project keywords)).map
      ResearchSource.id).Nodup :=
    nodup_labels "local-" 1 (quoted world project keywords) fun _ _ => rfl
  exact hnodup.sublist ((dedupeSources_sublist [] _).map _)

/-- Every local source is valid. -/
theorem valid_localSource {number : ℕ} {parts : List Text} {text : Text} :
    (localSource world keywords number parts text).Valid where
  url := filled_iff.mpr ⟨'f', by simp [localSource], by decide⟩
  type := by
    have htype : (localSource world keywords number parts text).type = "doc" ∨
        (localSource world keywords number parts text).type = "code" := by
      unfold localSource
      dsimp only
      split
      · exact .inl rfl
      · exact .inr rfl
    cases htype with
    | inl heq => simp [heq, VALID_SOURCE_TYPES]
    | inr heq => simp [heq, VALID_SOURCE_TYPES]
  trustScore := by
    have hscore : (localSource world keywords number parts text).trustScore = LOCAL_SCORE := rfl
    rw [hscore]
    decide +kernel

theorem validateSources_local : validateSources [] (localSources world project keywords) = [] := by
  refine validateSources_eq_nil.mpr ⟨fun source hsource => ?_, nodup_localSources, by simp⟩
  obtain ⟨number, file, -, rfl⟩ := mem_localSources hsource
  exact valid_localSource

/-- The findings are valid exactly when their claims say something. -/
theorem validateFindings_local :
    validateFindings ((localSources world project keywords).map ResearchSource.id) []
        (heuristicSynthesize (localSources world project keywords)).1 = [] ↔
      ∀ source ∈ localSources world project keywords,
        filled (sourceFinding 0 source).claim = true := by
  have hfindings : (heuristicSynthesize (localSources world project keywords)).1 =
      (localSources world project keywords).mapIdx fun index source =>
        sourceFinding (index + 1) source := rfl
  rw [hfindings, validateFindings_eq_nil]
  constructor
  · rintro ⟨hvalid, -, -⟩ source hsource
    obtain ⟨index, hindex, rfl⟩ := List.mem_iff_getElem.mp hsource
    exact (hvalid _ (List.mem_mapIdx.mpr ⟨index, hindex, rfl⟩)).claim
  · intro hclaims
    refine ⟨fun finding hmem => ?_, ?_, by simp⟩
    · obtain ⟨index, hindex, rfl⟩ := List.mem_mapIdx.mp hmem
      have hsource := List.getElem_mem hindex
      obtain ⟨number, file, -, hlocal⟩ := mem_localSources hsource
      have hscore : inUnit (localSources world project keywords)[index].trustScore = true := by
        rw [hlocal]
        exact valid_localSource.trustScore
      exact ⟨hclaims _ hsource, by simp [sourceFinding],
        fun sid hsid => by
          rw [List.mem_singleton.mp hsid]
          exact List.mem_map_of_mem hsource,
        hscore⟩
    · refine nodup_labels "F" 1 _ fun index source => ?_
      rw [Nat.add_comm 1 index]
      rfl

/-- Local sources are no candidates for the memory. -/
theorem candidates_local :
    (heuristicSynthesize (localSources world project keywords)).2.2 = [] := by
  refine List.filterMap_eq_nil_iff.mpr fun finding hmem => ?_
  obtain ⟨index, hindex, rfl⟩ := List.mem_mapIdx.mp hmem
  obtain ⟨number, file, -, hlocal⟩ := mem_localSources (List.getElem_mem hindex)
  have htags : (localSources world project keywords)[index].tags = ["local"] := by
    rw [hlocal]
    rfl
  have hkind : candidateKind ["local"] = none := by decide
  unfold findingCandidate sourceFinding
  dsimp only
  rw [htags, hkind]
  split
  · rfl
  · rfl

end LocalSources

section Results

variable {world : World} {task : ResearchTask} {project : Project} {keywords : List Text}

/-- The result that is made of the local sources. -/
def localResult (task : ResearchTask) (sources : List ResearchSource) (webUnavailable : Bool) :
    ResearchResult where
  task := task
  status := if webUnavailable then "partial" else "ok"
  summaryShort := buildSummary sources (heuristicSynthesize sources).1 (overallConfidence sources)
  sources := sources
  findings := (heuristicSynthesize sources).1
  confidenceOverall := overallConfidence sources
  recommendations := if webUnavailable then [WEB_UNAVAILABLE_RECO] else []
  memoryCandidates := (heuristicSynthesize sources).2.2

/-- The recommendation about the web is valid. -/
theorem validate_webRecommendation (ids : List String) (webUnavailable : Bool) :
    (if webUnavailable then [WEB_UNAVAILABLE_RECO] else []).flatMap
      (validateRecommendation ids) = [] := by
  have haction : filled WEB_UNAVAILABLE_RECO.action.toList = true := by decide
  have hrationale : filled WEB_UNAVAILABLE_RECO.rationale.toList = true := by decide +kernel
  have hpriority : WEB_UNAVAILABLE_RECO.priority ∈ VALID_PRIORITIES := by decide
  have hids : WEB_UNAVAILABLE_RECO.sourceIds = [] := rfl
  cases webUnavailable with
  | false => rfl
  | true => simp [validateRecommendation, haction, hrationale, hpriority, hids]

/-- A task that is valid itself. -/
theorem validateResearchTask_eq_nil (hquestion : filled task.question = true)
    (hscope : task.scope ∈ VALID_SCOPES) : validateResearchTask task = [] := by
  simp [validateResearchTask, hquestion, hscope]

/-- The result is valid exactly when the files that are quoted can be. -/
theorem validate_localResult (hquestion : filled task.question = true)
    (hscope : task.scope ∈ VALID_SCOPES) (hne : localSources world project keywords ≠ [])
    (webUnavailable : Bool) :
    validateResearchResult
        (localResult task (localSources world project keywords) webUnavailable) = [] ↔
      ∀ file ∈ quoted world project keywords, Quotable world keywords file.1 file.2 := by
  have hconfidence : overallConfidence (localSources world project keywords) = LOCAL_SCORE := by
    refine overallConfidence_local hne length_localSources_le fun source hsource => ?_
    obtain ⟨number, file, -, rfl⟩ := mem_localSources hsource
    rfl
  have hrange : (localSources world project keywords).length ∈ List.range 11 :=
    List.mem_range.mpr (Nat.lt_succ_of_le length_localSources_le)
  have hfindings : (heuristicSynthesize (localSources world project keywords)).1.length =
      (localSources world project keywords).length := List.length_mapIdx
  have hsummary : (buildSummary (localSources world project keywords)
      (heuristicSynthesize (localSources world project keywords)).1
      (overallConfidence (localSources world project keywords))).length ≤ SUMMARY_LIMIT := by
    unfold buildSummary
    rw [hconfidence, hfindings]
    exact length_summary _ hrange
  have hstatus : (if webUnavailable then "partial" else "ok") ∈ VALID_STATUSES := by
    cases webUnavailable <;> decide
  rw [hconfidence] at hsummary
  have hunit : inUnit LOCAL_SCORE = true := by decide +kernel
  rw [← filled_claims_iff, ← validateFindings_local]
  simp only [validateResearchResult, localResult, List.append_eq_nil_iff, require_eq_nil,
    decide_eq_true_eq, validateResearchTask_eq_nil hquestion hscope, hstatus, hsummary,
    hconfidence, hunit, validateSources_local, validate_webRecommendation, candidates_local,
    List.flatMap_nil, true_and, and_true]

/-- A result without sources is valid. -/
theorem validate_emptyResult (hquestion : filled task.question = true)
    (hscope : task.scope ∈ VALID_SCOPES) (webUnavailable : Bool) :
    validateResearchResult (ResearchAgent.emptyResult task webUnavailable) = [] := by
  have hrecommendations := validate_webRecommendation [] true
  have hzero : inUnit (.finite 0) = true := by decide
  have hweb : String.length ("Web collection unavailable: configure a fetcher/provider to " ++
      "research external sources.") ≤ SUMMARY_LIMIT := by decide
  have hlocal : "No sources matched the research question.".length ≤ SUMMARY_LIMIT := by decide
  cases webUnavailable with
  | false =>
    simp [ResearchAgent.emptyResult, validateResearchResult, validateSources, validateFindings,
      validateResearchTask_eq_nil hquestion hscope, hzero, hlocal, VALID_STATUSES]
  | true =>
    simp only [if_true] at hrecommendations
    simp only [String.reduceAppend] at hweb
    simp [ResearchAgent.emptyResult, validateResearchResult, validateSources, validateFindings,
      validateResearchTask_eq_nil hquestion hscope, hzero, hweb, VALID_STATUSES,
      hrecommendations]

/-- The sources of a task: none of the project when only the web is asked. -/
def taskSources (world : World) (task : ResearchTask) (root : Option String) :
    List ResearchSource :=
  if task.scope = "web" then []
  else localSources world (world.disk root) (Research.keywords world task.question)

/-- The research of an agent without a fetcher or a synthesizer. -/
theorem research_eq {root : Option String} (hroot : projectRoot task.contextPacket = .ok root)
    (hscope : task.scope ∈ VALID_SCOPES) :
    ResearchAgent.research {} world task =
      if taskSources world task root = [] then
        .ok (ResearchAgent.emptyResult task (ResearchAgent.webWasUnavailable {} task))
      else
        ResearchAgent.validated (localResult task (taskSources world task root)
          (ResearchAgent.webWasUnavailable {} task)) := by
  have hcollect : ∃ collected, ResearchAgent.collect {} world task = .ok collected ∧
      dedupeSources [] collected = taskSources world task root := by
    by_cases hweb : task.scope = "web"
    · refine ⟨[], ?_, by simp [taskSources, hweb, dedupeSources]⟩
      have hother : ¬ (task.scope = "repo" ∨ task.scope = "docs" ∨ task.scope = "mixed") := by
        rw [hweb]
        decide
      simp [ResearchAgent.collect, hother, bind, Except.bind, pure, Except.pure]
    · refine ⟨_, ?_, (if_neg hweb).symm⟩
      have hlocal : task.scope = "repo" ∨ task.scope = "docs" ∨ task.scope = "mixed" := by
        simp only [VALID_SCOPES, List.mem_cons, List.not_mem_nil, or_false] at hscope
        tauto
      simp only [ResearchAgent.collect, if_pos hlocal, collectLocal_eq hroot, bind, Except.bind,
        pure, Except.pure]
  obtain ⟨collected, hcollected, hsources⟩ := hcollect
  simp only [ResearchAgent.research, hcollected, hsources, bind, Except.bind, pure, Except.pure,
    ResearchAgent.synthesize, List.isEmpty_iff]
  split
  · rfl
  · unfold localResult
    cases ResearchAgent.webWasUnavailable {} task <;> rfl

end Results

section Execution

open ResearchAgent

variable {world : World} {task : AgentTask} {context : Option Json} {root : Option String}

/-- The parameters of a task have the types that are declared for them, and the packet
names this root. -/
structure Typed (task : AgentTask) (context : Option Json) (root : Option String) : Prop where
  constraints : ∃ fields, (task.params.lookup "constraints").getD (.obj []) = .obj fields
  packet : ∃ fields, packetOf task context = .obj fields
  root : projectRoot (packetOf task context) = .ok root

/-- The answer is a success, and the text of a result that is valid. -/
def Answers (answer : AgentResult) : Prop :=
  answer.success = true ∧ ∃ result document, result.toDict = .ok document ∧
    answer.output = .json document ∧ validateResearchResult result = []

theorem scopeOf_mem (task : AgentTask) : scopeOf task ∈ VALID_SCOPES := by
  have hmixed : "mixed" ∈ VALID_SCOPES := by decide
  unfold scopeOf
  split
  · split
    · assumption
    · exact hmixed
  · exact hmixed

/-- A task of the declared types can be written. -/
theorem Typed.toDict (h : Typed task context root) {result : ResearchResult}
    (hresult : result.task = researchTask task context) :
    ∃ document, result.toDict = .ok document := by
  obtain ⟨constraints, hconstraints⟩ := h.constraints
  obtain ⟨packet, hpacket⟩ := h.packet
  unfold ResearchResult.toDict ResearchTask.toDict
  simp [hresult, researchTask, hconstraints, hpacket, dictOf, bind, Except.bind, pure,
    Except.pure]

/-- A valid result is the answer. -/
theorem execute_of_ok {agent : ResearchAgent} (h : Typed task context root)
    {result : ResearchResult} (hresearch : agent.research world (researchTask task context) =
      .ok result) (htask : result.task = researchTask task context)
    (hstatus : result.status ≠ "error") (hvalid : validateResearchResult result = []) :
    ∃ answer, agent.execute world task context = .ok answer ∧ Answers answer := by
  obtain ⟨document, hdocument⟩ := h.toDict htask
  unfold execute
  rw [hresearch]
  dsimp only
  rw [hdocument]
  exact ⟨_, rfl, by simpa using hstatus, result, document, hdocument, rfl, hvalid⟩

/-- With nothing injected, the agent answers with a valid result exactly when only the web
is asked, or the files that are quoted say something where they are quoted. -/
theorem execute_answers_iff (h : Typed task context root)
    (hquestion : filled task.description.toList = true) :
    (∃ answer, execute {} world task context = .ok answer ∧ Answers answer) ↔
      (scopeOf task = "web" ∨
        ∀ file ∈ quoted world (world.disk root) (keywords world task.description.toList),
          Quotable world (keywords world task.description.toList) file.1 file.2) := by
  have hscope : (researchTask task context).scope ∈ VALID_SCOPES := scopeOf_mem task
  have hresearch := @research_eq world (researchTask task context) root h.root hscope
  by_cases hnone : taskSources world (researchTask task context) root = []
  · rw [if_pos hnone] at hresearch
    have hvalid := @validate_emptyResult (researchTask task context) hquestion hscope
      (webWasUnavailable {} (researchTask task context))
    have hempty : ∀ webUnavailable,
        (emptyResult (researchTask task context) webUnavailable).task = researchTask task context ∧
          (emptyResult (researchTask task context) webUnavailable).status ≠ "error" := by
      intro webUnavailable
      cases webUnavailable <;> exact ⟨rfl, by simp [emptyResult]⟩
    have hanswer := execute_of_ok h hresearch (hempty _).1 (hempty _).2 hvalid
    refine ⟨fun _ => ?_, fun _ => hanswer⟩
    by_cases hweb : scopeOf task = "web"
    · exact .inl hweb
    · have hlocal : localSources world (world.disk root)
          (keywords world task.description.toList) = [] := by
        simpa [taskSources, researchTask, hweb] using hnone
      refine .inr (filled_claims_iff.mp ?_)
      simp [hlocal]
  · rw [if_neg hnone] at hresearch
    have hweb : scopeOf task ≠ "web" := fun hweb =>
      hnone (by simp [taskSources, researchTask, hweb])
    have hsources : taskSources world (researchTask task context) root =
        localSources world (world.disk root) (keywords world task.description.toList) := by
      simp [taskSources, researchTask, hweb]
    rw [hsources] at hresearch hnone
    have hvalid := validate_localResult hquestion hscope hnone
      (webWasUnavailable {} (researchTask task context))
    rw [or_iff_right hweb, ← hvalid]
    constructor
    · rintro ⟨answer, hexecute, hsuccess, -⟩
      by_contra hinvalid
      unfold validated at hresearch
      split at hresearch
      · rename_i hempty
        exact hinvalid hempty
      · unfold execute at hexecute
        rw [hresearch] at hexecute
        simp only [researchError, if_true] at hexecute
        cases hexecute
        cases hsuccess
    · intro hempty
      unfold validated at hresearch
      rw [hempty] at hresearch
      refine execute_of_ok h hresearch rfl ?_ hempty
      unfold localResult
      dsimp only
      split <;> decide

/-- A project of one file, and ASCII letters. -/
def oneFile (name text : String) : World where
  lower text := text.map Char.toLower
  isAlpha text := text.all Char.isAlpha
  now := "2026-08-08T00:00:00+00:00"
  disk _ := { tree := some (.node [name.toList] [])
              read := fun path => if path = name.toList then some text.toList else none }

/-- A question about one word. -/
def authQuestion : AgentTask := { taskId := "t1", description := "where is auth" }

theorem typed_authQuestion : Typed authQuestion none none :=
  ⟨⟨[], rfl⟩, ⟨[], rfl⟩, rfl⟩

/-- A file whose text contains the word is answered with. -/
theorem notes_answered :
    filled authQuestion.description.toList = true ∧
    ∃ answer, execute {} (oneFile "notes.md" "The auth module.") authQuestion none = .ok answer ∧
      Answers answer := by
  have hquestion : filled authQuestion.description.toList = true := by decide
  have hquoted : quoted (oneFile "notes.md" "The auth module.")
      ((oneFile "notes.md" "The auth module.").disk none)
      (keywords (oneFile "notes.md" "The auth module.") authQuestion.description.toList) =
      [(["notes.md".toList], "The auth module.".toList)] := by decide
  have hclaim : filled (sourceFinding 1 (localSource (oneFile "notes.md" "The auth module.")
      (keywords (oneFile "notes.md" "The auth module.") authQuestion.description.toList) 1
      ["notes.md".toList] "The auth module.".toList)).claim = true := by decide
  refine ⟨hquestion, (execute_answers_iff typed_authQuestion hquestion).mpr (.inr ?_)⟩
  rw [hquoted]
  exact List.forall_mem_singleton.mpr (filled_claim_iff.mp hclaim)

/-- A file of one empty line, named like the word, makes the research fail on its own
finding. -/
theorem emptyLine_not_answered :
    Typed authQuestion none none ∧ filled authQuestion.description.toList = true ∧
    ¬ ∃ answer, execute {} (oneFile "auth.py" "\n") authQuestion none = .ok answer ∧
      Answers answer := by
  have hfails : (execute {} (oneFile "auth.py" "\n") authQuestion none).toOption.map
      (fun answer => answer.success) = some false := by decide +kernel
  refine ⟨typed_authQuestion, by decide, ?_⟩
  rintro ⟨answer, hexecute, hsuccess, -⟩
  rw [hexecute] at hfails
  exact Bool.noConfusion (hsuccess.symm.trans (Option.some.inj hfails))

end Execution

end AiosDeck.Research
