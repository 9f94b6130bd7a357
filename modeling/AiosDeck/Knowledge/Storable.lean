import AiosDeck.Knowledge.Engine
import AiosDeck.Knowledge.Indexing
import AiosDeck.Python.Lines

/-!
# What discovery gives can be stored

The metadata of a candidate are texts, lists of texts and one integer, which
JSON and SQLite take, and the chunks of a file are few enough to be counted.
So no file of a project makes an index run raise.
-/

namespace AiosDeck.Knowledge

open Python Storage

section Json

/-- A value that is a text in JSON which can be stored. -/
def Storable (value : PyVal) : Prop := ∃ content, value.dumps = .ok content ∧ hasSurrogate content = false

theorem hasSurrogate_escape {point : ℕ} (h : hasSurrogate [point] = false) :
    hasSurrogate (escapePoint point) = false := by
  unfold escapePoint
  split_ifs
  · exact hasSurrogate_points _
  · exact hasSurrogate_points _
  · exact hasSurrogate_points _
  · exact hasSurrogate_points _
  · exact hasSurrogate_points _
  · exact hasSurrogate_points _
  · exact hasSurrogate_points _
  · rw [hasSurrogate_append, hasSurrogate_points]
    exact hasSurrogate_text [Nat.digitChar (point / 16), Nat.digitChar (point % 16)]
  · exact h

theorem hasSurrogate_quoted {content : Points} (h : hasSurrogate content = false) :
    hasSurrogate (quoted content) = false := by
  have hbody : hasSurrogate (content.flatMap escapePoint) = false := by
    induction content with
    | nil => rfl
    | cons point rest ih =>
      have hsplit : hasSurrogate ([point] ++ rest) = false := h
      rw [hasSurrogate_append, Bool.or_eq_false_iff] at hsplit
      rw [List.flatMap_cons, hasSurrogate_append, hasSurrogate_escape hsplit.1, ih hsplit.2]
      rfl
  unfold quoted
  rw [hasSurrogate_append, hasSurrogate_append, hbody]
  rfl

/-- Parts between brackets. -/
theorem hasSurrogate_bracketed {first last : ℕ} {parts : List Points}
    (hfirst : hasSurrogate [first] = false) (hlast : hasSurrogate [last] = false)
    (h : ∀ part ∈ parts, hasSurrogate part = false) :
    hasSurrogate (bracketed first last parts) = false := by
  have hbody : hasSurrogate (parts.intersperse (points ", ")).flatten = false := by
    induction parts with
    | nil => rfl
    | cons part rest ih =>
      have hpart := h part (List.mem_cons_self ..)
      have hrest := ih fun other hother => h other (List.mem_cons_of_mem _ hother)
      cases rest with
      | nil =>
        rw [List.intersperse_singleton, List.flatten_cons, List.flatten_nil, List.append_nil]
        exact hpart
      | cons next more =>
        rw [List.intersperse_cons_cons, List.flatten_cons, List.flatten_cons, hasSurrogate_append,
          hasSurrogate_append, hpart, hasSurrogate_points, hrest]
        rfl
  unfold bracketed
  rw [hasSurrogate_append, hasSurrogate_append, hfirst, hbody, hlast]
  rfl

theorem storable_text (text : Text) : Storable (textVal text) :=
  ⟨_, rfl, hasSurrogate_quoted (hasSurrogate_text text)⟩

/-- Integers from here on have too many digits for a text. -/
def intLimit : ℕ := 10 ^ 4300

theorem intLimit_pos : 0 < intLimit := Nat.pow_pos (by decide)

theorem storable_int {n : ℤ} (h : n.natAbs < intLimit) : Storable (.int n) := by
  have hdigits : ¬4300 < (Nat.toDigits 10 n.natAbs).length := by
    rw [not_lt]
    exact (Nat.length_toDigits_le_iff (by decide) (by decide)).mpr h
  refine ⟨points (toString n), ?_, hasSurrogate_points _⟩
  unfold PyVal.dumps intText
  exact if_neg hdigits

/-- Values that can be stored, one by one. -/
theorem dumpsItems_ok {values : List PyVal} (h : ∀ value ∈ values, Storable value) :
    ∃ parts, dumpsItems values = .ok parts ∧ ∀ part ∈ parts, hasSurrogate part = false := by
  induction values with
  | nil =>
    refine ⟨[], rfl, ?_⟩
    intro part hpart
    cases hpart
  | cons value rest ih =>
    obtain ⟨content, hdumps, hcontent⟩ := h value (List.mem_cons_self ..)
    obtain ⟨parts, hparts, hall⟩ := ih fun other hother => h other (List.mem_cons_of_mem _ hother)
    refine ⟨content :: parts, ?_, List.forall_mem_cons.mpr ⟨hcontent, hall⟩⟩
    rw [dumpsItems, hdumps, hparts]
    rfl

theorem storable_list {values : List PyVal} (h : ∀ value ∈ values, Storable value) :
    Storable (.list values) := by
  obtain ⟨parts, hparts, hall⟩ := dumpsItems_ok h
  refine ⟨bracketed 91 93 parts, ?_, hasSurrogate_bracketed rfl rfl hall⟩
  rw [PyVal.dumps, hparts]
  rfl

/-- Fields under texts, with values that can be stored. -/
def StorableFields (fields : Metadata) : Prop :=
  ∀ field ∈ fields, (∃ name : Text, field.1 = .str (name.map Char.toNat)) ∧ Storable field.2

theorem dumpsPairs_ok {fields : Metadata} (h : StorableFields fields) :
    ∃ parts, dumpsPairs fields = .ok parts ∧ ∀ part ∈ parts, hasSurrogate part = false := by
  induction fields with
  | nil =>
    refine ⟨[], rfl, ?_⟩
    intro part hpart
    cases hpart
  | cons field rest ih =>
    obtain ⟨⟨name, hname⟩, content, hdumps, hcontent⟩ := h field (List.mem_cons_self ..)
    obtain ⟨parts, hparts, hall⟩ := ih fun other hother => h other (List.mem_cons_of_mem _ hother)
    obtain ⟨key, value⟩ := field
    dsimp only at hname hdumps
    have hpart : hasSurrogate (quoted (name.map Char.toNat) ++ points ": " ++ content) = false := by
      rw [hasSurrogate_append, hasSurrogate_append, hasSurrogate_quoted (hasSurrogate_text name),
        hasSurrogate_points, hcontent]
      rfl
    refine ⟨_ :: parts, ?_, List.forall_mem_cons.mpr ⟨hpart, hall⟩⟩
    rw [dumpsPairs, hname, hdumps, hparts]
    rfl

theorem jsonText_ok {fields : Metadata} (h : StorableFields fields) :
    ∃ content, jsonText fields = .ok content := by
  obtain ⟨parts, hparts, hall⟩ := dumpsPairs_ok h
  have hdumps : (PyVal.dict fields).dumps = .ok (bracketed 123 125 parts) := by
    rw [PyVal.dumps, hparts]
    rfl
  refine ⟨bracketed 123 125 parts, ?_⟩
  unfold jsonText
  rw [hdumps]
  exact if_neg (by rw [hasSurrogate_bracketed rfl rfl hall]; exact Bool.false_ne_true)

theorem storableFields_setKey {fields : Metadata} (h : StorableFields fields) (name : Text)
    {value : PyVal} (hvalue : Storable value) :
    StorableFields (setKey (.str (name.map Char.toNat)) value fields) := by
  intro field hfield
  unfold setKey at hfield
  split at hfield
  · obtain ⟨old, hold, rfl⟩ := List.mem_map.mp hfield
    split
    · exact ⟨(h old hold).1, hvalue⟩
    · exact h old hold
  · obtain hold | hnew := List.mem_append.mp hfield
    · exact h field hold
    · rw [List.mem_singleton.mp hnew]
      exact ⟨⟨name, rfl⟩, hvalue⟩

theorem storableFields_merge {first second : Metadata} (hfirst : StorableFields first)
    (hsecond : StorableFields second) : StorableFields (mergeFields first second) := by
  unfold mergeFields
  induction second generalizing first with
  | nil => exact hfirst
  | cons field rest ih =>
    obtain ⟨⟨name, hname⟩, hvalue⟩ := hsecond field (List.mem_cons_self ..)
    rw [List.foldl_cons]
    refine ih ?_ fun other hother => hsecond other (List.mem_cons_of_mem _ hother)
    rw [hname]
    exact storableFields_setKey hfirst name hvalue

end Json

section Skills

theorem digitValue_lt (c : Char) : (digitValue c).getD 0 < 10 := by
  unfold digitValue
  cases hfound : decimalZeros.find? fun first => first ≤ c.toNat && c.toNat < first + 10 with
  | none =>
    rw [Option.map_none, Option.getD_none]
    decide
  | some first =>
    have hmatch := List.find?_some hfound
    simp only [Bool.and_eq_true, decide_eq_true_eq] at hmatch
    rw [Option.map_some, Option.getD_some]
    omega

/-- Digits behind a value. -/
theorem foldl_digits_lt (digits : Text) (value : ℕ) :
    digits.foldl (fun value c => 10 * value + (digitValue c).getD 0) value <
      (value + 1) * 10 ^ digits.length := by
  induction digits generalizing value with
  | nil =>
    rw [List.foldl_nil, List.length_nil, pow_zero]
    omega
  | cons c rest ih =>
    have hdigit := digitValue_lt c
    have hvalue : 10 * value + (digitValue c).getD 0 + 1 ≤ (value + 1) * 10 := by omega
    calc rest.foldl (fun value c => 10 * value + (digitValue c).getD 0)
          (10 * value + (digitValue c).getD 0)
        < (10 * value + (digitValue c).getD 0 + 1) * 10 ^ rest.length := ih _
      _ ≤ (value + 1) * 10 * 10 ^ rest.length := Nat.mul_le_mul_right _ hvalue
      _ = (value + 1) * 10 ^ (c :: rest).length := by
        rw [List.length_cons, pow_succ, mul_assoc, mul_comm 10]

theorem parseDigits_lt {digits : Text} {n : ℕ} (h : parseDigits digits = .ok n) : n < intLimit := by
  unfold parseDigits at h
  split at h
  · cases h
  · rename_i hlength
    have hvalue := Except.ok.inj h
    have hlt := foldl_digits_lt digits 0
    rw [zero_add, one_mul, hvalue] at hlt
    exact hlt.trans_le (Nat.pow_le_pow_right (by decide) (not_lt.mp hlength))

theorem SkillMetadata.coerceInt_lt (text : Text) : (coerceInt text).natAbs < intLimit := by
  unfold coerceInt
  dsimp only
  split
  · exact intLimit_pos
  · split
    · exact intLimit_pos
    · rename_i n hparse
      have hsign : ∀ negative : Bool, (if negative then -(n : ℤ) else n).natAbs = n := by
        intro negative
        cases negative with
        | false => exact Int.natAbs_natCast n
        | true => exact (Int.natAbs_neg n).trans (Int.natAbs_natCast n)
      rw [hsign]
      exact parseDigits_lt hparse

/-- What `validate` accepts is what it was given. -/
theorem SkillMetadata.validate_eq {metadata accepted : SkillMetadata}
    (h : metadata.validate = .ok accepted) : accepted = metadata := by
  unfold validate at h
  simp only [bind, Except.bind, pure, Except.pure, throw, throwThe, MonadExceptOf.throw] at h
  repeat' split at h
  all_goals first
    | exact (Except.ok.inj h).symm
    | cases h

theorem SkillMetadata.priority_lt {listText : List Text → Text} {text : Text}
    {metadata : SkillMetadata} (h : fromFrontmatter listText text = .ok metadata) :
    metadata.priority.natAbs < intLimit := by
  unfold fromFrontmatter at h
  dsimp only at h
  split at h
  · cases h
  · have haccepted := SkillMetadata.validate_eq h
    rw [haccepted]
    dsimp only
    unfold fieldInt
    split
    · exact coerceInt_lt _
    · exact intLimit_pos

/-- The skills of a project are read from frontmatter. -/
theorem loadSkills_priority {listText : List Text → Text} {files : ProjectFiles} :
    ∀ metadata ∈ loadSkills listText files, metadata.priority.natAbs < intLimit := by
  have hregister : ∀ (metadata : SkillMetadata) (skills : List SkillMetadata),
      metadata.priority.natAbs < intLimit →
      (∀ skill ∈ skills, skill.priority.natAbs < intLimit) →
      ∀ skill ∈ registerSkill metadata skills, skill.priority.natAbs < intLimit := by
    intro metadata skills hnew h skill hskill
    unfold registerSkill at hskill
    split at hskill
    · obtain ⟨old, hold, rfl⟩ := List.mem_map.mp hskill
      split
      · exact hnew
      · exact h old hold
    · obtain hold | hsame := List.mem_append.mp hskill
      · exact h skill hold
      · rw [List.mem_singleton.mp hsame]
        exact hnew
  unfold loadSkills
  split
  · -- every entry of the directory registers one skill, or none
    refine List.foldlRecOn (motive := fun skills : List SkillMetadata =>
      ∀ skill ∈ skills, skill.priority.natAbs < intLimit) _ _ ?_ ?_
    · intro metadata hmem
      cases hmem
    · intro skills h entry _
      split
      · split
        · rename_i metadata hread
          exact hregister metadata skills (SkillMetadata.priority_lt hread) h
        · exact h
      · exact h
  · intro metadata hmem
    cases hmem

/-- The metadata of a skill can be stored, once its priority was read. -/
theorem SkillMetadata.storable_toDict {metadata : SkillMetadata}
    (h : metadata.priority.natAbs < intLimit) : StorableFields metadata.toDict := by
  have hlist : ∀ items : List Text, Storable (listVal items) := by
    intro items
    refine storable_list fun value hvalue => ?_
    obtain ⟨item, -, rfl⟩ := List.mem_map.mp hvalue
    exact storable_text item
  intro field hfield
  obtain ⟨entry, hentry, rfl⟩ := List.mem_map.mp hfield
  refine ⟨⟨entry.1.toList, rfl⟩, ?_⟩
  simp only [List.mem_cons, List.not_mem_nil, or_false] at hentry
  rcases hentry with rfl | rfl | rfl | rfl | rfl | rfl | rfl | rfl | rfl | rfl | rfl
  · exact storable_text _
  · exact storable_text _
  · exact hlist _
  · exact hlist _
  · exact hlist _
  · exact storable_int h
  · exact storable_text _
  · exact storable_text _
  · exact storable_text _
  · exact storable_text _
  · exact storable_text _

/-- A candidate whose type the store takes and whose metadata it can store. -/
structure SourceCandidate.Sane (candidate : SourceCandidate) : Prop where
  type : candidate.type ∈ validSourceTypes
  metadata : StorableFields candidate.metadata

theorem candidates_sane {type : String} (htype : type.toList ∈ validSourceTypes)
    (paths : List (List Text)) : ∀ candidate ∈ candidates type paths, candidate.Sane := by
  intro candidate hmem
  obtain ⟨path, -, rfl⟩ := List.mem_map.mp hmem
  constructor
  · exact htype
  · intro field hfield
    cases hfield

/-- Every source that is discovered is sane. -/
theorem discoverSources_sane (listText : List Text → Text) (files : ProjectFiles) :
    ∀ candidate ∈ discoverSources listText files, candidate.Sane := by
  have hskills : ∀ candidate ∈ discoverSkills listText files, candidate.Sane := by
    intro candidate hmem
    obtain ⟨metadata, hmetadata, hcandidate⟩ := List.mem_flatMap.mp hmem
    have htype : ((if metadata.name = "project-dna".toList then "project_dna" else "skill") : String).toList ∈
        validSourceTypes := by
      split
      · decide
      · decide
    obtain rfl | hpage := List.mem_cons.mp hcandidate
    · exact ⟨htype, SkillMetadata.storable_toDict (loadSkills_priority metadata hmetadata)⟩
    · exact candidates_sane htype _ candidate hpage
  intro candidate hmem
  unfold discoverSources at hmem
  rw [List.mem_insertionSort] at hmem
  simp only [List.mem_append] at hmem
  obtain (((hskill | hadr) | hresearch) | hdocumentation) | hcode := hmem
  · exact hskills candidate hskill
  · unfold discoverAdrs at hadr
    split at hadr
    · exact candidates_sane (by decide) _ candidate hadr
    · cases hadr
  · unfold discoverResearch at hresearch
    split at hresearch
    · exact candidates_sane (by decide) _ candidate hresearch
    · cases hresearch
  · unfold discoverDocumentation at hdocumentation
    split at hdocumentation
    · exact candidates_sane (by decide) _ candidate hdocumentation
    · cases hdocumentation
  · unfold discoverCode at hcode
    split at hcode
    · exact candidates_sane (by decide) _ candidate hcode
    · cases hcode

end Skills

section Counting

theorem length_slice_le (text : Text) (start stop : ℕ) : (slice text start stop).length ≤ text.length := by
  unfold slice
  rw [List.length_drop, List.length_take]
  omega

theorem length_windows_le (text : Text) (maxChars overlap fuel start : ℕ) :
    (windows text maxChars overlap fuel start).length ≤ fuel := by
  induction fuel generalizing start with
  | zero => exact le_refl 0
  | succ fuel ih =>
    unfold windows
    split
    · dsimp only
      rw [List.length_append]
      have hrest := ih (if windowEnd text maxChars overlap start < text.length then
        windowEnd text maxChars overlap start - overlap else windowEnd text maxChars overlap start)
      split
      · rw [List.length_nil]
        omega
      · rw [List.length_singleton]
        omega
    · exact Nat.zero_le _

theorem length_chunkBySize_le (text : Text) (maxChars overlap : ℕ) :
    (chunkBySize text maxChars overlap).length ≤ text.length := by
  unfold chunkBySize
  split
  · exact Nat.zero_le _
  · rename_i hblank
    split
    · obtain ⟨hempty, _⟩ := not_or.mp hblank
      exact List.length_pos_iff.mpr hempty
    · exact length_windows_le _ _ _ _ _

theorem length_lineMatches_le (pattern : Regex) (pos : ℕ) (lineStart : Bool) (skip : ℕ) (text : Text) :
    (lineMatches pattern pos lineStart skip text).length ≤ text.length := by
  induction text generalizing pos lineStart skip with
  | nil =>
    unfold lineMatches
    exact le_refl 0
  | cons c rest ih =>
    cases skip with
    | succ skip =>
      unfold lineMatches
      exact (ih _ _ _).trans (Nat.le_succ _)
    | zero =>
      unfold lineMatches
      split
      · exact Nat.succ_le_succ (ih _ _ _)
      · exact (ih _ _ _).trans (Nat.le_succ _)

theorem length_sectionChunks_le (text : Text) (found : Span) (stop : ℕ) :
    (sectionChunks text found stop).length ≤ text.length + 1 := by
  unfold sectionChunks
  dsimp only
  split
  · rw [List.length_cons]
    refine Nat.succ_le_succ ((length_chunkBySize_le _ _ _).trans ?_)
    exact (length_strip_le _).trans (length_slice_le _ _ _)
  · rw [List.length_singleton]
    omega

/-- A text has no more chunks than this. -/
theorem length_chunkAtMatches_le {pattern : Regex} {preambleChunks : Text → List Text} {text : Text}
    (hpreamble : ∀ preamble : Text, (preambleChunks preamble).length ≤ preamble.length + 1) :
    (chunkAtMatches pattern preambleChunks text).length ≤ (text.length + 1) * (text.length + 1) := by
  unfold chunkAtMatches
  split
  · refine (length_chunkBySize_le _ _ _).trans ?_
    exact (Nat.le_succ _).trans (Nat.le_mul_of_pos_left _ (Nat.succ_pos _))
  · rename_i first rest hmatches
    have hcount : rest.length + 1 ≤ text.length := by
      have hall := length_lineMatches_le pattern 0 true 0 text
      rw [hmatches, List.length_cons] at hall
      exact hall
    have hbefore : (if 0 < first.start ∧ strip (text.take first.start) ≠ [] then
        preambleChunks (strip (text.take first.start)) else []).length ≤ text.length + 1 := by
      split
      · refine (hpreamble _).trans (Nat.succ_le_succ ((length_strip_le _).trans ?_))
        rw [List.length_take]
        exact min_le_right _ _
      · exact Nat.zero_le _
    have hsections : (((first :: rest).zip (rest.map Span.start ++ [text.length])).flatMap fun part =>
        sectionChunks text part.1 part.2).length ≤ text.length * (text.length + 1) := by
      rw [List.length_flatMap]
      refine (List.sum_le_card_nsmul _ (text.length + 1) ?_).trans ?_
      · intro size hsize
        obtain ⟨part, -, rfl⟩ := List.mem_map.mp hsize
        exact length_sectionChunks_le _ _ _
      · rw [List.length_map, List.length_zip, smul_eq_mul]
        refine Nat.mul_le_mul_right _ ((min_le_left _ _).trans ?_)
        rw [List.length_cons]
        exact hcount
    dsimp only
    refine (List.length_filter_le _ _).trans ?_
    rw [List.length_append]
    calc _ ≤ (text.length + 1) + text.length * (text.length + 1) := Nat.add_le_add hbefore hsections
      _ = (text.length + 1) * (text.length + 1) := by ring

theorem length_chunkText_lt {content : FileText} {sourceType sourceId : Text} {docMetadata : Metadata} :
    (chunkText content.1 sourceType sourceId docMetadata).length < intLimit := by
  have hraw : (if sourceType = "code".toList then chunkCode content.1 else chunkMarkdown content.1).length ≤
      (content.1.length + 1) * (content.1.length + 1) := by
    split
    · exact length_chunkAtMatches_le fun preamble => Nat.succ_le_succ (Nat.zero_le _)
    · exact length_chunkAtMatches_le fun preamble =>
        (length_chunkBySize_le _ _ _).trans (Nat.le_succ _)
  unfold chunkText
  rw [List.length_mapIdx]
  calc _ ≤ (content.1.length + 1) * (content.1.length + 1) := hraw
    _ ≤ 2 ^ 63 * 2 ^ 63 := Nat.mul_le_mul content.2 content.2
    _ < 10 ^ 200 := by norm_num
    _ ≤ intLimit := Nat.pow_le_pow_right (by decide) (by decide)

end Counting

/-- A file that was discovered can be stored. -/
theorem SourceCandidate.Sane.writable {candidate : SourceCandidate} (h : candidate.Sane)
    (content : FileText) : (candidate.document content.1).Writable := by
  have hfields : StorableFields (candidate.document content.1).chunkMetadata := by
    refine storableFields_merge ?_ h.metadata
    intro field hfield
    simp only [List.mem_cons, List.not_mem_nil, or_false] at hfield
    rcases hfield with rfl | rfl | rfl | rfl
    · exact ⟨⟨"title".toList, rfl⟩, storable_text _⟩
    · exact ⟨⟨"path".toList, rfl⟩, storable_text _⟩
    · exact ⟨⟨"type".toList, rfl⟩, storable_text _⟩
    · exact ⟨⟨"version".toList, rfl⟩, storable_text _⟩
  constructor
  · intro chunk hchunk
    have hlength : (candidate.document content.1).chunks.length < intLimit :=
      @length_chunkText_lt content _ _ _
    obtain ⟨position, hposition, rfl⟩ := List.mem_mapIdx.mp hchunk
    refine jsonText_ok (storableFields_setKey hfields "position".toList (storable_int ?_))
    rw [Int.natAbs_natCast]
    unfold KnowledgeDocument.chunks chunkText at hlength
    rw [List.length_mapIdx] at hlength
    exact hposition.trans hlength
  · exact jsonText_ok h.metadata

end AiosDeck.Knowledge
