import AiosDeck.Knowledge.Chunking
import AiosDeck.Python.Words

/-!
# What chunks cover

The chunks of a text are the words of intervals of it. The intervals start one
behind the other, overlap by no more than the overlap of the windows, and leave
out white space only.
-/

namespace AiosDeck.Knowledge

open Python

section Normal

theorem words_unifyNewlines (text : Text) :
    ∀ pending, wordsFrom pending (unifyNewlines text) = wordsFrom pending text := by
  have hreturn : isSpace '\r' = true := by decide
  have hnewline : isSpace '\n' = true := by decide
  induction text using unifyNewlines.induct with
  | case1 => exact fun _ => rfl
  | case2 rest ih =>
    intro pending
    have hwords : words (unifyNewlines rest) = words rest := ih []
    have hleft := wordsFrom_space hnewline pending [] (unifyNewlines rest)
    have hright := wordsFrom_space hreturn pending [] ('\n' :: rest)
    have hmore := wordsFrom_space hnewline [] [] rest
    rw [List.nil_append] at hleft hright hmore
    rw [unifyNewlines, hleft, hright, hwords, words, words, hmore]
    rfl
  | case3 rest hnot ih =>
    intro pending
    have hwords : words (unifyNewlines rest) = words rest := ih []
    have hleft := wordsFrom_space hnewline pending [] (unifyNewlines rest)
    have hright := wordsFrom_space hreturn pending [] rest
    rw [List.nil_append] at hleft hright
    rw [unifyNewlines.eq_3 rest hnot, hleft, hright, hwords]
  | case4 c rest hpair hsingle ih =>
    intro pending
    rw [unifyNewlines.eq_4 c rest hpair hsingle, wordsFrom, wordsFrom, ih, ih]

theorem flatMap_words_congr {lines : List Text} {change : Text → Text}
    (h : ∀ line, words (change line) = words line) :
    (lines.map change).flatMap words = lines.flatMap words := by
  rw [List.flatMap_map]
  exact List.flatMap_congr fun line _ => h line

/-- Blank lines have no words. -/
theorem flatMap_words_dropWhile (lines : List Text) :
    (lines.dropWhile (· = [])).flatMap words = lines.flatMap words := by
  induction lines with
  | nil => rfl
  | cons line lines ih =>
    rw [List.dropWhile_cons]
    split
    · rename_i hempty
      rw [ih, List.flatMap_cons, of_decide_eq_true hempty]
      rfl
    · rfl

theorem flatMap_words_dropLast (lines : List Text) :
    ((lines.reverse.dropWhile (· = [])).reverse).flatMap words = lines.flatMap words := by
  induction lines using List.reverseRecOn with
  | nil => rfl
  | append_singleton lines line ih =>
    rw [List.reverse_append, List.reverse_singleton, List.singleton_append, List.dropWhile_cons]
    split
    · rename_i hempty
      rw [ih, List.flatMap_append, of_decide_eq_true hempty]
      simp [words, wordsFrom]
    · rw [List.reverse_cons, List.reverse_reverse]

theorem flatMap_words_collapseRuns (lines : List Text) :
    ∀ blankRun, (collapseRuns blankRun lines).flatMap words = lines.flatMap words := by
  induction lines with
  | nil => exact fun _ => rfl
  | cons line lines ih =>
    intro blankRun
    rw [collapseRuns]
    split_ifs with hempty hfew
    · rw [List.flatMap_cons, List.flatMap_cons, ih]
    · rw [List.flatMap_cons, ih, hempty]
      rfl
    · rw [List.flatMap_cons, List.flatMap_cons, ih]

/-- Normalising a text keeps its words. -/
theorem words_normalizeContent (text : Text) : words (normalizeContent text) = words text := by
  have hlines : words (joinLines ((splitlines text).map fun line => unifyNewlines (rstrip line))) =
      words text := by
    unfold joinLines
    rw [words_intercalate, flatMap_words_congr, words_splitlines]
    intro line
    rw [words, words_unifyNewlines]
    exact words_rstrip line
  unfold normalizeContent collapseBlankLines
  dsimp only
  rw [joinLines, words_intercalate, flatMap_words_dropWhile, flatMap_words_collapseRuns,
    flatMap_words_dropLast, flatMap_words_congr words_rstrip, words_splitOn, hlines]

end Normal

section Slices

theorem slice_slice (text : Text) {a b start stop : ℕ} (h : a + stop ≤ b) :
    slice (slice text a b) start stop = slice text (a + start) (a + stop) := by
  unfold slice
  rw [List.take_drop, List.take_take, min_eq_left h, List.drop_drop]

theorem getElem?_slice (text : Text) {a b i : ℕ} (h : a + i < b) :
    (slice text a b)[i]? = text[a + i]? := by
  unfold slice
  rw [List.getElem?_drop, List.getElem?_take_of_lt h]

theorem length_slice {text : Text} {a b : ℕ} (h : b ≤ text.length) :
    (slice text a b).length = b - a := by
  unfold slice
  rw [List.length_drop, List.length_take, min_eq_left h]

/-- A stripped slice is a slice, which leaves out white space only. -/
theorem strip_slice (text : Text) {a b : ℕ} (hab : a ≤ b) (hb : b ≤ text.length) :
    ∃ start stop, a ≤ start ∧ start ≤ stop ∧ stop ≤ b ∧
      strip (slice text a b) = slice text start stop ∧
      ∀ i c, a ≤ i → i < b → text[i]? = some c → isSpace c = false → start ≤ i ∧ i < stop := by
  obtain ⟨before, behind, htext, hbefore, hbehind⟩ := strip_spec (slice text a b)
  have hlength := congrArg List.length htext
  rw [length_slice hb, List.length_append, List.length_append] at hlength
  refine ⟨a + before.length, a + (before.length + (strip (slice text a b)).length), by omega,
    by omega, by omega, ?_, ?_⟩
  · have hinner : a + (before.length + (strip (slice text a b)).length) ≤ b := by omega
    have hmiddle : ∀ middle : Text,
        slice (before ++ middle ++ behind) before.length (before.length + middle.length) =
          middle := by
      intro middle
      unfold slice
      rw [List.append_assoc, List.take_length_add_append, List.take_left' rfl,
        List.drop_left' rfl]
    have hstrip := hmiddle (strip (slice text a b))
    rw [← htext, slice_slice text hinner] at hstrip
    exact hstrip.symm
  · intro i c ha hi hc hspace
    have hget : (before ++ strip (slice text a b) ++ behind)[i - a]? = some c := by
      rw [← htext, getElem?_slice text (by omega)]
      rw [Nat.add_sub_cancel' ha]
      exact hc
    constructor
    · by_contra hlow
      rw [List.append_assoc, List.getElem?_append_left (by omega)] at hget
      rw [hbefore c (List.mem_of_getElem? hget)] at hspace
      cases hspace
    · by_contra hhigh
      rw [List.getElem?_append_right (by rw [List.length_append]; omega)] at hget
      rw [hbehind c (List.mem_of_getElem? hget)] at hspace
      cases hspace

end Slices

theorem forall₂_filter {α β : Type} {R : α → β → Prop} {as : List α} {bs : List β}
    (h : List.Forall₂ R as bs) (keep : α → Bool) :
    ∃ kept, List.Forall₂ R (as.filter keep) kept ∧ kept.Sublist bs ∧
      ∀ b ∈ bs, b ∈ kept ∨ ∃ a, R a b ∧ keep a = false := by
  induction h with
  | nil => exact ⟨[], .nil, .slnil, fun b hb => absurd hb List.not_mem_nil⟩
  | @cons a b as bs hab hrest ih =>
    obtain ⟨kept, hkept, hsublist, hall⟩ := ih
    cases hkeep : keep a with
    | true =>
      refine ⟨b :: kept, ?_, hsublist.cons_cons b, ?_⟩
      · rw [List.filter_cons_of_pos hkeep]
        exact .cons hab hkept
      · rw [List.forall_mem_cons]
        exact ⟨Or.inl List.mem_cons_self, fun other hother =>
          (hall other hother).imp_left fun hmem => List.mem_cons_of_mem _ hmem⟩
    | false =>
      refine ⟨kept, ?_, hsublist.cons b, ?_⟩
      · rw [List.filter_cons_of_neg (by simp [hkeep])]
        exact hkept
      · rw [List.forall_mem_cons]
        exact ⟨Or.inr ⟨a, hab, hkeep⟩, hall⟩

theorem forall₂_imp_of_mem {α β : Type} {R S : α → β → Prop} {as : List α} {bs : List β}
    (h : List.Forall₂ R as bs) (himp : ∀ a, ∀ b ∈ bs, R a b → S a b) : List.Forall₂ S as bs := by
  induction h with
  | nil => exact .nil
  | cons hab hrest ih =>
    exact .cons (himp _ _ List.mem_cons_self hab)
      (ih fun a b hb => himp a b (List.mem_cons_of_mem _ hb))

theorem forall₂_mapIdx {α β γ : Type} {R : α → β → Prop} {S : γ → β → Prop} {as : List α}
    {bs : List β} (h : List.Forall₂ R as bs) :
    ∀ change : ℕ → α → γ, (∀ i a b, R a b → S (change i a) b) →
      List.Forall₂ S (as.mapIdx change) bs := by
  induction h with
  | nil => exact fun _ _ => .nil
  | cons hab hrest ih =>
    intro change hchange
    rw [List.mapIdx_cons]
    exact .cons (hchange 0 _ _ hab) (ih _ fun i a b => hchange (i + 1) a b)

/-- Chunks of the part of a text from `a` to `b` are stripped slices of it, in
order and with a bounded overlap, and leave out white space only. -/
structure Pieces (text : Text) (overlap a b : ℕ) (chunks : List Text) (spans : List (ℕ × ℕ)) :
    Prop where
  texts : List.Forall₂ (fun chunk span => chunk = strip (slice text span.1 span.2)) chunks spans
  inside : ∀ span ∈ spans, a ≤ span.1 ∧ span.1 ≤ span.2 ∧ span.2 ≤ b
  ordered : spans.Pairwise fun first second =>
    first.1 ≤ second.1 ∧ first.2 ≤ second.1 + overlap
  covers : ∀ i c, a ≤ i → i < b → text[i]? = some c → isSpace c = false →
    ∃ span ∈ spans, span.1 ≤ i ∧ i < span.2

namespace Pieces

variable {text : Text} {overlap a b c : ℕ} {chunks more : List Text} {spans others : List (ℕ × ℕ)}

theorem nil (h : ∀ i d, a ≤ i → i < b → text[i]? = some d → isSpace d = true) :
    Pieces text overlap a b [] [] := by
  refine ⟨.nil, fun _ hspan => absurd hspan List.not_mem_nil, .nil, fun i d ha hb hd hspace => ?_⟩
  rw [h i d ha hb hd] at hspace
  cases hspace

theorem single (hab : a ≤ b) : Pieces text overlap a b [strip (slice text a b)] [(a, b)] := by
  refine ⟨.cons rfl .nil, ?_, List.pairwise_singleton _ _, fun i d ha hb _ _ => ?_⟩
  · exact List.forall_mem_singleton.mpr ⟨le_refl a, hab, le_refl b⟩
  · exact ⟨(a, b), List.mem_singleton_self _, ha, hb⟩

/-- Pieces of a part and of the part behind it. -/
theorem append (h : Pieces text overlap a b chunks spans)
    (h' : Pieces text overlap b c more others) (hab : a ≤ b) (hbc : b ≤ c) :
    Pieces text overlap a c (chunks ++ more) (spans ++ others) := by
  refine ⟨List.rel_append h.texts h'.texts, ?_, ?_, ?_⟩
  · intro span hspan
    rcases List.mem_append.mp hspan with hspan | hspan
    · have hin := h.inside span hspan
      omega
    · have hin := h'.inside span hspan
      omega
  · rw [List.pairwise_append]
    refine ⟨h.ordered, h'.ordered, fun first hfirst second hsecond => ?_⟩
    have hin := h.inside first hfirst
    have hin' := h'.inside second hsecond
    omega
  · intro i d ha hc hd hspace
    rcases lt_or_ge i b with hi | hi
    · obtain ⟨span, hspan, hcover⟩ := h.covers i d ha hi hd hspace
      exact ⟨span, List.mem_append_left _ hspan, hcover⟩
    · obtain ⟨span, hspan, hcover⟩ := h'.covers i d hi hc hd hspace
      exact ⟨span, List.mem_append_right _ hspan, hcover⟩

/-- White space around a part. -/
theorem widen {start stop : ℕ} (h : Pieces text overlap start stop chunks spans)
    (ha : a ≤ start) (hb : stop ≤ b)
    (hblank : ∀ i d, a ≤ i → i < b → text[i]? = some d → isSpace d = false →
      start ≤ i ∧ i < stop) :
    Pieces text overlap a b chunks spans := by
  refine ⟨h.texts, fun span hspan => ?_, h.ordered, fun i d hai hib hd hspace => ?_⟩
  · have hin := h.inside span hspan
    omega
  · obtain ⟨hstart, hstop⟩ := hblank i d hai hib hd hspace
    exact h.covers i d hstart hstop hd hspace

/-- Pieces of a slice are pieces of the text. -/
theorem of_slice (hab : a ≤ b) (hb : b ≤ text.length)
    (h : Pieces (slice text a b) overlap 0 (slice text a b).length chunks spans) :
    Pieces text overlap a b chunks (spans.map fun span => (a + span.1, a + span.2)) := by
  have hlength := length_slice hb (a := a)
  refine ⟨?_, ?_, ?_, ?_⟩
  · rw [List.forall₂_map_right_iff]
    refine forall₂_imp_of_mem h.texts fun chunk span hspan hchunk => ?_
    have hin := h.inside span hspan
    rw [hchunk, slice_slice text (show a + span.2 ≤ b by omega)]
  · intro span hspan
    obtain ⟨inner, hinner, rfl⟩ := List.mem_map.mp hspan
    have hin := h.inside inner hinner
    dsimp only
    omega
  · rw [List.pairwise_map]
    refine h.ordered.imp fun hle => ?_
    dsimp only
    omega
  · intro i d hai hib hd hspace
    have hget : (slice text a b)[i - a]? = some d := by
      rw [getElem?_slice text (by omega), Nat.add_sub_cancel' hai]
      exact hd
    obtain ⟨span, hspan, hlow, hhigh⟩ := h.covers (i - a) d (Nat.zero_le _) (by omega) hget hspace
    refine ⟨_, List.mem_map_of_mem hspan, ?_, ?_⟩
    · dsimp only
      omega
    · dsimp only
      omega

/-- One more piece in front, which may overlap those behind it. -/
theorem cons {start stop next : ℕ} (h : Pieces text overlap next b chunks spans)
    (hnext : start ≤ next) (hstop : next ≤ stop) (hb : stop ≤ b) (hoverlap : stop ≤ next + overlap) :
    Pieces text overlap start b (strip (slice text start stop) :: chunks) ((start, stop) :: spans) := by
  refine ⟨.cons rfl h.texts, ?_, ?_, ?_⟩
  · rw [List.forall_mem_cons]
    refine ⟨⟨le_refl start, hnext.trans hstop, hb⟩, fun span hspan => ?_⟩
    have hin := h.inside span hspan
    omega
  · rw [List.pairwise_cons]
    refine ⟨fun span hspan => ?_, h.ordered⟩
    have hin := h.inside span hspan
    dsimp only
    omega
  · intro i d hstart hib hd hspace
    rcases lt_or_ge i stop with hi | hi
    · exact ⟨(start, stop), List.mem_cons_self, hstart, hi⟩
    · obtain ⟨span, hspan, hcover⟩ := h.covers i d (hstop.trans hi) hib hd hspace
      exact ⟨span, List.mem_cons_of_mem _ hspan, hcover⟩

/-- Leave out blank pieces. -/
theorem filter (h : Pieces text overlap a b chunks spans) :
    ∃ kept, Pieces text overlap a b (chunks.filter fun chunk => strip chunk ≠ []) kept := by
  obtain ⟨kept, htexts, hsublist, hkept⟩ :=
    forall₂_filter h.texts fun chunk => decide (strip chunk ≠ [])
  refine ⟨kept, htexts, fun span hspan => h.inside span (hsublist.subset hspan),
    h.ordered.sublist hsublist, fun i d hai hib hd hspace => ?_⟩
  obtain ⟨span, hspan, hlow, hhigh⟩ := h.covers i d hai hib hd hspace
  rcases hkept span hspan with hmem | ⟨chunk, hchunk, hblank⟩
  · exact ⟨span, hmem, hlow, hhigh⟩
  · rw [decide_eq_false_iff_not, not_not, hchunk] at hblank
    have hin := h.inside span hspan
    have hget : (slice text span.1 span.2)[i - span.1]? = some d := by
      rw [getElem?_slice text (by omega), Nat.add_sub_cancel' hlow]
      exact hd
    have hall := blank_of_strip (blank_of_strip_nil hblank)
    rw [hall d (List.mem_of_getElem? hget)] at hspace
    cases hspace

end Pieces

section Loop

theorem rfind_spec {text part : Text} {start stop i : ℕ} (h : rfind text part start stop = some i) :
    start ≤ i ∧ i + part.length ≤ stop := by
  unfold rfind at h
  have hmem := List.mem_of_getLast? h
  rw [List.mem_filter, List.mem_range'_1] at hmem
  omega

variable {text : Text} {maxChars overlap start : ℕ}

/-- A break is found within the overlap before the end, or not at all. -/
theorem breakPoint_spec {stop : ℕ} :
    breakPoint text overlap start stop = stop ∨
      start < breakPoint text overlap start stop ∧ breakPoint text overlap start stop ≤ stop ∧
        stop < breakPoint text overlap start stop + overlap := by
  unfold breakPoint
  dsimp only
  split
  · rename_i i hfound
    split
    · right
      have hplace : max start (stop - overlap) ≤ i ∧ i + 1 ≤ stop := by
        simp only [Option.orElse_eq_or, Option.orElse_eq_orElse, Option.or_eq_some_iff] at hfound
        rcases hfound with hfound | ⟨-, hfound | ⟨-, hfound⟩⟩
        all_goals
          have hspec := rfind_spec hfound
          simp only [List.length_cons, List.length_nil] at hspec
          omega
      omega
    · exact Or.inl rfl
  · exact Or.inl rfl

/-- Where the next window starts. -/
def nextStart (text : Text) (maxChars overlap start : ℕ) : ℕ :=
  let stop := windowEnd text maxChars overlap start
  if stop < text.length then stop - overlap else stop

/-- A window ends behind its start, and reaches the end of the text or farther
than the overlap. -/
theorem windowEnd_spec (hpos : 0 < maxChars) (hmax : 2 * overlap ≤ maxChars) :
    windowEnd text maxChars overlap start ≤ text.length ∧
      windowEnd text maxChars overlap start ≤ start + maxChars ∧
      (windowEnd text maxChars overlap start = text.length ∨
        start + overlap < windowEnd text maxChars overlap start) := by
  unfold windowEnd
  dsimp only
  split
  · rename_i hshort
    rcases @breakPoint_spec text overlap start (min (start + maxChars) text.length) with hstop | hstop
    · rw [hstop]
      omega
    · omega
  · omega

/-- The loop advances, and what it leaves behind it is in the last window. -/
theorem nextStart_spec (hpos : 0 < maxChars) (hmax : 2 * overlap ≤ maxChars)
    (hstart : start < text.length) :
    start < nextStart text maxChars overlap start ∧
      nextStart text maxChars overlap start ≤ windowEnd text maxChars overlap start ∧
      windowEnd text maxChars overlap start ≤ nextStart text maxChars overlap start + overlap := by
  have hspec := @windowEnd_spec text _ _ start hpos hmax
  unfold nextStart
  dsimp only
  split <;> omega

theorem windows_succ (fuel : ℕ) (hstart : start < text.length) :
    windows text maxChars overlap (fuel + 1) start =
      (if strip (slice text start (windowEnd text maxChars overlap start)) = [] then []
        else [strip (slice text start (windowEnd text maxChars overlap start))]) ++
      windows text maxChars overlap fuel (nextStart text maxChars overlap start) := by
  rw [windows, if_pos hstart]
  rfl

theorem windows_end (fuel : ℕ) (hstart : ¬start < text.length) :
    windows text maxChars overlap fuel start = [] := by
  cases fuel with
  | zero => rfl
  | succ fuel => rw [windows, if_neg hstart]

/-- The windows that the fuel suffices for are all windows. -/
theorem windows_fuel (hpos : 0 < maxChars) (hmax : 2 * overlap ≤ maxChars) (extra : ℕ) :
    ∀ fuel start, text.length ≤ fuel + start →
      windows text maxChars overlap (fuel + extra) start =
        windows text maxChars overlap fuel start := by
  intro fuel
  induction fuel with
  | zero =>
    intro start hfuel
    rw [windows_end _ (by omega), windows_end _ (by omega)]
  | succ fuel ih =>
    intro start hfuel
    by_cases hstart : start < text.length
    · have hnext := nextStart_spec hpos hmax hstart
      rw [Nat.add_right_comm, windows_succ _ hstart, windows_succ _ hstart, ih _ (by omega)]
    · rw [windows_end _ hstart, windows_end _ hstart]

theorem windows_pieces (hpos : 0 < maxChars) (hmax : 2 * overlap ≤ maxChars) :
    ∀ fuel start, text.length ≤ fuel + start → start ≤ text.length →
      ∃ spans, Pieces text overlap start text.length (windows text maxChars overlap fuel start)
        spans := by
  intro fuel
  induction fuel with
  | zero =>
    intro start hfuel hstart
    rw [windows_end _ (by omega)]
    exact ⟨[], Pieces.nil fun i d hi hlength => by omega⟩
  | succ fuel ih =>
    intro start hfuel hlength
    by_cases hstart : start < text.length
    · have hstop := @windowEnd_spec text _ _ start hpos hmax
      have hnext := nextStart_spec hpos hmax hstart
      obtain ⟨spans, hspans⟩ := ih (nextStart text maxChars overlap start) (by omega) (by omega)
      rw [windows_succ _ hstart]
      split
      · rename_i hblank
        refine ⟨spans, hspans.widen (by omega) (le_refl _) fun i d hi hlength hd hspace => ?_⟩
        refine ⟨?_, hlength⟩
        by_contra hbefore
        have hget : (slice text start (windowEnd text maxChars overlap start))[i - start]? =
            some d := by
          rw [getElem?_slice text (by omega), Nat.add_sub_cancel' hi]
          exact hd
        have hall := blank_of_strip_nil hblank
        rw [hall d (List.mem_of_getElem? hget)] at hspace
        cases hspace
      · exact ⟨_, hspans.cons (by omega) (by omega) hstop.1 (by omega)⟩
    · rw [windows_end _ hstart]
      exact ⟨[], Pieces.nil fun i d hi hlength => by omega⟩

end Loop

section Sections

variable {maxChars overlap : ℕ}

theorem slice_all (text : Text) : slice text 0 text.length = text := by
  unfold slice
  rw [List.take_length, List.drop_zero]

theorem chunkBySize_pieces (hpos : 0 < maxChars) (hmax : 2 * overlap ≤ maxChars) (text : Text) :
    ∃ spans, Pieces text overlap 0 text.length (chunkBySize text maxChars overlap) spans := by
  unfold chunkBySize
  split_ifs with hblank hshort
  · refine ⟨[], Pieces.nil fun i d _ _ hd => ?_⟩
    rcases hblank with rfl | hblank
    · cases hd
    · exact blank_of_strip_nil hblank d (List.mem_of_getElem? hd)
  · have hone := @Pieces.single text overlap _ _ (Nat.zero_le text.length)
    rw [slice_all] at hone
    exact ⟨_, hone⟩
  · exact windows_pieces hpos hmax text.length 0 (le_refl _) (Nat.zero_le _)

/-- A part of a text is stripped, and cut by size. -/
theorem chunkBySize_strip (hpos : 0 < maxChars) (hmax : 2 * overlap ≤ maxChars) {text : Text}
    {a b : ℕ} (hab : a ≤ b) (hb : b ≤ text.length) :
    ∃ spans, Pieces text overlap a b (chunkBySize (strip (slice text a b)) maxChars overlap)
      spans := by
  obtain ⟨start, stop, ha, hle, hstop, hstrip, hblank⟩ := strip_slice text hab hb
  rw [hstrip]
  obtain ⟨spans, hspans⟩ := chunkBySize_pieces hpos hmax (slice text start stop)
  exact ⟨_, (hspans.of_slice hle (hstop.trans hb)).widen ha hstop hblank⟩

theorem sectionChunks_pieces {text : Text} {found : Span} {stop : ℕ}
    (hfound : found.start + found.length ≤ stop) (hstop : stop ≤ text.length) :
    ∃ spans, Pieces text overlapChars found.start stop (sectionChunks text found stop) spans := by
  unfold sectionChunks
  dsimp only
  split_ifs
  · have hheading := @Pieces.single text overlapChars _ _
      (Nat.le_add_right found.start found.length)
    obtain ⟨spans, hbody⟩ := @chunkBySize_strip maxChunkChars overlapChars (by decide)
      (by decide) _ _ _ hfound hstop
    exact ⟨_, hheading.append hbody (Nat.le_add_right _ _) hfound⟩
  · exact ⟨_, Pieces.single (by omega)⟩

/-- Matches lie behind each other. -/
theorem lineMatches_ordered (pattern : Regex) (text : Text) :
    ∀ pos lineStart skip,
      (∀ found ∈ lineMatches pattern pos lineStart skip text,
        pos + skip ≤ found.start ∧ found.start + found.length ≤ pos + text.length) ∧
      (lineMatches pattern pos lineStart skip text).Pairwise fun first second =>
        first.start + first.length ≤ second.start := by
  induction text with
  | nil =>
    intro pos lineStart skip
    rw [lineMatches]
    exact ⟨fun found hfound => absurd hfound List.not_mem_nil, .nil⟩
  | cons c rest ih =>
    intro pos lineStart skip
    cases skip with
    | succ skip =>
      rw [lineMatches]
      obtain ⟨hbounds, hpairs⟩ := ih (pos + 1) (c = '\n') skip
      refine ⟨fun found hfound => ?_, hpairs⟩
      have hbound := hbounds found hfound
      rw [List.length_cons]
      omega
    | zero =>
      rw [lineMatches]
      split
      · rename_i found hfound
        obtain ⟨hbounds, hpairs⟩ := ih (pos + 1) (c = '\n')
          ((c :: rest).length - found.rest.length - 1)
        dsimp only
        refine ⟨?_, List.pairwise_cons.mpr ⟨fun later hlater => ?_, hpairs⟩⟩
        · rw [List.forall_mem_cons]
          refine ⟨by dsimp only; omega, fun later hlater => ?_⟩
          have hbound := hbounds later hlater
          rw [List.length_cons] at *
          omega
        · have hbound := hbounds later hlater
          dsimp only
          omega
      · obtain ⟨hbounds, hpairs⟩ := ih (pos + 1) (c = '\n') 0
        refine ⟨fun found hfound => ?_, hpairs⟩
        have hbound := hbounds found hfound
        rw [List.length_cons]
        omega

/-- The sections from the first match to the end of the text. -/
theorem sections_pieces {text : Text} (rest : List Span) :
    ∀ first : Span, first.start + first.length ≤ text.length →
      (∀ found ∈ rest, found.start + found.length ≤ text.length) →
      (first :: rest).Pairwise (fun first second => first.start + first.length ≤ second.start) →
      ∃ spans, Pieces text overlapChars first.start text.length
        (((first :: rest).zip (rest.map Span.start ++ [text.length])).flatMap fun part =>
          sectionChunks text part.1 part.2) spans := by
  induction rest with
  | nil =>
    intro first hfirst _ _
    obtain ⟨spans, hspans⟩ := sectionChunks_pieces hfirst (le_refl _)
    refine ⟨spans, ?_⟩
    change Pieces text overlapChars first.start text.length
      (sectionChunks text first text.length ++ []) spans
    rw [List.append_nil]
    exact hspans
  | cons second rest ih =>
    intro first hfirst hbounds hpairs
    rw [List.forall_mem_cons] at hbounds
    rw [List.pairwise_cons] at hpairs
    have hnext := hpairs.1 second List.mem_cons_self
    have hstop : second.start ≤ text.length := by omega
    obtain ⟨spans, hspans⟩ := sectionChunks_pieces hnext hstop
    obtain ⟨others, hothers⟩ := ih second hbounds.1 hbounds.2 hpairs.2
    exact ⟨_, hspans.append hothers (by omega) (by omega)⟩

theorem chunkAtMatches_pieces (pattern : Regex) {preambleChunks : Text → List Text} {text : Text}
    (hpreamble : ∀ b ≤ text.length, ∃ spans,
      Pieces text overlapChars 0 b (preambleChunks (strip (slice text 0 b))) spans) :
    ∃ spans, Pieces text overlapChars 0 text.length (chunkAtMatches pattern preambleChunks text)
      spans := by
  unfold chunkAtMatches
  split
  · exact chunkBySize_pieces (by decide) (by decide) text
  · rename_i first rest hmatches
    obtain ⟨hbounds, hpairs⟩ := lineMatches_ordered pattern text 0 true 0
    rw [hmatches] at hbounds hpairs
    rw [List.forall_mem_cons] at hbounds
    have hfirst := hbounds.1
    have hend : first.start + first.length ≤ text.length := by omega
    obtain ⟨others, hothers⟩ := sections_pieces rest first hend
      (fun found hfound => by have hbound := hbounds.2 found hfound; omega) hpairs
    have htake : slice text 0 first.start = text.take first.start := List.drop_zero
    have hbefore : ∃ spans, Pieces text overlapChars 0 first.start
        (if 0 < first.start ∧ strip (text.take first.start) ≠ [] then
          preambleChunks (strip (text.take first.start)) else []) spans := by
      split_ifs with hsome
      · rw [← htake]
        exact hpreamble first.start (by omega)
      · refine ⟨[], Pieces.nil fun i d _ hi hd => ?_⟩
        have hblank : strip (text.take first.start) = [] := by
          by_contra hne
          exact hsome ⟨by omega, hne⟩
        refine blank_of_strip_nil hblank d (List.mem_of_getElem? (i := i) ?_)
        rw [List.getElem?_take_of_lt hi]
        exact hd
    obtain ⟨spans, hspans⟩ := hbefore
    exact (hspans.append hothers (Nat.zero_le _) (by omega)).filter

end Sections

/-- The intervals that the chunks of a text stand for. -/
structure Covered (text : Text) (chunks : List Chunk) (spans : List (ℕ × ℕ)) : Prop where
  words : List.Forall₂ (fun chunk span => words chunk.content = words (slice text span.1 span.2))
    chunks spans
  inside : ∀ span ∈ spans, span.1 ≤ span.2 ∧ span.2 ≤ text.length
  ordered : spans.Pairwise fun first second => first.1 ≤ second.1
  overlap : List.IsChain (fun first second => first.2 ≤ second.1 + 200) spans
  covers : ∀ (i : ℕ) (c : Char), text[i]? = some c → isSpace c = false →
    ∃ span ∈ spans, span.1 ≤ i ∧ i < span.2

theorem chunks_pieces (content sourceType : Text) :
    ∃ spans, Pieces content overlapChars 0 content.length
      (if sourceType = "code".toList then chunkCode content else chunkMarkdown content) spans := by
  split_ifs
  · exact chunkAtMatches_pieces symbolRe fun b hb => ⟨_, Pieces.single (Nat.zero_le b)⟩
  · exact chunkAtMatches_pieces headingRe fun b hb =>
      chunkBySize_strip (by decide) (by decide) (Nat.zero_le b) hb

/-- The chunks of a text are the words of intervals that begin one behind the
other, overlap by at most two hundred characters, and cover all that is not white
space; and the loop over windows advances and comes to an end, for every size
that is at least twice the overlap. -/
theorem chunkText_covers (content sourceType sourceId : Text) (docMetadata : Metadata) :
    (∃ spans, Covered content (chunkText content sourceType sourceId docMetadata) spans) ∧
      ∀ (text : Text) (maxChars overlap : ℕ), 0 < maxChars → 2 * overlap ≤ maxChars →
        (∀ start, start < text.length → start < nextStart text maxChars overlap start) ∧
        ∀ extra, windows text maxChars overlap (text.length + extra) 0 =
          windows text maxChars overlap text.length 0 := by
  refine ⟨?_, fun text maxChars overlap hpos hmax => ⟨fun start hstart => ?_, fun extra => ?_⟩⟩
  · obtain ⟨spans, hspans⟩ := chunks_pieces content sourceType
    refine ⟨spans, ?_, ?_, ?_, ?_, ?_⟩
    · unfold chunkText
      dsimp only
      refine forall₂_mapIdx hspans.texts _ fun index chunk span hchunk => ?_
      dsimp only
      rw [words_normalizeContent, hchunk, words_strip]
    · exact fun span hspan => (hspans.inside span hspan).2
    · exact hspans.ordered.imp fun h => h.1
    · exact (hspans.ordered.imp fun h => h.2).isChain
    · intro i c hc hspace
      have hi : i < content.length := (List.getElem?_eq_some_iff.mp hc).1
      exact hspans.covers i c (Nat.zero_le i) hi hc hspace
  · exact (nextStart_spec hpos hmax hstart).1
  · exact windows_fuel hpos hmax extra text.length 0 (le_refl _)

end AiosDeck.Knowledge
