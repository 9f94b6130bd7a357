import AiosDeck.Agents.Git

/-!
# Renames in the working tree

Git marks a rename or copy in either status column, and both times the path
that it came from is a record of its own. The parser looks for the mark in the
first column only. Behind a mark in the second one it takes the source path
for an entry.
-/

namespace AiosDeck.Agents

open Python

namespace StatusEntry

/-- The entry is one that git writes: a rename or copy marked in either column
has a second path, and no other entry has. -/
structure Written (entry : StatusEntry) : Prop extends Delimited entry where
  source : entry.source.isSome = true ↔ entry.index ∈ ['R', 'C'] ∨ entry.worktree ∈ ['R', 'C']

/-- The status of the entry contains a deletion. -/
def hasDeletion (entry : StatusEntry) : Bool := entry.index == 'D' || entry.worktree == 'D'

/-- What is to be reported of the entry: its resulting path, but for a deletion. -/
def resulting (entry : StatusEntry) : List Text := if entry.hasDeletion then [] else [entry.path]

end StatusEntry

namespace GitAgent

/-- The record begins like a rename or copy. -/
def marked (record : Text) : Bool := (record.take 2).head?.any (· ∈ ['R', 'C'])

theorem marked_cons (letter other : Char) (rest : Text) :
    marked (letter :: other :: rest) = decide (letter ∈ ['R', 'C']) := rfl

/-- The path that a record gives when it is read as an entry. -/
def readAs (record : Text) : List Text :=
  if record.length ≤ PORCELAIN_HEADER then []
  else if marked record then [record.drop PORCELAIN_HEADER]
  else if 'D' ∈ record.take 2 then []
  else [record.drop PORCELAIN_HEADER]

/-- Read as an entry, the record takes the next one for a source path. -/
def swallows (record : Text) : Bool := PORCELAIN_HEADER ≤ record.length && marked record

/-- One record of the loop, read as an entry. -/
theorem parseRecords_cons (record : Text) (rest : List Text) :
    parseRecords false (record :: rest) = readAs record ++ parseRecords (swallows record) rest := by
  have hpath : record.drop PORCELAIN_HEADER = [] ↔ record.length ≤ PORCELAIN_HEADER :=
    List.drop_eq_nil_iff
  have hstep : parseRecords false (record :: rest) =
      if record.length < PORCELAIN_HEADER then parseRecords false rest
      else if marked record = true then
        if record.drop PORCELAIN_HEADER = [] then parseRecords true rest
        else record.drop PORCELAIN_HEADER :: parseRecords true rest
      else if 'D' ∈ record.take 2 then parseRecords false rest
      else if record.drop PORCELAIN_HEADER = [] then parseRecords false rest
      else record.drop PORCELAIN_HEADER :: parseRecords false rest := by
    rw [parseRecords]
    rfl
  rw [hstep]
  unfold readAs swallows
  by_cases hshort : record.length < PORCELAIN_HEADER
  · have hnot : decide (PORCELAIN_HEADER ≤ record.length) = false :=
      decide_eq_false (Nat.not_le.mpr hshort)
    rw [if_pos hshort, if_pos (Nat.le_of_lt hshort), hnot]
    rfl
  · have hlong : decide (PORCELAIN_HEADER ≤ record.length) = true :=
      decide_eq_true (Nat.le_of_not_lt hshort)
    rw [if_neg hshort, hlong, Bool.true_and]
    simp only [hpath]
    cases marked record with
    | true => by_cases hempty : record.length ≤ PORCELAIN_HEADER <;> simp [hempty]
    | false =>
      by_cases hgone : 'D' ∈ record.take 2
      · by_cases hempty : record.length ≤ PORCELAIN_HEADER <;> simp [hempty, hgone]
      · by_cases hempty : record.length ≤ PORCELAIN_HEADER <;> simp [hempty, hgone]

/-- What the parser reports at the records of an entry, when it expects an
entry or a source path there. -/
def reportedAt (sourceExpected : Bool) (entry : StatusEntry) : List Text :=
  if sourceExpected then entry.source.toList.flatMap readAs
  else if entry.index ∈ ['R', 'C'] then [entry.path]
  else (if 'D' ∈ [entry.index, entry.worktree] then [] else [entry.path]) ++
    entry.source.toList.flatMap readAs

/-- Whether the parser expects a source path behind the records of an entry. -/
def expectedBehind (sourceExpected : Bool) (entry : StatusEntry) : Bool :=
  if !sourceExpected && entry.index ∈ ['R', 'C'] then false else entry.source.any swallows

/-- The records of one entry. -/
theorem parseRecords_records {entry : StatusEntry} (h : entry.Written) (sourceExpected : Bool)
    (rest : List Text) : parseRecords sourceExpected (entry.records ++ rest) =
      reportedAt sourceExpected entry ++ parseRecords (expectedBehind sourceExpected entry) rest := by
  have hsource : parseRecords false (entry.source.toList ++ rest) =
      entry.source.toList.flatMap readAs ++ parseRecords (entry.source.any swallows) rest := by
    cases entry.source with
    | none => rfl
    | some origin => simp [parseRecords_cons]
  have hlong : ¬(entry.index :: entry.worktree :: ' ' :: entry.path).length ≤ PORCELAIN_HEADER := by
    have hpath : 0 < entry.path.length := List.length_pos_iff.mpr h.path.1
    simp only [List.length_cons, PORCELAIN_HEADER]
    omega
  have hheader : PORCELAIN_HEADER ≤ (entry.index :: entry.worktree :: ' ' :: entry.path).length := by
    simp [PORCELAIN_HEADER]
  rw [StatusEntry.records, List.cons_append]
  cases sourceExpected with
  | true =>
    simp only [parseRecords, hsource, reportedAt, expectedBehind, Bool.not_true, Bool.false_and,
      Bool.false_eq_true, if_false, if_true]
  | false =>
    rw [parseRecords_cons]
    by_cases hmoved : entry.index ∈ ['R', 'C']
    · obtain ⟨origin, horigin⟩ := Option.isSome_iff_exists.mp (h.source.mpr (.inl hmoved))
      have hreads : readAs (entry.index :: entry.worktree :: ' ' :: entry.path) = [entry.path] := by
        unfold readAs
        rw [if_neg hlong, marked_cons, if_pos (decide_eq_true hmoved)]
        rfl
      have htakes : swallows (entry.index :: entry.worktree :: ' ' :: entry.path) = true := by
        unfold swallows
        rw [decide_eq_true hheader, marked_cons, decide_eq_true hmoved]
        rfl
      rw [hreads, htakes, horigin]
      simp [parseRecords, reportedAt, expectedBehind, hmoved]
    · have hreads : readAs (entry.index :: entry.worktree :: ' ' :: entry.path) =
          if 'D' ∈ [entry.index, entry.worktree] then [] else [entry.path] := by
        have hunmarked : ¬decide (entry.index ∈ ['R', 'C']) = true := by simpa using hmoved
        unfold readAs
        rw [if_neg hlong, marked_cons, if_neg hunmarked]
        rfl
      have htakes : swallows (entry.index :: entry.worktree :: ' ' :: entry.path) = false := by
        unfold swallows
        rw [marked_cons, decide_eq_false hmoved, Bool.and_false]
      rw [hreads, htakes, hsource, ← List.append_assoc]
      simp [reportedAt, expectedBehind, hmoved]

/-- Whether the parser expects a source path behind a listing. -/
def expectedAfter (entries : List StatusEntry) : Bool := entries.foldl expectedBehind false

/-- What the parser makes of one more entry. -/
theorem parsePorcelain_append {entries : List StatusEntry} {entry : StatusEntry}
    (h : ∀ other ∈ entries ++ [entry], other.Written) :
    parsePorcelain (StatusEntry.render (entries ++ [entry])) =
      parsePorcelain (StatusEntry.render entries) ++ reportedAt (expectedAfter entries) entry := by
  have hrun : ∀ (done : List StatusEntry) (state : Bool), (∀ other ∈ done, other.Written) →
      ∀ rest, parseRecords state (done.flatMap StatusEntry.records ++ rest) =
        parseRecords state (done.flatMap StatusEntry.records) ++
          parseRecords (done.foldl expectedBehind state) rest := by
    intro done
    induction done with
    | nil =>
      intro state _ rest
      cases state <;> rfl
    | cons other done ih =>
      intro state hwritten rest
      have hother := hwritten other List.mem_cons_self
      have hdone := ih (expectedBehind state other) fun entry hentry =>
        hwritten entry (List.mem_cons_of_mem _ hentry)
      rw [List.flatMap_cons, List.append_assoc, parseRecords_records hother,
        parseRecords_records hother, hdone rest, List.foldl_cons, List.append_assoc]
  have hentries : ∀ other ∈ entries, other.Written :=
    fun other hother => h other (List.mem_append_left _ hother)
  have hentry : entry.Written := h entry (List.mem_append_right _ List.mem_cons_self)
  unfold parsePorcelain
  rw [records_render fun other hother => (h other hother).toDelimited,
    records_render fun other hother => (hentries other hother).toDelimited, List.flatMap_append,
    hrun entries false hentries, List.flatMap_singleton]
  have hone := parseRecords_records hentry (expectedAfter entries) []
  have hend : parseRecords (expectedBehind (expectedAfter entries) entry) [] = [] := by
    cases expectedBehind (expectedAfter entries) entry <;> rfl
  rw [List.append_nil, hend, List.append_nil] at hone
  exact congrArg _ hone

/-- The listing is decoded: the paths are those of the entries without
deletion, and each entry adds its own path to those of the entries before it,
or nothing when it is a deletion. -/
def Decodes (entries : List StatusEntry) : Prop :=
  parsePorcelain (StatusEntry.render entries) = entries.flatMap StatusEntry.resulting ∧
    ∀ before entry behind, entries = before ++ entry :: behind →
      parsePorcelain (StatusEntry.render (before ++ [entry])) =
        parsePorcelain (StatusEntry.render before) ++ entry.resulting

/-- The entry is read as it is meant. Where an entry is expected, a rename or
copy in the index is not deleted in the working tree, and the source path of
one in the working tree names nothing when it is read as an entry. Behind a
source path that begins like a rename, the entry itself is taken for a source
path, and its own source path has to name what the entry does. -/
def ReadsRight (sourceExpected : Bool) (entry : StatusEntry) : Prop :=
  if sourceExpected then entry.source.toList.flatMap readAs = entry.resulting
  else if entry.index ∈ ['R', 'C'] then entry.worktree ≠ 'D'
  else ∀ origin ∈ entry.source, readAs origin = []

theorem reportedAt_iff (sourceExpected : Bool) (entry : StatusEntry) :
    reportedAt sourceExpected entry = entry.resulting ↔ ReadsRight sourceExpected entry := by
  unfold reportedAt ReadsRight
  cases sourceExpected with
  | true => rfl
  | false =>
    rw [if_neg Bool.false_ne_true, if_neg Bool.false_ne_true]
    by_cases hmoved : entry.index ∈ ['R', 'C']
    · have hindex : entry.index ≠ 'D' := by
        rintro hindex
        rw [hindex] at hmoved
        exact absurd hmoved (by decide)
      rw [if_pos hmoved, if_pos hmoved]
      by_cases hgone : entry.worktree = 'D'
      · simp [StatusEntry.resulting, StatusEntry.hasDeletion, hgone]
      · simp [StatusEntry.resulting, StatusEntry.hasDeletion, hgone, hindex]
    · have hresulting : entry.resulting =
          if 'D' ∈ [entry.index, entry.worktree] then [] else [entry.path] := by
        simp [StatusEntry.resulting, StatusEntry.hasDeletion, eq_comm (a := 'D')]
      rw [if_neg hmoved, if_neg hmoved, hresulting]
      cases entry.source with
      | none => simp
      | some origin => simp

/-- A listing is decoded exactly when each of its entries is read as it is meant. -/
theorem decodes_iff {entries : List StatusEntry} (h : ∀ entry ∈ entries, entry.Written) :
    Decodes entries ↔ ∀ before entry behind, entries = before ++ entry :: behind →
      ReadsRight (expectedAfter before) entry := by
  have hstep : ∀ before entry behind, entries = before ++ entry :: behind →
      (parsePorcelain (StatusEntry.render (before ++ [entry])) =
        parsePorcelain (StatusEntry.render before) ++ entry.resulting ↔
          ReadsRight (expectedAfter before) entry) := by
    rintro before entry behind rfl
    have hpart : ∀ other ∈ before ++ [entry], other.Written := by
      intro other hother
      obtain hbefore | hentry := List.mem_append.mp hother
      · exact h other (List.mem_append_left _ hbefore)
      · rw [List.mem_singleton.mp hentry]
        exact h entry (List.mem_append_right _ List.mem_cons_self)
    rw [parsePorcelain_append hpart, List.append_cancel_left_eq]
    exact reportedAt_iff _ _
  constructor
  · rintro ⟨-, hall⟩ before entry behind hsplit
    exact (hstep before entry behind hsplit).mp (hall before entry behind hsplit)
  · intro hall
    have heach : ∀ before entry behind, entries = before ++ entry :: behind →
        parsePorcelain (StatusEntry.render (before ++ [entry])) =
          parsePorcelain (StatusEntry.render before) ++ entry.resulting :=
      fun before entry behind hsplit =>
        (hstep before entry behind hsplit).mpr (hall before entry behind hsplit)
    have hpart : ∀ before behind, entries = before ++ behind →
        parsePorcelain (StatusEntry.render before) = before.flatMap StatusEntry.resulting := by
      intro before
      induction before using List.reverseRecOn with
      | nil => exact fun _ _ => rfl
      | append_singleton before entry ih =>
        intro behind hsplit
        have hentry : entries = before ++ entry :: behind := by simpa using hsplit
        rw [heach before entry behind hentry, ih (entry :: behind) hentry, List.flatMap_append,
          List.flatMap_singleton]
    exact ⟨hpart entries [] (List.append_nil _).symm, heach⟩

/-- A file renamed in the working tree, as after `git add -N`. -/
def renamedInTree : List StatusEntry :=
  [{ index := ' ', worktree := 'R', path := "src/new.py".toList, source := some "src/old.py".toList }]

theorem not_decodes_renamedInTree : ¬Decodes renamedInTree := by
  rintro ⟨hpaths, -⟩
  exact absurd hpaths (by decide)

/-- A file renamed in the index, and one changed in the working tree. -/
def renamedInIndex : List StatusEntry :=
  [{ index := 'R', worktree := ' ', path := "src/new.py".toList, source := some "src/old.py".toList },
    { index := ' ', worktree := 'M', path := "src/main.py".toList }]

theorem renamedInIndex_decodes : Decodes renamedInIndex ↔
    ∀ before entry behind, renamedInIndex = before ++ entry :: behind →
      ReadsRight (expectedAfter before) entry := by
  refine decodes_iff fun entry hentry => ?_
  simp only [renamedInIndex, List.mem_cons, List.not_mem_nil, or_false] at hentry
  obtain rfl | rfl := hentry
  · exact
      { path := by decide
        letters := by decide
        origin := by
          rintro origin horigin
          cases horigin
          decide
        source := by decide }
  · exact
      { path := by decide
        letters := by decide
        origin := fun origin horigin => by cases horigin
        source := by decide }

end GitAgent

end AiosDeck.Agents
