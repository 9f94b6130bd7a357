import AiosDeck.Knowledge.Lookups

/-!
# The fallback of the search

A full-text statement that fails reads as no rows, so the handler above it never sees the
failure. What is found then is what the pattern search finds only where that is nothing.
-/

namespace AiosDeck.Knowledge

open Python Storage Tables

namespace KnowledgeStore

variable (store : KnowledgeStore) (query : KnowledgeQuery)

/-- The sessions in which the full-text statement of a search fails: there is no such table,
its expression is refused, or this statement raises. -/
inductive FtsFails : Session Db → Prop
  | missing (db : Db) (n : ℕ) (h : store.fts.available = false) : FtsFails ⟨db, n, none⟩
  | refused (db : Db) (n : ℕ) (h : store.fts.refused (ftsExpr query) = true) :
      FtsFails ⟨db, n, none⟩
  | broken (db : Db) (n : ℕ) (message : String) (h : store.fts.available = true) :
      FtsFails ⟨db, n, some (0, message)⟩

/-- The pattern search finds nothing: no rows are asked for, SQLite refuses the pattern, or no
chunk of the project that it matches has a source of the types asked for. -/
def LikeMisses (db : Db) : Prop :=
  query.limit = 0 ∨ maxLikePattern < (utf8 (likePattern query)).length ∨
    ∀ chunk ∈ db.chunks, chunk.projectId = store.projectId →
      like (likePattern query) chunk.content = true → ∀ source ∈ db.sources,
        source.sourceId = chunk.sourceId → source.projectId = chunk.projectId →
          asksFor query source.type = false

variable {store query} {db : Db}

theorem limitRows_eq_nil {α : Type} {limit : ℤ} {rows : List α} :
    limitRows limit rows = [] ↔ limit = 0 ∨ rows = [] := by
  unfold limitRows
  split_ifs with hnegative
  · refine ⟨.inr, fun h => h.resolve_left ?_⟩
    omega
  · rw [List.take_eq_nil_iff, Int.toNat_eq_zero]
    refine or_congr_left ⟨fun h => ?_, fun h => h.le⟩
    omega

theorem likeRows_eq_nil : store.likeRows query db = [] ↔ store.LikeMisses query db := by
  unfold likeRows LikeMisses
  split_ifs with hlong
  · exact iff_of_true rfl (.inr (.inl hlong))
  · rw [limitRows_eq_nil, or_iff_right hlong]
    refine or_congr_right ?_
    have hsort : ∀ rows : List ChunkRow, (rows.insertionSort fun a b =>
        a.content.length ≤ b.content.length) = [] ↔ rows = [] := by
      intro rows
      rw [← List.length_eq_zero_iff, List.length_insertionSort, List.length_eq_zero_iff]
    rw [hsort, List.flatMap_eq_nil_iff]
    constructor
    · intro h chunk hchunk hproject hlike source hsource hid howner
      have hnone := h chunk (List.mem_filter.mpr ⟨hchunk, decide_eq_true ⟨hlike, hproject⟩⟩)
      have hjoined := List.filter_eq_nil_iff.mp (List.map_eq_nil_iff.mp hnone) source hsource
      simpa [hid, howner] using hjoined
    · intro h chunk hchunk
      obtain ⟨hmem, hmatch⟩ := List.mem_filter.mp hchunk
      rw [decide_eq_true_iff] at hmatch
      refine List.map_eq_nil_iff.mpr (List.filter_eq_nil_iff.mpr fun source hsource hjoined => ?_)
      rw [decide_eq_true_iff] at hjoined
      have hasks := h chunk hmem hmatch.2 hmatch.1 source hsource hjoined.1 hjoined.2.1
      exact Bool.false_ne_true (hasks.symm.trans hjoined.2.2)

theorem searchLike_outcome (query : KnowledgeQuery) (db : Db) : outcome (store.searchLike query) db =
    (.ok ((store.likeRows query db).map fun row =>
      toResult (store.findSource row.sourceId db) row), db) := by
  unfold searchLike
  exact ((Runs.fetch (store.likeRows query) [] db).bind (rowsToResults_runs _ db)).outcome

/-- A full-text statement that fails gives no results. -/
theorem searchFts_fails {s : Session Db} (h : store.FtsFails query s)
    (havailable : store.fts.available = true) : ∃ t, store.searchFts query s = .ok [] t := by
  unfold searchFts
  by_cases hexpr : ftsExpr query = []
  · rw [if_pos hexpr]
    exact ⟨s, rfl⟩
  · rw [if_neg hexpr]
    cases h with
    | missing db n hmissing => exact absurd (hmissing.symm.trans havailable) Bool.false_ne_true
    | refused db n hrefused =>
      have hrows : store.ftsRows query db = [] := by
        unfold ftsRows
        rw [if_pos hrefused]
      have hfetch := (Runs.fetch (store.ftsRows query) [] db).bind
        (@rowsToResults_runs store (store.ftsRows query db) db)
      rw [hrows] at hfetch
      obtain ⟨m, hm⟩ := hfetch n none
      exact ⟨_, hm⟩
    | broken db n message => exact ⟨_, rfl⟩

/-- Where the full-text statement fails, a search returns what the pattern search returns
exactly when there is no full-text table or the pattern search finds nothing. -/
theorem search_fails_iff (store : KnowledgeStore) (query : KnowledgeQuery)
    (hquery : strip query.text ≠ []) (s : Session Db) (h : store.FtsFails query s) :
    (∃ results t, store.search query s = .ok results t ∧
        (outcome (store.searchLike query) s.db).1 = .ok results) ↔
      store.fts.available = false ∨ store.LikeMisses query s.db := by
  rw [searchLike_outcome]
  dsimp only
  unfold search
  rw [if_neg hquery]
  cases havailable : store.fts.available with
  | true =>
    obtain ⟨t, ht⟩ := searchFts_fails h havailable
    rw [if_pos rfl, ht, or_iff_right Bool.true_eq_false.mp]
    rw [← likeRows_eq_nil]
    constructor
    · rintro ⟨results, t', hok, hlike⟩
      cases hok
      exact List.map_eq_nil_iff.mp (Except.ok.inj hlike)
    · intro hnone
      rw [hnone]
      exact ⟨[], t, rfl, rfl⟩
  | false =>
    refine iff_of_true ?_ (.inl rfl)
    rw [if_neg Bool.false_ne_true]
    unfold searchLike
    cases h with
    | broken db n message hnot => exact absurd (havailable.symm.trans hnot) Bool.false_ne_true
    | missing db n _ | refused db n _ =>
      obtain ⟨m, hm⟩ := ((Runs.fetch (store.likeRows query) [] db).bind
        (rowsToResults_runs _ db)) n none
      exact ⟨_, _, hm, rfl⟩

section Samples

/-- A store that refuses every full-text expression, or has no full-text table. -/
def plainStore (available : Bool) : KnowledgeStore where
  fts := ⟨available, fun _ _ => false, fun _ _ _ => 0, fun _ => true, id⟩
  projectId := "p".toList

/-- One indexed chunk. -/
def authDb : Db where
  sources := [⟨"s".toList, "adr".toList, "a.md".toList, "h".toList, "1".toList,
    points "\x7b\x7d", "active".toList, "p".toList⟩]
  chunks := [⟨"c".toList, "s".toList, "d".toList, "auth flow".toList, points "\x7b\x7d",
    "h".toList, 0, 2, "p".toList⟩]

/-- Without the table the pattern search is taken. -/
theorem search_auth_plain : ∃ results t,
    (plainStore false).search { text := "auth".toList } ⟨authDb, 0, none⟩ = .ok results t ∧
      (outcome ((plainStore false).searchLike { text := "auth".toList }) authDb).1 = .ok results :=
  (search_fails_iff (plainStore false) { text := "auth".toList } (by decide) ⟨authDb, 0, none⟩
    (.missing authDb 0 rfl)).mpr (.inl rfl)

/-- With the table a refused expression finds nothing, and the pattern search the chunk. -/
theorem search_auth_refused :
    (plainStore true).fts.refused (ftsExpr { text := "auth".toList }) = true ∧
      (outcome ((plainStore true).search { text := "auth".toList }) authDb).1.toOption = some [] ∧
      (outcome ((plainStore true).searchLike { text := "auth".toList }) authDb).1.toOption.map
        List.length = some 1 := by
  decide

end Samples

end KnowledgeStore

end AiosDeck.Knowledge
