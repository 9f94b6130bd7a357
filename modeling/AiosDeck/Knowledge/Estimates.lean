import AiosDeck.Knowledge.Coverage
import AiosDeck.Knowledge.Isolation

/-!
# The estimates of stored chunks

No chunk is blank, and every stored chunk has the words that its estimate says, in every
database that permitted calls lead to.
-/

namespace AiosDeck.Knowledge

open Python Tables

section Chunks

/-- An unfinished word is finished somewhere. -/
theorem wordsFrom_pending {pending : Text} (h : pending ≠ []) (text : Text) :
    wordsFrom pending text ≠ [] := by
  have hsome : ¬pending.isEmpty = true := fun hempty => h (List.isEmpty_iff.mp hempty)
  induction text generalizing pending with
  | nil =>
    rw [wordsFrom, if_neg hsome]
    exact List.cons_ne_nil _ _
  | cons c rest ih =>
    by_cases hspace : isSpace c = true
    · rw [wordsFrom, if_pos hspace, if_neg hsome]
      exact List.cons_ne_nil _ _
    · rw [wordsFrom, if_neg hspace]
      refine ih (List.cons_ne_nil _ _) fun hempty => ?_
      cases hempty

theorem words_ne_nil {text : Text} (h : strip text ≠ []) : words text ≠ [] := by
  induction text with
  | nil => exact absurd rfl h
  | cons c rest ih =>
    cases hc : isSpace c with
    | true =>
      have hblank : ∀ d ∈ [c], isSpace d = true := List.forall_mem_singleton.mpr hc
      have hrest : strip rest ≠ [] := fun hnone =>
        h (strip_blank (List.forall_mem_cons.mpr ⟨hc, blank_of_strip_nil hnone⟩))
      have hwords : words (c :: rest) = words rest := words_leading hblank rest
      rw [hwords]
      exact ih hrest
    | false =>
      have hletter : ¬isSpace c = true := Bool.not_eq_true _ ▸ hc
      rw [words, wordsFrom, if_neg hletter]
      exact wordsFrom_pending (List.cons_ne_nil _ _) rest

theorem windows_filled {text chunk : Text} {maxChars overlap : ℕ} :
    ∀ {fuel start : ℕ}, chunk ∈ windows text maxChars overlap fuel start → strip chunk ≠ [] := by
  intro fuel
  induction fuel with
  | zero => exact fun h => absurd h List.not_mem_nil
  | succ fuel ih =>
    intro start h
    rw [windows] at h
    split at h
    · dsimp only at h
      obtain hfirst | hrest := List.mem_append.mp h
      · split at hfirst
        · cases hfirst
        · rename_i hsome
          rw [List.mem_singleton.mp hfirst]
          exact strip_strip_ne_nil hsome
      · exact ih hrest
    · cases h

theorem chunkBySize_filled {text chunk : Text} {maxChars overlap : ℕ}
    (h : chunk ∈ chunkBySize text maxChars overlap) : strip chunk ≠ [] := by
  unfold chunkBySize at h
  split at h
  · cases h
  · rename_i hsome
    split at h
    · rw [List.mem_singleton.mp h]
      exact strip_strip_ne_nil fun hnone => hsome (.inr hnone)
    · exact windows_filled h

theorem chunkAtMatches_filled {pattern : Regex} {preambleChunks : Text → List Text}
    {text chunk : Text} (h : chunk ∈ chunkAtMatches pattern preambleChunks text) :
    strip chunk ≠ [] := by
  unfold chunkAtMatches at h
  split at h
  · exact chunkBySize_filled h
  · exact of_decide_eq_true (List.mem_filter.mp h).2

/-- A chunk has as many words as its estimate says, and has some. -/
def Chunk.Counted (chunk : Chunk) : Prop :=
  chunk.tokenEstimate = Knowledge.tokenEstimate chunk.content ∧ 0 < chunk.tokenEstimate

theorem chunkText_counted {content sourceType sourceId : Text} {docMetadata : Metadata}
    {chunk : Chunk} (h : chunk ∈ chunkText content sourceType sourceId docMetadata) :
    chunk.Counted := by
  unfold chunkText at h
  dsimp only at h
  obtain ⟨i, hi, rfl⟩ := List.mem_mapIdx.mp h
  refine ⟨rfl, ?_⟩
  have hmem := List.getElem_mem hi
  have hfilled : strip (if sourceType = "code".toList then chunkCode content
      else chunkMarkdown content)[i] ≠ [] := by
    generalize (if sourceType = "code".toList then chunkCode content
      else chunkMarkdown content)[i] = chunk at hmem ⊢
    split at hmem
    · exact chunkAtMatches_filled hmem
    · exact chunkAtMatches_filled hmem
  dsimp only
  unfold tokenEstimate
  rw [words_normalizeContent]
  exact List.length_pos_of_ne_nil (words_ne_nil hfilled)

end Chunks

/-- Every stored chunk has as many words as its estimate says, and has some. -/
def Db.Counted (db : Db) : Prop :=
  ∀ row ∈ db.chunks, row.tokenEstimate = tokenEstimate row.content ∧ 0 < row.tokenEstimate

namespace KnowledgeStore

variable {store : KnowledgeStore} {doc : KnowledgeDocument} {db : Db}

theorem addRows_counted {rows : List ChunkRow}
    (hrows : ∀ row ∈ rows, row.tokenEstimate = tokenEstimate row.content ∧ 0 < row.tokenEstimate)
    (h : db.Counted) : (store.addRows rows db).Counted := by
  induction rows generalizing db with
  | nil => exact h
  | cons row rest ih =>
    obtain ⟨hrow, hrest⟩ := List.forall_mem_cons.mp hrows
    refine ih hrest fun other hother => ?_
    obtain ⟨hold, -⟩ | rfl := mem_upsert.mp hother
    · exact h other hold
    · exact hrow

theorem documentRows_counted : ∀ row ∈ store.documentRows doc,
    row.tokenEstimate = tokenEstimate row.content ∧ 0 < row.tokenEstimate := by
  intro row hrow
  obtain ⟨chunk, hchunk, rfl⟩ := List.mem_map.mp hrow
  exact chunkText_counted hchunk

theorem prepared_counted (h : db.Counted) : (store.prepared doc db).Counted := by
  have hensured : (store.ensured doc db).Counted := by
    unfold Db.Counted
    rw [ensured_chunks]
    exact h
  unfold prepared
  split
  · exact fun row hrow => hensured row (List.mem_of_mem_filter hrow)
  · exact hensured

theorem Indexed.counted {after : Db} (hindexed : store.Indexed doc db after) (h : db.Counted) :
    after.Counted := by
  cases hindexed with
  | refused => exact h
  | skipped =>
    unfold Db.Counted
    rw [ensured_chunks]
    exact h
  | stuck n _ _ =>
    refine addRows_counted (fun row hrow => ?_) (prepared_counted h)
    exact documentRows_counted row (List.mem_of_mem_take hrow)
  | written _ _ => exact addRows_counted (@documentRows_counted store doc) (prepared_counted h)

theorem perform_counted {op : Operation} (h : db.Counted) : (store.perform db op).Counted := by
  cases op with
  | index doc => exact (indexDocument_indexed store doc db).counted h
  | saveEmbedding chunkId provider model vectorDim vectorBlob embeddingHash =>
    rw [perform_saveEmbedding]
    exact h
  | search query =>
    rw [perform_search]
    exact h

end KnowledgeStore

theorem Reached.counted {fts : Fts5} {db : Db} (h : Reached fts db) : db.Counted := by
  induction h with
  | empty => exact fun row hrow => absurd hrow List.not_mem_nil
  | call store op _ _ _ ih => exact KnowledgeStore.perform_counted ih

end AiosDeck.Knowledge
