import Mathlib

/-!
# Keyed tables as lists of rows

A table is a list of rows, oldest first, with a key. Inserting with
replacement removes the row with the same key and appends the new one. A
tenant of a shared table sees its own rows in order.
-/

namespace AiosDeck.Tables

universe u v

variable {α : Type u} {κ : Type v} [DecidableEq κ]

/-- `INSERT OR REPLACE`. -/
def upsert (key : α → κ) (row : α) (rows : List α) : List α :=
  rows.filter (fun other => key other ≠ key row) ++ [row]

/-- A row with a new key is appended. -/
theorem upsert_new {key : α → κ} {row : α} {rows : List α} (h : key row ∉ rows.map key) :
    upsert key row rows = rows ++ [row] := by
  have hall : rows.filter (fun other => key other ≠ key row) = rows := by
    refine List.filter_eq_self.mpr fun other hother => ?_
    simp only [decide_eq_true_eq]
    rintro hkey
    exact h (hkey ▸ List.mem_map_of_mem hother)
  rw [upsert, hall]

theorem mem_upsert {key : α → κ} {row other : α} {rows : List α} :
    other ∈ upsert key row rows ↔ (other ∈ rows ∧ key other ≠ key row) ∨ other = row := by
  simp [upsert]

/-- Keys stay unique. -/
theorem upsert_nodup {key : α → κ} {row : α} {rows : List α} (h : (rows.map key).Nodup) :
    ((upsert key row rows).map key).Nodup := by
  rw [upsert, List.map_append, List.nodup_append]
  refine ⟨h.sublist (List.filter_sublist.map key), List.nodup_singleton _, ?_⟩
  intro k hk l hl
  obtain ⟨other, hother, rfl⟩ := List.mem_map.mp hk
  have hne : key other ≠ key row := by simpa using (List.mem_filter.mp hother).2
  rw [List.map_singleton, List.mem_singleton] at hl
  rw [hl]
  exact hne

/-- A tenant that owns neither the row nor a row with its key sees no change. -/
theorem filter_upsert {key : α → κ} {row : α} {rows : List α} {own : α → Bool}
    (hrow : own row = false) (hkey : ∀ other ∈ rows, own other = true → key other ≠ key row) :
    (upsert key row rows).filter own = rows.filter own := by
  rw [upsert, List.filter_append, List.filter_filter]
  have hnone : [row].filter own = [] := by simp [hrow]
  rw [hnone, List.append_nil]
  refine List.filter_congr fun other hother => ?_
  by_cases hown : own other = true
  · simp [hown, hkey other hother hown]
  · simp [hown]

omit [DecidableEq κ] in
/-- A tenant sees no change when the rows that are deleted are not its own. -/
theorem filter_delete {rows : List α} {own keep : α → Bool}
    (h : ∀ row ∈ rows, own row = true → keep row = true) :
    (rows.filter keep).filter own = rows.filter own := by
  rw [List.filter_filter]
  refine List.filter_congr fun row hrow => ?_
  by_cases hown : own row = true
  · simp [hown, h row hrow hown]
  · simp [hown]

omit [DecidableEq κ] in
/-- A tenant sees no change when the rows that are updated are not its own. -/
theorem filter_update {rows : List α} {own : α → Bool} {f : α → α}
    (howner : ∀ row ∈ rows, own (f row) = own row)
    (hkept : ∀ row ∈ rows, own row = true → f row = row) :
    (rows.map f).filter own = rows.filter own := by
  have howned : rows.filter (own ∘ f) = rows.filter own := List.filter_congr howner
  rw [List.filter_map, howned]
  refine (List.map_congr_left fun row hrow => ?_).trans (List.map_id _)
  exact hkept row (List.mem_filter.mp hrow).1 (List.mem_filter.mp hrow).2

/-- A tenant that owns the row sees it replace its own. -/
theorem filter_upsert_own {key : α → κ} {row : α} {rows : List α} {own : α → Bool}
    (hrow : own row = true) : (upsert key row rows).filter own = upsert key row (rows.filter own) := by
  have hone : [row].filter own = [row] := by simp [hrow]
  rw [upsert, upsert, List.filter_append, hone, List.filter_filter, List.filter_filter]
  congr 1
  refine List.filter_congr fun other _ => ?_
  rw [Bool.and_comm]

/-- The row that an insertion leaves under its key. -/
theorem find?_upsert {key : α → κ} {row : α} {rows : List α} {wanted : α → Bool}
    (hwanted : ∀ other, wanted other = true ↔ key other = key row) :
    (upsert key row rows).find? wanted = some row := by
  have hnone : (rows.filter fun other => key other ≠ key row).find? wanted = none := by
    refine List.find?_eq_none.mpr fun other hother hmatch => ?_
    have hne : key other ≠ key row := by simpa using (List.mem_filter.mp hother).2
    exact hne ((hwanted other).mp hmatch)
  have hrow : wanted row = true := (hwanted row).mpr rfl
  rw [upsert, List.find?_append, hnone]
  simp [hrow]

/-- An insertion leaves the rows with other keys. -/
theorem find?_upsert_other {key : α → κ} {row : α} {rows : List α} {wanted : α → Bool}
    (hwanted : ∀ other, key other = key row → wanted other = false) :
    (upsert key row rows).find? wanted = rows.find? wanted := by
  have hrow : [row].find? wanted = none := by
    refine List.find?_eq_none.mpr fun other hother => ?_
    rw [List.mem_singleton.mp hother, hwanted row rfl]
    exact Bool.false_ne_true
  have hsame : (fun other => decide (decide (key other ≠ key row) = true ∧ wanted other = true)) =
      wanted := by
    funext other
    by_cases hkey : key other = key row
    · rw [hwanted other hkey]
      simp
    · simp [hkey]
  rw [upsert, List.find?_append, hrow, Option.or_none, List.find?_filter, hsame]

/-- The row with a key that no other row has. -/
theorem filter_key {key : α → κ} {rows : List α} (h : (rows.map key).Nodup) {row : α}
    (hrow : row ∈ rows) : rows.filter (fun other => key other = key row) = [row] := by
  induction rows with
  | nil => cases hrow
  | cons first rest ih =>
    rw [List.map_cons, List.nodup_cons] at h
    obtain ⟨hfresh, hrest⟩ := h
    rcases List.mem_cons.mp hrow with rfl | hmem
    · have hnil : rest.filter (fun other => key other = key row) = [] := by
        refine List.filter_eq_nil_iff.mpr fun other hother => ?_
        simp only [decide_eq_true_eq]
        rintro hkey
        exact hfresh (hkey ▸ List.mem_map_of_mem hother)
      rw [List.filter_cons_of_pos (by simp), hnil]
    · have hne : key first ≠ key row := by
        rintro hkey
        exact hfresh (hkey ▸ List.mem_map_of_mem hmem)
      rw [List.filter_cons_of_neg (by simpa using hne)]
      exact ih hrest hmem

omit [DecidableEq κ] in
/-- A query by key finds the row that has it. -/
theorem find?_key {key : α → κ} {rows : List α} (h : (rows.map key).Nodup) {row : α}
    (hrow : row ∈ rows) {wanted : α → Bool} (hwanted : wanted row = true)
    (honly : ∀ other ∈ rows, wanted other = true → key other = key row) :
    rows.find? wanted = some row := by
  cases hfound : rows.find? wanted with
  | none => exact absurd hwanted (List.find?_eq_none.mp hfound row hrow)
  | some other =>
    have hmem : other ∈ rows := List.mem_of_find?_eq_some hfound
    have hkey : key other = key row := honly other hmem (List.find?_some hfound)
    rw [List.inj_on_of_nodup_map h hmem hrow hkey]

omit [DecidableEq κ] in
/-- Rows that contribute nothing may be left out of a join. -/
theorem flatMap_filter {β : Type v} {rows : List α} {own : α → Bool} {join : α → List β}
    (h : ∀ row ∈ rows, own row = false → join row = []) :
    (rows.filter own).flatMap join = rows.flatMap join := by
  induction rows with
  | nil => rfl
  | cons row rest ih =>
    have hrest := ih fun other hother => h other (List.mem_cons_of_mem _ hother)
    by_cases hown : own row = true
    · rw [List.filter_cons_of_pos hown, List.flatMap_cons, List.flatMap_cons, hrest]
    · have hnil : join row = [] := h row (List.mem_cons_self ..) (by simpa using hown)
      rw [List.filter_cons_of_neg hown, List.flatMap_cons, hnil, List.nil_append, hrest]

omit [DecidableEq κ] in
/-- A join that gives each row once or not at all. -/
theorem flatMap_single {β : Type v} {rows : List α} {keep : α → Bool} {join : α → List β}
    {f : α → β} (h : ∀ row ∈ rows, join row = if keep row then [f row] else []) :
    rows.flatMap join = (rows.filter keep).map f := by
  induction rows with
  | nil => rfl
  | cons row rest ih =>
    have hrow := h row (List.mem_cons_self ..)
    have hrest := ih fun other hother => h other (List.mem_cons_of_mem _ hother)
    by_cases hkeep : keep row = true
    · rw [if_pos hkeep] at hrow
      rw [List.flatMap_cons, hrow, hrest, List.filter_cons_of_pos hkeep]
      rfl
    · rw [if_neg hkeep] at hrow
      rw [List.flatMap_cons, hrow, hrest, List.filter_cons_of_neg hkeep, List.nil_append]

/-- The keys behind an insertion. -/
theorem mem_map_upsert {key : α → κ} {row : α} {rows : List α} {k : κ} :
    k ∈ (upsert key row rows).map key ↔ k ∈ rows.map key ∨ k = key row := by
  rw [upsert, List.map_append, List.mem_append, List.map_singleton, List.mem_singleton]
  by_cases hk : k = key row
  · simp [hk]
  · have hkept : k ∈ (rows.filter fun other => key other ≠ key row).map key ↔ k ∈ rows.map key := by
      simp only [List.mem_map, List.mem_filter, decide_eq_true_eq]
      constructor
      · rintro ⟨other, ⟨hother, -⟩, hkey⟩
        exact ⟨other, hother, hkey⟩
      · rintro ⟨other, hother, hkey⟩
        exact ⟨other, ⟨hother, fun hsame => hk (hkey ▸ hsame)⟩, hkey⟩
    rw [hkept]

/-- An insertion adds a row, unless it replaces some. -/
theorem length_upsert_le (key : α → κ) (row : α) (rows : List α) :
    (upsert key row rows).length ≤ rows.length + 1 := by
  rw [upsert, List.length_append]
  exact Nat.succ_le_succ (List.length_filter_le _ _)

theorem length_upsert_eq {key : α → κ} {row : α} {rows : List α} :
    (upsert key row rows).length = rows.length + 1 ↔ key row ∉ rows.map key := by
  constructor
  · intro hlength hmem
    obtain ⟨other, hother, hkey⟩ := List.mem_map.mp hmem
    rw [upsert, List.length_append, List.length_singleton, Nat.add_right_cancel_iff,
      List.length_filter_eq_length_iff] at hlength
    have hne := hlength other hother
    simp [hkey] at hne
  · intro hnew
    rw [upsert_new hnew, List.length_append, List.length_singleton]

/-- Insertions add a row each exactly when their keys are new and all different. -/
theorem length_foldl_upsert {key : α → κ} (rows table : List α) :
    (rows.foldl (fun table row => upsert key row table) table).length ≤
        table.length + rows.length ∧
      ((rows.foldl (fun table row => upsert key row table) table).length =
          table.length + rows.length ↔
        (rows.map key).Nodup ∧ ∀ row ∈ rows, key row ∉ table.map key) := by
  induction rows generalizing table with
  | nil => simp
  | cons row rest ih =>
    obtain ⟨hle, hiff⟩ := ih (upsert key row table)
    have hone := length_upsert_le key row table
    have hnew := @length_upsert_eq _ _ _ key row table
    rw [List.foldl_cons, List.length_cons, List.map_cons, List.nodup_cons, List.forall_mem_cons]
    refine ⟨by omega, ?_⟩
    have hboth : (rest.foldl (fun table row => upsert key row table) (upsert key row table)).length =
        table.length + (rest.length + 1) ↔
        (upsert key row table).length = table.length + 1 ∧
          (rest.foldl (fun table row => upsert key row table) (upsert key row table)).length =
            (upsert key row table).length + rest.length := by
      constructor
      · intro hlength
        exact ⟨by omega, by omega⟩
      · rintro ⟨hfirst, hrest⟩
        omega
    rw [hboth, hnew, hiff]
    have hkeys : (∀ other ∈ rest, key other ∉ (upsert key row table).map key) ↔
        key row ∉ rest.map key ∧ ∀ other ∈ rest, key other ∉ table.map key := by
      simp only [mem_map_upsert, not_or]
      constructor
      · intro hall
        refine ⟨fun hmem => ?_, fun other hother => (hall other hother).1⟩
        obtain ⟨other, hother, hsame⟩ := List.mem_map.mp hmem
        exact (hall other hother).2 hsame
      · rintro ⟨hfirst, hall⟩ other hother
        exact ⟨hall other hother, fun hsame => hfirst (hsame ▸ List.mem_map_of_mem hother)⟩
    rw [hkeys]
    tauto

/-- Rows that are inserted one after another: what is there behind them was inserted, or was
there with a key of its own. -/
theorem mem_foldl_upsert {key : α → κ} {rows table : List α} {row : α}
    (h : row ∈ rows.foldl (fun table row => upsert key row table) table) :
    row ∈ rows ∨ row ∈ table ∧ key row ∉ rows.map key := by
  induction rows generalizing table with
  | nil => exact .inr ⟨h, List.not_mem_nil⟩
  | cons first rest ih =>
    rcases ih h with hrest | ⟨hmem, hkey⟩
    · exact .inl (List.mem_cons_of_mem _ hrest)
    · rcases mem_upsert.mp hmem with ⟨hold, hne⟩ | rfl
      · refine .inr ⟨hold, ?_⟩
        rw [List.map_cons, List.mem_cons, not_or]
        exact ⟨hne, hkey⟩
      · exact .inl (List.mem_cons_self ..)

/-- A row with a key of its own stays. -/
theorem mem_foldl_upsert_of_mem {key : α → κ} {rows table : List α} {row : α} (h : row ∈ table)
    (hkey : key row ∉ rows.map key) :
    row ∈ rows.foldl (fun table row => upsert key row table) table := by
  induction rows generalizing table with
  | nil => exact h
  | cons first rest ih =>
    rw [List.map_cons, List.mem_cons, not_or] at hkey
    exact ih (mem_upsert.mpr (.inl ⟨h, hkey.1⟩)) hkey.2

theorem foldl_upsert_nodup {key : α → κ} {rows table : List α} (h : (table.map key).Nodup) :
    ((rows.foldl (fun table row => upsert key row table) table).map key).Nodup := by
  induction rows generalizing table with
  | nil => exact h
  | cons first rest ih => exact ih (upsert_nodup h)

end AiosDeck.Tables
