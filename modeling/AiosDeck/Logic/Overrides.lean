import Mathlib

/-!
# Values that override each other

Dictionaries as lists of entries, and runs of assignments to them. Behind a
run a key has the value of the last assignment to it, or the one that it had.
-/

namespace AiosDeck.Overrides

universe u v w

variable {κ : Type u} {α : Type v} {ι : Type w} [DecidableEq κ]

theorem lookup_cons (entry : κ × α) (rest : List (κ × α)) (k : κ) :
    (entry :: rest).lookup k = if k = entry.1 then some entry.2 else rest.lookup k := by
  by_cases h : k = entry.1
  · simp [List.lookup, h]
  · have hbeq : (k == entry.1) = false := beq_false_of_ne h
    simp [List.lookup, hbeq, h]

/-- `entries[key] = value`. -/
def insert (key : κ) (value : α) : List (κ × α) → List (κ × α)
  | [] => [(key, value)]
  | entry :: rest =>
    if entry.1 = key then (key, value) :: rest else entry :: insert key value rest

theorem lookup_insert (key : κ) (value : α) (entries : List (κ × α)) (k : κ) :
    (insert key value entries).lookup k = if k = key then some value else entries.lookup k := by
  induction entries with
  | nil =>
    rw [insert, lookup_cons]
  | cons entry rest ih =>
    by_cases hentry : entry.1 = key
    · rw [insert, if_pos hentry, lookup_cons, lookup_cons, hentry]
      by_cases h : k = key
      · rw [if_pos h, if_pos h]
      · rw [if_neg h, if_neg h, if_neg h]
    · rw [insert, if_neg hentry, lookup_cons, lookup_cons, ih]
      by_cases h : k = key
      · have hne : ¬k = entry.1 := fun heq => hentry (heq.symm.trans h)
        rw [if_neg hne, if_pos h, if_pos h]
      · rw [if_neg h, if_neg h]

/-- Assigning to a key that is there keeps the keys. -/
theorem keys_insert {key : κ} (value : α) {entries : List (κ × α)}
    (h : key ∈ entries.map Prod.fst) :
    (insert key value entries).map Prod.fst = entries.map Prod.fst := by
  induction entries with
  | nil => cases h
  | cons entry rest ih =>
    by_cases hentry : entry.1 = key
    · rw [insert, if_pos hentry, List.map_cons, List.map_cons, hentry]
    · rw [List.map_cons, List.mem_cons] at h
      obtain heq | hrest := h
      · exact absurd heq.symm hentry
      · rw [insert, if_neg hentry, List.map_cons, List.map_cons, ih hrest]

/-- Assigning to a new key adds it at the end. -/
theorem insert_new {key : κ} (value : α) {entries : List (κ × α)}
    (h : key ∉ entries.map Prod.fst) : insert key value entries = entries ++ [(key, value)] := by
  induction entries with
  | nil => rfl
  | cons entry rest ih =>
    rw [List.map_cons, List.mem_cons, not_or] at h
    have hentry : ¬entry.1 = key := fun heq => h.1 heq.symm
    rw [insert, if_neg hentry, ih h.2, List.cons_append]

theorem mem_insert {key : κ} {value : α} {entries : List (κ × α)} {entry : κ × α}
    (h : entry ∈ insert key value entries) : entry = (key, value) ∨ entry ∈ entries := by
  induction entries with
  | nil => exact .inl (List.mem_singleton.mp h)
  | cons first rest ih =>
    rw [insert] at h
    split at h
    · rcases List.mem_cons.mp h with heq | hmem
      · exact .inl heq
      · exact .inr (List.mem_cons_of_mem _ hmem)
    · rcases List.mem_cons.mp h with heq | hmem
      · exact .inr (heq ▸ List.mem_cons_self ..)
      · rcases ih hmem with heq | hold
        · exact .inl heq
        · exact .inr (List.mem_cons_of_mem _ hold)

theorem nodup_insert {key : κ} (value : α) {entries : List (κ × α)}
    (h : (entries.map Prod.fst).Nodup) : ((insert key value entries).map Prod.fst).Nodup := by
  by_cases hmem : key ∈ entries.map Prod.fst
  · rw [keys_insert value hmem]
    exact h
  · rw [insert_new value hmem, List.map_append]
    exact h.append (List.nodup_singleton _) (List.disjoint_singleton.mpr hmem)

/-- A key is there when a value is found. -/
theorem mem_keys_iff {entries : List (κ × α)} {key : κ} :
    key ∈ entries.map Prod.fst ↔ (entries.lookup key).isSome = true := by
  induction entries with
  | nil => simp
  | cons entry rest ih =>
    rw [List.map_cons, List.mem_cons, lookup_cons, ih]
    by_cases h : key = entry.1
    · simp [h]
    · simp [h]

theorem lookup_of_mem {entries : List (κ × α)} (h : (entries.map Prod.fst).Nodup) {entry : κ × α}
    (hmem : entry ∈ entries) : entries.lookup entry.1 = some entry.2 := by
  induction entries with
  | nil => cases hmem
  | cons first rest ih =>
    rw [List.map_cons, List.nodup_cons] at h
    rw [lookup_cons]
    rcases List.mem_cons.mp hmem with heq | hrest
    · rw [if_pos (congrArg Prod.fst heq), heq]
    · have hne : ¬entry.1 = first.1 := by
        intro heq
        exact h.1 (heq ▸ List.mem_map_of_mem hrest)
      rw [if_neg hne]
      exact ih h.2 hrest

theorem mem_of_lookup {entries : List (κ × α)} {key : κ} {value : α}
    (h : entries.lookup key = some value) : (key, value) ∈ entries := by
  induction entries with
  | nil => cases h
  | cons entry rest ih =>
    rw [lookup_cons] at h
    split at h
    · rename_i heq
      cases h
      rw [heq]
      exact List.mem_cons_self ..
    · exact List.mem_cons_of_mem _ (ih h)

/-- The value of the last assignment to a key. -/
def lastOf (updates : List (κ × α)) (key : κ) : Option α := updates.reverse.lookup key

theorem lookup_append (entries more : List (κ × α)) (key : κ) :
    (entries ++ more).lookup key = (entries.lookup key).or (more.lookup key) := by
  induction entries with
  | nil => rfl
  | cons entry rest ih =>
    rw [List.cons_append, lookup_cons, lookup_cons, ih]
    by_cases h : key = entry.1
    · rw [if_pos h, if_pos h]
      rfl
    · rw [if_neg h, if_neg h]

theorem lastOf_append (updates more : List (κ × α)) (key : κ) :
    lastOf (updates ++ more) key = (lastOf more key).or (lastOf updates key) := by
  unfold lastOf
  rw [List.reverse_append, lookup_append]

theorem lastOf_cons (update : κ × α) (rest : List (κ × α)) (key : κ) :
    lastOf (update :: rest) key =
      (lastOf rest key).or (if key = update.1 then some update.2 else none) := by
  have hsplit : update :: rest = [update] ++ rest := rfl
  have hone : lastOf [update] key = if key = update.1 then some update.2 else none :=
    lookup_cons update [] key
  rw [hsplit, lastOf_append, hone]

end AiosDeck.Overrides
