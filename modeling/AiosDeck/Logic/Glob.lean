import Mathlib

/-!
# Wildcard patterns and ordered rules

A pattern is a word with wildcards. Of an ordered list of rules the last one
whose pattern matches decides.
-/

namespace AiosDeck.Glob

variable {α V : Type}

/-- An item of a pattern: a letter, any one letter, or any word. -/
inductive Item (α : Type) where
  | letter (a : α)
  | one
  | any

/-- Whether a pattern matches a whole word. -/
def accepts [DecidableEq α] : List (Item α) → List α → Bool
  | [], word => word.isEmpty
  | .letter _ :: _, [] => false
  | .letter a :: pattern, b :: word => decide (a = b) && accepts pattern word
  | .one :: _, [] => false
  | .one :: pattern, _ :: word => accepts pattern word
  | .any :: pattern, word => word.tails.any (accepts pattern)

section Matches

variable [DecidableEq α]

@[simp] theorem accepts_any (word : List α) : accepts [.any] word = true := by
  refine List.any_eq_true.mpr ⟨[], ?_, rfl⟩
  rw [List.mem_tails]
  exact List.nil_suffix

/-- Letters followed by any word match what begins with the letters. -/
theorem accepts_letters_any (letters word : List α) :
    accepts (letters.map .letter ++ [.any]) word = true ↔ letters <+: word := by
  induction letters generalizing word with
  | nil => exact iff_of_true (accepts_any word) List.nil_prefix
  | cons a letters ih =>
    cases word with
    | nil => exact iff_of_false (by simp [accepts]) (by simp)
    | cons b word =>
      change (decide (a = b) && accepts (letters.map .letter ++ [.any]) word) = true ↔ _
      rw [Bool.and_eq_true, decide_eq_true_iff, ih, List.cons_prefix_cons]

end Matches

/-- What the last rule that applies says. -/
def lastMatch (applies : List (Item α) → Bool) (rules : List (List (Item α) × V)) : Option V :=
  ((rules.filter fun rule => applies rule.1).getLast?).map Prod.snd

section LastMatch

variable {applies : List (Item α) → Bool}

/-- Rules further on decide before those ahead of them. -/
theorem lastMatch_append (rules later : List (List (Item α) × V)) :
    lastMatch applies (rules ++ later) = (lastMatch applies later).or (lastMatch applies rules) := by
  unfold lastMatch
  rw [List.filter_append, List.getLast?_append, Option.map_or]

theorem lastMatch_eq_some {rules : List (List (Item α) × V)} {v : V}
    (h : lastMatch applies rules = some v) : ∃ rule ∈ rules, applies rule.1 ∧ rule.2 = v := by
  obtain ⟨rule, hlast, rfl⟩ := Option.map_eq_some_iff.mp h
  obtain ⟨hmem, happlies⟩ := List.mem_filter.mp (List.mem_of_getLast? hlast)
  exact ⟨rule, hmem, happlies, rfl⟩

theorem lastMatch_isSome {rules : List (List (Item α) × V)} {rule : List (Item α) × V}
    (hmem : rule ∈ rules) (happlies : applies rule.1) : ∃ v, lastMatch applies rules = some v := by
  unfold lastMatch
  cases hlast : (rules.filter fun rule => applies rule.1).getLast? with
  | some last => exact ⟨last.2, rfl⟩
  | none =>
    rw [List.getLast?_eq_none_iff] at hlast
    exact absurd happlies (List.filter_eq_nil_iff.mp hlast rule hmem)

/-- Behind rules that all deny, rules that all allow decide alone. -/
theorem lastMatch_exceptions {rules exceptions : List (List (Item α) × V)} {allow : V}
    (hrules : ∀ rule ∈ rules, rule.2 ≠ allow) (hexceptions : ∀ rule ∈ exceptions, rule.2 = allow) :
    lastMatch applies (rules ++ exceptions) = some allow ↔ ∃ rule ∈ exceptions, applies rule.1 := by
  rw [lastMatch_append]
  constructor
  · intro h
    rcases Option.or_eq_some_iff.mp h with hlater | ⟨-, hearlier⟩
    · obtain ⟨rule, hmem, happlies, -⟩ := lastMatch_eq_some hlater
      exact ⟨rule, hmem, happlies⟩
    · obtain ⟨rule, hmem, -, hallow⟩ := lastMatch_eq_some hearlier
      exact absurd hallow (hrules rule hmem)
  · rintro ⟨rule, hmem, happlies⟩
    obtain ⟨v, hv⟩ := lastMatch_isSome hmem happlies
    obtain ⟨last, hlast, -, hlastv⟩ := lastMatch_eq_some hv
    rw [hv, ← hlastv, hexceptions last hlast]
    rfl

end LastMatch

end AiosDeck.Glob
