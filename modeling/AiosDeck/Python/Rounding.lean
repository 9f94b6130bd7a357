import AiosDeck.Python.Numbers

/-!
# Rounding keeps the order

Rounding to the nearest double is monotone on the numbers that are not negative, and keeps
the powers of two. What is between two doubles stays between them.
-/

namespace AiosDeck.Python

section Integers

theorem floor_le_roundHalfEven (q : ℚ) : ⌊q⌋ ≤ roundHalfEven q := by
  unfold roundHalfEven
  dsimp only
  split_ifs <;> omega

theorem roundHalfEven_le_floor (q : ℚ) : roundHalfEven q ≤ ⌊q⌋ + 1 := by
  unfold roundHalfEven
  dsimp only
  split_ifs <;> omega

/-- Rounding is monotone. -/
theorem roundHalfEven_mono {p q : ℚ} (h : p ≤ q) : roundHalfEven p ≤ roundHalfEven q := by
  have hfloor : ⌊p⌋ ≤ ⌊q⌋ := Int.floor_mono h
  obtain hlt | heq := lt_or_eq_of_le hfloor
  · have hp := roundHalfEven_le_floor p
    have hq := floor_le_roundHalfEven q
    omega
  · by_cases hdown : q - ⌊q⌋ < 1 / 2 ∨ q - ⌊q⌋ = 1 / 2 ∧ ⌊q⌋ % 2 = 0
    · have hrest : p - ⌊p⌋ ≤ q - ⌊q⌋ := by
        rw [heq]
        linarith
      have hboth : p - ⌊p⌋ < 1 / 2 ∨ p - ⌊p⌋ = 1 / 2 ∧ ⌊p⌋ % 2 = 0 := by
        obtain hless | ⟨hhalf, heven⟩ := hdown
        · exact .inl (lt_of_le_of_lt hrest hless)
        · rw [hhalf] at hrest
          obtain hless | hsame := lt_or_eq_of_le hrest
          · exact .inl hless
          · exact .inr ⟨hsame, heq ▸ heven⟩
      unfold roundHalfEven
      dsimp only
      rw [if_pos hdown, if_pos hboth]
      exact hfloor
    · have hp := roundHalfEven_le_floor p
      have hq : roundHalfEven q = ⌊q⌋ + 1 := by
        unfold roundHalfEven
        dsimp only
        rw [if_neg hdown]
      omega

theorem roundHalfEven_int (n : ℤ) : roundHalfEven n = n := by
  simp [roundHalfEven]

theorem roundHalfEven_nonneg {q : ℚ} (h : 0 ≤ q) : 0 ≤ roundHalfEven q :=
  (Int.floor_nonneg.mpr h).trans (floor_le_roundHalfEven q)

end Integers

section Grid

/-- The nearest multiple of this power of two, ties to even. -/
def onGrid (k : ℤ) (q : ℚ) : ℚ := roundHalfEven (q * 2 ^ k) / 2 ^ k

theorem double_eq_onGrid (q : ℚ) : double q = onGrid (52 - Int.log 2 |q|) q := rfl

variable {k e : ℤ} {p q : ℚ}

theorem two_zpow_pos (k : ℤ) : (0 : ℚ) < 2 ^ k := zpow_pos two_pos k

theorem onGrid_mono (h : p ≤ q) : onGrid k p ≤ onGrid k q := by
  have hscaled : p * 2 ^ k ≤ q * 2 ^ k := mul_le_mul_of_nonneg_right h (two_zpow_pos k).le
  have hrounded : (roundHalfEven (p * 2 ^ k) : ℚ) ≤ roundHalfEven (q * 2 ^ k) :=
    Int.cast_le.mpr (roundHalfEven_mono hscaled)
  exact div_le_div_of_nonneg_right hrounded (two_zpow_pos k).le

theorem onGrid_nonneg (h : 0 ≤ q) : 0 ≤ onGrid k q := by
  have hscaled : 0 ≤ q * 2 ^ k := mul_nonneg h (two_zpow_pos k).le
  exact div_nonneg (Int.cast_nonneg (roundHalfEven_nonneg hscaled)) (two_zpow_pos k).le

/-- A power of two that is on the grid stays. -/
theorem onGrid_zpow (h : 0 ≤ e + k) : onGrid k (2 ^ e) = 2 ^ e := by
  obtain ⟨n, hn⟩ := Int.eq_ofNat_of_zero_le h
  have hint : (2 : ℚ) ^ e * 2 ^ k = ((2 ^ n : ℤ) : ℚ) := by
    rw [← zpow_add₀ two_ne_zero, hn]
    simp
  unfold onGrid
  rw [hint, roundHalfEven_int, ← hint, mul_div_cancel_right₀ _ (two_zpow_pos k).ne']

theorem onGrid_zero : onGrid k 0 = 0 := by
  simp [onGrid, roundHalfEven]

end Grid

section Doubles

variable {e : ℤ} {p q : ℚ}

theorem double_nonneg (h : 0 ≤ q) : 0 ≤ double q := onGrid_nonneg h

@[simp] theorem double_zero : double 0 = 0 := onGrid_zero

/-- What is at most a power of two is rounded to at most that. -/
theorem double_le_zpow (h : 0 < q) (hq : q ≤ 2 ^ e) : double q ≤ 2 ^ e := by
  have hlog : Int.log 2 |q| ≤ e := by
    rw [abs_of_pos h]
    have hmono := Int.log_mono_right (b := 2) h hq
    have hpower : Int.log 2 ((2 : ℚ) ^ e) = e := Int.log_zpow one_lt_two e
    rw [hpower] at hmono
    exact hmono
  rw [double_eq_onGrid, ← onGrid_zpow (k := 52 - Int.log 2 |q|) (e := e) (by omega)]
  exact onGrid_mono hq

/-- A number is not rounded below the power of two under it. -/
theorem zpow_log_le_double (h : 0 < q) : 2 ^ Int.log 2 q ≤ double q := by
  have hlog : (2 : ℚ) ^ Int.log 2 q ≤ q := Int.zpow_log_le_self (b := 2) one_lt_two h
  rw [double_eq_onGrid, abs_of_pos h, ← onGrid_zpow (k := 52 - Int.log 2 q) (e := Int.log 2 q) (by omega)]
  exact onGrid_mono hlog

/-- Rounding to a double is monotone. -/
theorem double_mono (h : 0 ≤ p) (hpq : p ≤ q) : double p ≤ double q := by
  obtain hzero | hpos := eq_or_lt_of_le h
  · rw [← hzero, double_zero]
    exact double_nonneg (h.trans hpq)
  · have hq : 0 < q := hpos.trans_le hpq
    obtain hlt | heq := lt_or_eq_of_le (Int.log_mono_right (b := 2) hpos hpq)
    · have hbelow : p ≤ 2 ^ Int.log 2 q := by
        have hnext : p < 2 ^ (Int.log 2 p + 1) := Int.lt_zpow_succ_log_self one_lt_two p
        exact hnext.le.trans (zpow_le_zpow_right₀ one_le_two hlt)
      exact (double_le_zpow hpos hbelow).trans (zpow_log_le_double hq)
    · rw [double_eq_onGrid, double_eq_onGrid, abs_of_pos hpos, abs_of_pos hq, heq]
      exact onGrid_mono hpq

theorem four_lt_limit : (4 : ℚ) < 2 ^ 1024 := by
  have hpow : (2 : ℚ) ^ 2 < 2 ^ 1024 := pow_lt_pow_right₀ one_lt_two (by decide)
  norm_num only at hpow ⊢
  exact hpow

/-- A finite double that is neither negative nor over four is no infinity. -/
theorem in_range {x : ℚ} (h : 0 ≤ x) (hx : x ≤ 4) : ¬ 2 ^ 1024 ≤ x ∧ ¬ x ≤ -2 ^ 1024 := by
  have hlimit := four_lt_limit
  constructor
  · exact not_le.mpr (hx.trans_lt hlimit)
  · exact not_le.mpr ((neg_lt_zero.mpr (four_pos.trans hlimit)).trans_le h)

/-- A number up to four is rounded to a finite float. -/
theorem ofRat_double (h : 0 ≤ q) (hq : q ≤ 4) : PyFloat.ofRat q = .finite (double q) := by
  have hfour : (4 : ℚ) = 2 ^ (2 : ℤ) := by norm_num
  have hupper : double q ≤ 4 := by
    obtain hzero | hpos := eq_or_lt_of_le h
    · rw [← hzero, double_zero]
      exact four_pos.le
    · rw [hfour] at hq ⊢
      exact double_le_zpow hpos hq
  obtain ⟨hbelow, habove⟩ := in_range (double_nonneg h) hupper
  unfold PyFloat.ofRat
  rw [if_neg hbelow, if_neg habove]

/-- A share is a float between zero and one; from a half on it is at least a half. -/
theorem nearest_share (h : 0 ≤ q) (hq : q ≤ 1) : ∃ r, PyFloat.nearest q = .finite r ∧ 0 ≤ r ∧ r ≤ 1 ∧
    (1 / 2 ≤ q → 1 / 2 ≤ r) ∧ (q = 0 → r = 0) := by
  have hlog : Int.log 2 |q| ≤ 0 := by
    obtain hzero | hpos := eq_or_lt_of_le h
    · rw [← hzero, abs_zero, Int.log_zero_right]
    · rw [abs_of_pos hpos]
      have hmono := Int.log_mono_right (b := 2) hpos hq
      rw [Int.log_one_right] at hmono
      exact hmono
  have hscale : ∃ k : ℤ, k = 52 - max (Int.log 2 |q|) (-1022) ∧ 52 ≤ k := ⟨_, rfl, by omega⟩
  obtain ⟨k, hk, hlarge⟩ := hscale
  have hone : onGrid k 1 = 1 := by
    have hpower := @onGrid_zpow k 0 (by omega)
    rwa [zpow_zero] at hpower
  have hhalf : onGrid k (1 / 2) = 1 / 2 := by
    have hpower := @onGrid_zpow k (-1) (by omega)
    rwa [zpow_neg_one, inv_eq_one_div] at hpower
  have hupper : onGrid k q ≤ 1 := by
    rw [← hone]
    exact onGrid_mono hq
  have hlower : 0 ≤ onGrid k q := onGrid_nonneg h
  refine ⟨onGrid k q, ?_, hlower, hupper, fun hge => ?_, fun hzero => ?_⟩
  · obtain ⟨hbelow, habove⟩ := in_range hlower (hupper.trans (by norm_num))
    have hrounded : PyFloat.nearest q =
        if 2 ^ 1024 ≤ onGrid k q then .posInf
        else if onGrid k q ≤ -2 ^ 1024 then .negInf
        else .finite (onGrid k q) := by
      rw [hk]
      rfl
    rw [hrounded, if_neg hbelow, if_neg habove]
  · rw [← hhalf]
    exact onGrid_mono hge
  · rw [hzero, onGrid_zero]

end Doubles

end AiosDeck.Python
