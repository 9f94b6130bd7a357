import Mathlib

/-!
# Percentiles in exact arithmetic

A value between two neighbours of a monotone sequence is monotone in its place. The
percentiles of sorted samples are such values, and so they are in order.
-/

namespace AiosDeck.Telemetry

section Interpolation

variable {K : Type*} [Field K] [LinearOrder K] [IsStrictOrderedRing K] [FloorRing K]

/-- The value at a place of a sequence, linear between neighbours. -/
def interpolate (v : ℤ → K) (k : K) : K :=
  if ⌊k⌋ = ⌈k⌉ then v ⌊k⌋ else v ⌊k⌋ * (⌈k⌉ - k) + v ⌈k⌉ * (k - ⌊k⌋)

theorem ceil_eq_of_ne {k : K} (h : ⌊k⌋ ≠ ⌈k⌉) : ⌈k⌉ = ⌊k⌋ + 1 :=
  le_antisymm (Int.ceil_le_floor_add_one k)
    (Int.add_one_le_iff.mpr (lt_of_le_of_ne (Int.floor_le_ceil k) h))

/-- The value as a step from the lower neighbour. -/
theorem interpolate_eq (v : ℤ → K) (k : K) :
    interpolate v k = v ⌊k⌋ + (k - ⌊k⌋) * (v ⌈k⌉ - v ⌊k⌋) := by
  unfold interpolate
  split_ifs with h
  · rw [← h, sub_self, mul_zero, add_zero]
  · rw [ceil_eq_of_ne h]
    push_cast
    ring

theorem interpolate_int (v : ℤ → K) (i : ℤ) : interpolate v (i : K) = v i := by
  unfold interpolate
  rw [Int.floor_intCast, Int.ceil_intCast, if_pos rfl]

variable {v : ℤ → K} {first last : ℤ}

theorem floor_mem {k : K} (hlow : (first : K) ≤ k) (hhigh : k ≤ last) :
    first ≤ ⌊k⌋ ∧ ⌈k⌉ ≤ last :=
  ⟨Int.le_floor.mpr hlow, Int.ceil_le.mpr hhigh⟩

/-- The value lies between those of the two neighbours. -/
theorem interpolate_between (hv : MonotoneOn v (Set.Icc first last)) {k : K}
    (hlow : (first : K) ≤ k) (hhigh : k ≤ last) :
    v ⌊k⌋ ≤ interpolate v k ∧ interpolate v k ≤ v ⌈k⌉ := by
  obtain ⟨hfloor, hceil⟩ := floor_mem hlow hhigh
  have hle := Int.floor_le_ceil k
  have hstep : v ⌊k⌋ ≤ v ⌈k⌉ := hv ⟨hfloor, hle.trans hceil⟩ ⟨hfloor.trans hle, hceil⟩ hle
  have hpart : 0 ≤ k - ⌊k⌋ ∧ k - ⌊k⌋ ≤ 1 :=
    ⟨Int.fract_nonneg k, (Int.fract_lt_one k).le⟩
  have hgap : 0 ≤ v ⌈k⌉ - v ⌊k⌋ := sub_nonneg.mpr hstep
  rw [interpolate_eq]
  constructor
  · exact le_add_of_nonneg_right (mul_nonneg hpart.1 hgap)
  · have hshare := mul_le_of_le_one_left hgap hpart.2
    linarith

/-- Along a monotone sequence the value is monotone in the place. -/
theorem interpolate_mono (hv : MonotoneOn v (Set.Icc first last)) {k l : K}
    (hlow : (first : K) ≤ k) (hkl : k ≤ l) (hhigh : l ≤ last) :
    interpolate v k ≤ interpolate v l := by
  have hk := interpolate_between hv hlow (hkl.trans hhigh)
  have hl := interpolate_between hv (hlow.trans hkl) hhigh
  obtain ⟨hkfloor, hkceil⟩ := floor_mem hlow (hkl.trans hhigh)
  obtain ⟨hlfloor, hlceil⟩ := floor_mem (hlow.trans hkl) hhigh
  rcases eq_or_lt_of_le (Int.floor_mono hkl) with hsame | hnext
  · by_cases hint : ⌊k⌋ = ⌈k⌉
    · -- the lower place is a neighbour of the upper one
      calc interpolate v k ≤ v ⌈k⌉ := hk.2
        _ = v ⌊l⌋ := by rw [← hint, hsame]
        _ ≤ interpolate v l := hl.1
    · have hceil : ⌈k⌉ = ⌈l⌉ := by
        have hbelow := ceil_eq_of_ne hint
        have habove := Int.ceil_mono hkl
        have hbound := Int.ceil_le_floor_add_one l
        omega
      have hle := Int.floor_le_ceil l
      have hgap : 0 ≤ v ⌈l⌉ - v ⌊l⌋ :=
        sub_nonneg.mpr (hv ⟨hlfloor, hle.trans hlceil⟩ ⟨hlfloor.trans hle, hlceil⟩ hle)
      rw [interpolate_eq, interpolate_eq, hceil, hsame]
      exact add_le_add_right (mul_le_mul_of_nonneg_right (by linarith) hgap) _
  · -- a sample lies between the two places
    have hmiddle : ⌈k⌉ ≤ ⌊l⌋ := (Int.ceil_le_floor_add_one k).trans (Int.add_one_le_iff.mpr hnext)
    calc interpolate v k ≤ v ⌈k⌉ := hk.2
      _ ≤ v ⌊l⌋ := hv ⟨hkfloor.trans (Int.floor_le_ceil k), hkceil⟩
          ⟨hlfloor, (Int.floor_le_ceil l).trans hlceil⟩ hmiddle
      _ ≤ interpolate v l := hl.1

end Interpolation

namespace Exact

/-- `values[i]`: negative indices count from the end, and others out of range raise. -/
def index (values : List ℚ) (i : ℤ) : Option ℚ :=
  if 0 ≤ i then values[i.toNat]?
  else if -values.length ≤ i then values[(values.length + i).toNat]?
  else none

/-- The rank of a percentile among sorted samples. -/
def rank (count : ℕ) (q : ℚ) : ℚ := (count - 1) * (q / 100)

/-- `percentile` without rounding; `none` for a raised `IndexError`. -/
def percentile (sortedVals : List ℚ) (q : ℚ) : Option ℚ :=
  match sortedVals with
  | [] => some 0
  | [x] => some x
  | _ :: _ :: _ =>
    let k := rank sortedVals.length q
    if ⌊k⌋ = ⌈k⌉ then index sortedVals ⌊k⌋
    else do
      let low ← index sortedVals ⌊k⌋
      let high ← index sortedVals ⌈k⌉
      return low * (⌈k⌉ - k) + high * (k - ⌊k⌋)

/-- The statistics of a metric. -/
structure Summary where
  count : ℕ
  min : Option ℚ
  max : Option ℚ
  mean : Option ℚ
  p50 : Option ℚ
  p95 : Option ℚ
  p99 : Option ℚ
  samples : List ℚ
  deriving DecidableEq

/-- `sorted(samples)`. -/
def sorted (samples : List ℚ) : List ℚ := samples.insertionSort (· ≤ ·)

/-- `summarize` without rounding. -/
def summarize (samples : List ℚ) : Option Summary :=
  match samples with
  | [] => some ⟨0, none, none, none, none, none, none, []⟩
  | _ => do
    let ordered := sorted samples
    let p50 ← percentile ordered 50
    let p95 ← percentile ordered 95
    let p99 ← percentile ordered 99
    return ⟨ordered.length, ordered.head?, ordered.getLast?, some (ordered.sum / ordered.length),
      some p50, some p95, some p99, samples⟩

/-- The samples by their places. -/
def place (values : List ℚ) (i : ℤ) : ℚ := values.getD i.toNat 0

theorem index_eq {values : List ℚ} {i : ℤ} (hlow : 0 ≤ i) (hhigh : i ≤ (values.length : ℤ) - 1) :
    index values i = some (place values i) := by
  have hi : i.toNat < values.length := by omega
  unfold index place
  rw [if_pos hlow, List.getD_eq_getElem?_getD, List.getElem?_eq_getElem hi, Option.getD_some]

theorem place_mono {values : List ℚ} (h : values.Pairwise (· ≤ ·)) :
    MonotoneOn (place values) (Set.Icc 0 ((values.length : ℤ) - 1)) := by
  intro i hi j hj hij
  obtain ⟨hi0, hi1⟩ := hi
  obtain ⟨hj0, hj1⟩ := hj
  have hget : ∀ {n : ℕ} (hn : n < values.length), values.getD n 0 = values[n] := by
    intro n hn
    rw [List.getD_eq_getElem?_getD, List.getElem?_eq_getElem hn, Option.getD_some]
  unfold place
  rw [hget (by omega : i.toNat < values.length), hget (by omega : j.toNat < values.length)]
  rcases eq_or_lt_of_le hij with rfl | hlt
  · exact le_refl _
  · exact List.pairwise_iff_getElem.mp h _ _ _ _ (by omega)

/-- A percentile up to the hundredth has its rank among the places of the samples. -/
theorem rank_mem {count : ℕ} (hcount : 0 < count) {q : ℚ} (hq0 : 0 ≤ q) (hq1 : q ≤ 100) :
    ((0 : ℤ) : ℚ) ≤ rank count q ∧ rank count q ≤ (((count : ℤ) - 1 : ℤ) : ℚ) := by
  have hlast : (0 : ℚ) ≤ count - 1 := by
    have hone : (1 : ℚ) ≤ count := by exact_mod_cast hcount
    linarith
  have hshare : q / 100 ≤ 1 := by
    rw [div_le_one (by norm_num)]
    exact hq1
  unfold rank
  push_cast
  exact ⟨mul_nonneg hlast (by positivity), mul_le_of_le_one_right hlast hshare⟩

theorem rank_mono {count : ℕ} (hcount : 0 < count) {q r : ℚ} (hqr : q ≤ r) :
    rank count q ≤ rank count r := by
  have hlast : (0 : ℚ) ≤ count - 1 := by
    have hone : (1 : ℚ) ≤ count := by exact_mod_cast hcount
    linarith
  unfold rank
  exact mul_le_mul_of_nonneg_left (div_le_div_of_nonneg_right hqr (by norm_num)) hlast

/-- A percentile is the value at its rank. -/
theorem percentile_eq {values : List ℚ} (hne : values ≠ []) {q : ℚ} (hq0 : 0 ≤ q) (hq1 : q ≤ 100) :
    percentile values q = some (interpolate (place values) (rank values.length q)) := by
  have hcount : 0 < values.length := List.length_pos_iff.mpr hne
  obtain ⟨hlow, hhigh⟩ := rank_mem hcount hq0 hq1
  obtain ⟨hfloor, hceil⟩ := floor_mem hlow hhigh
  have hle := Int.floor_le_ceil (rank values.length q)
  match values with
  | [] => exact absurd rfl hne
  | [x] =>
    have hrank : rank 1 q = ((0 : ℤ) : ℚ) := by simp [rank]
    show some x = some (interpolate (place [x]) (rank 1 q))
    rw [hrank, interpolate_int]
    rfl
  | first :: second :: rest =>
    unfold percentile
    dsimp only
    rw [index_eq hfloor (hle.trans hceil), index_eq (hfloor.trans hle) hceil]
    unfold interpolate
    split_ifs <;> rfl

theorem percentile_mono {values : List ℚ} (hne : values ≠ []) (hsorted : values.Pairwise (· ≤ ·))
    {q r x y : ℚ} (hq0 : 0 ≤ q) (hqr : q ≤ r) (hr1 : r ≤ 100)
    (hx : percentile values q = some x) (hy : percentile values r = some y) : x ≤ y := by
  have hcount : 0 < values.length := List.length_pos_iff.mpr hne
  rw [percentile_eq hne hq0 (hqr.trans hr1)] at hx
  rw [percentile_eq hne (hq0.trans hqr) hr1] at hy
  cases hx
  cases hy
  exact interpolate_mono (place_mono hsorted) (rank_mem hcount hq0 (hqr.trans hr1)).1
    (rank_mono hcount hqr) (rank_mem hcount (hq0.trans hqr) hr1).2

/-- At the rank of an order statistic the percentile is that statistic. -/
theorem percentile_order {values : List ℚ} {k : ℕ} (hk : k < values.length) :
    percentile values (100 * k / (values.length - 1)) = values[k]? := by
  have hne : values ≠ [] := List.ne_nil_of_length_pos (by omega)
  rcases (by omega : values.length = 1 ∨ 1 < values.length) with hone | hmore
  · obtain ⟨x, rfl⟩ := List.length_eq_one_iff.mp hone
    rw [Nat.lt_one_iff.mp hk]
    rfl
  · have hlast : (0 : ℚ) < values.length - 1 := by
      have hone : (1 : ℚ) < values.length := by exact_mod_cast hmore
      linarith
    have hkcast : (k : ℚ) ≤ values.length - 1 := by
      have hk1 : (k : ℚ) + 1 ≤ values.length := by exact_mod_cast hk
      linarith
    have hrank : rank values.length (100 * k / (values.length - 1)) = ((k : ℤ) : ℚ) := by
      unfold rank
      push_cast
      field_simp
    have hq1 : 100 * (k : ℚ) / (values.length - 1) ≤ 100 := by
      rw [div_le_iff₀ hlast]
      linarith
    rw [percentile_eq hne (div_nonneg (by positivity) hlast.le) hq1, hrank, interpolate_int,
      ← index_eq (Int.natCast_nonneg k) (by omega)]
    rfl

theorem head_percentile {values : List ℚ} (hne : values ≠ []) :
    percentile values 0 = values.head? := by
  have hcount : 0 < values.length := List.length_pos_iff.mpr hne
  have h := percentile_order hcount
  rw [Nat.cast_zero, mul_zero, zero_div] at h
  rw [h, List.head?_eq_getElem?]

theorem last_percentile {values : List ℚ} (hne : values ≠ []) :
    percentile values 100 = values.getLast? := by
  have hcount : 0 < values.length := List.length_pos_iff.mpr hne
  rw [List.getLast?_eq_getElem?]
  rcases (by omega : values.length = 1 ∨ 1 < values.length) with hone | hmore
  · obtain ⟨x, rfl⟩ := List.length_eq_one_iff.mp hone
    rfl
  · have hlast : (values.length : ℚ) - 1 ≠ 0 := by
      have hone : (1 : ℚ) < values.length := by exact_mod_cast hmore
      linarith
    have h := percentile_order (by omega : values.length - 1 < values.length)
    rwa [Nat.cast_sub hcount, Nat.cast_one, mul_div_assoc, div_self hlast, mul_one] at h

/-- The statistics of samples are in order; among sorted samples every percentile has its
rank in range, is monotone, and at the ranks of the samples gives them back. -/
theorem summarize_ordered (samples : List ℚ) (hne : samples ≠ []) :
    (∃ s low p50 p95 p99 high, summarize samples = some s ∧ s.min = some low ∧
        s.p50 = some p50 ∧ s.p95 = some p95 ∧ s.p99 = some p99 ∧ s.max = some high ∧
        low ≤ p50 ∧ p50 ≤ p95 ∧ p95 ≤ p99 ∧ p99 ≤ high) ∧
      (∀ q, 0 ≤ q → q ≤ 100 → (percentile (sorted samples) q).isSome ∧
        0 ≤ ⌊rank samples.length q⌋ ∧ ⌈rank samples.length q⌉ < samples.length) ∧
      (∀ q r x y, 0 ≤ q → q ≤ r → r ≤ 100 → percentile (sorted samples) q = some x →
        percentile (sorted samples) r = some y → x ≤ y) ∧
      ∀ k < samples.length,
        percentile (sorted samples) (100 * k / (samples.length - 1)) = (sorted samples)[k]? := by
  have hlength : (sorted samples).length = samples.length := List.length_insertionSort _ _
  have hcount : 0 < samples.length := List.length_pos_iff.mpr hne
  have hne' : sorted samples ≠ [] := List.ne_nil_of_length_pos (by omega)
  have hsorted : (sorted samples).Pairwise (· ≤ ·) := List.pairwise_insertionSort _ _
  have hmono := fun {q r x y : ℚ} => percentile_mono hne' hsorted (q := q) (r := r) (x := x) (y := y)
  refine ⟨?_, ?_, fun q r x y => hmono, fun k hk => ?_⟩
  · have hget : ∀ q : ℚ, 0 ≤ q → q ≤ 100 → ∃ x, percentile (sorted samples) q = some x :=
      fun q hq0 hq1 => ⟨_, percentile_eq hne' hq0 hq1⟩
    obtain ⟨low, hlow⟩ := hget 0 (by norm_num) (by norm_num)
    obtain ⟨p50, h50⟩ := hget 50 (by norm_num) (by norm_num)
    obtain ⟨p95, h95⟩ := hget 95 (by norm_num) (by norm_num)
    obtain ⟨p99, h99⟩ := hget 99 (by norm_num) (by norm_num)
    obtain ⟨high, hhigh⟩ := hget 100 (by norm_num) (by norm_num)
    have hmin : (sorted samples).head? = some low := (head_percentile hne').symm.trans hlow
    have hmax : (sorted samples).getLast? = some high := (last_percentile hne').symm.trans hhigh
    have hsummary : summarize samples = some ⟨(sorted samples).length, (sorted samples).head?,
        (sorted samples).getLast?, some ((sorted samples).sum / (sorted samples).length),
        some p50, some p95, some p99, samples⟩ := by
      unfold summarize
      split
      · exact absurd rfl hne
      · dsimp only
        rw [h50, h95, h99]
        rfl
    refine ⟨_, low, p50, p95, p99, high, hsummary, hmin, rfl, rfl, rfl, hmax,
      hmono (by norm_num) (by norm_num) (by norm_num) hlow h50,
      hmono (by norm_num) (by norm_num) (by norm_num) h50 h95,
      hmono (by norm_num) (by norm_num) (by norm_num) h95 h99,
      hmono (by norm_num) (by norm_num) (by norm_num) h99 hhigh⟩
  · intro q hq0 hq1
    obtain ⟨hlow, hhigh⟩ := rank_mem hcount hq0 hq1
    obtain ⟨hfloor, hceil⟩ := floor_mem hlow hhigh
    rw [percentile_eq hne' hq0 hq1]
    exact ⟨rfl, hfloor, by omega⟩
  · rw [← hlength] at hk ⊢
    exact percentile_order hk

/-- Of three samples the middle one is at rank `50`. -/
theorem summarize_three : ([3, 1, 2] : List ℚ) ≠ [] ∧
    ∀ k < [3, 1, 2].length, percentile (sorted [3, 1, 2]) (100 * k / (([3, 1, 2] : List ℚ).length - 1)) =
      (sorted [3, 1, 2])[k]? :=
  ⟨List.cons_ne_nil _ _, (summarize_ordered [3, 1, 2] (List.cons_ne_nil _ _)).2.2.2⟩

end Exact

end AiosDeck.Telemetry
