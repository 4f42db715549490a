import SenseVoice.Bridge.SummarizeTrace
import SenseVoice.Lib.Quantile
import SenseVoice.Page.Observations

/-!
# The three `percentile` functions

Model of `percentile` in `bridge/stress_asr_pool.py` and `app.js`, with every index that they read, beside the one of
`bridge/summarize_trace.py` (`Bridge.percentile`). Numbers are exact rationals.

* In Python an index out of range raises `IndexError`. In JavaScript it gives `undefined`, and a result that an
  `undefined` goes into is no number: `none` here.
* The result for no values is `none` inside: `None`, `nan` and `null`.

Results:
* `summarize_quantile`, `stressPercentile_quantile`, `percentile_quantile`: each of them is the quantile;
* **`percentiles_agree`**: they are one function, and its properties;
* `reportRow_eq`: no row of a trace report raises, and what stands in its columns.
-/

namespace SenseVoice.Bridge

/-- `percentile` of `stress_asr_pool.py`. -/
def stressPercentile (values : List ℚ) (pct : ℚ) : Except IndexError (Option ℚ) :=
  if values = [] then .ok none
  else do
    let ordered := values.mergeSort
    let rank := (ordered.length - 1 : ℤ) * pct / 100
    let low := pyInt rank
    let high := min (low + 1) (ordered.length - 1 : ℤ)
    let fraction := rank - low
    return some ((← pyItem ordered low) + ((← pyItem ordered high) - (← pyItem ordered low)) * fraction)

end SenseVoice.Bridge

namespace SenseVoice.Page

/-- `items[i]`; `none` is `undefined`. -/
def jsItem (items : List ℚ) (i : ℤ) : Option ℚ := if i < 0 then none else items[i.toNat]?

/-- `percentile` of `app.js`. -/
def percentile (values : List (Option Value)) (ratio : ℚ) : Option (Option ℚ) :=
  let sorted := (values.filterMap asFiniteNumber).mergeSort
  if sorted = [] then some none
  else do
    let position := (sorted.length - 1 : ℤ) * ratio
    let lower := ⌊position⌋
    let upper := ⌈position⌉
    if lower = upper then return some (← jsItem sorted lower)
    else
      let weight := position - lower
      return some ((← jsItem sorted lower) * (1 - weight) + (← jsItem sorted upper) * weight)

/-- A number as JavaScript has it. -/
def jsNumber (q : ℚ) : Option Value := some (.number (.float q))

/-! ## The indices -/

open Lib.Quantile Bridge

section Reads

variable {items values : List ℚ} {i : ℕ} {q r : ℚ}

/-- An index at or below the last one reads the element of that rank. -/
theorem pyItem_rank (hne : items ≠ []) (i : ℕ) : pyItem items (min i (items.length - 1 : ℤ)) = .ok (rank items i) := by
  have hpos := List.length_pos_iff.mpr hne
  have hcast : min (i : ℤ) (items.length - 1 : ℤ) = (min i (items.length - 1) : ℕ) := by
    push_cast [Nat.cast_sub (Nat.one_le_of_lt hpos)]
    rfl
  have hlt := min_lt_length hne i
  rw [hcast]
  unfold pyItem rank
  rw [if_neg (by omega), if_neg (by omega), Int.toNat_natCast, List.getElem?_eq_getElem hlt,
    List.getD_eq_getElem items 0 hlt]

theorem jsItem_rank (hne : items ≠ []) (hi : i ≤ items.length - 1) : jsItem items i = some (rank items i) := by
  have hlt := min_lt_length hne i
  rw [Nat.min_eq_left hi] at hlt
  unfold jsItem rank
  rw [if_neg (by omega), Int.toNat_natCast, Nat.min_eq_left hi, List.getElem?_eq_getElem hlt,
    List.getD_eq_getElem items 0 hlt]

theorem pyInt_eq_floor (h : 0 ≤ q) : pyInt q = (⌊q⌋₊ : ℕ) := by
  unfold pyInt
  rw [if_pos h, Int.natCast_floor_eq_floor h]

/-- The position of a ratio is one of an element. -/
theorem floor_position_le (h1 : r ≤ 1) (n : ℕ) : ⌊(n : ℚ) * r⌋₊ ≤ n :=
  Nat.floor_le_of_le (mul_le_of_le_one_right (Nat.cast_nonneg n) h1)

/-- The position of a ratio, as the functions compute it. -/
theorem position_eq (hne : values ≠ []) (r : ℚ) :
    (((ordered values).length - 1 : ℤ) : ℚ) * r = ((values.length - 1 : ℕ) : ℚ) * r := by
  have hpos := List.length_pos_iff.mpr hne
  rw [length_ordered, Nat.cast_sub (Nat.one_le_of_lt hpos)]
  push_cast
  rfl

/-- The lower index reads the element at the floor of the position, the upper one the next element, if there is one. -/
theorem pyItem_position (hne : values ≠ []) (h0 : 0 ≤ r) (h1 : r ≤ 1) :
    pyItem (ordered values) (pyInt (((values.length - 1 : ℕ) : ℚ) * r)) =
        .ok (rank (ordered values) ⌊((values.length - 1 : ℕ) : ℚ) * r⌋₊) ∧
      pyItem (ordered values)
          (min (pyInt (((values.length - 1 : ℕ) : ℚ) * r) + 1) ((ordered values).length - 1 : ℤ)) =
        .ok (rank (ordered values) (⌊((values.length - 1 : ℕ) : ℚ) * r⌋₊ + 1)) := by
  have hfloor := floor_position_le h1 (values.length - 1)
  have hpos := List.length_pos_iff.mpr hne
  have hlen := length_ordered values
  rw [pyInt_eq_floor (position_nonneg values h0)]
  constructor
  · have hread := pyItem_rank (ordered_ne_nil hne) ⌊((values.length - 1 : ℕ) : ℚ) * r⌋₊
    rwa [min_eq_left (by omega)] at hread
  · have hread := pyItem_rank (ordered_ne_nil hne) (⌊((values.length - 1 : ℕ) : ℚ) * r⌋₊ + 1)
    rwa [Nat.cast_add_one] at hread

/-- The weight of the upper element. -/
theorem weight_eq (values : List ℚ) (h0 : 0 ≤ r) :
    ((pyInt (((values.length - 1 : ℕ) : ℚ) * r) : ℤ) : ℚ) = ⌊((values.length - 1 : ℕ) : ℚ) * r⌋₊ := by
  rw [pyInt_eq_floor (position_nonneg values h0)]
  norm_cast

theorem summarize_quantile (hne : values ≠ []) (h0 : 0 ≤ r) (h1 : r ≤ 1) :
    Bridge.percentile values r = .ok (some (quantile values r)) := by
  obtain ⟨hlower, hupper⟩ := pyItem_position hne h0 h1
  have hmerge : values.mergeSort = ordered values := rfl
  unfold Bridge.percentile
  rw [if_neg hne]
  dsimp only
  rw [hmerge, position_eq hne r, hlower, hupper, weight_eq values h0]
  change Except.ok (some _) = _
  unfold quantile polyline
  congr 2
  ring

theorem stressPercentile_quantile (hne : values ≠ []) (h0 : 0 ≤ r) (h1 : r ≤ 1) :
    stressPercentile values (100 * r) = .ok (some (quantile values r)) := by
  obtain ⟨hlower, hupper⟩ := pyItem_position hne h0 h1
  have hmerge : values.mergeSort = ordered values := rfl
  have hrank : (((ordered values).length - 1 : ℤ) : ℚ) * (100 * r) / 100 = ((values.length - 1 : ℕ) : ℚ) * r := by
    rw [← position_eq hne r]
    ring
  unfold stressPercentile
  rw [if_neg hne]
  dsimp only
  rw [hmerge, hrank, hlower, hupper, weight_eq values h0]
  rfl

/-- `Math.floor` and `Math.ceil` of the position. -/
theorem jsItem_position (hne : values ≠ []) (h0 : 0 ≤ r) (h1 : r ≤ 1) :
    jsItem (ordered values) ⌊((values.length - 1 : ℕ) : ℚ) * r⌋ =
        some (rank (ordered values) ⌊((values.length - 1 : ℕ) : ℚ) * r⌋₊) ∧
      (⌊((values.length - 1 : ℕ) : ℚ) * r⌋ ≠ ⌈((values.length - 1 : ℕ) : ℚ) * r⌉ →
        jsItem (ordered values) ⌈((values.length - 1 : ℕ) : ℚ) * r⌉ =
          some (rank (ordered values) (⌊((values.length - 1 : ℕ) : ℚ) * r⌋₊ + 1))) := by
  have hpos := position_nonneg values h0
  have hle : ((values.length - 1 : ℕ) : ℚ) * r ≤ (values.length - 1 : ℕ) :=
    mul_le_of_le_one_right (Nat.cast_nonneg _) h1
  have hfloor := floor_position_le h1 (values.length - 1)
  have hlen := length_ordered values
  generalize ((values.length - 1 : ℕ) : ℚ) * r = p at hpos hle hfloor ⊢
  have hcast : (⌊p⌋₊ : ℤ) = ⌊p⌋ := Int.natCast_floor_eq_floor hpos
  constructor
  · rw [← hcast]
    exact jsItem_rank (ordered_ne_nil hne) (by omega)
  · intro hne'
    -- The position is no whole number, so that the next element exists.
    have hceil : ⌈p⌉ = (⌊p⌋₊ + 1 : ℕ) := by
      have hupper := Int.ceil_le_floor_add_one p
      have hlower := Int.floor_le_ceil p
      push_cast
      omega
    have hlast : ⌈p⌉ ≤ (values.length - 1 : ℕ) := Int.ceil_le.mpr (by exact_mod_cast hle)
    rw [hceil] at hlast ⊢
    exact jsItem_rank (ordered_ne_nil hne) (by omega)

theorem filterMap_jsNumber (values : List ℚ) : (values.map jsNumber).filterMap asFiniteNumber = values := by
  rw [List.filterMap_map]
  exact List.filterMap_some

theorem percentile_quantile (hne : values ≠ []) (h0 : 0 ≤ r) (h1 : r ≤ 1) :
    percentile (values.map jsNumber) r = some (some (quantile values r)) := by
  obtain ⟨hlower, hupper⟩ := jsItem_position hne h0 h1
  have hmerge : values.mergeSort = ordered values := rfl
  have hpos := position_nonneg values h0
  unfold percentile
  rw [filterMap_jsNumber, hmerge, if_neg (ordered_ne_nil hne)]
  dsimp only
  rw [position_eq hne r]
  unfold quantile polyline
  generalize ((values.length - 1 : ℕ) : ℚ) * r = p at hpos hlower hupper ⊢
  have hcast : ((⌊p⌋ : ℤ) : ℚ) = ⌊p⌋₊ := by
    rw [← Int.natCast_floor_eq_floor hpos]
    norm_cast
  rw [hlower]
  by_cases hsame : ⌊p⌋ = ⌈p⌉
  · -- A whole number: the early return.
    have hwhole : p - ⌊p⌋₊ = 0 := by
      have hle := Int.le_ceil p
      have hge := Int.floor_le p
      rw [← hsame] at hle
      rw [← hcast]
      linarith
    rw [if_pos hsame, hwhole, mul_zero, add_zero]
    rfl
  · rw [if_neg hsame, hupper hsame, hcast]
    change some (some _) = _
    congr 2
    ring

/-- The three functions answer `v`: all their indices are in range. -/
structure Answers (values : List ℚ) (r v : ℚ) : Prop where
  summarize : Bridge.percentile values r = .ok (some v)
  stress : stressPercentile values (100 * r) = .ok (some v)
  page : percentile (values.map jsNumber) r = some (some v)

theorem answers_quantile (hne : values ≠ []) (h0 : 0 ≤ r) (h1 : r ≤ 1) : Answers values r (quantile values r) where
  summarize := summarize_quantile hne h0 h1
  stress := stressPercentile_quantile hne h0 h1
  page := percentile_quantile hne h0 h1

/-- **The three functions are one**: for all values and every ratio they answer the same, within the bounds of the
values, whatever their order is, and no less for a greater ratio. -/
theorem percentiles_agree (values : List ℚ) (hne : values ≠ []) (r : ℚ) (h0 : 0 ≤ r) (h1 : r ≤ 1) :
    ∃ v, Answers values r v ∧
      (∀ values', values.Perm values' → Answers values' r v) ∧
      (∀ lo, values.min? = some lo → lo ≤ v) ∧ (∀ hi, values.max? = some hi → v ≤ hi) ∧
      ∀ s w, r ≤ s → s ≤ 1 → Answers values s w → v ≤ w := by
  refine ⟨quantile values r, answers_quantile hne h0 h1, fun values' hperm => ?_, fun lo hlo => ?_, fun hi hhi => ?_,
    fun s w hrs hs hw => ?_⟩
  · have hne' : values' ≠ [] := fun hnil => hne (List.Perm.eq_nil (hnil ▸ hperm))
    rw [quantile_perm hperm]
    exact answers_quantile hne' h0 h1
  · exact le_quantile hne h0 fun x hx => (List.min?_eq_some_iff.mp hlo).2 x hx
  · exact quantile_le hne fun x hx => (List.max?_eq_some_iff.mp hhi).2 x hx
  · -- The answer at the greater ratio is its quantile.
    have hquantile := (answers_quantile hne (h0.trans hrs) hs).page
    rw [hw.page, Option.some.injEq, Option.some.injEq] at hquantile
    rw [hquantile]
    exact quantile_mono values h0 hrs

theorem percentiles_agree_half :
    ∃ v, Answers [100, 200, 300] (1 / 2) v ∧
      (∀ values', [100, 200, 300].Perm values' → Answers values' (1 / 2) v) ∧
      (∀ lo, [100, 200, 300].min? = some lo → lo ≤ v) ∧ (∀ hi, [100, 200, 300].max? = some hi → v ≤ hi) ∧
      ∀ s w, 1 / 2 ≤ s → s ≤ 1 → Answers [100, 200, 300] s w → v ≤ w :=
  percentiles_agree [100, 200, 300] (by simp) (1 / 2) (by norm_num) (by norm_num)

/-! ## The rows of a trace report -/

/-- The quantile, if there are values. -/
def column (values : List ℚ) (r : ℚ) : Option ℚ := if values = [] then none else some (quantile values r)

theorem percentile_column (values : List ℚ) (h0 : 0 ≤ r) (h1 : r ≤ 1) :
    Bridge.percentile values r = .ok (column values r) := by
  unfold column
  by_cases hnil : values = []
  · rw [if_pos hnil, Bridge.percentile, if_pos hnil]
  · rw [if_neg hnil, summarize_quantile hnil h0 h1]

/-- A row with the quantiles in its columns. -/
def quantileRow (observations : List (List (String × Value))) (m : ReportMetric) : ReportRow :=
  let values := metricValues observations m.path
  ⟨m.label, m.unit, values, average values, column values (1 / 2), column values (95 / 100), values.max?⟩

/-- **No row raises**: every index of its percentiles is in range. -/
theorem reportRow_eq (observations : List (List (String × Value))) (m : ReportMetric) :
    reportRow observations m = .ok (quantileRow observations m) := by
  unfold reportRow
  dsimp only
  rw [percentile_column _ (by norm_num) (by norm_num), percentile_column _ (by norm_num) (by norm_num)]
  rfl

end Reads

end SenseVoice.Page
