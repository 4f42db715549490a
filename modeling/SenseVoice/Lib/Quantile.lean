import Mathlib.Algebra.Order.Floor.Semiring
import Mathlib.Data.List.GetD
import Mathlib.Data.List.Sort
import Mathlib.Tactic.Linarith
import Mathlib.Tactic.Ring

/-!
# Quantiles by linear interpolation

The quantile of a list at a ratio `r`: the list is sorted, and the value at the position `(length - 1) * r` is read
off the polyline through its elements. Over any linearly ordered field with a floor.

Results:
* `le_polyline`, `polyline_le`, **`polyline_mono`**: the polyline through a monotone sequence stays between the points
  next to it, and is monotone;
* `quantile_perm`, `le_quantile`, `quantile_le`, **`quantile_mono`**: a quantile does not depend on the order of the
  list, is between its bounds, and grows with the ratio.
-/

namespace SenseVoice.Lib.Quantile

variable {α : Type}

/-! ## The polyline through a sequence -/

section Polyline

variable [Field α] [LinearOrder α] [FloorSemiring α]

/-- The value at `p` of the polyline through the points `(i, f i)`. -/
def polyline (f : ℕ → α) (p : α) : α := f ⌊p⌋₊ + (f (⌊p⌋₊ + 1) - f ⌊p⌋₊) * (p - ⌊p⌋₊)

variable {f : ℕ → α} {p q : α}

variable [IsStrictOrderedRing α]

theorem le_polyline (hf : Monotone f) (hp : 0 ≤ p) : f ⌊p⌋₊ ≤ polyline f p := by
  have hstep : 0 ≤ f (⌊p⌋₊ + 1) - f ⌊p⌋₊ := sub_nonneg.mpr (hf (Nat.le_succ _))
  have hweight : 0 ≤ p - ⌊p⌋₊ := sub_nonneg.mpr (Nat.floor_le hp)
  exact le_add_of_nonneg_right (mul_nonneg hstep hweight)

theorem polyline_le (hf : Monotone f) : polyline f p ≤ f (⌊p⌋₊ + 1) := by
  have hstep : 0 ≤ f (⌊p⌋₊ + 1) - f ⌊p⌋₊ := sub_nonneg.mpr (hf (Nat.le_succ _))
  have hweight : p - ⌊p⌋₊ ≤ 1 := by
    have hlt := Nat.lt_floor_add_one p
    linarith
  have hmul := mul_le_of_le_one_right hstep hweight
  unfold polyline
  linarith

/-- **The polyline through a monotone sequence is monotone.** -/
theorem polyline_mono (hf : Monotone f) (hp : 0 ≤ p) (hpq : p ≤ q) : polyline f p ≤ polyline f q := by
  rcases (Nat.floor_mono hpq).eq_or_lt with hsame | hlater
  · -- Both are on the same segment.
    have hstep : 0 ≤ f (⌊q⌋₊ + 1) - f ⌊q⌋₊ := sub_nonneg.mpr (hf (Nat.le_succ _))
    have hmul : (f (⌊q⌋₊ + 1) - f ⌊q⌋₊) * (p - ⌊q⌋₊) ≤ (f (⌊q⌋₊ + 1) - f ⌊q⌋₊) * (q - ⌊q⌋₊) :=
      mul_le_mul_of_nonneg_left (sub_le_sub_right hpq _) hstep
    unfold polyline
    rw [hsame]
    linarith
  · calc polyline f p ≤ f (⌊p⌋₊ + 1) := polyline_le hf
      _ ≤ f ⌊q⌋₊ := hf hlater
      _ ≤ polyline f q := le_polyline hf (hp.trans hpq)

end Polyline

/-! ## Elements by rank -/

section Rank

variable [LinearOrder α] [Zero α] {l l' : List α}

/-- The element at an index, the last one from there on. -/
def rank (l : List α) (i : ℕ) : α := l.getD (min i (l.length - 1)) 0

omit [LinearOrder α] [Zero α] in
theorem min_lt_length (hl : l ≠ []) (i : ℕ) : min i (l.length - 1) < l.length := by
  have hpos := List.length_pos_iff.mpr hl
  omega

omit [LinearOrder α] in
theorem rank_mem (hl : l ≠ []) (i : ℕ) : rank l i ∈ l := by
  unfold rank
  rw [List.getD_eq_getElem l 0 (min_lt_length hl i)]
  exact List.getElem_mem _

theorem rank_mono (hsorted : l.Pairwise (· ≤ ·)) : Monotone (rank l) := by
  intro i j hij
  by_cases hl : l = []
  · simp [rank, hl]
  · unfold rank
    rw [List.getD_eq_getElem l 0 (min_lt_length hl i), List.getD_eq_getElem l 0 (min_lt_length hl j)]
    rcases (min_le_min_right (l.length - 1) hij).eq_or_lt with hsame | hlt
    · simp only [hsame, le_refl]
    · exact List.pairwise_iff_getElem.mp hsorted _ _ _ _ hlt

end Rank

/-! ## Quantiles -/

section Ordered

variable [LinearOrder α] {l l' : List α}

/-- The list in increasing order. -/
def ordered (l : List α) : List α := l.mergeSort (· ≤ ·)

theorem pairwise_ordered (l : List α) : (ordered l).Pairwise (· ≤ ·) := List.pairwise_mergeSort' _ l

theorem perm_ordered (l : List α) : (ordered l).Perm l := List.mergeSort_perm l _

theorem length_ordered (l : List α) : (ordered l).length = l.length := (perm_ordered l).length_eq

theorem ordered_ne_nil (hl : l ≠ []) : ordered l ≠ [] := by
  rw [← List.length_pos_iff, length_ordered]
  exact List.length_pos_iff.mpr hl

/-- The order depends on the elements only. -/
theorem ordered_perm (h : l.Perm l') : ordered l = ordered l' :=
  (((perm_ordered l).trans h).trans (perm_ordered l').symm).eq_of_pairwise' (pairwise_ordered l) (pairwise_ordered l')

end Ordered

variable [Field α] [LinearOrder α] [FloorSemiring α] {l l' : List α} {r s : α}

/-- The quantile at a ratio. -/
def quantile (l : List α) (r : α) : α := polyline (rank (ordered l)) ((l.length - 1 : ℕ) * r)

theorem quantile_perm (h : l.Perm l') (r : α) : quantile l r = quantile l' r := by
  unfold quantile
  rw [ordered_perm h, h.length_eq]

variable [IsStrictOrderedRing α]

omit [FloorSemiring α] in
theorem position_nonneg (l : List α) (hr : 0 ≤ r) : (0 : α) ≤ (l.length - 1 : ℕ) * r :=
  mul_nonneg (Nat.cast_nonneg _) hr

theorem le_quantile (hl : l ≠ []) (hr : 0 ≤ r) {lo : α} (hlo : ∀ x ∈ l, lo ≤ x) : lo ≤ quantile l r := by
  have hmem := (perm_ordered l).mem_iff.mp (rank_mem (ordered_ne_nil hl) ⌊((l.length - 1 : ℕ) * r : α)⌋₊)
  exact (hlo _ hmem).trans (le_polyline (rank_mono (pairwise_ordered l)) (position_nonneg l hr))

theorem quantile_le (hl : l ≠ []) {hi : α} (hhi : ∀ x ∈ l, x ≤ hi) : quantile l r ≤ hi := by
  have hmem := (perm_ordered l).mem_iff.mp (rank_mem (ordered_ne_nil hl) (⌊((l.length - 1 : ℕ) * r : α)⌋₊ + 1))
  exact (polyline_le (rank_mono (pairwise_ordered l))).trans (hhi _ hmem)

/-- **A quantile grows with the ratio.** -/
theorem quantile_mono (l : List α) (hr : 0 ≤ r) (hrs : r ≤ s) : quantile l r ≤ quantile l s :=
  polyline_mono (rank_mono (pairwise_ordered l)) (position_nonneg l hr)
    (mul_le_mul_of_nonneg_left hrs (Nat.cast_nonneg _))

end SenseVoice.Lib.Quantile
