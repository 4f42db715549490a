import Mathlib.Algebra.BigOperators.Group.List.Basic
import Mathlib.Algebra.Order.BigOperators.Group.List

/-!
# The longest suffix within a budget

A buffer that keeps the end of a stream: an element is appended, then elements leave at the front while
the total weight exceeds the budget. What is kept is the longest suffix of the whole stream within the
budget, whatever was dropped before.

Results:
* `trim_longest`: trimming a list leaves its longest suffix within the budget;
* **`trim_push`**: trimming as elements arrive is trimming the whole stream.
-/

namespace SenseVoice.Lib

variable {α M : Type} [AddCommMonoid M] {w : α → M}

/-- The total weight of a list. -/
def total (w : α → M) (l : List α) : M := (l.map w).sum

@[simp] theorem total_nil : total w [] = 0 := rfl

@[simp] theorem total_cons (x : α) (l : List α) : total w (x :: l) = w x + total w l := by
  unfold total
  rw [List.map_cons, List.sum_cons]

@[simp] theorem total_append (l l' : List α) : total w (l ++ l') = total w l + total w l' := by
  unfold total
  rw [List.map_append, List.sum_append]

variable [LinearOrder M] {budget : M}

/-- Drop elements at the front while the total weight exceeds the budget. -/
def trim (w : α → M) (budget : M) : List α → List α
  | [] => []
  | x :: xs => if budget < total w (x :: xs) then trim w budget xs else x :: xs

/-- `s` is the longest suffix of `l` within the budget. -/
structure LongestWithin (w : α → M) (budget : M) (l s : List α) : Prop where
  suffix : s <:+ l
  within : total w s ≤ budget
  longest : ∀ t, t <:+ l → total w t ≤ budget → t <:+ s

theorem trim_of_le {l : List α} (h : total w l ≤ budget) : trim w budget l = l := by
  cases l with
  | nil => rfl
  | cons x xs => rw [trim, if_neg (not_lt.mpr h)]

theorem trim_of_lt {x : α} {xs : List α} (h : budget < total w (x :: xs)) :
    trim w budget (x :: xs) = trim w budget xs := by
  rw [trim, if_pos h]

/-- Trimming leaves the longest suffix within the budget. -/
theorem trim_longest (hb : 0 ≤ budget) (l : List α) : LongestWithin w budget l (trim w budget l) := by
  induction l with
  | nil => exact ⟨List.suffix_rfl, hb, fun t ht _ => ht⟩
  | cons x xs ih =>
    by_cases h : budget < total w (x :: xs)
    · rw [trim_of_lt h]
      refine ⟨ih.suffix.trans (List.suffix_cons x xs), ih.within, fun t ht hw => ?_⟩
      rcases List.suffix_cons_iff.mp ht with rfl | ht
      · exact absurd h (not_lt.mpr hw)
      · exact ih.longest t ht hw
    · rw [trim_of_le (not_lt.mp h)]
      exact ⟨List.suffix_rfl, not_lt.mp h, fun t ht _ => ht⟩

/-- **Trimming as elements arrive.** What an earlier trim has dropped would be dropped now. -/
theorem trim_push [IsOrderedAddMonoid M] (hw : ∀ x, 0 ≤ w x) (l : List α) (x : α) :
    trim w budget (trim w budget l ++ [x]) = trim w budget (l ++ [x]) := by
  induction l with
  | nil => rfl
  | cons y ys ih =>
    by_cases h : budget < total w (y :: ys)
    · have hmore : budget < total w (y :: (ys ++ [x])) := by
        have hle : total w (y :: ys) ≤ total w (y :: ys ++ [x]) := by
          rw [total_append]
          refine le_add_of_nonneg_right ?_
          rw [total_cons, total_nil, add_zero]
          exact hw x
        exact lt_of_lt_of_le h hle
      rw [trim_of_lt h, ih, List.cons_append, trim_of_lt hmore]
    · rw [trim_of_le (not_lt.mp h)]

end SenseVoice.Lib
