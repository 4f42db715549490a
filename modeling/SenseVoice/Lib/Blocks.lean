import Mathlib.Data.List.Basic

/-!
# A stream cut into blocks

A producer appends to a stream, a consumer takes whole blocks of it from the front, and at the end of
the stream what is left, filled up. Whatever the appends were, the blocks taken are the first ones of
the stream cut as a whole.

Results:
* `wholes_flatten`, `blocks_flatten`: cutting a list that begins with blocks;
* `first_wholes`, `first_blocks`: **the blocks taken are the stream's first ones**;
* `blocks_of_tail`: with the filled up rest they are all of them;
* `flatten_blocks`: the blocks put together are the list, filled up.
-/

namespace SenseVoice.Lib

variable {α : Type}

/-- The list filled up to length `n`. -/
def ljust (n : ℕ) (fill : α) (l : List α) : List α := l ++ List.replicate (n - l.length) fill

/-- `l[i * n : (i + 1) * n]`. -/
def slice (n i : ℕ) (l : List α) : List α := (l.drop (i * n)).take n

/-- The blocks of length `n`, without a shorter rest. -/
def wholes (n : ℕ) (l : List α) : List (List α) :=
  (List.range (l.length / n)).map fun i => slice n i l

/-- The blocks of length `n`, the last one filled up. -/
def blocks (n : ℕ) (fill : α) (l : List α) : List (List α) :=
  (List.range ((l.length + n - 1) / n)).map fun i => ljust n fill (slice n i l)

variable {n : ℕ} {fill : α}

theorem ljust_of_length {l : List α} (h : l.length = n) : ljust n fill l = l := by
  unfold ljust
  rw [h, Nat.sub_self, List.replicate_zero, List.append_nil]

theorem slice_zero_append {b : List α} (h : b.length = n) (l : List α) : slice n 0 (b ++ l) = b := by
  unfold slice
  rw [Nat.zero_mul, List.drop_zero, ← h, List.take_left]

theorem slice_succ_append {b : List α} (h : b.length = n) (i : ℕ) (l : List α) :
    slice n (i + 1) (b ++ l) = slice n i l := by
  unfold slice
  rw [Nat.succ_mul, Nat.add_comm, ← List.drop_drop, ← h, List.drop_left]

/-- The number of blocks, one block further. -/
theorem count_append (hn : 0 < n) (r : ℕ) {b : List α} (h : b.length = n) (l : List α) :
    ((b ++ l).length + r) / n = (l.length + r) / n + 1 := by
  rw [List.length_append, h, Nat.add_assoc, Nat.add_comm n, Nat.add_div_right _ hn]

theorem wholes_append (hn : 0 < n) {b : List α} (h : b.length = n) (l : List α) :
    wholes n (b ++ l) = b :: wholes n l := by
  unfold wholes
  have hcount := count_append hn 0 h l
  simp only [Nat.add_zero] at hcount
  rw [hcount, List.range_succ_eq_map, List.map_cons, List.map_map, slice_zero_append h]
  congr 2
  funext i
  exact slice_succ_append h i l

theorem blocks_append (hn : 0 < n) {b : List α} (h : b.length = n) (l : List α) :
    blocks n fill (b ++ l) = b :: blocks n fill l := by
  unfold blocks
  have hcount := count_append hn (n - 1) h l
  rw [Nat.add_sub_assoc hn, Nat.add_sub_assoc hn, hcount, List.range_succ_eq_map, List.map_cons,
    List.map_map, slice_zero_append h, ljust_of_length h]
  congr 2
  funext i
  exact congrArg (ljust n fill) (slice_succ_append h i l)

theorem wholes_flatten (hn : 0 < n) {bs : List (List α)} (h : ∀ b ∈ bs, b.length = n) (l : List α) :
    wholes n (bs.flatten ++ l) = bs ++ wholes n l := by
  induction bs with
  | nil => rfl
  | cons b bs ih =>
    rw [List.flatten_cons, List.append_assoc, wholes_append hn (h b List.mem_cons_self),
      ih fun b hb => h b (List.mem_cons_of_mem _ hb), List.cons_append]

theorem blocks_flatten (hn : 0 < n) {bs : List (List α)} (h : ∀ b ∈ bs, b.length = n) (l : List α) :
    blocks n fill (bs.flatten ++ l) = bs ++ blocks n fill l := by
  induction bs with
  | nil => rfl
  | cons b bs ih =>
    rw [List.flatten_cons, List.append_assoc, blocks_append hn (h b List.mem_cons_self),
      ih fun b hb => h b (List.mem_cons_of_mem _ hb), List.cons_append]

theorem first_wholes (hn : 0 < n) {bs : List (List α)} (h : ∀ b ∈ bs, b.length = n) (l : List α) :
    bs <+: wholes n (bs.flatten ++ l) :=
  ⟨wholes n l, (wholes_flatten hn h l).symm⟩

theorem first_blocks (hn : 0 < n) {bs : List (List α)} (h : ∀ b ∈ bs, b.length = n) (l : List α) :
    bs <+: blocks n fill (bs.flatten ++ l) :=
  ⟨blocks n fill l, (blocks_flatten hn h l).symm⟩

theorem blocks_of_short {l : List α} (hpos : 0 < l.length) (h : l.length ≤ n) :
    blocks n fill l = [ljust n fill l] := by
  have hcount : (l.length + n - 1) / n = 1 := by
    refine Nat.div_eq_of_lt_le ?_ ?_ <;> omega
  unfold blocks
  rw [hcount, List.range_one, List.map_singleton]
  unfold slice
  rw [Nat.zero_mul, List.drop_zero, List.take_of_length_le h]

/-- The blocks of a stream whose rest is shorter than a block. -/
theorem blocks_of_tail (hn : 0 < n) {bs : List (List α)} (h : ∀ b ∈ bs, b.length = n) {l : List α}
    (hpos : 0 < l.length) (hl : l.length ≤ n) :
    blocks n fill (bs.flatten ++ l) = bs ++ [ljust n fill l] := by
  rw [blocks_flatten hn h, blocks_of_short hpos hl]

theorem length_of_mem_blocks {l b : List α} (h : b ∈ blocks n fill l) : b.length = n := by
  obtain ⟨i, -, rfl⟩ := List.mem_map.mp h
  unfold ljust slice
  rw [List.length_append, List.length_replicate, List.length_take]
  omega

/-- The blocks of a list are the list, filled up by less than a block. -/
theorem flatten_blocks (hn : 0 < n) (fill : α) {l : List α} (hl : l ≠ []) :
    ∃ k < n, (blocks n fill l).flatten = l ++ List.replicate k fill := by
  induction hlength : l.length using Nat.strongRecOn generalizing l with
  | ind length ih =>
    have hpos : 0 < l.length := List.length_pos_iff.mpr hl
    rcases Nat.lt_or_ge n l.length with hlong | hshort
    · have htake : (l.take n).length = n := List.length_take_of_le (Nat.le_of_lt hlong)
      have hrest : l.drop n ≠ [] := by
        rw [ne_eq, List.drop_eq_nil_iff]
        omega
      have hdrop : (l.drop n).length < length := by
        rw [List.length_drop]
        omega
      obtain ⟨k, hk, hflatten⟩ := ih _ hdrop hrest rfl
      refine ⟨k, hk, ?_⟩
      rw [← List.take_append_drop n l, blocks_append hn htake, List.flatten_cons, hflatten, List.append_assoc]
    · refine ⟨n - l.length, by omega, ?_⟩
      rw [blocks_of_short hpos hshort, List.flatten_singleton]
      rfl

example : blocks 3 0 [1, 2, 3, 4] = [[1, 2, 3], [4, 0, 0]] := by decide

end SenseVoice.Lib
