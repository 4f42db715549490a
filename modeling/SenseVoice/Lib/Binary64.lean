import Mathlib.Algebra.Order.Field.Power
import Mathlib.Data.Int.Log
import Mathlib.Data.Rat.Floor
import Mathlib.Tactic.Linarith
import Mathlib.Tactic.Positivity
import Mathlib.Tactic.FieldSimp

/-!
# Binary floating-point numbers of 64 bits

The magnitudes of the finite numbers of IEEE 754 binary64, and the one nearest to a rational: ties go to
the even significand, and from `overflow` on there is none (§4.3.1: half a unit of the last place beyond the
largest). Signs, infinities and NaNs are left to the user of the library.

Results:
* `nearest?_eq_none_iff`: when a rational is out of range;
* **`nearest?_value`**: a magnitude is nearest to itself;
* **`nearest?_shortest`**: the shortest decimal of a magnitude is read as that magnitude.
-/

namespace SenseVoice.Lib.Binary64

/-- Half a unit of the last place above the largest finite number. -/
def overflow : ℚ := 2 ^ 1024 - 2 ^ 970

theorem overflow_eq : overflow = (2 ^ 54 - 1) * 2 ^ (970 : ℤ) := by
  have hsplit : (2 : ℚ) ^ 1024 = 2 ^ 54 * 2 ^ 970 := by rw [← pow_add]
  rw [overflow, hsplit, zpow_ofNat, sub_mul, one_mul]

/-- The magnitude of a finite number: `significand * 2 ^ exponent`. -/
structure Magnitude where
  significand : ℕ
  exponent : ℤ
  small : significand ≤ 2 ^ 53
  least : -1074 ≤ exponent
  below : (significand : ℚ) * 2 ^ exponent < overflow

/-- The rational it stands for. -/
def Magnitude.value (m : Magnitude) : ℚ := m.significand * 2 ^ m.exponent

theorem Magnitude.value_nonneg (m : Magnitude) : 0 ≤ m.value := by
  unfold value
  positivity

/-- The nearest natural number, the even one of two. -/
def roundEven (r : ℚ) : ℕ :=
  if r - ⌊r⌋₊ < 1 / 2 then ⌊r⌋₊
  else if 1 / 2 < r - ⌊r⌋₊ then ⌊r⌋₊ + 1
  else if ⌊r⌋₊ % 2 = 0 then ⌊r⌋₊
  else ⌊r⌋₊ + 1

theorem roundEven_natCast (n : ℕ) : roundEven n = n := by
  have hhalf : (n : ℚ) - ⌊(n : ℚ)⌋₊ < 1 / 2 := by
    rw [Nat.floor_natCast]
    norm_num
  rw [roundEven, if_pos hhalf, Nat.floor_natCast]

/-- Below the middle before `n + 1`, no more than `n`. -/
theorem roundEven_le {r : ℚ} {n : ℕ} (h0 : 0 ≤ r) (h : r < n + 1 / 2) : roundEven r ≤ n := by
  have hfloor : ⌊r⌋₊ < n + 1 := (Nat.floor_lt h0).mpr (by push_cast; linarith)
  have hle : (⌊r⌋₊ : ℚ) ≤ r := Nat.floor_le h0
  rcases Nat.lt_or_eq_of_le (Nat.le_of_lt_succ hfloor) with hlt | heq
  · unfold roundEven
    split_ifs <;> omega
  · have hhalf : r - ⌊r⌋₊ < 1 / 2 := by
      rw [heq]
      linarith
    rw [roundEven, if_pos hhalf, heq]

/-- The exponent of the unit in the last place. -/
def unitExponent (q : ℚ) : ℤ := max (Int.log 2 q - 52) (-1074)

/-- The significand, in that unit. -/
def significandOf (q : ℚ) : ℕ := roundEven (q / 2 ^ unitExponent q)

variable {q : ℚ}

theorem scaled_lt (q : ℚ) : q / 2 ^ unitExponent q < 2 ^ 53 := by
  have hlog : q < (2 : ℚ) ^ (Int.log 2 q + 1) := by
    exact_mod_cast Int.lt_zpow_succ_log_self (b := 2) (by decide) q
  have hexp : (2 : ℚ) ^ (Int.log 2 q + 1) ≤ 2 ^ (53 + unitExponent q) := by
    refine zpow_le_zpow_right₀ (by norm_num) ?_
    have := le_max_left (Int.log 2 q - 52) (-1074)
    unfold unitExponent
    omega
  rw [div_lt_iff₀ (by positivity)]
  calc q < 2 ^ (Int.log 2 q + 1) := hlog
    _ ≤ 2 ^ (53 + unitExponent q) := hexp
    _ = 2 ^ 53 * 2 ^ unitExponent q := by rw [zpow_add₀ (by norm_num)]; norm_num

theorem significandOf_le (h : 0 ≤ q) : significandOf q ≤ 2 ^ 53 :=
  roundEven_le (by positivity) (by push_cast; linarith [scaled_lt q])

/-- Below the overflow, rounding stays below it. -/
theorem significandOf_below (h : 0 ≤ q) (hq : q < overflow) :
    (significandOf q : ℚ) * 2 ^ unitExponent q < overflow := by
  rcases le_or_gt (unitExponent q) 970 with hle | hgt
  · have hs : (significandOf q : ℚ) ≤ 2 ^ 53 := by exact_mod_cast significandOf_le h
    have he : (2 : ℚ) ^ unitExponent q ≤ 2 ^ (970 : ℤ) := zpow_le_zpow_right₀ (by norm_num) hle
    calc (significandOf q : ℚ) * 2 ^ unitExponent q ≤ 2 ^ 53 * 2 ^ (970 : ℤ) := by gcongr
      _ < (2 ^ 54 - 1) * 2 ^ (970 : ℤ) := by gcongr; norm_num
      _ = overflow := overflow_eq.symm
  · have hpos : 0 < q := by
      rcases h.lt_or_eq with hlt | heq
      · exact hlt
      · rw [← heq, unitExponent, Int.log_zero_right] at hgt
        omega
    have hlog : (2 : ℚ) ^ Int.log 2 q ≤ q := by
      exact_mod_cast Int.zpow_log_le_self (b := 2) (by decide) hpos
    have hlt : Int.log 2 q < 1024 := by
      by_contra hge
      have hpow : (2 : ℚ) ^ (1024 : ℤ) ≤ 2 ^ Int.log 2 q := zpow_le_zpow_right₀ (by norm_num) (by omega)
      have hover : overflow < 2 ^ (1024 : ℤ) := by
        rw [overflow, zpow_ofNat]
        exact sub_lt_self _ (by positivity)
      linarith
    have hunit : unitExponent q = 971 := by
      unfold unitExponent at hgt ⊢
      omega
    have hunit' : (2 : ℚ) ^ (971 : ℤ) = 2 * 2 ^ (970 : ℤ) := by
      rw [show (971 : ℤ) = 1 + 970 by norm_num, zpow_add₀ (by norm_num), zpow_one]
    have hs : significandOf q ≤ 2 ^ 53 - 1 := by
      refine roundEven_le (by positivity) ?_
      rw [hunit, div_lt_iff₀ (by positivity)]
      calc q < overflow := hq
        _ = (((2 ^ 53 - 1 : ℕ) : ℚ) + 1 / 2) * 2 ^ (971 : ℤ) := by
          rw [overflow_eq, hunit', ← mul_assoc]
          congr 1
          norm_num
    have hs' : (significandOf q : ℚ) ≤ ((2 ^ 53 - 1 : ℕ) : ℚ) := by exact_mod_cast hs
    rw [hunit]
    calc (significandOf q : ℚ) * 2 ^ (971 : ℤ) ≤ ((2 ^ 53 - 1 : ℕ) : ℚ) * 2 ^ (971 : ℤ) := by gcongr
      _ = (2 ^ 54 - 2) * 2 ^ (970 : ℤ) := by
          rw [hunit', ← mul_assoc]
          congr 1
          norm_num
      _ < (2 ^ 54 - 1) * 2 ^ (970 : ℤ) := by gcongr; norm_num
      _ = overflow := overflow_eq.symm

/-- The magnitude nearest to a rational that is not negative, if it is in range. -/
def nearest? (q : ℚ) : Option Magnitude :=
  if h : 0 ≤ q ∧ q < overflow then
    some ⟨significandOf q, unitExponent q, significandOf_le h.1, le_max_right _ _,
      significandOf_below h.1 h.2⟩
  else none

theorem nearest?_eq_none_iff (h : 0 ≤ q) : nearest? q = none ↔ overflow ≤ q := by
  unfold nearest?
  split_ifs with hq
  · simp [hq.2]
  · simpa [h] using hq

/-- A magnitude is a multiple of its unit: the unit is no larger than `2 ^ exponent`, or is twice that when
the significand is `2 ^ 53`. -/
theorem Magnitude.value_eq_mul_unit (m : Magnitude) (h : 0 < m.value) :
    ∃ n : ℕ, m.value = n * 2 ^ unitExponent m.value := by
  rcases Nat.lt_or_eq_of_le m.small with hlt | heq
  · have hvalue : m.value < (2 : ℕ) ^ (m.exponent + 53) := by
      have hs : (m.significand : ℚ) < 2 ^ 53 := by exact_mod_cast hlt
      calc m.value < 2 ^ 53 * 2 ^ m.exponent := by unfold value; gcongr
        _ = (2 : ℕ) ^ (m.exponent + 53) := by rw [Nat.cast_ofNat, zpow_add₀ (by norm_num)]; norm_num; ring
    have hlog := (Int.lt_zpow_iff_log_lt (by decide) h).mp hvalue
    have hunit : unitExponent m.value ≤ m.exponent := max_le (by omega) m.least
    refine ⟨m.significand * 2 ^ (m.exponent - unitExponent m.value).toNat, ?_⟩
    have hsplit : (2 : ℚ) ^ m.exponent =
        2 ^ (m.exponent - unitExponent m.value).toNat * 2 ^ unitExponent m.value := by
      rw [← zpow_natCast, ← zpow_add₀ (by norm_num), Int.toNat_of_nonneg (by omega), sub_add_cancel]
    push_cast
    rw [mul_assoc, ← hsplit]
    rfl
  · have hvalue : m.value = ((2 : ℕ) : ℚ) ^ (m.exponent + 53) := by
      rw [value, heq, Nat.cast_ofNat, zpow_add₀ (by norm_num)]
      norm_num
      ring
    have hunit : unitExponent m.value = m.exponent + 1 := by
      have := m.least
      rw [hvalue, unitExponent, Int.log_zpow (by decide)]
      omega
    refine ⟨2 ^ 52, ?_⟩
    rw [hunit, hvalue, Nat.cast_ofNat, zpow_add₀ (by norm_num), zpow_add₀ (by norm_num)]
    norm_num
    ring

/-- **A magnitude is nearest to itself.** -/
theorem nearest?_value (m : Magnitude) : (nearest? m.value).map Magnitude.value = some m.value := by
  have hnonneg := m.value_nonneg
  rw [nearest?, dif_pos ⟨hnonneg, m.below⟩, Option.map_some, Option.some.injEq]
  change (significandOf m.value : ℚ) * 2 ^ unitExponent m.value = m.value
  rcases hnonneg.lt_or_eq with hpos | hzero
  · obtain ⟨n, hn⟩ := m.value_eq_mul_unit hpos
    have hscaled : m.value / 2 ^ unitExponent m.value = n := by
      rw [div_eq_iff (by positivity)]
      exact hn
    rw [significandOf, hscaled, roundEven_natCast, ← hn]
  · rw [← hzero]
    simp [significandOf, roundEven]

/-! ## Shortest decimals -/

/-- A decimal: its digits as a number, and the power of ten. -/
structure Decimal where
  digits : ℕ
  power : ℤ

/-- The rational it stands for. -/
def Decimal.value (d : Decimal) : ℚ := d.digits * 10 ^ d.power

/-- The two decimals of `n` digits around a rational, the nearer one first. -/
def around (x : ℚ) (n : ℕ) : List Decimal :=
  let power := Int.log 10 x + 1 - n
  let scaled := x / 10 ^ power
  let low : Decimal := ⟨⌊scaled⌋₊, power⟩
  let high : Decimal := ⟨⌊scaled⌋₊ + 1, power⟩
  if roundEven scaled = ⌊scaled⌋₊ then [low, high] else [high, low]

/-- The decimal is read as the magnitude. -/
def readsAs (m : Magnitude) (d : Decimal) : Bool :=
  (nearest? d.value).map Magnitude.value == some m.value

/-- All the digits of a magnitude. -/
def Magnitude.exact (m : Magnitude) : Decimal :=
  if 0 ≤ m.exponent then ⟨m.significand * 2 ^ m.exponent.toNat, 0⟩
  else ⟨m.significand * 5 ^ (-m.exponent).toNat, m.exponent⟩

/-- The shortest decimal that is read as the magnitude, and the nearest one of its length. -/
def Magnitude.shortest (m : Magnitude) : Decimal :=
  (((List.range 17).flatMap fun n => around m.value (n + 1)).find? (readsAs m)).getD m.exact

theorem Magnitude.value_exact (m : Magnitude) : m.exact.value = m.value := by
  unfold exact
  split_ifs with h
  · have hpow : (2 : ℚ) ^ m.exponent = 2 ^ m.exponent.toNat := by
      rw [← zpow_natCast, Int.toNat_of_nonneg h]
    rw [Decimal.value, value, hpow]
    push_cast
    rw [mul_one]
  · have hfive : (5 : ℚ) ^ (-m.exponent).toNat = 5 ^ (-m.exponent) := by
      rw [← zpow_natCast, Int.toNat_of_nonneg (by omega)]
    rw [Decimal.value, value]
    push_cast
    rw [hfive, mul_assoc, show (10 : ℚ) = 5 * 2 by norm_num, mul_zpow, ← mul_assoc (5 ^ (-m.exponent)),
      ← zpow_add₀ (by norm_num), neg_add_cancel, zpow_zero, one_mul]

/-- **The shortest decimal is read as the magnitude it was made of.** -/
theorem nearest?_shortest (m : Magnitude) :
    (nearest? m.shortest.value).map Magnitude.value = some m.value := by
  unfold Magnitude.shortest
  cases hfind : ((List.range 17).flatMap fun n => around m.value (n + 1)).find? (readsAs m) with
  | none => rw [Option.getD_none, m.value_exact, nearest?_value]
  | some d =>
    have hreads : readsAs m d = true := List.find?_some hfind
    rw [Option.getD_some]
    exact beq_iff_eq.mp hreads

end SenseVoice.Lib.Binary64
