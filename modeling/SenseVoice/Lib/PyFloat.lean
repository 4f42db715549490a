import Mathlib.Data.List.TakeWhile
import Mathlib.Tactic.Ring
import SenseVoice.Lib.Binary64
import SenseVoice.Lib.JsonRoundTrip

/-!
# Python's `float`

The numbers of Python's `float` (binary64 with signs, infinities and NaN), `float(text)` and
`float.__repr__`, which is also how `json.dumps` writes a number.

* `float` takes white space around the number, decimal digits of any script, `_` between digits, and
  `inf`, `infinity` and `nan` in any case. White space and digits come from the Unicode database, which is
  a parameter (`Unicode`).
* `repr` has the shortest digits that are read back, with an exponent from `1e16` on and below `0.0001`.

Results:
* `magnitude_layout`: the text of a decimal spells its number;
* **`pySpelling`**: `int` and finite `float` are spelled as JSON numbers, `Infinity` and `NaN` are not;
* `nearest?_numeral`: the text of a finite `float` is read as that `float`.
-/

namespace SenseVoice.Lib.Python

open Binary64 JsonText

/-- A `float`. -/
inductive PyFloat where
  | finite (negative : Bool) (m : Magnitude)
  | infinity (negative : Bool)
  | nan

/-- What the Unicode database says of a character: `isspace`, `isalnum`, and the value of a decimal digit. -/
structure Unicode where
  isSpace : Char → Bool
  isAlnum : Char → Bool
  decimal : Char → Option (Fin 10)

namespace PyFloat

/-- The `float` nearest to a rational with this sign and magnitude. -/
def ofRat (negative : Bool) (q : ℚ) : PyFloat :=
  match nearest? q with
  | some m => .finite negative m
  | none => .infinity negative

/-- `x >= 0`. -/
def isNonneg : PyFloat → Bool
  | .finite negative m => !negative || m.value == 0
  | .infinity negative => !negative
  | .nan => false

/-- `math.isfinite`. -/
def isFinite : PyFloat → Bool
  | .finite _ _ => true
  | _ => false

/-- The number some digits spell. -/
def number (ds : List Char) : ℕ := Nat.ofDigitChars 10 ds 0

/-! ## `float(text)` -/

/-- `str.strip` of the characters `p` accepts. -/
def strip (p : Char → Bool) (cs : List Char) : List Char :=
  ((cs.dropWhile p).reverse.dropWhile p).reverse

/-- White space and digits of any script as ASCII; other characters that are not ASCII as `?`. -/
def toAscii (u : Unicode) (c : Char) : Char :=
  if c.toNat < 128 then c
  else if u.isSpace c then ' '
  else match u.decimal c with
    | some d => Nat.digitChar d
    | none => '?'

/-- White space in ASCII. -/
def isAsciiSpace (c : Char) : Bool := c == ' ' || (9 ≤ c.toNat && c.toNat ≤ 13)

/-- The text without its underscores, if each stands between two digits. -/
def dropUnderscores : (afterDigit : Bool) → List Char → Option (List Char)
  | _, [] => some []
  | afterDigit, '_' :: cs =>
    if afterDigit && cs.head?.any Char.isDigit then dropUnderscores false cs else none
  | _, c :: cs => (dropUnderscores c.isDigit cs).map (c :: ·)

/-- The magnitude a decimal number spells. -/
def readDecimal (cs : List Char) : Option ℚ :=
  let (whole, cs) := readDigits cs
  let (fraction, cs) := match cs with
    | '.' :: cs => readDigits cs
    | cs => ([], cs)
  let significand : ℚ := number (whole ++ fraction) / 10 ^ fraction.length
  if whole = [] ∧ fraction = [] then none
  else match cs with
    | [] => some significand
    | c :: cs =>
      if c = 'e' ∨ c = 'E' then
        match readPower cs with
        | some (power, []) => some (significand * 10 ^ power)
        | _ => none
      else none

/-- Whether a text without a sign is a word for infinity. -/
def isInfinityWord (cs : List Char) : Bool :=
  let lower := String.ofList (cs.map Char.toLower)
  lower == "inf" || lower == "infinity"

/-- A number without its sign. -/
def readUnsigned (negative : Bool) (cs : List Char) : Option PyFloat :=
  if isInfinityWord cs then some (.infinity negative)
  else if String.ofList (cs.map Char.toLower) = "nan" then some .nan
  else (readDecimal cs).map (ofRat negative)

/-- The sign of a text, and what stands behind it; `none` if an underscore is out of place. -/
def readSign (u : Unicode) (text : List Char) : Option (Bool × List Char) :=
  match dropUnderscores false (strip isAsciiSpace (text.map (toAscii u))) with
  | none => none
  | some ('-' :: cs) => some (true, cs)
  | some ('+' :: cs) => some (false, cs)
  | some cs => some (false, cs)

/-- `float(text)`, `none` when it raises `ValueError`. -/
def float (u : Unicode) (text : List Char) : Option PyFloat :=
  (readSign u text).bind fun r => readUnsigned r.1 r.2

/-- The text is an infinity by its word, or a decimal number out of range; it has no `-`. -/
def SpellsInfinity (u : Unicode) (text : List Char) : Prop :=
  ∃ cs, readSign u text = some (false, cs) ∧
    (isInfinityWord cs = true ∨ ∃ q, readDecimal cs = some q ∧ overflow ≤ q)

theorem readDecimal_nonneg {cs : List Char} {q : ℚ} (h : readDecimal cs = some q) : 0 ≤ q := by
  unfold readDecimal at h
  simp only at h
  split_ifs at h
  split at h
  · rw [← Option.some.inj h]
    positivity
  · split_ifs at h
    split at h
    · rw [← Option.some.inj h]
      positivity
    · exact absurd h (by simp)

/-- A number begins with a digit or a point. -/
theorem readDecimal_eq_none {c : Char} {cs : List Char} (hdigit : c.isDigit = false) (hdot : c ≠ '.') :
    readDecimal (c :: cs) = none := by
  have hnone : readDigits (c :: cs) = ([], c :: cs) := by simp [readDigits, hdigit]
  unfold readDecimal
  simp [hnone, hdot]

theorem ofRat_eq_infinity {negative : Bool} {q : ℚ} (h : 0 ≤ q) :
    ofRat negative q = .infinity negative ↔ overflow ≤ q := by
  rw [← nearest?_eq_none_iff h]
  unfold ofRat
  cases nearest? q <;> simp

theorem readUnsigned_eq_infinity {negative : Bool} {cs : List Char} :
    readUnsigned negative cs = some (.infinity negative) ↔
      isInfinityWord cs = true ∨ ∃ q, readDecimal cs = some q ∧ overflow ≤ q := by
  unfold readUnsigned
  by_cases hword : isInfinityWord cs = true
  · simp [hword]
  by_cases hnan : String.ofList (cs.map Char.toLower) = "nan"
  · -- The word for NaN is no decimal number.
    have hnone : readDecimal cs = none := by
      have hlist : cs.map Char.toLower = "nan".toList := by rw [← hnan, String.toList_ofList]
      cases cs with
      | nil => exact absurd hlist (by simp)
      | cons c cs =>
        have hc : c.toLower = 'n' := (List.cons.inj hlist).1
        refine readDecimal_eq_none ?_ ?_
        · by_contra hdigit
          have hlower : c.toLower = c := by
            unfold Char.toLower
            rw [dif_neg]
            simp [Char.isDigit] at hdigit
            grind
          rw [hlower] at hc
          exact hdigit (hc ▸ rfl)
        · rintro rfl
          exact absurd hc (by decide)
    simp [hword, hnan, hnone]
  rw [if_neg hword, if_neg hnan, Option.map_eq_some_iff]
  constructor
  · rintro ⟨q, hq, hinf⟩
    exact Or.inr ⟨q, hq, (ofRat_eq_infinity (readDecimal_nonneg hq)).mp hinf⟩
  · rintro (hw | ⟨q, hq, hover⟩)
    · exact absurd hw hword
    · exact ⟨q, hq, (ofRat_eq_infinity (readDecimal_nonneg hq)).mpr hover⟩

/-- **Which texts are read as infinity.** -/
theorem float_eq_infinity {u : Unicode} {text : List Char} :
    float u text = some (.infinity false) ↔ SpellsInfinity u text := by
  unfold float SpellsInfinity
  cases readSign u text with
  | none => simp
  | some r =>
    obtain ⟨negative, cs⟩ := r
    cases negative with
    | false =>
      rw [Option.bind_some, readUnsigned_eq_infinity]
      simp
    | true =>
      have hsign : readUnsigned true cs ≠ some (.infinity false) := by
        unfold readUnsigned
        split_ifs
        · simp
        · simp
        · cases hq : readDecimal cs with
          | none => simp
          | some q =>
            rw [Option.map_some, ofRat]
            cases nearest? q <;> simp
      simp [hsign]

/-! ## `repr` -/

/-- A decimal as text: the integer part, the digits after the point, and the exponent. -/
structure Layout where
  whole : ℕ
  fraction : List Char
  power : Option (Bool × List Char)

/-- The digits of a decimal, without zeros at the end. -/
def digitsOf (d : Decimal) : List Char :=
  ((Nat.toDigits 10 d.digits).reverse.dropWhile (· == '0')).reverse

/-- An exponent has two digits at least. -/
def powerDigits (n : ℕ) : List Char := if n < 10 then '0' :: Nat.toDigits 10 n else Nat.toDigits 10 n

/-- Where the point stands, and what goes before and after it. -/
def layout (d : Decimal) : Layout :=
  let ds := digitsOf d
  let point : ℤ := (Nat.toDigits 10 d.digits).length + d.power
  if d.digits = 0 then ⟨0, ['0'], none⟩
  else if -4 < point ∧ point ≤ 0 then ⟨0, List.replicate (-point).toNat '0' ++ ds, none⟩
  else if 0 < point ∧ point ≤ 16 then
    if ds.length ≤ point.toNat then
      ⟨number (ds ++ List.replicate (point.toNat - ds.length) '0'), ['0'], none⟩
    else ⟨number (ds.take point.toNat), ds.drop point.toNat, none⟩
  else ⟨number (ds.take 1), ds.drop 1, some (point - 1 < 0, powerDigits (point - 1).natAbs)⟩

/-- `float.__repr__`, as `json.dumps` uses it. -/
def repr : PyFloat → List Char
  | .finite negative m =>
    let l := layout m.shortest
    spellNumeral negative l.whole l.fraction l.power
  | .infinity true => "-Infinity".toList
  | .infinity false => "Infinity".toList
  | .nan => "NaN".toList

/-! ## What the text spells -/

theorem number_append (a b : List Char) : number (a ++ b) = number a * 10 ^ b.length + number b := by
  rw [number, Nat.ofDigitChars_append, Nat.ofDigitChars_eq_ofDigitChars_zero, Nat.mul_comm]
  rfl

theorem number_replicate (k : ℕ) : number (List.replicate k '0') = 0 := by
  rw [number, Nat.ofDigitChars_replicate_zero, Nat.mul_zero]

theorem toDigits_eq (d : Decimal) :
    ∃ k, Nat.toDigits 10 d.digits = digitsOf d ++ List.replicate k '0' := by
  have hsplit := List.takeWhile_append_dropWhile (p := (· == '0')) (l := (Nat.toDigits 10 d.digits).reverse)
  have hzeros : (Nat.toDigits 10 d.digits).reverse.takeWhile (· == '0') =
      List.replicate ((Nat.toDigits 10 d.digits).reverse.takeWhile (· == '0')).length '0' :=
    List.eq_replicate_of_mem fun c hc => by
      have hc0 : (c == '0') = true := List.mem_takeWhile_imp (p := (· == '0')) hc
      exact beq_iff_eq.mp hc0
  refine ⟨((Nat.toDigits 10 d.digits).reverse.takeWhile (· == '0')).length, ?_⟩
  rw [digitsOf, ← List.reverse_replicate, ← hzeros, ← List.reverse_append, hsplit, List.reverse_reverse]

theorem isDigit_digitsOf {d : Decimal} {c : Char} (h : c ∈ digitsOf d) : c.isDigit = true := by
  obtain ⟨k, hk⟩ := toDigits_eq d
  exact isDigit_toDigits (hk ▸ List.mem_append_left _ h)

theorem digitsOf_ne_nil {d : Decimal} (h : d.digits ≠ 0) : digitsOf d ≠ [] := by
  intro hnil
  obtain ⟨k, hk⟩ := toDigits_eq d
  have hnumber := congrArg number hk
  rw [hnil, List.nil_append, number_replicate, number, Nat.ofDigitChars_ten_toDigits] at hnumber
  exact h hnumber

/-- The digits of a decimal behind its point. -/
theorem value_eq_point (d : Decimal) :
    d.value = number (digitsOf d) *
      10 ^ ((Nat.toDigits 10 d.digits).length + d.power - (digitsOf d).length : ℤ) := by
  obtain ⟨k, hk⟩ := toDigits_eq d
  have hnumber : d.digits = number (digitsOf d) * 10 ^ k := by
    have hboth := congrArg number hk
    rwa [number_append, number_replicate, List.length_replicate, Nat.add_zero, number,
      Nat.ofDigitChars_ten_toDigits] at hboth
  have hpower : (Nat.toDigits 10 d.digits).length + d.power - (digitsOf d).length = k + d.power := by
    rw [hk, List.length_append, List.length_replicate]
    push_cast
    ring
  rw [hpower, zpow_add₀ (by norm_num), zpow_natCast, ← mul_assoc, Decimal.value, hnumber]
  push_cast
  ring

/-- Digits cut in two. -/
theorem number_split (ds : List Char) {k : ℕ} (h : k ≤ ds.length) :
    (number (ds.take k) : ℚ) + number (ds.drop k) / 10 ^ (ds.drop k).length =
      number ds * 10 ^ (k - ds.length : ℤ) := by
  have hboth := number_append (ds.take k) (ds.drop k)
  rw [List.take_append_drop] at hboth
  have hlen : (k - ds.length : ℤ) = -(ds.drop k).length := by
    rw [List.length_drop]
    omega
  rw [hlen, zpow_neg, zpow_natCast, hboth]
  push_cast
  field_simp

theorem number_powerDigits (n : ℕ) : number (powerDigits n) = n := by
  unfold powerDigits
  split_ifs with h
  · rw [← List.singleton_append, number_append, number, number, Nat.ofDigitChars_ten_toDigits]
    simp [Nat.ofDigitChars]
  · rw [number, Nat.ofDigitChars_ten_toDigits]

theorem magnitude_fixed (negative : Bool) (whole : ℕ) (fraction : List Char) :
    (numeralOf negative whole fraction none).magnitude =
      whole + number fraction / 10 ^ fraction.length := by
  rw [Numeral.magnitude, numeralOf, Option.map_none, Option.getD_none, zpow_zero, mul_one]
  rfl

theorem magnitude_power (negative : Bool) (whole : ℕ) (fraction : List Char) (power : ℤ) :
    (numeralOf negative whole fraction (some (power < 0, powerDigits power.natAbs))).magnitude =
      (whole + number fraction / 10 ^ fraction.length) * 10 ^ power := by
  have hpower : (if power < 0 then -(number (powerDigits power.natAbs) : ℤ)
      else number (powerDigits power.natAbs)) = power := by
    rw [number_powerDigits]
    split_ifs <;> omega
  have hgoal : (numeralOf negative whole fraction (some (power < 0, powerDigits power.natAbs))).magnitude =
      (whole + number fraction / 10 ^ fraction.length) *
        10 ^ (if power < 0 then -(number (powerDigits power.natAbs) : ℤ)
          else number (powerDigits power.natAbs)) := by
    simp [Numeral.magnitude, numeralOf, number]
  rw [hgoal, hpower]

/-- **The text of a decimal spells its number.** -/
theorem magnitude_layout (negative : Bool) (d : Decimal) :
    (numeralOf negative (layout d).whole (layout d).fraction (layout d).power).magnitude = d.value := by
  have hzero : number ['0'] = 0 := rfl
  unfold layout
  simp only
  split_ifs with h0 hsmall hfixed hshort
  · rw [magnitude_fixed, hzero, Decimal.value, h0]
    simp
  · -- The point stands before the digits.
    have hlen : ((Nat.toDigits 10 d.digits).length + d.power - (digitsOf d).length : ℤ) =
        -((-((Nat.toDigits 10 d.digits).length + d.power)).toNat + (digitsOf d).length : ℕ) := by
      push_cast
      omega
    rw [magnitude_fixed, number_append, number_replicate, value_eq_point, List.length_append,
      List.length_replicate, hlen, zpow_neg, zpow_natCast, Nat.zero_mul, Nat.zero_add, div_eq_mul_inv,
      Nat.cast_zero, zero_add]
  · -- The point stands behind the digits.
    have hlen : ((Nat.toDigits 10 d.digits).length + d.power - (digitsOf d).length : ℤ) =
        ((Nat.toDigits 10 d.digits).length + d.power).toNat - (digitsOf d).length := by
      omega
    rw [magnitude_fixed, number_append, number_replicate, value_eq_point, List.length_replicate, hzero, hlen,
      ← Nat.cast_sub hshort, zpow_natCast]
    push_cast
    simp
  · -- The point stands between the digits.
    have hpoint := number_split (digitsOf d) (Nat.le_of_not_le hshort)
    rw [magnitude_fixed, hpoint, value_eq_point]
    congr 2
    omega
  · -- One digit stands before the point.
    have hone : 1 ≤ (digitsOf d).length := List.length_pos_iff.mpr (digitsOf_ne_nil h0)
    rw [magnitude_power, number_split _ hone, value_eq_point, mul_assoc, ← zpow_add₀ (by norm_num)]
    congr 2
    push_cast
    ring

theorem isDigit_layout {d : Decimal} {c : Char} (h : c ∈ (layout d).fraction) : c.isDigit = true := by
  have hzero : c ∈ ['0'] → c.isDigit = true := fun hc => by
    rw [List.mem_singleton.mp hc]
    rfl
  unfold layout at h
  simp only at h
  split_ifs at h
  · exact hzero h
  · rcases List.mem_append.mp h with hc | hc
    · exact hzero (List.mem_singleton.mpr (List.eq_of_mem_replicate hc))
    · exact isDigit_digitsOf hc
  · exact hzero h
  · exact isDigit_digitsOf (List.mem_of_mem_drop h)
  · exact isDigit_digitsOf (List.mem_of_mem_drop h)

theorem powerDigits_digits (n : ℕ) : powerDigits n ≠ [] ∧ ∀ c ∈ powerDigits n, c.isDigit = true := by
  unfold powerDigits
  split_ifs
  · refine ⟨List.cons_ne_nil _ _, fun c hc => ?_⟩
    rcases List.mem_cons.mp hc with rfl | hc
    · rfl
    · exact isDigit_toDigits hc
  · exact ⟨Nat.toDigits_ne_nil, fun c hc => isDigit_toDigits hc⟩

theorem power_layout {d : Decimal} :
    ∀ p ∈ (layout d).power, p.2 ≠ [] ∧ ∀ c ∈ p.2, c.isDigit = true := by
  intro p hp
  unfold layout at hp
  simp only at hp
  split_ifs at hp
  all_goals first
    | exact absurd hp (Option.not_mem_none p)
    | obtain rfl := Option.mem_some_iff.mp hp
      exact powerDigits_digits _

/-! ## JSON numbers -/

/-- The numeral that the text of a `float` spells, if it spells one. -/
def numeral : PyFloat → Option Numeral
  | .finite negative m =>
    let l := layout m.shortest
    some (numeralOf negative l.whole l.fraction l.power)
  | _ => none

theorem repr_plain (x : PyFloat) : ∃ c cs, x.repr = c :: cs ∧ Plain c := by
  cases x with
  | finite negative m => exact spellNumeral_plain _ _ _ _
  | infinity negative => cases negative <;> exact ⟨_, _, rfl, by decide⟩
  | nan => exact ⟨_, _, rfl, by decide⟩

/-- **Finite numbers are read as their numerals; `Infinity` and `NaN` are refused.** -/
theorem readNumeral_repr (x : PyFloat) (rest : List Char) (hrest : Stops rest) :
    readNumeral (x.repr ++ rest) = x.numeral.map fun n => (n, rest) := by
  cases x with
  | finite negative m =>
    exact readNumeral_spell negative _ (fun c hc => isDigit_layout hc) power_layout hrest
  | infinity negative =>
    cases negative with
    | false => exact readMagnitude_eq_none (c := 'I') rfl false _
    | true => exact readMagnitude_eq_none (c := 'I') rfl true _
  | nan => exact readMagnitude_eq_none (c := 'N') rfl false _

/-- The text of a finite number is in the range of binary64, and is read as that number. -/
theorem nearest?_numeral {negative : Bool} {m : Magnitude} {n : Numeral}
    (h : (PyFloat.finite negative m).numeral = some n) :
    (nearest? n.magnitude).map Magnitude.value = some m.value := by
  obtain rfl := Option.some.inj h
  rw [magnitude_layout, nearest?_shortest]

end PyFloat

/-- A number of `json.dumps`. -/
inductive PyNumber where
  | int (n : ℤ)
  | float (x : PyFloat)

namespace PyNumber

/-- `int.__repr__` and `float.__repr__`. -/
def repr : PyNumber → List Char
  | .int n => spellNumeral (n < 0) n.natAbs [] none
  | .float x => x.repr

/-- The numeral that the text spells, if it spells one. -/
def numeral : PyNumber → Option Numeral
  | .int n => some (numeralOf (n < 0) n.natAbs [] none)
  | .float x => x.numeral

end PyNumber

/-- **How `json.dumps` spells numbers.** -/
def pySpelling : Spelling PyNumber where
  spell := PyNumber.repr
  numeral := PyNumber.numeral
  plain
    | .int _ => spellNumeral_plain _ _ _ _
    | .float x => x.repr_plain
  reads
    | .int n, _, hrest => readNumeral_integer (n < 0) n.natAbs hrest
    | .float x, rest, hrest => x.readNumeral_repr rest hrest

end SenseVoice.Lib.Python
