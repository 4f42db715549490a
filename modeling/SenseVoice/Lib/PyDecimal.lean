import SenseVoice.Lib.PyText

/-!
# Python's `float` of a plain decimal

A plain decimal has digits, and perhaps a point and more digits, but neither a sign nor an exponent.

Results:
* **`PlainDecimal.float_text`**: `float` of its text is the `float` nearest to its value.
-/

namespace SenseVoice.Lib.Python

open PyFloat JsonText

/-- Digits, and perhaps a point and digits behind it; there is a digit. -/
structure PlainDecimal where
  whole : List Char
  fraction : Option (List Char)
  digits : ∀ c ∈ whole ++ fraction.getD [], c.isDigit = true
  nonempty : whole ++ fraction.getD [] ≠ []

namespace PlainDecimal

variable (d : PlainDecimal)

/-- The point and the digits behind it. -/
def point : List Char :=
  match d.fraction with
  | none => []
  | some fraction => '.' :: fraction

/-- The text. -/
def text : List Char := d.whole ++ d.point

/-- The number. -/
def value : ℚ := number (d.whole ++ d.fraction.getD []) / 10 ^ (d.fraction.getD []).length

theorem value_nonneg : 0 ≤ d.value := by
  unfold value
  positivity

variable {d} {c : Char}

theorem isDigit_of_mem_whole (h : c ∈ d.whole) : c.isDigit = true := d.digits c (List.mem_append_left _ h)

/-- The text has digits and points only. -/
theorem mem_text (h : c ∈ d.text) : c.isDigit = true ∨ c = '.' := by
  rcases List.mem_append.mp h with hwhole | hpoint
  · exact Or.inl (isDigit_of_mem_whole hwhole)
  · unfold point at hpoint
    cases hf : d.fraction with
    | none =>
      rw [hf] at hpoint
      exact absurd hpoint List.not_mem_nil
    | some fraction =>
      rw [hf] at hpoint
      rcases List.mem_cons.mp hpoint with rfl | hfraction
      · exact Or.inr rfl
      · exact Or.inl (d.digits c (List.mem_append_right _ (by rw [hf]; exact hfraction)))

theorem text_ne_nil (d : PlainDecimal) : d.text ≠ [] := by
  have hne := d.nonempty
  unfold text point
  cases hf : d.fraction with
  | none => simpa [hf] using hne
  | some fraction => simp

/-- A digit or a point, as a number. -/
theorem toNat_of_mem_text (h : c ∈ d.text) : c.toNat = 46 ∨ 48 ≤ c.toNat ∧ c.toNat ≤ 57 := by
  rcases mem_text h with hdigit | rfl
  · exact Or.inr (by simpa [Char.isDigit, UInt32.le_iff_toNat_le] using hdigit)
  · exact Or.inl rfl

theorem map_toAscii_text (u : Unicode) (d : PlainDecimal) : d.text.map (toAscii u) = d.text := by
  conv_rhs => rw [← List.map_id d.text]
  refine List.map_congr_left fun c hc => ?_
  have hrange := toNat_of_mem_text hc
  rw [toAscii, if_pos (by omega)]
  rfl

theorem isAsciiSpace_of_mem_text (h : c ∈ d.text) : isAsciiSpace c = false := by
  have hrange := toNat_of_mem_text h
  have hblank : c ≠ ' ' := by
    rintro rfl
    revert hrange
    decide
  simp only [isAsciiSpace, Bool.or_eq_false_iff, beq_eq_false_iff_ne, Bool.and_eq_false_iff,
    decide_eq_false_iff_not]
  exact ⟨hblank, by omega⟩

/-- A text without underscores stays as it is. -/
theorem dropUnderscores_of_not_mem {cs : List Char} (h : '_' ∉ cs) (afterDigit : Bool) :
    dropUnderscores afterDigit cs = some cs := by
  induction cs generalizing afterDigit with
  | nil => rfl
  | cons c cs ih =>
    obtain ⟨hc, hcs⟩ := List.ne_and_not_mem_of_not_mem_cons h
    rw [dropUnderscores, ih hcs]
    · rfl
    · exact fun hc' => hc hc'.symm

theorem readSign_text (u : Unicode) (d : PlainDecimal) : readSign u d.text = some (false, d.text) := by
  have hunderscore : '_' ∉ d.text := fun h => by
    have hrange := toNat_of_mem_text h
    revert hrange
    decide
  rw [readSign, map_toAscii_text, strip_of_stripped (stripped_of_forall fun c => isAsciiSpace_of_mem_text),
    dropUnderscores_of_not_mem hunderscore]
  have hhead : ∀ c cs, d.text = c :: cs → c ≠ '-' ∧ c ≠ '+' := fun c cs hcs => by
    have hrange := toNat_of_mem_text (d := d) (c := c) (by rw [hcs]; exact List.mem_cons_self)
    constructor <;> rintro rfl <;> revert hrange <;> decide
  cases hcs : d.text with
  | nil => rfl
  | cons c cs =>
    obtain ⟨hminus, hplus⟩ := hhead c cs hcs
    split <;> simp_all

/-- The text is no word. -/
theorem lower_text_ne (d : PlainDecimal) {w : Char} {word : List Char} (hw : w.toNat < 46 ∨ 57 < w.toNat) :
    String.ofList (d.text.map Char.toLower) ≠ String.ofList (w :: word) := by
  intro heq
  have hlist := String.ofList_injective heq
  cases hcs : d.text with
  | nil => exact d.text_ne_nil hcs
  | cons c cs =>
    rw [hcs, List.map_cons] at hlist
    have hrange := toNat_of_mem_text (d := d) (c := c) (by rw [hcs]; exact List.mem_cons_self)
    have hlower : c.toLower = c := by
      unfold Char.toLower
      rw [dif_neg]
      rintro ⟨hupper, -⟩
      have hlarge : 65 ≤ c.toNat := UInt32.le_iff_toNat_le.mp hupper
      omega
    rw [hlower] at hlist
    obtain ⟨rfl, -⟩ := List.cons.inj hlist
    omega

theorem readDecimal_text (d : PlainDecimal) : readDecimal d.text = some d.value := by
  have hwhole : readDigits d.text = (d.whole, d.point) := by
    refine readDigits_append (fun c hc => isDigit_of_mem_whole hc) fun c hc => ?_
    unfold point at hc
    split at hc
    · exact absurd hc (by simp)
    · obtain rfl := Option.mem_some_iff.mp hc
      rfl
  unfold readDecimal value
  rw [hwhole]
  have hne := d.nonempty
  cases hf : d.fraction with
  | none =>
    rw [hf] at hne
    simp_all [point]
  | some fraction =>
    have hdigits : readDigits fraction = (fraction, []) := by
      have happend : readDigits (fraction ++ []) = (fraction, []) :=
        readDigits_append (fun c hc => d.digits c (List.mem_append_right _ (by rw [hf]; exact hc))) (by simp)
      rwa [List.append_nil] at happend
    rw [hf] at hne
    simp_all [point]

/-- **`float` of a plain decimal** is the `float` nearest to it. -/
theorem float_text (u : Unicode) (d : PlainDecimal) : float u d.text = some (ofRat false d.value) := by
  rw [float, readSign_text, Option.bind_some, readUnsigned, if_neg, if_neg, readDecimal_text]
  · rfl
  · exact d.lower_text_ne (by decide)
  · have hinf : String.ofList (d.text.map Char.toLower) ≠ "inf" := d.lower_text_ne (by decide)
    have hinfinity : String.ofList (d.text.map Char.toLower) ≠ "infinity" := d.lower_text_ne (by decide)
    simp [isInfinityWord, hinf, hinfinity]

end PlainDecimal

/-- The `float` nearest to a number that is not negative is not negative. -/
theorem isNonneg_ofRat (q : ℚ) : (ofRat false q).isNonneg = true := by
  unfold ofRat
  cases Binary64.nearest? q <;> rfl

end SenseVoice.Lib.Python
