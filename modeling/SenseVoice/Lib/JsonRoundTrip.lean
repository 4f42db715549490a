import Mathlib.Data.List.Basic
import Mathlib.Tactic.IntervalCases
import SenseVoice.Lib.JsonText

/-!
# JSON text: what is written is read back

The writer and the reader of `JsonText.lean` against each other. The numbers are the writer's own: a
`Spelling` says which numeral each spells, or that it spells none (as `NaN` does). Each reader is proved in
front of any text that cannot belong to a number (`Stops`); containers are read by induction on the nesting.

Results:
* `readString_written`: strings, whatever characters they have;
* `readNumeral_spell`: decimal numbers, with or without point and exponent;
* `readList_written`: lists, when their items are read back;
* `isSome_mapM`, `mapM_bind`: the numbers of a document replaced one by one;
* **`parse_write`**: a document is read back, or refused if one of its numbers spells no numeral.
-/

namespace SenseVoice.Lib.JsonText

/-! ## White space and strings -/

theorem skip_cons {c : Char} (h : isSpace c = false) (cs : List Char) : skip (c :: cs) = c :: cs := by
  rw [skip, List.dropWhile_cons, h]
  rfl

theorem skip_append {gap : List Char} (h : ∀ c ∈ gap, isSpace c = true) (cs : List Char) :
    skip (gap ++ cs) = skip cs := by
  rw [skip, List.dropWhile_append_of_pos h, skip]

theorem hexValue_digitChar {n : ℕ} (h : n < 16) : hexValue (Nat.digitChar n) = some n := by
  interval_cases n <;> rfl

theorem readEscape_control {c : Char} (h : c.toNat < 0x20) (cs : List Char) :
    readEscape ('u' :: '0' :: '0' :: Nat.digitChar (c.toNat / 16) :: Nat.digitChar (c.toNat % 16) :: cs) =
      some (c, cs) := by
  have hhigh := hexValue_digitChar (show c.toNat / 16 < 16 by omega)
  have hlow := hexValue_digitChar (show c.toNat % 16 < 16 by omega)
  have hzero : hexValue '0' = some 0 := rfl
  have hcode : ((0 * 16 + 0) * 16 + c.toNat / 16) * 16 + c.toNat % 16 = c.toNat := by omega
  simp only [readEscape, readHex4, hzero, hhigh, hlow, Option.bind_eq_bind, Option.bind_some, hcode,
    Option.pure_def]
  rw [if_neg (by omega), if_neg (by omega), Char.ofNat_toNat]

/-- A written character is read back. -/
theorem readChars_escape (c : Char) (fuel : ℕ) (cs : List Char) :
    readChars (fuel + 1) (escape c ++ cs) =
      (readChars fuel cs).map fun r => (c :: r.1, r.2) := by
  have hback : ∀ d e : Char, escape c = ['\\', d] → readEscape (d :: cs) = some (e, cs) → e = c →
      readChars (fuel + 1) (escape c ++ cs) = (readChars fuel cs).map fun r => (c :: r.1, r.2) := by
    rintro d e hesc hread rfl
    rw [hesc, List.cons_append, List.singleton_append, readChars, if_neg (by decide), if_pos rfl, hread]
    simp only [Option.bind_eq_bind, Option.bind_some]
    cases readChars fuel cs <;> rfl
  by_cases h1 : c = '"'
  · exact hback '"' '"' (by rw [escape, if_pos h1]) rfl h1.symm
  by_cases h2 : c = '\\'
  · exact hback '\\' '\\' (by rw [escape, if_neg h1, if_pos h2]) rfl h2.symm
  by_cases h3 : c = '\n'
  · exact hback 'n' '\n' (by rw [escape, if_neg h1, if_neg h2, if_pos h3]) rfl h3.symm
  by_cases h4 : c = '\r'
  · exact hback 'r' '\r' (by rw [escape, if_neg h1, if_neg h2, if_neg h3, if_pos h4]) rfl h4.symm
  by_cases h5 : c = '\t'
  · exact hback 't' '\t' (by rw [h5]; decide) rfl h5.symm
  by_cases h6 : c = '\x08'
  · exact hback 'b' '\x08' (by rw [h6]; decide) rfl h6.symm
  by_cases h7 : c = '\x0c'
  · exact hback 'f' '\x0c' (by rw [h7]; decide) rfl h7.symm
  rw [escape, if_neg h1, if_neg h2, if_neg h3, if_neg h4, if_neg h5, if_neg h6, if_neg h7]
  by_cases h8 : c.toNat < 0x20
  · rw [if_pos h8, List.cons_append, readChars, if_neg (by decide), if_pos rfl]
    simp only [List.cons_append, List.nil_append, readEscape_control h8, Option.bind_eq_bind,
      Option.bind_some]
    cases readChars fuel cs <;> rfl
  · rw [if_neg h8, List.singleton_append, readChars, if_neg h1, if_neg h2, if_neg h8]
    cases readChars fuel cs <;> rfl

theorem readChars_written (text rest : List Char) {fuel : ℕ} (h : text.length < fuel) :
    readChars fuel (text.flatMap escape ++ '"' :: rest) = some (text, rest) := by
  induction text generalizing fuel with
  | nil =>
    obtain ⟨fuel, rfl⟩ : ∃ n, fuel = n + 1 := ⟨fuel - 1, by simp at h; omega⟩
    rw [List.flatMap_nil, List.nil_append, readChars, if_pos rfl]
  | cons c text ih =>
    obtain ⟨fuel, rfl⟩ : ∃ n, fuel = n + 1 := ⟨fuel - 1, by omega⟩
    rw [List.flatMap_cons, List.append_assoc, readChars_escape,
      ih (by rw [List.length_cons] at h; omega)]
    rfl

theorem length_escape_pos (c : Char) : 1 ≤ (escape c).length := by
  unfold escape
  split_ifs <;> simp

theorem length_le_flatMap_escape (text : List Char) : text.length ≤ (text.flatMap escape).length := by
  induction text with
  | nil => exact Nat.le_refl 0
  | cons c text ih =>
    have := length_escape_pos c
    rw [List.flatMap_cons, List.length_append, List.length_cons]
    omega

/-- **A written string is read back.** -/
theorem readString_written (s : String) (rest : List Char) :
    readString (s.toList.flatMap escape ++ ['"'] ++ rest) = some (s, rest) := by
  have hlen := length_le_flatMap_escape s.toList
  rw [readString, List.append_assoc, List.singleton_append, readChars_written s.toList rest
    (by rw [List.length_append, List.length_cons]; omega)]
  simp

/-! ## Numbers -/

/-- What follows cannot belong to a number. -/
def Stops (rest : List Char) : Prop :=
  ∀ c ∈ rest.head?, c.isDigit = false ∧ c ≠ '.' ∧ c ≠ 'e' ∧ c ≠ 'E'

theorem stops_nil : Stops [] := by simp [Stops]

theorem stops_cons {c : Char} {rest : List Char}
    (h : c.isDigit = false ∧ c ≠ '.' ∧ c ≠ 'e' ∧ c ≠ 'E') : Stops (c :: rest) := by
  intro d hd
  obtain rfl := Option.mem_some_iff.mp hd
  exact h

theorem readDigits_append {ds rest : List Char} (hds : ∀ c ∈ ds, c.isDigit = true)
    (hrest : ∀ c ∈ rest.head?, c.isDigit = false) : readDigits (ds ++ rest) = (ds, rest) := by
  have hstop : rest.takeWhile Char.isDigit = [] ∧ rest.dropWhile Char.isDigit = rest := by
    cases rest with
    | nil => exact ⟨rfl, rfl⟩
    | cons c rest =>
      have hc : c.isDigit = false := hrest c rfl
      rw [List.takeWhile_cons, List.dropWhile_cons, hc]
      exact ⟨rfl, rfl⟩
  rw [readDigits, List.takeWhile_append_of_pos hds, List.dropWhile_append_of_pos hds, hstop.1, hstop.2,
    List.append_nil]

theorem readDigits1_append {ds rest : List Char} (hne : ds ≠ []) (hds : ∀ c ∈ ds, c.isDigit = true)
    (hrest : ∀ c ∈ rest.head?, c.isDigit = false) :
    readDigits1 (ds ++ rest) = some ((Nat.ofDigitChars 10 ds 0, ds.length), rest) := by
  simp only [readDigits1, readDigits_append hds hrest]
  rw [if_neg hne]

theorem isDigit_toDigits {n : ℕ} {c : Char} (h : c ∈ Nat.toDigits 10 n) : c.isDigit = true :=
  Nat.isDigit_of_mem_toDigits (by decide) (by decide) h

theorem readWhole_append (n : ℕ) {rest : List Char} (hrest : ∀ c ∈ rest.head?, c.isDigit = false) :
    readWhole (Nat.toDigits 10 n ++ rest) = some (n, rest) := by
  simp only [readWhole, readDigits_append (fun c hc => isDigit_toDigits hc) hrest,
    Nat.ofDigitChars_ten_toDigits]
  rw [if_pos trivial]

/-- A number begins with a digit. -/
theorem readMagnitude_eq_none {c : Char} (h : c.isDigit = false) (negative : Bool) (cs : List Char) :
    readMagnitude negative (c :: cs) = none := by
  have hdigits : readDigits (c :: cs) = ([], c :: cs) := by
    rw [readDigits, List.takeWhile_cons, List.dropWhile_cons, h]
    rfl
  have hwhole : readWhole (c :: cs) = none := by
    simp only [readWhole, hdigits]
    rw [if_neg Nat.toDigits_ne_nil]
  rw [readMagnitude, hwhole]
  rfl

/-- A number's text: its integer part, the digits after the point if there are any, and the exponent with
its sign. -/
def spellMagnitude (whole : ℕ) (fraction : List Char) : Option (Bool × List Char) → List Char
  | none => Nat.toDigits 10 whole ++ (if fraction = [] then [] else '.' :: fraction)
  | some (below, power) =>
    Nat.toDigits 10 whole ++ (if fraction = [] then [] else '.' :: fraction) ++
      'e' :: (if below then '-' else '+') :: power

/-- The numeral of that text. -/
def numeralOf (negative : Bool) (whole : ℕ) (fraction : List Char) (power : Option (Bool × List Char)) :
    Numeral :=
  ⟨negative, whole, Nat.ofDigitChars 10 fraction 0, fraction.length,
    power.map fun p => if p.1 then -(Nat.ofDigitChars 10 p.2 0 : ℤ) else Nat.ofDigitChars 10 p.2 0⟩

theorem readFraction_append {fraction rest : List Char} (hds : ∀ c ∈ fraction, c.isDigit = true)
    (hrest : ∀ c ∈ rest.head?, c.isDigit = false ∧ c ≠ '.') :
    readFraction ((if fraction = [] then [] else '.' :: fraction) ++ rest) =
      some ((Nat.ofDigitChars 10 fraction 0, fraction.length), rest) := by
  split_ifs with hne
  · subst hne
    rw [List.nil_append]
    cases rest with
    | nil => rfl
    | cons c rest =>
      have hc : c ≠ '.' := (hrest c rfl).2
      simp [readFraction, hc, Nat.ofDigitChars]
  · rw [List.cons_append, readFraction, readDigits1_append hne hds fun c hc => (hrest c hc).1]

theorem readExponent_none {rest : List Char} (h : ∀ c ∈ rest.head?, c ≠ 'e' ∧ c ≠ 'E') :
    readExponent rest = some (none, rest) := by
  cases rest with
  | nil => rfl
  | cons c rest =>
    have hc := h c rfl
    simp [readExponent, hc.1, hc.2]

/-- **Such a text is read as its numeral.** -/
theorem readMagnitude_spell (negative : Bool) (whole : ℕ) {fraction : List Char}
    {power : Option (Bool × List Char)} (hfraction : ∀ c ∈ fraction, c.isDigit = true)
    (hpower : ∀ p ∈ power, p.2 ≠ [] ∧ ∀ c ∈ p.2, c.isDigit = true) {rest : List Char}
    (hrest : Stops rest) :
    readMagnitude negative (spellMagnitude whole fraction power ++ rest) =
      some (numeralOf negative whole fraction power, rest) := by
  have hhead : ∀ tail : List Char, (∀ c ∈ tail.head?, c.isDigit = false ∧ c ≠ '.') →
      ∀ c ∈ ((if fraction = [] then [] else '.' :: fraction) ++ tail).head?, c.isDigit = false := by
    intro tail htail c hc
    split_ifs at hc with hne
    · exact (htail c hc).1
    · obtain rfl := Option.mem_some_iff.mp hc
      rfl
  cases power with
  | none =>
    have htail : ∀ c ∈ rest.head?, c.isDigit = false ∧ c ≠ '.' :=
      fun c hc => ⟨(hrest c hc).1, (hrest c hc).2.1⟩
    simp only [readMagnitude, spellMagnitude, List.append_assoc, readWhole_append whole (hhead _ htail),
      readFraction_append hfraction htail, readExponent_none fun c hc => (hrest c hc).2.2,
      Option.bind_eq_bind, Option.bind_some, Option.pure_def, numeralOf, Option.map_none]
  | some p =>
    obtain ⟨below, ds⟩ := p
    obtain ⟨hne, hds⟩ := hpower _ rfl
    have htail : ∀ c ∈ ('e' :: (if below then '-' else '+') :: (ds ++ rest)).head?,
        c.isDigit = false ∧ c ≠ '.' := by
      intro c hc
      obtain rfl := Option.mem_some_iff.mp hc
      decide
    have hexp : readExponent ('e' :: (if below then '-' else '+') :: (ds ++ rest)) =
        some (some (if below then -(Nat.ofDigitChars 10 ds 0 : ℤ) else Nat.ofDigitChars 10 ds 0),
          rest) := by
      have hread := readDigits1_append hne hds fun c hc => (hrest c hc).1
      cases below <;> simp [readExponent, readPower, hread]
    simp only [readMagnitude, spellMagnitude, List.append_assoc, List.cons_append,
      readWhole_append whole (hhead _ htail), readFraction_append hfraction htail, hexp,
      Option.bind_eq_bind, Option.bind_some, Option.pure_def, numeralOf, Option.map_some]

theorem readNumeral_of_digit {c : Char} (h : c.isDigit = true) (cs : List Char) :
    readNumeral (c :: cs) = readMagnitude false (c :: cs) := by
  have hc : c ≠ '-' := by
    rintro rfl
    exact absurd h (by decide)
  simp [readNumeral, hc]

theorem toDigits_eq_cons (n : ℕ) : ∃ c cs, Nat.toDigits 10 n = c :: cs ∧ c.isDigit = true := by
  cases h : Nat.toDigits 10 n with
  | nil => exact absurd h Nat.toDigits_ne_nil
  | cons c cs => exact ⟨c, cs, rfl, isDigit_toDigits (h ▸ List.mem_cons_self)⟩

/-- A number and its sign. -/
def spellNumeral (negative : Bool) (whole : ℕ) (fraction : List Char)
    (power : Option (Bool × List Char)) : List Char :=
  if negative then '-' :: spellMagnitude whole fraction power else spellMagnitude whole fraction power

theorem spellMagnitude_eq_cons (whole : ℕ) (fraction : List Char) (power : Option (Bool × List Char)) :
    ∃ c cs, spellMagnitude whole fraction power = c :: cs ∧ c.isDigit = true := by
  obtain ⟨c, cs, heq, hc⟩ := toDigits_eq_cons whole
  cases power with
  | none => exact ⟨c, _, by rw [spellMagnitude, heq, List.cons_append], hc⟩
  | some p =>
    obtain ⟨below, ds⟩ := p
    exact ⟨c, _, by rw [spellMagnitude, heq, List.cons_append, List.cons_append], hc⟩

theorem readNumeral_spell (negative : Bool) (whole : ℕ) {fraction : List Char}
    {power : Option (Bool × List Char)} (hfraction : ∀ c ∈ fraction, c.isDigit = true)
    (hpower : ∀ p ∈ power, p.2 ≠ [] ∧ ∀ c ∈ p.2, c.isDigit = true) {rest : List Char}
    (hrest : Stops rest) :
    readNumeral (spellNumeral negative whole fraction power ++ rest) =
      some (numeralOf negative whole fraction power, rest) := by
  have hread := readMagnitude_spell negative whole hfraction hpower hrest
  cases negative with
  | true => exact hread
  | false =>
    obtain ⟨c, cs, heq, hc⟩ := spellMagnitude_eq_cons whole fraction power
    rw [spellNumeral, if_neg Bool.false_ne_true]
    rw [heq, List.cons_append] at hread ⊢
    rw [readNumeral_of_digit hc, hread]

/-- An integer is read. -/
theorem readNumeral_integer (negative : Bool) (n : ℕ) {rest : List Char} (hrest : Stops rest) :
    readNumeral (spellNumeral negative n [] none ++ rest) = some (numeralOf negative n [] none, rest) :=
  readNumeral_spell negative n (fun _ hc => absurd hc List.not_mem_nil)
    (fun _ hp => absurd hp (Option.not_mem_none _)) hrest

/-! ## Containers -/

theorem writeList_map {α β : Type} (gap : List Char) (close : Char) (w : β → List Char) (g : α → β)
    (as : List α) : writeList gap close w (as.map g) = writeList gap close (fun a => w (g a)) as := by
  induction as with
  | nil => rfl
  | cons a as ih =>
    cases as with
    | nil => rfl
    | cons b as =>
      rw [List.map_cons, List.map_cons, writeList, ← List.map_cons, ih]
      · rfl
      · simp

/-- White space between tokens. -/
structure Gap where
  text : List Char
  blank : ∀ c ∈ text, isSpace c = true

/-- A text that begins a value or a field. -/
def Opens (close : Char) (text : List Char) : Prop :=
  ∃ c cs, text = c :: cs ∧ isSpace c = false ∧ c ≠ close

section List

variable {α β : Type} {gap : Gap} {close : Char} {p : Parser β} {w : α → List Char} {f : α → Option β}

theorem length_le_writeList (gap : Gap) (close : Char) (w : α → List Char) (as : List α) :
    as.length ≤ (writeList gap.text close w as).length := by
  induction as with
  | nil => exact Nat.zero_le _
  | cons a as ih =>
    cases as with
    | nil => simp [writeList]
    | cons b as =>
      rw [List.length_cons] at ih
      rw [writeList]
      · simp only [List.length_append, List.length_cons]
        omega
      · simp

theorem readItems_written (hclose : close ≠ ',' ∧ isSpace close = false ∧ Stops [close])
    (hskip : ∀ cs, p (gap.text ++ cs) = p cs) {as : List α} (hne : as ≠ [])
    (hp : ∀ a ∈ as, ∀ rest, Stops rest → p (w a ++ rest) = (f a).map fun b => (b, rest)) {fuel : ℕ}
    (hfuel : as.length ≤ fuel) (rest : List Char) :
    readItems close p fuel (writeList gap.text close w as ++ rest) =
      (as.mapM f).map fun bs => (bs, rest) := by
  induction as generalizing fuel with
  | nil => exact absurd rfl hne
  | cons a as ih =>
    obtain ⟨fuel, rfl⟩ : ∃ n, fuel = n + 1 := ⟨fuel - 1, by rw [List.length_cons] at hfuel; omega⟩
    have ha := hp a List.mem_cons_self
    cases as with
    | nil =>
      have hstop : Stops (close :: rest) := stops_cons (hclose.2.2 close rfl)
      rw [writeList, List.append_assoc, List.singleton_append, readItems, ha _ hstop,
        List.mapM_cons, List.mapM_nil]
      cases f a with
      | none => simp
      | some b => simp [skip_cons hclose.2.1]
    | cons a' as =>
      have hstop : Stops (',' :: (gap.text ++ writeList gap.text close w (a' :: as) ++ rest)) :=
        stops_cons (by decide)
      have hcomma : ∀ cs, skip (',' :: cs) = ',' :: cs := skip_cons rfl
      have hrest := ih (by simp) (fun b hb => hp b (List.mem_cons_of_mem a hb))
        (show (a' :: as).length ≤ fuel by rw [List.length_cons] at hfuel; omega)
      rw [writeList, List.append_assoc, List.cons_append, readItems, ha _ hstop, List.mapM_cons]
      · cases f a with
        | none => simp
        | some b =>
          have hread : readItems close p fuel (gap.text ++ writeList gap.text close w (a' :: as) ++ rest) =
              ((a' :: as).mapM f).map fun bs => (bs, rest) := by
            rw [← hrest]
            obtain ⟨fuel, rfl⟩ : ∃ n, fuel = n + 1 :=
              ⟨fuel - 1, by simp only [List.length_cons] at hfuel; omega⟩
            rw [readItems, readItems, List.append_assoc, hskip]
          simp only [Option.map_some, Option.bind_eq_bind, Option.bind_some, hcomma]
          rw [if_neg hclose.1.symm, if_pos trivial, hread]
          cases List.mapM f (a' :: as) <;> rfl
      · simp

/-- **A written list is read back**, when its items are. -/
theorem readList_written (hclose : close ≠ ',' ∧ isSpace close = false ∧ Stops [close])
    (hskip : ∀ cs, p (gap.text ++ cs) = p cs) {as : List α} (hopens : ∀ a ∈ as, Opens close (w a))
    (hp : ∀ a ∈ as, ∀ rest, Stops rest → p (w a ++ rest) = (f a).map fun b => (b, rest))
    (rest : List Char) :
    readList close p (writeList gap.text close w as ++ rest) =
      (as.mapM f).map fun bs => (bs, rest) := by
  cases as with
  | nil => simp [writeList, readList, skip_cons hclose.2.1]
  | cons a as =>
    obtain ⟨c, cs, hw, hspace, hne⟩ := hopens a List.mem_cons_self
    have hlen := length_le_writeList gap close w (a :: as)
    have hfuel : (a :: as).length ≤ (writeList gap.text close w (a :: as) ++ rest).length := by
      rw [List.length_append]
      omega
    have hitems := readItems_written hclose hskip (List.cons_ne_nil a as) hp hfuel rest
    have hhead : ∃ tail, writeList gap.text close w (a :: as) ++ rest = c :: tail := by
      cases as with
      | nil => exact ⟨_, by rw [writeList, hw, List.cons_append, List.cons_append]⟩
      | cons b as =>
        refine ⟨cs ++ ',' :: (gap.text ++ writeList gap.text close w (b :: as)) ++ rest, ?_⟩
        rw [writeList, hw]
        · rfl
        · simp
    obtain ⟨tail, htail⟩ := hhead
    rw [htail] at hitems
    rw [htail, readList, skip_cons hspace]
    simp only [if_neg hne]
    exact hitems

end List

/-! ## Values -/

section Doc

variable {ν μ : Type}

theorem depth_le_depthItems {a : Doc ν} {as : List (Doc ν)} (h : a ∈ as) : a.depth ≤ depthItems as := by
  induction as with
  | nil => exact absurd h List.not_mem_nil
  | cons b as ih =>
    rw [depthItems]
    rcases List.mem_cons.mp h with rfl | h
    · exact Nat.le_max_left _ _
    · exact Nat.le_trans (ih h) (Nat.le_max_right _ _)

theorem depth_le_depthFields {f : String × Doc ν} {fs : List (String × Doc ν)} (h : f ∈ fs) :
    f.2.depth ≤ depthFields fs := by
  induction fs with
  | nil => exact absurd h List.not_mem_nil
  | cons g fs ih =>
    obtain ⟨k, b⟩ := g
    rw [depthFields]
    rcases List.mem_cons.mp h with rfl | h
    · exact Nat.le_max_left _ _
    · exact Nat.le_trans (ih h) (Nat.le_max_right _ _)

theorem mapItems_eq (f : ν → Option μ) (as : List (Doc ν)) :
    mapItems f as = as.mapM fun a => a.mapM f := by
  induction as with
  | nil => rfl
  | cons a as ih => rw [mapItems, ih, List.mapM_cons]

theorem mapFields_eq (f : ν → Option μ) (fs : List (String × Doc ν)) :
    mapFields f fs = fs.mapM fun g => (g.2.mapM f).map fun b => (g.1, b) := by
  induction fs with
  | nil => rfl
  | cons g fs ih =>
    rw [mapFields, ih, List.mapM_cons]
    cases g.2.mapM f <;> rfl

mutual

/-- Numbers are replaced exactly if each one can be. -/
theorem isSome_mapM (f : ν → Option μ) :
    ∀ a : Doc ν, (a.mapM f).isSome = true ↔ ∀ n ∈ a.numbers, (f n).isSome = true
  | .null => by simp [Doc.mapM, Doc.numbers]
  | .bool b => by simp [Doc.mapM, Doc.numbers]
  | .number n => by simp [Doc.mapM, Doc.numbers]
  | .string s => by simp [Doc.mapM, Doc.numbers]
  | .array items => by
    rw [Doc.mapM, Option.isSome_map, isSome_mapItems f items, Doc.numbers]
  | .object fields => by
    rw [Doc.mapM, Option.isSome_map, isSome_mapFields f fields, Doc.numbers]

theorem isSome_mapItems (f : ν → Option μ) :
    ∀ as : List (Doc ν), (mapItems f as).isSome = true ↔ ∀ n ∈ numbersOfItems as, (f n).isSome = true
  | [] => by simp [mapItems, numbersOfItems]
  | a :: as => by
    have hhead := isSome_mapM f a
    have htail := isSome_mapItems f as
    rw [mapItems, numbersOfItems, List.forall_mem_append, ← hhead, ← htail]
    cases a.mapM f <;> cases mapItems f as <;> simp

theorem isSome_mapFields (f : ν → Option μ) :
    ∀ fs : List (String × Doc ν),
      (mapFields f fs).isSome = true ↔ ∀ n ∈ numbersOfFields fs, (f n).isSome = true
  | [] => by simp [mapFields, numbersOfFields]
  | (k, a) :: fs => by
    have hhead := isSome_mapM f a
    have htail := isSome_mapFields f fs
    rw [mapFields, numbersOfFields, List.forall_mem_append, ← hhead, ← htail]
    cases a.mapM f <;> cases mapFields f fs <;> simp

end

mutual

/-- Numbers that are replaced by themselves. -/
theorem Doc.mapM_self {f : ν → Option ν} :
    ∀ {a : Doc ν}, (∀ n ∈ a.numbers, f n = some n) → a.mapM f = some a
  | .null, _ => rfl
  | .bool _, _ => rfl
  | .number n, h => by
    rw [Doc.mapM, h n List.mem_cons_self]
    rfl
  | .string _, _ => rfl
  | .array items, h => by
    rw [Doc.mapM, mapItems_self h]
    rfl
  | .object fields, h => by
    rw [Doc.mapM, mapFields_self h]
    rfl

theorem mapItems_self {f : ν → Option ν} :
    ∀ {as : List (Doc ν)}, (∀ n ∈ numbersOfItems as, f n = some n) → mapItems f as = some as
  | [], _ => rfl
  | a :: as, h => by
    obtain ⟨hhead, htail⟩ := List.forall_mem_append.mp h
    rw [mapItems, Doc.mapM_self hhead, mapItems_self htail]
    rfl

theorem mapFields_self {f : ν → Option ν} :
    ∀ {fs : List (String × Doc ν)}, (∀ n ∈ numbersOfFields fs, f n = some n) → mapFields f fs = some fs
  | [], _ => rfl
  | (k, a) :: fs, h => by
    obtain ⟨hhead, htail⟩ := List.forall_mem_append.mp h
    rw [mapFields, Doc.mapM_self hhead, mapFields_self htail]
    rfl

end

mutual

/-- Numbers replaced twice are replaced once. -/
theorem mapM_bind {κ : Type} (f : ν → Option μ) (g : μ → Option κ) :
    ∀ a : Doc ν, ((a.mapM f).bind fun b => b.mapM g) = a.mapM fun n => (f n).bind g
  | .null => rfl
  | .bool b => rfl
  | .number n => by
    rw [Doc.mapM, Doc.mapM]
    cases f n <;> rfl
  | .string s => rfl
  | .array items => by
    rw [Doc.mapM, Doc.mapM, ← mapItems_bind f g items]
    cases mapItems f items <;> rfl
  | .object fields => by
    rw [Doc.mapM, Doc.mapM, ← mapFields_bind f g fields]
    cases mapFields f fields <;> rfl

theorem mapItems_bind {κ : Type} (f : ν → Option μ) (g : μ → Option κ) :
    ∀ as : List (Doc ν), ((mapItems f as).bind fun bs => mapItems g bs) = mapItems (fun n => (f n).bind g) as
  | [] => rfl
  | a :: as => by
    have hhead := mapM_bind f g a
    have htail := mapItems_bind f g as
    rw [mapItems, mapItems, ← hhead, ← htail]
    cases a.mapM f with
    | none => rfl
    | some b =>
      cases mapItems f as with
      | none => cases b.mapM g <;> simp
      | some bs => rfl

theorem mapFields_bind {κ : Type} (f : ν → Option μ) (g : μ → Option κ) :
    ∀ fs : List (String × Doc ν),
      ((mapFields f fs).bind fun gs => mapFields g gs) = mapFields (fun n => (f n).bind g) fs
  | [] => rfl
  | (k, a) :: fs => by
    have hhead := mapM_bind f g a
    have htail := mapFields_bind f g fs
    rw [mapFields, mapFields, ← hhead, ← htail]
    cases a.mapM f with
    | none => rfl
    | some b =>
      cases mapFields f fs with
      | none => cases b.mapM g <;> simp
      | some bs => rfl

end

variable {gap : List Char} {spell : ν → List Char}

theorem writeItems_eq (as : List (Doc ν)) : writeItems gap spell as = as.map (write gap spell) := by
  induction as with
  | nil => rfl
  | cons a as ih => rw [writeItems, ih, List.map_cons]

theorem writeFields_eq (fs : List (String × Doc ν)) :
    writeFields gap spell fs = fs.map fun f => (f.1, write gap spell f.2) := by
  induction fs with
  | nil => rfl
  | cons f fs ih => rw [writeFields, ih, List.map_cons]

end Doc

/-- A character no other value begins with. -/
def Plain (c : Char) : Prop :=
  isSpace c = false ∧ c ∉ ['"', '[', ']', '{', '}', 'n', 't', 'f']

instance (c : Char) : Decidable (Plain c) := inferInstanceAs (Decidable (_ ∧ _))

theorem spellNumeral_plain (negative : Bool) (whole : ℕ) (fraction : List Char)
    (power : Option (Bool × List Char)) :
    ∃ c cs, spellNumeral negative whole fraction power = c :: cs ∧ Plain c := by
  cases negative with
  | true => exact ⟨_, _, rfl, by decide⟩
  | false =>
    obtain ⟨c, cs, heq, hc⟩ := spellMagnitude_eq_cons whole fraction power
    refine ⟨c, cs, by rw [spellNumeral, if_neg Bool.false_ne_true, heq], ?_, ?_⟩
    · unfold isSpace
      simp only [Bool.or_eq_false_iff, beq_eq_false_iff_ne, ne_eq]
      refine ⟨⟨⟨?_, ?_⟩, ?_⟩, ?_⟩ <;> rintro rfl <;> exact absurd hc (by decide)
    · intro hmem
      simp only [List.mem_cons, List.not_mem_nil, or_false] at hmem
      rcases hmem with rfl | rfl | rfl | rfl | rfl | rfl | rfl | rfl <;> exact absurd hc (by decide)

/-- How numbers are spelled: as the numerals they stand for, or as what no numeral is. -/
structure Spelling (ν : Type) where
  spell : ν → List Char
  numeral : ν → Option Numeral
  plain : ∀ n, ∃ c cs, spell n = c :: cs ∧ Plain c
  reads : ∀ n rest, Stops rest → readNumeral (spell n ++ rest) = (numeral n).map fun m => (m, rest)

/-- The numbers of another type spelled as numbers that stand for them. -/
def Spelling.comap {μ ν : Type} (σ : Spelling ν) (f : μ → ν) : Spelling μ where
  spell n := σ.spell (f n)
  numeral n := σ.numeral (f n)
  plain n := σ.plain (f n)
  reads n := σ.reads (f n)

section ReadWrite

variable {ν : Type} (gap : Gap) (σ : Spelling ν)

theorem write_opens (a : Doc ν) :
    ∃ c cs, write gap.text σ.spell a = c :: cs ∧ isSpace c = false ∧ c ≠ ']' ∧ c ≠ '}' ∧
      (a.depth = 0 → c ≠ '[' ∧ c ≠ '{') := by
  cases a with
  | null => exact ⟨_, _, rfl, by decide, by decide, by decide, fun _ => by decide⟩
  | bool b => cases b <;> exact ⟨_, _, rfl, by decide, by decide, by decide, fun _ => by decide⟩
  | number n =>
    obtain ⟨c, cs, heq, hspace, hc⟩ := σ.plain n
    simp only [List.mem_cons, not_or] at hc
    exact ⟨c, cs, heq, hspace, hc.2.2.1, hc.2.2.2.2.1, fun _ => ⟨hc.2.1, hc.2.2.2.1⟩⟩
  | string s => exact ⟨_, _, rfl, by decide, by decide, by decide, fun _ => by decide⟩
  | array items =>
    exact ⟨_, _, by rw [write], by decide, by decide, by decide, fun h => by simp [Doc.depth] at h⟩
  | object fields =>
    exact ⟨_, _, by rw [write], by decide, by decide, by decide, fun h => by simp [Doc.depth] at h⟩

theorem readScalar_number (n : ν) {rest : List Char} (hrest : Stops rest) :
    readScalar (σ.spell n ++ rest) = (σ.numeral n).map fun m => (.number m, rest) := by
  obtain ⟨c, cs, heq, -, hc⟩ := σ.plain n
  simp only [List.mem_cons, not_or] at hc
  have hread := σ.reads n rest hrest
  have hscalar : readScalar (c :: (cs ++ rest)) =
      (readNumeral (c :: (cs ++ rest))).map fun r => (.number r.1, r.2) := by
    unfold readScalar
    split <;> simp_all
  rw [heq, List.cons_append] at hread ⊢
  rw [hscalar, hread]
  cases σ.numeral n <;> rfl

/-- A value that is no container is read back. -/
theorem readScalar_written {a : Doc ν} (ha : a.depth = 0) {rest : List Char} (hrest : Stops rest) :
    readScalar (write gap.text σ.spell a ++ rest) =
      (a.mapM σ.numeral).map fun b => (b, rest) := by
  cases a with
  | null => rfl
  | bool b => cases b <;> rfl
  | number n =>
    rw [write, readScalar_number σ n hrest, Doc.mapM]
    cases σ.numeral n <;> rfl
  | string s =>
    rw [write, writeString, List.cons_append, readScalar, readString_written]
    rfl
  | array items => simp [Doc.depth] at ha
  | object fields => simp [Doc.depth] at ha

theorem readValue_skip (depth : ℕ) (cs : List Char) :
    readValue depth (gap.text ++ cs) = readValue depth cs := by
  cases depth with
  | zero => rw [readValue, readValue, skip_append gap.blank]
  | succ depth => rw [readValue, readValue, skip_append gap.blank]

theorem readValue_scalar (depth : ℕ) {c : Char} (hspace : isSpace c = false) (hlist : c ≠ '[')
    (hobject : c ≠ '{') (cs : List Char) : readValue depth (c :: cs) = readScalar (c :: cs) := by
  cases depth with
  | zero => rw [readValue, skip_cons hspace]
  | succ depth =>
    rw [readValue, skip_cons hspace]
    split
    · rename_i heq
      exact absurd (List.cons.inj heq).1 hlist
    · rename_i heq
      exact absurd (List.cons.inj heq).1 hobject
    · rfl

/-- A field is read back, when its value is. -/
theorem readField_written {p : Parser (Doc Numeral)} (hskip : ∀ cs, p (gap.text ++ cs) = p cs)
    (k : String) (a : Doc ν) {rest : List Char}
    (ha : p (write gap.text σ.spell a ++ rest) = (a.mapM σ.numeral).map fun b => (b, rest)) :
    readField p (writeField gap.text (k, write gap.text σ.spell a) ++ rest) =
      ((a.mapM σ.numeral).map fun b => (k, b)).map fun f => (f, rest) := by
  have hkey : readString (k.toList.flatMap escape ++
      '"' :: ':' :: (gap.text ++ (write gap.text σ.spell a ++ rest))) =
        some (k, ':' :: (gap.text ++ (write gap.text σ.spell a ++ rest))) := by
    rw [← readString_written k, List.append_assoc]
    rfl
  have hquote : ∀ cs, skip ('"' :: cs) = '"' :: cs := skip_cons rfl
  have hcolon : ∀ cs, skip (':' :: cs) = ':' :: cs := skip_cons rfl
  simp only [readField, writeField, writeString, List.cons_append, List.append_assoc, List.nil_append,
    hquote, hkey, hcolon, Option.bind_eq_bind, Option.bind_some, hskip, ha]
  cases a.mapM σ.numeral <;> rfl

/-- **A written value is read back, or refused for one of its numbers.** -/
theorem readValue_written (depth : ℕ) (a : Doc ν) (ha : a.depth ≤ depth) (rest : List Char)
    (hrest : Stops rest) :
    readValue depth (write gap.text σ.spell a ++ rest) =
      (a.mapM σ.numeral).map fun b => (b, rest) := by
  induction depth generalizing a rest with
  | zero =>
    obtain ⟨c, cs, heq, hspace, -⟩ := write_opens gap σ a
    have hscalar := readScalar_written gap σ (Nat.le_zero.mp ha) hrest
    rw [heq, List.cons_append] at hscalar ⊢
    rw [readValue, skip_cons hspace, hscalar]
  | succ depth ih =>
    by_cases hzero : a.depth = 0
    · obtain ⟨c, cs, heq, hspace, -, -, hc⟩ := write_opens gap σ a
      have hscalar := readScalar_written gap σ hzero hrest
      rw [heq, List.cons_append] at hscalar ⊢
      rw [readValue_scalar _ hspace (hc hzero).1 (hc hzero).2, hscalar]
    cases a with
    | array items =>
      have hdepth : ∀ b ∈ items, b.depth ≤ depth := fun b hb =>
        Nat.le_trans (depth_le_depthItems hb) (Nat.le_of_succ_le_succ ha)
      have hopens : ∀ b ∈ items, Opens ']' (write gap.text σ.spell b) := fun b _ => by
        obtain ⟨c, cs, heq, hspace, hne, -⟩ := write_opens gap σ b
        exact ⟨c, cs, heq, hspace, hne⟩
      have hread := readList_written ⟨by decide, by decide, stops_cons (by decide)⟩
        (readValue_skip gap depth) hopens (fun b hb rest hrest => ih b (hdepth b hb) rest hrest) rest
      rw [write, List.cons_append, readValue, skip_cons (by decide), writeItems_eq, writeList_map]
      simp only [id]
      rw [hread, Doc.mapM, mapItems_eq]
      cases List.mapM (fun b : Doc ν => b.mapM σ.numeral) items <;> rfl
    | object fields =>
      have hdepth : ∀ f ∈ fields, f.2.depth ≤ depth := fun f hf =>
        Nat.le_trans (depth_le_depthFields hf) (Nat.le_of_succ_le_succ ha)
      have hopens : ∀ f ∈ fields, Opens '}' (writeField gap.text (f.1, write gap.text σ.spell f.2)) :=
        fun f _ => ⟨_, _, rfl, by decide, by decide⟩
      have hskip : ∀ cs, readField (readValue depth) (gap.text ++ cs) =
          readField (readValue depth) cs := by
        intro cs
        rw [readField, readField, skip_append gap.blank]
      have hread := readList_written ⟨by decide, by decide, stops_cons (by decide)⟩ hskip hopens
        (fun f hf rest hrest => readField_written gap σ (readValue_skip gap depth) f.1 f.2
          (ih f.2 (hdepth f hf) rest hrest)) rest
      rw [write, List.cons_append, readValue, skip_cons (by decide), writeFields_eq, writeList_map]
      simp only [hread, Doc.mapM, mapFields_eq]
      cases List.mapM (fun g : String × Doc ν => (g.2.mapM σ.numeral).map fun b => (g.1, b)) fields <;> rfl
    | null => exact absurd rfl hzero
    | bool b => exact absurd rfl hzero
    | number n => exact absurd rfl hzero
    | string s => exact absurd rfl hzero

/-- **What is written is read back**, unless one of its numbers spells no numeral: then the text is
refused. -/
theorem parse_write {depth : ℕ} {a : Doc ν} (ha : a.depth ≤ depth) :
    parse depth (write gap.text σ.spell a) = a.mapM σ.numeral := by
  have hread := readValue_written gap σ depth a ha [] stops_nil
  rw [List.append_nil] at hread
  rw [parse, hread]
  cases a.mapM σ.numeral <;> rfl

end ReadWrite

example : parse 1 ['[', '1', ' ', ',', '2', ']'] =
    some (.array [.number ⟨false, 1, 0, 0, none⟩, .number ⟨false, 2, 0, 0, none⟩]) := rfl

example : parse 1 ['[', '1', ',', ']'] = none ∧ parse 1 ['[', '0', '1', ']'] = none := ⟨rfl, rfl⟩

end SenseVoice.Lib.JsonText
