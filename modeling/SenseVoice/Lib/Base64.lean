import SenseVoice.Lib.Wire
import Mathlib.Data.List.FinRange
import Mathlib.Data.Option.Basic

/-!
# Base64

Three bytes are four digits of six bits, each a character of an alphabet of 64. One or two bytes at the end
are two or three digits, with zeros for the bits that are missing, and `=` fills the last four characters
up. `decode` takes nothing else: no other bits there, no other padding, no other character.

Results:
* `ofSextets_sextets`, `sextets_of_ofSextets`: bytes and digits;
* **`Coding.decode_eq_some_iff`**, **`Coding.decodeBare_eq_some_iff`**: a text is decoded to these bytes
  exactly if it is what they are encoded to, with padding or without, so no two texts mean the same bytes, and
  no two bytes have the same text.
-/

namespace SenseVoice.Lib.Base64

open Wire

/-! ## Digits -/

/-- Six bits. -/
abbrev Sextet := Fin 64

/-- The digits of some bytes. -/
def sextets : Bytes → List Sextet
  | a :: b :: c :: rest =>
    ⟨a.toNat / 4, by have := a.toNat_lt; omega⟩ ::
      ⟨a.toNat % 4 * 16 + b.toNat / 16, by have := b.toNat_lt; omega⟩ ::
        ⟨b.toNat % 16 * 4 + c.toNat / 64, by have := c.toNat_lt; omega⟩ ::
          ⟨c.toNat % 64, by omega⟩ :: sextets rest
  | [a, b] =>
    [⟨a.toNat / 4, by have := a.toNat_lt; omega⟩,
      ⟨a.toNat % 4 * 16 + b.toNat / 16, by have := b.toNat_lt; omega⟩,
      ⟨b.toNat % 16 * 4, by omega⟩]
  | [a] => [⟨a.toNat / 4, by have := a.toNat_lt; omega⟩, ⟨a.toNat % 4 * 16, by omega⟩]
  | [] => []

/-- The first byte of two digits. -/
def firstByte (p q : Sextet) : UInt8 := UInt8.ofNat (p.val * 4 + q.val / 16)

/-- The second byte, of the second and the third digit. -/
def secondByte (q r : Sextet) : UInt8 := UInt8.ofNat (q.val % 16 * 16 + r.val / 4)

/-- The third byte, of the third and the fourth digit. -/
def thirdByte (r s : Sextet) : UInt8 := UInt8.ofNat (r.val % 4 * 64 + s.val)

/-- The bytes of some digits. -/
def ofSextets : List Sextet → Option Bytes
  | p :: q :: r :: s :: rest =>
    (ofSextets rest).map fun bytes => firstByte p q :: secondByte q r :: thirdByte r s :: bytes
  | [p, q, r] => if r.val % 4 = 0 then some [firstByte p q, secondByte q r] else none
  | [p, q] => if q.val % 16 = 0 then some [firstByte p q] else none
  | [_] => none
  | [] => some []

section Digits

variable (p q r s : Sextet)

theorem firstByte_toNat : (firstByte p q).toNat = p.val * 4 + q.val / 16 := by
  rw [firstByte, UInt8.toNat_ofNat']
  omega

theorem secondByte_toNat : (secondByte q r).toNat = q.val % 16 * 16 + r.val / 4 := by
  rw [secondByte, UInt8.toNat_ofNat']
  omega

theorem thirdByte_toNat : (thirdByte r s).toNat = r.val % 4 * 64 + s.val := by
  rw [thirdByte, UInt8.toNat_ofNat']
  omega

end Digits

theorem ofSextets_sextets (bytes : Bytes) : ofSextets (sextets bytes) = some bytes := by
  have hbyte : ∀ (x y : UInt8), x.toNat = y.toNat → x = y := fun x y => UInt8.toNat_inj.mp
  induction bytes using sextets.induct with
  | case1 a b c rest ih =>
    rw [sextets, ofSextets, ih, Option.map_some]
    refine congrArg some ?_
    have ha := a.toNat_lt
    have hb := b.toNat_lt
    have hc := c.toNat_lt
    rw [hbyte (firstByte _ _) a (by rw [firstByte_toNat]; dsimp only; omega),
      hbyte (secondByte _ _) b (by rw [secondByte_toNat]; dsimp only; omega),
      hbyte (thirdByte _ _) c (by rw [thirdByte_toNat]; dsimp only; omega)]
  | case2 a b =>
    have ha := a.toNat_lt
    have hb := b.toNat_lt
    rw [sextets, ofSextets, if_pos (by dsimp only; omega),
      hbyte (firstByte _ _) a (by rw [firstByte_toNat]; dsimp only; omega),
      hbyte (secondByte _ _) b (by rw [secondByte_toNat]; dsimp only; omega)]
  | case3 a =>
    have ha := a.toNat_lt
    rw [sextets, ofSextets, if_pos (by dsimp only; omega),
      hbyte (firstByte _ _) a (by rw [firstByte_toNat]; dsimp only; omega)]
  | case4 => rfl

/-- Digits that have bytes are the digits of these bytes. -/
theorem sextets_of_ofSextets {digits : List Sextet} {bytes : Bytes}
    (h : ofSextets digits = some bytes) : sextets bytes = digits := by
  induction digits using ofSextets.induct generalizing bytes with
  | case1 p q r s rest ih =>
    rw [ofSextets, Option.map_eq_some_iff] at h
    obtain ⟨bytes', hrest, rfl⟩ := h
    rw [sextets, ih hrest]
    simp only [firstByte_toNat, secondByte_toNat, thirdByte_toNat, List.cons.injEq, and_true,
      Fin.ext_iff]
    omega
  | case2 p q r hzero =>
    rw [ofSextets, if_pos hzero, Option.some.injEq] at h
    rw [← h, sextets]
    simp only [firstByte_toNat, secondByte_toNat, List.cons.injEq, and_true, Fin.ext_iff]
    omega
  | case3 p q r hzero =>
    rw [ofSextets, if_neg hzero] at h
    cases h
  | case4 p q hzero =>
    rw [ofSextets, if_pos hzero, Option.some.injEq] at h
    rw [← h, sextets]
    simp only [firstByte_toNat, List.cons.injEq, and_true, Fin.ext_iff]
    omega
  | case5 p q hzero =>
    rw [ofSextets, if_neg hzero] at h
    cases h
  | case6 p => cases h
  | case7 =>
    rw [ofSextets, Option.some.injEq] at h
    rw [← h, sextets]

/-! ## Texts -/

/-- A coding: the characters of the 64 digits. -/
structure Coding where
  char : Sextet → Char
  injective : Function.Injective char
  noPad : ∀ d, char d ≠ '='

/-- The digit of a character. -/
def Coding.digit (k : Coding) (c : Char) : Option Sextet :=
  (List.finRange 64).find? fun d => k.char d == c

/-- What fills up a text of `n` digits. -/
def padding (n : ℕ) : List Char := List.replicate ((4 - n % 4) % 4) '='

/-- The text of some bytes. -/
def Coding.encode (k : Coding) (bytes : Bytes) : String :=
  String.ofList ((sextets bytes).map k.char ++ padding (sextets bytes).length)

/-- The bytes of a text. -/
def Coding.decode (k : Coding) (text : String) : Option Bytes := do
  let body := text.toList.takeWhile (· != '=')
  guard (text.toList = body ++ padding body.length)
  let digits ← body.mapM k.digit
  ofSextets digits

namespace Coding

variable {k : Coding}

theorem digit_eq_some_iff {c : Char} {d : Sextet} : k.digit c = some d ↔ k.char d = c := by
  unfold digit
  constructor
  · intro h
    have hd := List.find?_some h
    exact beq_iff_eq.mp hd
  · rintro rfl
    cases hfind : (List.finRange 64).find? fun d' => k.char d' == k.char d with
    | none =>
      have hnot := List.find?_eq_none.mp hfind d (List.mem_finRange d)
      exact absurd BEq.rfl hnot
    | some d' =>
      have hd := List.find?_some hfind
      exact congrArg some (k.injective (beq_iff_eq.mp hd))

theorem mapM_digit_eq_some_iff {text : List Char} {digits : List Sextet} :
    text.mapM k.digit = some digits ↔ digits.map k.char = text := by
  induction text generalizing digits with
  | nil =>
    rw [List.mapM_nil, List.map_eq_nil_iff]
    exact ⟨fun h => (Option.some.inj h).symm, fun h => congrArg some h.symm⟩
  | cons c text ih =>
    rw [List.mapM_cons]
    constructor
    · intro h
      obtain ⟨d, hd, h⟩ := Option.bind_eq_some_iff.mp h
      obtain ⟨ds, hds, h⟩ := Option.bind_eq_some_iff.mp h
      obtain rfl : d :: ds = digits := Option.some.inj h
      rw [List.map_cons, digit_eq_some_iff.mp hd, ih.mp hds]
    · intro h
      cases digits with
      | nil => cases h
      | cons d ds =>
        obtain ⟨hd, hds⟩ := List.cons.inj h
        rw [digit_eq_some_iff.mpr hd, ih.mpr hds]
        rfl

/-- The body of a text is what stands before its padding. -/
theorem takeWhile_encode (digits : List Sextet) (n : ℕ) :
    (digits.map k.char ++ padding n).takeWhile (· != '=') = digits.map k.char := by
  have hbody : ∀ c ∈ digits.map k.char, (c != '=') = true := by
    intro c hc
    obtain ⟨d, -, rfl⟩ := List.mem_map.mp hc
    exact bne_iff_ne.mpr (k.noPad d)
  have hpad : (padding n).takeWhile (· != '=') = [] := by
    rw [padding, List.takeWhile_replicate]
    rfl
  rw [List.takeWhile_append_of_pos hbody, hpad, List.append_nil]

/-- **Decoding** takes the texts of bytes, and nothing else. -/
theorem decode_eq_some_iff {text : String} {bytes : Bytes} :
    k.decode text = some bytes ↔ k.encode bytes = text := by
  constructor
  · intro h
    obtain ⟨u, hguard, h⟩ := Option.bind_eq_some_iff.mp h
    obtain ⟨digits, hdigits, hbytes⟩ := Option.bind_eq_some_iff.mp h
    have htext := (Option.guard_eq_some' _).mp hguard
    have hbody := mapM_digit_eq_some_iff.mp hdigits
    rw [encode, sextets_of_ofSextets hbytes, ← String.ofList_toList (s := text), htext, ← hbody,
      List.length_map]
  · rintro rfl
    unfold decode encode
    simp only [String.toList_ofList, takeWhile_encode, List.length_map]
    rw [mapM_digit_eq_some_iff.mpr rfl]
    exact ofSextets_sextets bytes

theorem decode_encode (k : Coding) (bytes : Bytes) : k.decode (k.encode bytes) = some bytes :=
  decode_eq_some_iff.mpr rfl

end Coding

/-! ## Texts without padding -/

/-- The text of some bytes, not filled up. -/
def Coding.encodeBare (k : Coding) (bytes : Bytes) : String := String.ofList ((sextets bytes).map k.char)

/-- The bytes of a text that is not filled up. -/
def Coding.decodeBare (k : Coding) (text : String) : Option Bytes := (text.toList.mapM k.digit).bind ofSextets

/-- **Decoding without padding** takes the texts of bytes, and nothing else. -/
theorem Coding.decodeBare_eq_some_iff {k : Coding} {text : String} {bytes : Bytes} :
    k.decodeBare text = some bytes ↔ k.encodeBare bytes = text := by
  constructor
  · intro h
    obtain ⟨digits, hdigits, hbytes⟩ := Option.bind_eq_some_iff.mp h
    rw [encodeBare, sextets_of_ofSextets hbytes, mapM_digit_eq_some_iff.mp hdigits, String.ofList_toList]
  · rintro rfl
    unfold decodeBare encodeBare
    rw [String.toList_ofList, mapM_digit_eq_some_iff.mpr rfl]
    exact ofSextets_sextets bytes

/-! ## Alphabets -/

/-- `A`–`Z`, `a`–`z`, `0`–`9`, `+` and `/`. -/
def standard : Coding where
  char d := "ABCDEFGHIJKLMNOPQRSTUVWXYZabcdefghijklmnopqrstuvwxyz0123456789+/".toList.getD d.val '='
  injective := by unfold Function.Injective; decide +kernel
  noPad := by decide +kernel

/-- `A`–`Z`, `a`–`z`, `0`–`9`, `-` and `_`. -/
def urlSafe : Coding where
  char d := "ABCDEFGHIJKLMNOPQRSTUVWXYZabcdefghijklmnopqrstuvwxyz0123456789-_".toList.getD d.val '='
  injective := by unfold Function.Injective; decide +kernel
  noPad := by decide +kernel

example : standard.encode [0x66, 0x6F, 0x6F, 0x62] = "Zm9vYg==" := by decide +kernel

end SenseVoice.Lib.Base64
