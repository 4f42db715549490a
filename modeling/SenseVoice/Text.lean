/-!
# The string functions of the Rust standard library

`str::strip_prefix`, `str::starts_with`, `str::trim`, `str::trim_end_matches`, `str::len` and
`char::is_control`, as the handlers use them. A Rust `str` is UTF-8 text, so it is a `String`;
`len` counts bytes, `chars().count()` characters.

`trim` and `is_control` follow the Unicode properties `White_Space` and `Cc`, not ASCII.

Results: `byteLen_of_ascii`, `stripPrefix_append`, `append_repr_injective` (a number at the end of a name).
-/

namespace SenseVoice.Text

/-- `str::starts_with`. -/
def startsWith (s pre : String) : Bool := pre.toList.isPrefixOf s.toList

/-- `str::strip_prefix`. -/
def stripPrefix (s pre : String) : Option String :=
  if startsWith s pre then some (String.ofList (s.toList.drop pre.toList.length)) else none

/-- The Unicode property `White_Space` (`char::is_whitespace`). -/
def isWhitespace (c : Char) : Bool :=
  (9 ≤ c.toNat && c.toNat ≤ 13) || c.toNat == 0x20 || c.toNat == 0x85 || c.toNat == 0xA0 ||
    c.toNat == 0x1680 || (0x2000 ≤ c.toNat && c.toNat ≤ 0x200A) || c.toNat == 0x2028 ||
    c.toNat == 0x2029 || c.toNat == 0x202F || c.toNat == 0x205F || c.toNat == 0x3000

/-- The Unicode category `Cc` (`char::is_control`). -/
def isControl (c : Char) : Bool := c.toNat ≤ 0x1F || (0x7F ≤ c.toNat && c.toNat ≤ 0x9F)

/-- `str::trim`. -/
def trim (s : String) : String :=
  String.ofList ((s.toList.dropWhile isWhitespace).reverse.dropWhile isWhitespace).reverse

/-- `str::trim_end_matches` for one character. -/
def trimEndMatches (s : String) (c : Char) : String :=
  String.ofList (s.toList.reverse.dropWhile (· == c)).reverse

/-- `str::len`: the length in bytes. -/
def byteLen (s : String) : Nat := s.utf8ByteSize

/-- `bytes().all(|b| b.is_ascii_alphanumeric() || matches!(b, b'-' | b'_'))`. -/
def isToken (s : String) : Bool :=
  s.toList.all fun c => c.isAlphanum || c == '-' || c == '_'

/-- `bytes().all(|b| b.is_ascii_hexdigit())`. -/
def isHex (s : String) : Bool :=
  s.toList.all fun c =>
    c.isDigit || ('a'.toNat ≤ c.toNat && c.toNat ≤ 'f'.toNat) ||
      ('A'.toNat ≤ c.toNat && c.toNat ≤ 'F'.toNat)

/-! ## Lengths and prefixes -/

theorem byteLen_append (s t : String) : byteLen (s ++ t) = byteLen s + byteLen t :=
  String.utf8ByteSize_append

theorem byteLen_cons (c : Char) (cs : List Char) :
    byteLen (String.ofList (c :: cs)) = c.utf8Size + byteLen (String.ofList cs) := by
  have hsplit : String.ofList (c :: cs) = String.singleton c ++ String.ofList cs := by
    rw [← String.toList_inj]
    simp
  have hone : byteLen (String.singleton c) = c.utf8Size := String.utf8ByteSize_singleton
  rw [hsplit, byteLen_append, hone]

/-- ASCII characters are single bytes. -/
theorem byteLen_of_ascii {s : String} (h : ∀ c ∈ s.toList, c.toNat < 128) :
    byteLen s = s.toList.length := by
  have hlist : ∀ cs : List Char, (∀ c ∈ cs, c.toNat < 128) → byteLen (String.ofList cs) = cs.length := by
    intro cs hcs
    induction cs with
    | nil => rfl
    | cons c cs ih =>
      have hc : c.utf8Size = 1 :=
        Char.utf8Size_eq_one_iff.mpr (UInt32.le_iff_toNat_le.mpr (Nat.le_of_lt_succ (hcs c List.mem_cons_self)))
      rw [byteLen_cons, hc, ih fun d hd => hcs d (List.mem_cons_of_mem c hd), List.length_cons, Nat.add_comm]
  have hs := hlist s.toList h
  rwa [String.ofList_toList] at hs

theorem stripPrefix_append (pre s : String) : stripPrefix (pre ++ s) pre = some s := by
  have hstart : startsWith (pre ++ s) pre = true := by
    unfold startsWith
    rw [String.toList_append, List.isPrefixOf_iff_prefix]
    exact List.prefix_append _ _
  rw [stripPrefix, if_pos hstart, String.toList_append, List.drop_left, String.ofList_toList]

/-! ## Numbers -/

theorem repr_injective {i j : Nat} (h : Nat.repr i = Nat.repr j) : i = j := by
  have hdigits := congrArg String.toList h
  rw [Nat.toList_repr, Nat.toList_repr] at hdigits
  rw [← Nat.ofDigitChars_ten_toDigits (n := i), hdigits, Nat.ofDigitChars_ten_toDigits]

theorem append_repr_injective {pre : String} {i j : Nat} (h : pre ++ Nat.repr i = pre ++ Nat.repr j) : i = j :=
  repr_injective ((String.append_right_inj _).mp h)

example : stripPrefix "Bearer operator" "Bearer " = some "operator" := by decide

example : trim " user-1\t" = "user-1" := by decide

end SenseVoice.Text
