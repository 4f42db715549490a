import SenseVoice.Lib.PyFloat

/-!
# Python's `str.strip`, `str.split`, `str.splitlines` and `str.join`

On lists of characters; `str.split(sep)` of a single character is `List.splitOn`. `isSpace` is `str.isspace` of one
character, and the line ends are those of `str.splitlines`: every line end is white space, but not conversely.

Results:
* `strip_split`, `stripped_strip`, `strip_of_stripped`: `strip` takes white space off both ends, and no more;
* `splitOn_append`: two texts side by side share an item where they meet;
* `splitlines_of_unbroken`, `visible_splitlines`: a text without line ends is its only line, and the lines of a text
  have its visible characters;
* `stripped_join`, `visible_join`: lines joined by blanks.
-/

namespace SenseVoice.Lib.Python

open PyFloat

/-! ## `strip` -/

section Strip

variable {p : Char → Bool} {cs as bs : List Char}

/-- Neither the first nor the last character is one that `p` accepts. -/
structure Stripped (p : Char → Bool) (cs : List Char) : Prop where
  head : ∀ c ∈ cs.head?, p c = false
  last : ∀ c ∈ cs.getLast?, p c = false

theorem dropWhile_of_head (h : ∀ c ∈ cs.head?, p c = false) : cs.dropWhile p = cs := by
  cases cs with
  | nil => rfl
  | cons c cs => exact List.dropWhile_cons_of_neg (by rw [h c rfl]; exact Bool.false_ne_true)

theorem head_dropWhile {c : Char} (h : c ∈ (cs.dropWhile p).head?) : p c = false := by
  induction cs with
  | nil => exact absurd h (by simp)
  | cons d cs ih =>
    by_cases hd : p d = true
    · rw [List.dropWhile_cons_of_pos hd] at h
      exact ih h
    · rw [List.dropWhile_cons_of_neg hd] at h
      obtain rfl := Option.mem_some_iff.mp h
      exact Bool.eq_false_iff.mpr hd

/-- What `strip` takes off. -/
theorem strip_split (p : Char → Bool) (cs : List Char) :
    ∃ as bs, cs = as ++ strip p cs ++ bs ∧ (∀ c ∈ as, p c = true) ∧ ∀ c ∈ bs, p c = true := by
  have hleft := List.takeWhile_append_dropWhile (p := p) (l := cs)
  have hright := List.takeWhile_append_dropWhile (p := p) (l := (cs.dropWhile p).reverse)
  refine ⟨cs.takeWhile p, ((cs.dropWhile p).reverse.takeWhile p).reverse, ?_, fun c hc => List.mem_takeWhile_imp hc,
    fun c hc => List.mem_takeWhile_imp (List.mem_reverse.mp hc)⟩
  unfold strip
  rw [List.append_assoc, ← List.reverse_append, hright, List.reverse_reverse, hleft]

theorem mem_of_mem_strip {c : Char} (h : c ∈ strip p cs) : c ∈ cs := by
  obtain ⟨as, bs, hsplit, -⟩ := strip_split p cs
  rw [hsplit]
  exact List.mem_append_left _ (List.mem_append_right _ h)

theorem stripped_strip (p : Char → Bool) (cs : List Char) : Stripped p (strip p cs) where
  head c hc := by
    obtain ⟨t, ht⟩ : ∃ t, cs.dropWhile p = strip p cs ++ t := by
      refine ⟨((cs.dropWhile p).reverse.takeWhile p).reverse, ?_⟩
      unfold strip
      rw [← List.reverse_append, List.takeWhile_append_dropWhile, List.reverse_reverse]
    refine head_dropWhile (show c ∈ (cs.dropWhile p).head? from ?_)
    rw [ht]
    cases hs : strip p cs with
    | nil =>
      rw [hs] at hc
      exact absurd hc (by simp)
    | cons d ds =>
      rw [hs] at hc
      exact hc
  last c hc := by
    unfold strip at hc
    rw [List.getLast?_reverse] at hc
    exact head_dropWhile hc

theorem strip_of_stripped (h : Stripped p cs) : strip p cs = cs := by
  unfold strip
  rw [dropWhile_of_head h.head, dropWhile_of_head, List.reverse_reverse]
  intro c hc
  rw [List.head?_reverse] at hc
  exact h.last c hc

theorem strip_append_left (has : ∀ c ∈ as, p c = true) (cs : List Char) : strip p (as ++ cs) = strip p cs := by
  unfold strip
  rw [List.dropWhile_append_of_pos has]

theorem dropWhile_append_of_ne_nil (h : cs.dropWhile p ≠ []) (bs : List Char) :
    (cs ++ bs).dropWhile p = cs.dropWhile p ++ bs := by
  rw [List.dropWhile_append, if_neg (by simpa using h)]

theorem strip_append_right (hbs : ∀ c ∈ bs, p c = true) (cs : List Char) : strip p (cs ++ bs) = strip p cs := by
  by_cases h : cs.dropWhile p = []
  · have hall : ∀ c ∈ cs ++ bs, p c = true := fun c hc =>
      (List.mem_append.mp hc).elim (fun hc => List.dropWhile_eq_nil_iff.mp h c hc) (hbs c)
    unfold strip
    rw [h, List.dropWhile_eq_nil_iff.mpr hall]
  · unfold strip
    rw [dropWhile_append_of_ne_nil h, List.reverse_append,
      List.dropWhile_append_of_pos fun c hc => hbs c (List.mem_reverse.mp hc)]

/-- `strip` keeps the characters that it does not look for. -/
theorem filter_strip (p : Char → Bool) (cs : List Char) : (strip p cs).filter (!p ·) = cs.filter (!p ·) := by
  obtain ⟨as, bs, hsplit, has, hbs⟩ := strip_split p cs
  have hnone : ∀ l : List Char, (∀ c ∈ l, p c = true) → l.filter (!p ·) = [] := fun l hl =>
    List.filter_eq_nil_iff.mpr fun c hc => by simp [hl c hc]
  conv_rhs => rw [hsplit]
  rw [List.filter_append, List.filter_append, hnone as has, hnone bs hbs, List.nil_append, List.append_nil]

/-- A text that begins and ends with texts of other characters. -/
theorem stripped_append (ms : List Char) (hne : as ≠ []) (has : ∀ c ∈ as, p c = false) (hne' : bs ≠ [])
    (hbs : ∀ c ∈ bs, p c = false) : Stripped p (as ++ ms ++ bs) where
  head c hc := by
    rw [List.append_assoc, List.head?_append_of_ne_nil _ hne] at hc
    exact has c (List.mem_of_mem_head? hc)
  last c hc := by
    rw [List.getLast?_append_of_ne_nil _ hne'] at hc
    exact hbs c (List.mem_of_mem_getLast? hc)

/-- A fact about each character of a text, by evaluation. -/
theorem forall_mem_of_all {P : Char → Prop} [DecidablePred P] (h : cs.all (fun c => decide (P c)) = true) :
    ∀ c ∈ cs, P c := fun c hc => of_decide_eq_true (List.all_eq_true.mp h c hc)

theorem stripped_of_forall (h : ∀ c ∈ cs, p c = false) : Stripped p cs where
  head c hc := h c (List.mem_of_mem_head? hc)
  last c hc := h c (List.mem_of_mem_getLast? hc)

end Strip

/-! ## `split` -/

section Split

variable {α : Type} [BEq α] [LawfulBEq α] {a : α}

/-- A text without separators is put in front of the first item. -/
theorem splitOn_append_of_not_mem {g : List α} (h : a ∉ g) (ys : List α) :
    (g ++ ys).splitOn a = (ys.splitOn a).modifyHead (g ++ ·) := by
  induction g with
  | nil => cases hys : ys.splitOn a <;> simp [hys]
  | cons x g ih =>
    obtain ⟨hx, hg⟩ := List.ne_and_not_mem_of_not_mem_cons h
    rw [List.cons_append, List.splitOn_cons_eq_if_modifyHead, if_neg (by simpa using hx.symm), ih hg,
      List.modifyHead_modifyHead]
    rfl

/-- The last item of the first text and the first item of the second become one. -/
theorem splitOn_append (a : α) (xs : List α) :
    ∃ init last, ∀ ys, (xs ++ ys).splitOn a = init ++ (ys.splitOn a).modifyHead (last ++ ·) := by
  induction xs with
  | nil => exact ⟨[], [], fun ys => splitOn_append_of_not_mem List.not_mem_nil ys⟩
  | cons x xs ih =>
    obtain ⟨init, last, h⟩ := ih
    by_cases hx : x = a
    · refine ⟨[] :: init, last, fun ys => ?_⟩
      rw [List.cons_append, List.splitOn_cons_eq_if_modifyHead, if_pos (by simpa using hx), h, List.cons_append]
    · have hstep : ∀ ys, (x :: xs ++ ys).splitOn a =
          (init ++ (ys.splitOn a).modifyHead (last ++ ·)).modifyHead (x :: ·) := fun ys => by
        rw [List.cons_append, List.splitOn_cons_eq_if_modifyHead, if_neg (by simpa using hx), h]
      cases init with
      | nil =>
        refine ⟨[], x :: last, fun ys => ?_⟩
        rw [hstep, List.nil_append, List.modifyHead_modifyHead]
        rfl
      | cons item init => exact ⟨(x :: item) :: init, last, hstep⟩

end Split

/-! ## `splitlines` -/

/-- `str.isspace` of a character. -/
def isSpace (c : Char) : Bool :=
  (9 ≤ c.toNat && c.toNat ≤ 13) || (0x1C ≤ c.toNat && c.toNat ≤ 0x20) || c.toNat == 0x85 || c.toNat == 0xA0 ||
    c.toNat == 0x1680 || (0x2000 ≤ c.toNat && c.toNat ≤ 0x200A) || c.toNat == 0x2028 || c.toNat == 0x2029 ||
    c.toNat == 0x202F || c.toNat == 0x205F || c.toNat == 0x3000

/-- The line ends of `str.splitlines`. -/
def isLineBreak (c : Char) : Bool :=
  (10 ≤ c.toNat && c.toNat ≤ 13) || (0x1C ≤ c.toNat && c.toNat ≤ 0x1E) || c.toNat == 0x85 || c.toNat == 0x2028 ||
    c.toNat == 0x2029

/-- `splitlines`, with the line so far. -/
def splitlinesFrom : List Char → List Char → List (List Char)
  | line, [] => if line = [] then [] else [line]
  | line, '\r' :: '\n' :: cs => line :: splitlinesFrom [] cs
  | line, c :: cs => if isLineBreak c then line :: splitlinesFrom [] cs else splitlinesFrom (line ++ [c]) cs

/-- `str.splitlines`. -/
def splitlines (cs : List Char) : List (List Char) := splitlinesFrom [] cs

/-- The characters that are not white space. -/
def visible (cs : List Char) : List Char := cs.filter (!isSpace ·)

/-- `sep.join(lines)`. -/
def join (sep : List Char) (lines : List (List Char)) : List Char := sep.intercalate lines

section Lines

variable {cs : List Char} {lines : List (List Char)}

theorem isSpace_of_isLineBreak {c : Char} (h : isLineBreak c = true) : isSpace c = true := by
  simp only [isLineBreak, isSpace, Bool.or_eq_true, Bool.and_eq_true, decide_eq_true_eq, beq_iff_eq] at h ⊢
  omega

theorem visible_append (cs ds : List Char) : visible (cs ++ ds) = visible cs ++ visible ds := List.filter_append ..

/-- No line has a line end. -/
theorem unbroken_splitlinesFrom (line cs : List Char) (h : ∀ c ∈ line, isLineBreak c = false) :
    ∀ l ∈ splitlinesFrom line cs, ∀ c ∈ l, isLineBreak c = false := by
  induction line, cs using splitlinesFrom.induct with
  | case1 => simp [splitlinesFrom]
  | case2 line hne =>
    rw [splitlinesFrom, if_neg hne]
    intro l hl
    rw [List.mem_singleton.mp hl]
    exact h
  | case3 line cs ih =>
    rw [splitlinesFrom]
    exact List.forall_mem_cons.mpr ⟨h, ih fun c hc => absurd hc List.not_mem_nil⟩
  | case4 line c cs hcrlf hbreak ih =>
    rw [splitlinesFrom, if_pos hbreak]
    · exact List.forall_mem_cons.mpr ⟨h, ih fun c hc => absurd hc List.not_mem_nil⟩
    · exact hcrlf
  | case5 line c cs hcrlf hbreak ih =>
    rw [splitlinesFrom, if_neg hbreak]
    · refine ih fun d hd => ?_
      rcases List.mem_append.mp hd with hd | hd
      · exact h d hd
      · rw [List.mem_singleton.mp hd]
        exact Bool.eq_false_iff.mpr hbreak
    · exact hcrlf

theorem splitlinesFrom_of_unbroken (line cs : List Char) (h : ∀ c ∈ cs, isLineBreak c = false)
    (hne : line ++ cs ≠ []) : splitlinesFrom line cs = [line ++ cs] := by
  induction line, cs using splitlinesFrom.induct with
  | case1 => exact absurd rfl hne
  | case2 line hline => rw [splitlinesFrom, if_neg hline, List.append_nil]
  | case3 line cs ih => exact absurd (h '\r' List.mem_cons_self) (by decide)
  | case4 line c cs hcrlf hbreak ih =>
    rw [h c List.mem_cons_self] at hbreak
    exact absurd hbreak Bool.false_ne_true
  | case5 line c cs hcrlf hbreak ih =>
    rw [splitlinesFrom, if_neg hbreak, ih (fun d hd => h d (List.mem_cons_of_mem c hd)) (by simp),
      List.append_assoc, List.singleton_append]
    exact hcrlf

/-- A text without line ends is its only line. -/
theorem splitlines_of_unbroken (h : ∀ c ∈ cs, isLineBreak c = false) (hne : cs ≠ []) : splitlines cs = [cs] :=
  splitlinesFrom_of_unbroken [] cs h hne

theorem visible_eq_nil (h : ∀ c ∈ cs, isSpace c = true) : visible cs = [] :=
  List.filter_eq_nil_iff.mpr fun c hc => by simp [h c hc]

theorem visible_cons_of_isSpace {c : Char} (h : isSpace c = true) (cs : List Char) : visible (c :: cs) = visible cs :=
  List.filter_cons_of_neg (by simp [h])

theorem visible_splitlinesFrom (line cs : List Char) :
    visible (splitlinesFrom line cs).flatten = visible line ++ visible cs := by
  induction line, cs using splitlinesFrom.induct with
  | case1 => rfl
  | case2 line hne => simp [splitlinesFrom, hne, visible]
  | case3 line cs ih =>
    rw [splitlinesFrom, List.flatten_cons, visible_append, ih, visible_cons_of_isSpace (by decide),
      visible_cons_of_isSpace (by decide)]
    rfl
  | case4 line c cs hcrlf hbreak ih =>
    rw [splitlinesFrom, if_pos hbreak, List.flatten_cons, visible_append, ih,
      visible_cons_of_isSpace (isSpace_of_isLineBreak hbreak)]
    · rfl
    · exact hcrlf
  | case5 line c cs hcrlf hbreak ih =>
    rw [splitlinesFrom, if_neg hbreak, ih, visible_append, List.append_assoc, ← visible_append,
      List.singleton_append]
    exact hcrlf

/-- The lines have the visible characters of the text. -/
theorem visible_splitlines (cs : List Char) : visible (splitlines cs).flatten = visible cs :=
  visible_splitlinesFrom [] cs

/-! ## `join` -/

theorem join_cons_cons (sep l l' : List Char) (lines : List (List Char)) :
    join sep (l :: l' :: lines) = l ++ sep ++ join sep (l' :: lines) := by
  simp [join, List.intercalate]

theorem join_singleton (sep l : List Char) : join sep [l] = l := by
  simp [join, List.intercalate]

/-- What is joined is of the separator or of a line. -/
theorem mem_join {c : Char} {sep : List Char} (h : c ∈ join sep lines) : c ∈ sep ∨ ∃ l ∈ lines, c ∈ l := by
  induction lines with
  | nil => exact absurd h List.not_mem_nil
  | cons l lines ih =>
    cases lines with
    | nil =>
      rw [join_singleton] at h
      exact Or.inr ⟨l, List.mem_cons_self, h⟩
    | cons l' lines =>
      rw [join_cons_cons, List.mem_append, List.mem_append] at h
      rcases h with (hl | hsep) | hrest
      · exact Or.inr ⟨l, List.mem_cons_self, hl⟩
      · exact Or.inl hsep
      · exact (ih hrest).imp_right fun ⟨m, hm, hc⟩ => ⟨m, List.mem_cons_of_mem l hm, hc⟩

/-- Joined by white space, the lines keep their visible characters. -/
theorem visible_join {sep : List Char} (hsep : ∀ c ∈ sep, isSpace c = true) (lines : List (List Char)) :
    visible (join sep lines) = visible lines.flatten := by
  induction lines with
  | nil => rfl
  | cons l lines ih =>
    cases lines with
    | nil => rw [join_singleton, List.flatten_singleton]
    | cons l' lines =>
      change _ = visible (l ++ (l' :: lines).flatten)
      rw [join_cons_cons, visible_append, visible_append, visible_append, ih, visible_eq_nil hsep, List.append_nil]

/-- Lines that begin and end with no white space are joined to such a text. -/
theorem stripped_join {p : Char → Bool} {sep : List Char} (h : ∀ l ∈ lines, l ≠ [] ∧ Stripped p l) :
    Stripped p (join sep lines) ∧ (lines ≠ [] → join sep lines ≠ []) := by
  induction lines with
  | nil => exact ⟨⟨by simp [join, List.intercalate], by simp [join, List.intercalate]⟩, fun hne => absurd rfl hne⟩
  | cons l lines ih =>
    obtain ⟨hl, hstripped⟩ := h l List.mem_cons_self
    cases lines with
    | nil =>
      rw [join_singleton]
      exact ⟨hstripped, fun _ => hl⟩
    | cons l' lines =>
      obtain ⟨hrest, hne⟩ := ih fun m hm => h m (List.mem_cons_of_mem l hm)
      rw [join_cons_cons]
      refine ⟨⟨fun c hc => ?_, fun c hc => ?_⟩, fun _ => by simp [hl]⟩
      · rw [List.append_assoc, List.head?_append_of_ne_nil _ hl] at hc
        exact hstripped.head c hc
      · rw [List.getLast?_append_of_ne_nil _ (hne (List.cons_ne_nil _ _))] at hc
        exact hrest.last c hc

end Lines

end SenseVoice.Lib.Python
