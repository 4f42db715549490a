import SenseVoice.Lib.PyText

/-!
# The text that is spoken (`normalize_tts_text` in `bridge/bridge/tts.py`)

Model of `_has_cjk` and `normalize_tts_text`. A text is a `String`, so it has no lone surrogates. A translation table
is the list of its entries.

* `punctuation` is what the tables of a mode come to, and `rewritten` the characters they change.
* A text is `Normalized` if it is one line without white space around it and without characters to rewrite.

Results:
* `punctuation_eq_self_iff`: a mode changes exactly the characters of `rewritten`, and no result of a change;
* `normalizeTtsText_of_normalized`: a normalised text stays as it is;
* **`normalizeTtsText_idempotent`**: normalising twice is normalising once, a text without CJK stays as it is, and
  another one comes out normalised, with its visible characters rewritten one by one.
-/

namespace SenseVoice.Bridge

open Lib.Python

/-! ## `normalize_tts_text` -/

/-- `_CJK_TERMINATORS`. -/
def cjkTerminators : List (Char × Char) := [('?', '？'), ('!', '！')]

/-- `_CJK_COMMAS_TO_ASCII`. -/
def cjkCommasToAscii : List (Char × Char) := [('，', ','), ('；', ';'), ('、', ',')]

/-- `_ASCII_TO_CJK_FULL`. -/
def asciiToCjkFull : List (Char × Char) := [(',', '，'), (';', '；'), ('?', '？'), ('!', '！')]

/-- What a table makes of a character. -/
def image (table : List (Char × Char)) (c : Char) : Char := (table.lookup c).getD c

/-- `str.translate`. -/
def translate (table : List (Char × Char)) (text : List Char) : List Char := text.map (image table)

/-- `"一" <= char <= "鿿"`. -/
def isCjk (c : Char) : Bool := '一' ≤ c && c ≤ '鿿'

/-- `_has_cjk`. -/
def hasCjk (text : List Char) : Bool := text.any isCjk

/-- `[line.strip() for line in text.splitlines() if line.strip()]`. -/
def strippedLines (text : List Char) : List (List Char) :=
  ((splitlines text).map (PyFloat.strip isSpace)).filter (· ≠ [])

/-- The text as one line; without a line it stays as it is. -/
def collapse (text : List Char) : List Char :=
  if strippedLines text = [] then text else join [' '] (strippedLines text)

/-- `normalize_tts_text`. -/
def normalizeTtsText (text : String) (avoidCommaSplit : Bool) : String :=
  if hasCjk text.toList then
    let flow := collapse text.toList
    String.ofList <|
      if avoidCommaSplit then translate cjkCommasToAscii (translate cjkTerminators flow)
      else translate asciiToCjkFull flow
  else text

/-! ## Tables -/

/-- What the tables of a mode make of a character. -/
def punctuation (avoidCommaSplit : Bool) (c : Char) : Char :=
  if avoidCommaSplit then image cjkCommasToAscii (image cjkTerminators c) else image asciiToCjkFull c

/-- The characters a mode rewrites. -/
def rewritten (avoidCommaSplit : Bool) : List Char :=
  if avoidCommaSplit then ['?', '!', '，', '；', '、'] else [',', ';', '?', '!']

section Tables

variable (avoidCommaSplit : Bool) {c : Char}

theorem image_of_not_mem (table : List (Char × Char)) (h : c ∉ table.map Prod.fst) : image table c = c := by
  have hnone : table.lookup c = none := List.lookup_eq_none_iff.mpr fun e he =>
    bne_iff_ne.mpr fun heq => h (List.mem_map.mpr ⟨e, he, heq.symm⟩)
  rw [image, hnone, Option.getD_none]

theorem punctuation_of_not_mem (h : c ∉ rewritten avoidCommaSplit) : punctuation avoidCommaSplit c = c := by
  cases avoidCommaSplit with
  | true =>
    have hterminator : image cjkTerminators c = c := image_of_not_mem _ fun hmem => h (by
      simp [cjkTerminators, rewritten] at hmem ⊢
      exact hmem.elim Or.inl fun hmem => Or.inr (Or.inl hmem))
    have hcomma : image cjkCommasToAscii c = c := image_of_not_mem _ fun hmem => h (by
      simp [cjkCommasToAscii, rewritten] at hmem ⊢
      exact Or.inr (Or.inr hmem))
    simp only [punctuation, if_true, hterminator, hcomma]
  | false =>
    exact image_of_not_mem asciiToCjkFull h

/-- A fact about a character and what a mode makes of it, from the characters it rewrites. -/
theorem punctuation_cases {P : Char → Char → Prop}
    (hsame : ∀ c, c ∉ rewritten avoidCommaSplit → P c c)
    (hchange : ∀ c ∈ rewritten avoidCommaSplit, P c (punctuation avoidCommaSplit c)) (c : Char) :
    P c (punctuation avoidCommaSplit c) := by
  by_cases hmem : c ∈ rewritten avoidCommaSplit
  · exact hchange c hmem
  · rw [punctuation_of_not_mem avoidCommaSplit hmem]
    exact hsame c hmem

/-- No mode makes a character that it rewrites. -/
theorem punctuation_not_mem (c : Char) : punctuation avoidCommaSplit c ∉ rewritten avoidCommaSplit :=
  punctuation_cases avoidCommaSplit (P := fun _ d => d ∉ rewritten avoidCommaSplit) (fun _ h => h)
    (forall_mem_of_all (by cases avoidCommaSplit <;> decide)) c

/-- **A mode rewrites its characters, and only them.** -/
theorem punctuation_eq_self_iff : punctuation avoidCommaSplit c = c ↔ c ∉ rewritten avoidCommaSplit :=
  ⟨fun h => h ▸ punctuation_not_mem avoidCommaSplit c, punctuation_of_not_mem avoidCommaSplit⟩

/-- Rewriting neither makes nor takes white space, line ends and ideographs. -/
theorem kind_punctuation (c : Char) :
    isSpace (punctuation avoidCommaSplit c) = isSpace c ∧
      isLineBreak (punctuation avoidCommaSplit c) = isLineBreak c ∧ isCjk (punctuation avoidCommaSplit c) = isCjk c :=
  punctuation_cases avoidCommaSplit
    (P := fun c d => isSpace d = isSpace c ∧ isLineBreak d = isLineBreak c ∧ isCjk d = isCjk c)
    (fun _ _ => ⟨rfl, rfl, rfl⟩) (forall_mem_of_all (by cases avoidCommaSplit <;> decide)) c

end Tables

/-! ## Texts -/

section Texts

variable {avoidCommaSplit : Bool} {text : List Char}

theorem normalizeTtsText_of_cjk {text : String} (h : hasCjk text.toList = true) :
    (normalizeTtsText text avoidCommaSplit).toList = (collapse text.toList).map (punctuation avoidCommaSplit) := by
  rw [normalizeTtsText, if_pos h, String.toList_ofList]
  cases avoidCommaSplit with
  | true => exact List.map_map
  | false => rfl

theorem normalizeTtsText_of_no_cjk {text : String} (h : hasCjk text.toList = false) :
    normalizeTtsText text avoidCommaSplit = text := by
  rw [normalizeTtsText, if_neg (by simp [h])]

/-- Taking off white space and dropping empty lines keeps what is visible. -/
theorem visible_strippedLines (text : List Char) : visible (strippedLines text).flatten = visible text := by
  have hlines : ∀ lines : List (List Char),
      visible (((lines.map (PyFloat.strip isSpace)).filter (· ≠ [])).flatten) = visible lines.flatten := by
    intro lines
    induction lines with
    | nil => rfl
    | cons l lines ih =>
      have hl : visible (PyFloat.strip isSpace l) = visible l := filter_strip isSpace l
      rw [List.map_cons, List.flatten_cons, visible_append, ← hl, ← ih]
      by_cases hempty : PyFloat.strip isSpace l = []
      · rw [List.filter_cons_of_neg (by simp [hempty]), hempty]
        rfl
      · rw [List.filter_cons_of_pos (by simp [hempty]), List.flatten_cons, visible_append]
  rw [strippedLines, hlines, visible_splitlines]

theorem visible_collapse (text : List Char) : visible (collapse text) = visible text := by
  unfold collapse
  split
  · rfl
  · rw [visible_join (forall_mem_of_all (by decide)), visible_strippedLines]

/-- A text with something visible has a line that is not empty. -/
theorem strippedLines_ne_nil (h : visible text ≠ []) : strippedLines text ≠ [] := by
  intro hnil
  have hvisible := visible_strippedLines text
  rw [hnil] at hvisible
  exact h hvisible.symm

/-- One line without white space around it. -/
structure OneLine (text : List Char) : Prop where
  unbroken : ∀ c ∈ text, isLineBreak c = false
  stripped : Stripped isSpace text

theorem oneLine_collapse (h : visible text ≠ []) : OneLine (collapse text) := by
  have hlines := strippedLines_ne_nil h
  have hmem : ∀ l ∈ strippedLines text, l ≠ [] ∧ ∃ line ∈ splitlines text, PyFloat.strip isSpace line = l := by
    intro l hl
    obtain ⟨hl, hne⟩ := List.mem_filter.mp hl
    exact ⟨of_decide_eq_true hne, List.mem_map.mp hl⟩
  rw [collapse, if_neg hlines]
  constructor
  · intro c hc
    rcases mem_join hc with hblank | ⟨l, hl, hc⟩
    · rw [List.mem_singleton.mp hblank]
      decide
    · obtain ⟨-, line, hline, rfl⟩ := hmem l hl
      exact unbroken_splitlinesFrom [] text (by simp) line hline c (mem_of_mem_strip hc)
  · refine (stripped_join fun l hl => ?_).1
    obtain ⟨hne, line, -, rfl⟩ := hmem l hl
    exact ⟨hne, stripped_strip isSpace line⟩

/-- One line is left as it is. -/
theorem OneLine.collapse_eq (h : OneLine text) : collapse text = text := by
  by_cases hempty : text = []
  · subst hempty
    rfl
  · have hlines : strippedLines text = [text] := by
      rw [strippedLines, splitlines_of_unbroken h.unbroken hempty, List.map_singleton, strip_of_stripped h.stripped,
        List.filter_cons_of_pos (by simp [hempty]), List.filter_nil]
    rw [collapse, hlines, if_neg (List.cons_ne_nil _ _), join_singleton]

theorem OneLine.map_punctuation (h : OneLine text) : OneLine (text.map (punctuation avoidCommaSplit)) := by
  have hkind := kind_punctuation avoidCommaSplit
  refine ⟨fun d hd => ?_, ⟨fun d hd => ?_, fun d hd => ?_⟩⟩
  · obtain ⟨c, hc, rfl⟩ := List.mem_map.mp hd
    rw [(hkind c).2.1]
    exact h.unbroken c hc
  · rw [List.head?_map] at hd
    obtain ⟨c, hc, rfl⟩ := Option.mem_map.mp hd
    rw [(hkind c).1]
    exact h.stripped.head c hc
  · rw [List.getLast?_map] at hd
    obtain ⟨c, hc, rfl⟩ := Option.mem_map.mp hd
    rw [(hkind c).1]
    exact h.stripped.last c hc

theorem visible_map_punctuation (text : List Char) :
    visible (text.map (punctuation avoidCommaSplit)) = (visible text).map (punctuation avoidCommaSplit) := by
  unfold visible
  rw [List.filter_map]
  congr 2
  funext c
  exact congrArg (!·) (kind_punctuation avoidCommaSplit c).1

end Texts

/-! ## What normalising comes to -/

/-- One line without white space around it, with no character that the mode rewrites. -/
structure Normalized (avoidCommaSplit : Bool) (text : List Char) : Prop extends OneLine text where
  unrewritten : ∀ c ∈ text, c ∉ rewritten avoidCommaSplit

/-- **A normalised text stays as it is.** -/
theorem normalizeTtsText_of_normalized {avoidCommaSplit : Bool} {text : String}
    (h : Normalized avoidCommaSplit text.toList) : normalizeTtsText text avoidCommaSplit = text := by
  cases hcjk : hasCjk text.toList with
  | false => exact normalizeTtsText_of_no_cjk hcjk
  | true =>
    rw [← String.toList_inj, normalizeTtsText_of_cjk hcjk, h.toOneLine.collapse_eq]
    conv_rhs => rw [← List.map_id text.toList]
    exact List.map_congr_left fun c hc => (punctuation_eq_self_iff avoidCommaSplit).mpr (h.unrewritten c hc)

/-- An ideograph is no white space. -/
theorem isSpace_of_isCjk {c : Char} (h : isCjk c = true) : isSpace c = false := by
  have hlow : 0x4E00 ≤ c.toNat := of_decide_eq_true (Bool.and_eq_true_iff.mp h).1
  simp only [isSpace, Bool.or_eq_false_iff, Bool.and_eq_false_iff, decide_eq_false_iff_not, beq_eq_false_iff_ne]
  omega

theorem visible_ne_nil_of_hasCjk {text : List Char} (h : hasCjk text = true) : visible text ≠ [] := by
  obtain ⟨c, hc, hcjk⟩ := List.any_eq_true.mp h
  exact List.ne_nil_of_mem (List.mem_filter.mpr ⟨hc, by rw [isSpace_of_isCjk hcjk]; rfl⟩)

/-- A text with an ideograph is normalised, with what is visible rewritten one by one. -/
theorem normalized_normalizeTtsText {avoidCommaSplit : Bool} {text : String} (h : hasCjk text.toList = true) :
    Normalized avoidCommaSplit (normalizeTtsText text avoidCommaSplit).toList ∧
      visible (normalizeTtsText text avoidCommaSplit).toList =
        (visible text.toList).map (punctuation avoidCommaSplit) := by
  rw [normalizeTtsText_of_cjk h]
  refine ⟨⟨(oneLine_collapse (visible_ne_nil_of_hasCjk h)).map_punctuation, fun d hd => ?_⟩, ?_⟩
  · obtain ⟨c, -, rfl⟩ := List.mem_map.mp hd
    exact punctuation_not_mem avoidCommaSplit c
  · rw [visible_map_punctuation, visible_collapse]

/-- **Normalising is idempotent and keeps the content**: a text without an ideograph stays as it is; another one comes
out as one line without white space around it and without a character that the mode rewrites, and its characters that
are not white space are those of the text, rewritten one by one. -/
theorem normalizeTtsText_idempotent (text : String) (avoidCommaSplit : Bool) :
    normalizeTtsText (normalizeTtsText text avoidCommaSplit) avoidCommaSplit = normalizeTtsText text avoidCommaSplit ∧
      (hasCjk text.toList = false → normalizeTtsText text avoidCommaSplit = text) ∧
      (hasCjk text.toList = true → Normalized avoidCommaSplit (normalizeTtsText text avoidCommaSplit).toList ∧
        visible (normalizeTtsText text avoidCommaSplit).toList =
          (visible text.toList).map (punctuation avoidCommaSplit)) := by
  refine ⟨?_, normalizeTtsText_of_no_cjk, normalized_normalizeTtsText⟩
  cases hcjk : hasCjk text.toList with
  | false => rw [normalizeTtsText_of_no_cjk hcjk, normalizeTtsText_of_no_cjk hcjk]
  | true => exact normalizeTtsText_of_normalized (normalized_normalizeTtsText hcjk).1

example : normalizeTtsText "第一行。\n 第二行，继续？ " true = "第一行。 第二行,继续？" := by decide

example : normalizeTtsText "你好,世界!好吗?" false = "你好，世界！好吗？" := by decide

end SenseVoice.Bridge
