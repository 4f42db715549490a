import SenseVoice.Bridge.ServerTiming
import SenseVoice.Lib.PyDecimal

/-!
# Well-formed `Server-Timing` headers

What `parse_server_timing` makes of the headers of the grammar it is for: metrics separated by `,`, each a name and
parameters behind `;`, with spaces and tabs around both separators. A parameter is a `dur` with a decimal, plain or
quoted, or another one with a token or a quoted string.

* The grammar is a data type (`Header`), whose values cannot be ill formed; `Header.text` writes one out.
* `parse_server_timing` cuts at every separator, also inside a quoted string. `Header.entries` are the pieces of the
  header without white space, cut so, and `Reads` says what a piece is taken for.
* Of the Unicode database only what it says of ASCII is used (`Database`).

Results:
* `parseServerTiming_text`: white space around separators makes no difference;
* `readable_of_unquoted`: without separators inside quoted strings every piece is read as it is meant;
* **`right_iff_readable`**: the durations are returned exactly if every one is read from some piece and every piece
  that is misread is followed by one that is read right.
-/

namespace SenseVoice.Bridge.TimingHeader

open Lib Python PyFloat

/-! ## The grammar -/

/-- Letters, digits, `-` and `_`. -/
def isNameChar (c : Char) : Bool := c.isAlphanum || c == '-' || c == '_'

/-- The characters of a token. -/
def isTokenChar (c : Char) : Bool := c.isAlphanum || ("!#$%&'*+-.^_`|~".toList.contains c)

/-- The characters that stand for themselves in a quoted string; `"` and the backslash do not. -/
def isQuotedText (c : Char) : Bool :=
  c == '\t' || c == ' ' || c == '!' || (0x23 ≤ c.toNat && c.toNat ≤ 0x5B) ||
    (0x5D ≤ c.toNat && c.toNat ≤ 0x7E) || 0x80 ≤ c.toNat

/-- The characters that may follow a backslash in a quoted string. -/
def isQuotable (c : Char) : Bool := c == '\t' || (0x20 ≤ c.toNat && c.toNat ≤ 0x7E) || 0x80 ≤ c.toNat

/-- A text of at least one character, all of which `p` accepts. -/
structure Word (p : Char → Bool) where
  text : List Char
  nonempty : text ≠ []
  accepted : ∀ c ∈ text, p c = true

/-- A character of a quoted string, by itself or behind a backslash. -/
inductive QuotedChar where
  | plain (c : Char) (allowed : isQuotedText c = true)
  | pair (c : Char) (allowed : isQuotable c = true)

/-- The text of a character of a quoted string. -/
def QuotedChar.text : QuotedChar → List Char
  | .plain c _ => [c]
  | .pair c _ => ['\\', c]

/-- A text in quotes. -/
def inQuotes (text : List Char) : List Char := '"' :: (text ++ ['"'])

/-- The value of a parameter other than `dur`. -/
inductive ParamValue where
  | token (value : Word isTokenChar)
  | quoted (value : List QuotedChar)

/-- The text of a value. -/
def ParamValue.text : ParamValue → List Char
  | .token value => value.text
  | .quoted value => inQuotes (value.flatMap QuotedChar.text)

/-- A parameter. -/
inductive Param where
  | dur (value : PlainDecimal) (quoted : Bool)
  | other (name : Word isTokenChar) (value : ParamValue) (differs : name.text ≠ "dur".toList)

/-- The text of a parameter. -/
def Param.text : Param → List Char
  | .dur value quoted => "dur=".toList ++ if quoted then inQuotes value.text else value.text
  | .other name value _ => name.text ++ '=' :: value.text

/-- The duration of a `dur`. -/
def Param.duration : Param → Option PyFloat
  | .dur value _ => some (ofRat false value.value)
  | .other _ _ _ => none

/-- A metric, with at most one `dur`. -/
structure Metric where
  name : Word isNameChar
  params : List Param
  oneDur : (params.filterMap Param.duration).length ≤ 1

/-- The duration of a metric. -/
def Metric.duration (m : Metric) : Option PyFloat := m.params.findSome? Param.duration

/-- Optional white space. -/
structure Ows where
  text : List Char
  blank : ∀ c ∈ text, c = ' ' ∨ c = '\t'

/-- No white space. -/
def Ows.none : Ows := ⟨[], fun _ h => absurd h List.not_mem_nil⟩

/-- The white space around the separators: before the parameters of each metric, and behind each metric. -/
structure Spacing where
  semicolon : ℕ → ℕ → Ows × Ows
  comma : ℕ → Ows × Ows

/-- The spacing from the next metric on. -/
def Spacing.next (s : Spacing) : Spacing := ⟨fun i => s.semicolon (i + 1), fun i => s.comma (i + 1)⟩

/-- No white space at all. -/
def Spacing.none : Spacing := ⟨fun _ _ => (.none, .none), fun _ => (.none, .none)⟩

/-- A separator with white space around it. -/
def spaced (gap : Ows × Ows) (sep : Char) : List Char := gap.1.text ++ sep :: gap.2.text

/-- The parameters of a metric. -/
def writeParams (gap : ℕ → Ows × Ows) : List Param → List Char
  | [] => []
  | p :: ps => spaced (gap 0) ';' ++ (p.text ++ writeParams (fun i => gap (i + 1)) ps)

/-- A metric. -/
def Metric.write (gap : ℕ → Ows × Ows) (m : Metric) : List Char := m.name.text ++ writeParams gap m.params

/-- A metric without white space. -/
def Metric.plain (m : Metric) : List Char := m.write fun _ => (.none, .none)

/-- The metrics of a header. -/
def writeMetrics (s : Spacing) : List Metric → List Char
  | [] => []
  | [m] => m.write (s.semicolon 0)
  | m :: m' :: ms => m.write (s.semicolon 0) ++ (spaced (s.comma 0) ',' ++ writeMetrics s.next (m' :: ms))

/-- A header: metrics with different names, and white space. -/
structure Header where
  metrics : List Metric
  distinct : (metrics.map fun m => m.name.text).Nodup
  spacing : Spacing

/-- The text of a header. -/
def Header.text (h : Header) : String := String.ofList (writeMetrics h.spacing h.metrics)

/-- The header has a metric with this name and duration. -/
def Header.Gives (h : Header) (name : String) (duration : PyFloat) : Prop :=
  ∃ m ∈ h.metrics, String.ofList m.name.text = name ∧ m.duration = some duration

/-- `parse_server_timing` returns the durations of the header. -/
def Header.Right (u : Unicode) (h : Header) : Prop :=
  ∀ name duration, (name, duration) ∈ parseServerTiming u h.text ↔ h.Gives name duration

/-! ## What a piece is taken for -/

/-- The header without white space, cut at every comma. -/
def Header.entries (h : Header) : List (List Char) := (writeMetrics .none h.metrics).splitOn ','

/-- A part that is read as a duration: `dur=` and a number, with or without quotes. -/
def IsDur (u : Unicode) (part : List Char) (duration : PyFloat) : Prop :=
  ∃ text, durText part = some text ∧ float u text = some duration

/-- A piece, cut at every semicolon, is a name, parts that are no duration, and a duration that is not negative. -/
def Reads (u : Unicode) (entry : List Char) (name : String) (duration : PyFloat) : Prop :=
  ∃ first others part rest, entryParts u entry = first :: (others ++ part :: rest) ∧ String.ofList first = name ∧
    isMetricName u first = true ∧ (∀ other ∈ others, ∀ d, ¬IsDur u other d) ∧ IsDur u part duration ∧
    duration.isNonneg = true

/-- Every duration is read from some piece, and behind a piece that is misread its metric is read right. -/
structure Readable (u : Unicode) (h : Header) : Prop where
  supplied : ∀ name duration, h.Gives name duration → ∃ entry ∈ h.entries, Reads u entry name duration
  corrected : ∀ before entry after, h.entries = before ++ entry :: after → ∀ name wrong, Reads u entry name wrong →
    ¬h.Gives name wrong → ∃ later ∈ after, ∃ duration, h.Gives name duration ∧ Reads u later name duration

/-- What is used of the Unicode database. -/
structure Database extends Unicode where
  blank : isSpace ' ' = true ∧ isSpace '\t' = true
  visible : ∀ c, '!' ≤ c → c ≤ '~' → isSpace c = false
  alnum : ∀ c, c.isAlphanum = true → isAlnum c = true

section Entries

variable {u : Unicode} {entry : List Char} {name : String} {duration : PyFloat}

theorem exists_isDur {part : List Char} :
    ((durText part).any fun text => (float u text).isSome) = true ↔ ∃ d, IsDur u part d := by
  simp only [Option.any_eq_true, Option.isSome_iff_exists, IsDur]
  exact ⟨fun ⟨text, htext, d, hd⟩ => ⟨d, text, htext, hd⟩, fun ⟨d, text, htext, hd⟩ => ⟨text, htext, d, hd⟩⟩

/-- The parameters up to the first that is a duration. -/
theorem readableDur_eq_some {parameters : List (List Char)} {text : List Char} :
    readableDur u parameters = some text ↔ ∃ others part rest, parameters = others ++ part :: rest ∧
      durText part = some text ∧ (float u text).isSome = true ∧ ∀ other ∈ others, ∀ d, ¬IsDur u other d := by
  rw [readableDur, List.find?_filterMap]
  constructor
  · intro h
    obtain ⟨part, hfind, htext⟩ := Option.bind_eq_some_iff.mp h
    obtain ⟨hpart, others, rest, hsplit, hothers⟩ := List.find?_eq_some_iff_append.mp hfind
    refine ⟨others, part, rest, hsplit, htext, by simpa [htext] using hpart, fun other hother d hd => ?_⟩
    have hno := hothers other hother
    rw [exists_isDur.mpr ⟨d, hd⟩] at hno
    exact absurd hno (by decide)
  · rintro ⟨others, part, rest, hsplit, htext, hsome, hothers⟩
    refine Option.bind_eq_some_iff.mpr ⟨part, ?_, htext⟩
    refine List.find?_eq_some_iff_append.mpr
      ⟨by simpa [htext] using hsome, others, rest, hsplit, fun other hother => ?_⟩
    rw [Bool.not_eq_true', ← Bool.not_eq_true, exists_isDur]
    rintro ⟨d, hd⟩
    exact hothers other hother d hd

/-- **`Reads` is what the loop's body does with a piece.** -/
theorem entryMetric_iff_reads : entryMetric u entry = some (name, duration) ↔ Reads u entry name duration := by
  rw [entryMetric_eq_some]
  unfold entrySays Reads
  cases hparts : entryParts u entry with
  | nil => simp
  | cons first parameters =>
    constructor
    · rintro ⟨first', text, hsaid, hfloat, hnonneg, hname⟩
      simp only at hsaid
      split at hsaid
      · rename_i hmetric
        obtain ⟨text', hdur, heq⟩ := Option.map_eq_some_iff.mp hsaid
        obtain ⟨rfl, rfl⟩ := Prod.mk.inj heq
        obtain ⟨others, part, rest, rfl, htext, -, hothers⟩ := readableDur_eq_some.mp hdur
        exact ⟨first, others, part, rest, rfl, hname.symm, hmetric, hothers, ⟨text', htext, hfloat⟩, hnonneg⟩
      · exact absurd hsaid (by simp)
    · rintro ⟨first', others, part, rest, hcons, hname, hmetric, hothers, ⟨text, htext, hfloat⟩, hnonneg⟩
      obtain ⟨rfl, rfl⟩ := List.cons.inj hcons
      have hdur : readableDur u (others ++ part :: rest) = some text :=
        readableDur_eq_some.mpr ⟨others, part, rest, rfl, htext, by rw [hfloat]; rfl, hothers⟩
      exact ⟨first, text, by simp [hmetric, hdur], hfloat, hnonneg, hname.symm⟩

end Entries

/-! ## White space around separators -/

section Blank

variable {u : Unicode}

theorem entryParts_append (entry entry' : List Char) :
    entryParts u (entry ++ ';' :: entry') = entryParts u entry ++ entryParts u entry' := by
  unfold entryParts
  rw [List.splitOn_append_cons_self, List.map_append, List.filter_append]

/-- White space at the end of an entry. -/
theorem entryParts_append_blank {g : List Char} (hg : ∀ c ∈ g, u.isSpace c = true) (hsep : ';' ∉ g)
    (entry : List Char) : entryParts u (entry ++ g) = entryParts u entry := by
  obtain ⟨init, last, hsplit⟩ := splitOn_append ';' entry
  have hplain := hsplit []
  have hblank := hsplit g
  rw [List.append_nil, List.splitOn_nil] at hplain
  rw [List.splitOn_eq_singleton hsep] at hblank
  unfold entryParts
  rw [hplain, hblank]
  simp only [List.modifyHead_cons, List.append_nil, List.map_append, List.map_cons, List.map_nil,
    strip_append_right hg]

/-- White space at the beginning of an entry. -/
theorem entryParts_blank_append {g : List Char} (hg : ∀ c ∈ g, u.isSpace c = true) (hsep : ';' ∉ g)
    (entry : List Char) : entryParts u (g ++ entry) = entryParts u entry := by
  unfold entryParts
  rw [splitOn_append_of_not_mem hsep]
  cases entry.splitOn ';' with
  | nil => rfl
  | cons first rest => simp only [List.modifyHead_cons, List.map_cons, strip_append_left hg]

/-- The parts of the pieces of a text. -/
def pieceParts (u : Unicode) (text : List Char) : List (List (List Char)) := (text.splitOn ',').map (entryParts u)

/-- The loop sees the parts only. -/
theorem foldl_recordEntry_congr {entries entries' : List (List Char)}
    (h : entries.map (entryParts u) = entries'.map (entryParts u)) (result : List (String × PyFloat)) :
    entries.foldl (recordEntry u) result = entries'.foldl (recordEntry u) result := by
  induction entries generalizing entries' result with
  | nil =>
    rw [List.map_nil] at h
    rw [List.map_eq_nil_iff.mp h.symm]
  | cons entry entries ih =>
    cases entries' with
    | nil => exact absurd h (by simp)
    | cons entry' entries' =>
      rw [List.map_cons, List.map_cons] at h
      obtain ⟨hentry, hrest⟩ := List.cons.inj h
      have hsame : recordEntry u result entry = recordEntry u result entry' := by
        unfold recordEntry entryMetric entrySays
        rw [hentry]
      rw [List.foldl_cons, List.foldl_cons, hsame, ih hrest]

end Blank

section Spacing

variable (db : Database)

theorem Ows.isSpace {c : Char} (g : Ows) (h : c ∈ g.text) : db.isSpace c = true := by
  rcases g.blank c h with rfl | rfl
  · exact db.blank.1
  · exact db.blank.2

theorem Ows.not_mem {c : Char} (g : Ows) (hc : c ≠ ' ' ∧ c ≠ '\t') : c ∉ g.text := fun h =>
  (g.blank c h).elim hc.1 hc.2

/-- White space around a semicolon. -/
theorem pieceParts_semicolon (xs ys : List Char) (gap : Ows × Ows) :
    pieceParts db.toUnicode (xs ++ (spaced gap ';' ++ ys)) = pieceParts db.toUnicode (xs ++ ';' :: ys) := by
  obtain ⟨init, last, hsplit⟩ := splitOn_append ',' xs
  have hgap : ',' ∉ spaced gap ';' := by
    have hleft := gap.1.not_mem (c := ',') (by decide)
    have hright := gap.2.not_mem (c := ',') (by decide)
    simp [spaced, hleft, hright]
  unfold pieceParts
  rw [hsplit, hsplit, splitOn_append_of_not_mem hgap, List.splitOn_cons_eq_if_modifyHead, if_neg (by decide)]
  cases ys.splitOn ',' with
  | nil => rfl
  | cons first rest =>
    simp only [List.modifyHead_cons, List.map_append, List.map_cons]
    have hparts : entryParts db.toUnicode (last ++ (spaced gap ';' ++ first)) =
        entryParts db.toUnicode (last ++ ';' :: first) := by
      have hassoc : last ++ (spaced gap ';' ++ first) = (last ++ gap.1.text) ++ ';' :: (gap.2.text ++ first) := by
        simp [spaced]
      rw [hassoc, entryParts_append, entryParts_append,
        entryParts_append_blank (fun c => gap.1.isSpace db) (gap.1.not_mem (by decide)),
        entryParts_blank_append (fun c => gap.2.isSpace db) (gap.2.not_mem (by decide))]
    rw [hparts]

/-- White space around a comma. -/
theorem pieceParts_comma (xs ys : List Char) (gap : Ows × Ows) :
    pieceParts db.toUnicode (xs ++ (spaced gap ',' ++ ys)) = pieceParts db.toUnicode (xs ++ ',' :: ys) := by
  obtain ⟨init, last, hsplit⟩ := splitOn_append ',' xs
  have hassoc : xs ++ (spaced gap ',' ++ ys) = (xs ++ gap.1.text) ++ ',' :: (gap.2.text ++ ys) := by
    simp [spaced]
  have hplain := hsplit []
  rw [List.append_nil, List.splitOn_nil] at hplain
  have hleft : (xs ++ gap.1.text).splitOn ',' = init ++ [last ++ gap.1.text] := by
    rw [hsplit, List.splitOn_eq_singleton (gap.1.not_mem (by decide))]
    rfl
  unfold pieceParts
  rw [hassoc, List.splitOn_append_cons_self, List.splitOn_append_cons_self, hleft, hplain,
    splitOn_append_of_not_mem (gap.2.not_mem (by decide))]
  simp only [List.modifyHead_cons, List.append_nil, List.map_append, List.map_cons, List.map_nil,
    entryParts_append_blank (fun c => gap.1.isSpace db) (gap.1.not_mem (by decide) : ';' ∉ gap.1.text)]
  cases ys.splitOn ',' with
  | nil => rfl
  | cons first rest =>
    simp only [List.modifyHead_cons, List.map_cons,
      entryParts_blank_append (fun c => gap.2.isSpace db) (gap.2.not_mem (by decide) : ';' ∉ gap.2.text)]

theorem pieceParts_writeParams (xs ys : List Char) (gap : ℕ → Ows × Ows) (ps : List Param) :
    pieceParts db.toUnicode (xs ++ (writeParams gap ps ++ ys)) =
      pieceParts db.toUnicode (xs ++ (writeParams (fun _ => (.none, .none)) ps ++ ys)) := by
  induction ps generalizing xs gap with
  | nil => rfl
  | cons p ps ih =>
    have hleft : ∀ gap : ℕ → Ows × Ows, xs ++ (writeParams gap (p :: ps) ++ ys) =
        xs ++ (spaced (gap 0) ';' ++ (p.text ++ (writeParams (fun i => gap (i + 1)) ps ++ ys))) := fun gap => by
      simp [writeParams]
    have hright : ∀ zs : List Char, xs ++ ';' :: (p.text ++ zs) = (xs ++ ';' :: p.text) ++ zs := fun zs => by simp
    rw [hleft, hleft, pieceParts_semicolon, pieceParts_semicolon, hright, hright, ih]

theorem pieceParts_writeMetrics (xs : List Char) (s : Spacing) (ms : List Metric) :
    pieceParts db.toUnicode (xs ++ writeMetrics s ms) = pieceParts db.toUnicode (xs ++ writeMetrics .none ms) := by
  induction ms generalizing xs s with
  | nil => rfl
  | cons m ms ih =>
    have hmetric : ∀ (gap : ℕ → Ows × Ows) (ys : List Char),
        pieceParts db.toUnicode (xs ++ (m.write gap ++ ys)) =
          pieceParts db.toUnicode (xs ++ (m.plain ++ ys)) := fun gap ys => by
      have hassoc : ∀ gap, xs ++ (m.write gap ++ ys) = (xs ++ m.name.text) ++ (writeParams gap m.params ++ ys) :=
        fun gap => by simp [Metric.write]
      rw [Metric.plain, hassoc, hassoc, pieceParts_writeParams]
    cases ms with
    | nil =>
      have hlast := hmetric (s.semicolon 0) []
      rwa [List.append_nil, List.append_nil] at hlast
    | cons m' ms =>
      have hcomma : ∀ s : Spacing, pieceParts db.toUnicode (xs ++ writeMetrics s (m :: m' :: ms)) =
          pieceParts db.toUnicode
            ((xs ++ m.plain ++ [',']) ++ writeMetrics .none (m' :: ms)) := fun s => by
        have hone : ∀ ys zs : List Char, ys ++ ',' :: zs = (ys ++ [',']) ++ zs := fun ys zs => by simp
        rw [writeMetrics, hmetric, ← List.append_assoc, pieceParts_comma, hone, ih]
      exact (hcomma s).trans (hcomma .none).symm

/-- **White space around separators makes no difference.** -/
theorem parseServerTiming_text (h : Header) :
    parseServerTiming db.toUnicode h.text = h.entries.foldl (recordEntry db.toUnicode) [] := by
  rw [parseServerTiming, Header.text, String.toList_ofList]
  exact foldl_recordEntry_congr (pieceParts_writeMetrics db [] h.spacing h.metrics) []

end Spacing

/-! ## Which headers are read right -/

section Readings

variable {u : Unicode} {name : String} {duration : PyFloat}

/-- The last piece that gives a metric a value. -/
theorem exists_last (entries : List (List Char)) (h : ∃ entry ∈ entries, ∃ d, Reads u entry name d) :
    ∃ before entry after d, entries = before ++ entry :: after ∧ Reads u entry name d ∧ Silent u name after := by
  induction entries with
  | nil =>
    obtain ⟨entry, hentry, -⟩ := h
    exact absurd hentry List.not_mem_nil
  | cons entry entries ih =>
    by_cases hlater : ∃ later ∈ entries, ∃ d, Reads u later name d
    · obtain ⟨before, last, after, d, rfl, hlast⟩ := ih hlater
      exact ⟨entry :: before, last, after, d, rfl, hlast⟩
    · have hsilent : Silent u name entries := fun later hmem d hd =>
        hlater ⟨later, hmem, d, entryMetric_iff_reads.mp hd⟩
      obtain ⟨first, hfirst, d, hd⟩ := h
      rcases List.mem_cons.mp hfirst with rfl | hfirst
      · exact ⟨[], first, entries, d, rfl, hd, hsilent⟩
      · exact (hlater ⟨first, hfirst, d, hd⟩).elim

/-- The names of a header are different. -/
theorem Header.Gives.unique {h : Header} {d d' : PyFloat} (hd : h.Gives name d) (hd' : h.Gives name d') : d = d' := by
  obtain ⟨m, hm, hname, hduration⟩ := hd
  obtain ⟨m', hm', hname', hduration'⟩ := hd'
  have htext : m.name.text = m'.name.text := String.ofList_injective (hname.trans hname'.symm)
  obtain rfl := List.inj_on_of_nodup_map h.distinct hm hm' htext
  exact Option.some.inj (hduration.symm.trans hduration')

/-- What is returned is read from a piece, and from no later one. -/
theorem mem_parseServerTiming_text (db : Database) (h : Header) :
    (name, duration) ∈ parseServerTiming db.toUnicode h.text ↔ ∃ before entry after,
      h.entries = before ++ entry :: after ∧ Reads db.toUnicode entry name duration ∧
        Silent db.toUnicode name after := by
  rw [parseServerTiming_text, mem_foldl_entries]
  simp only [entryMetric_iff_reads, List.not_mem_nil, false_and, or_false]

theorem right_of_readable {db : Database} {h : Header} (hr : Readable db.toUnicode h) : h.Right db.toUnicode := by
  intro name duration
  rw [mem_parseServerTiming_text]
  constructor
  · rintro ⟨before, entry, after, hsplit, hreads, hsilent⟩
    by_contra hwrong
    obtain ⟨later, hlater, d, -, hd⟩ := hr.corrected before entry after hsplit name duration hreads hwrong
    exact hsilent later hlater d (entryMetric_iff_reads.mpr hd)
  · intro hgives
    obtain ⟨entry, hentry, hreads⟩ := hr.supplied name duration hgives
    obtain ⟨before, last, after, d, hsplit, hlast, hsilent⟩ := exists_last h.entries ⟨entry, hentry, duration, hreads⟩
    -- The last piece is read right: behind a misread one there would be another.
    have hright : h.Gives name d := by
      by_contra hwrong
      obtain ⟨later, hlater, d', -, hd'⟩ := hr.corrected before last after hsplit name d hlast hwrong
      exact hsilent later hlater d' (entryMetric_iff_reads.mpr hd')
    rw [hgives.unique hright]
    exact ⟨before, last, after, hsplit, hlast, hsilent⟩

theorem readable_of_right {db : Database} {h : Header} (hright : h.Right db.toUnicode) : Readable db.toUnicode h where
  supplied name duration hgives := by
    obtain ⟨before, entry, after, hsplit, hreads, -⟩ :=
      (mem_parseServerTiming_text db h).mp ((hright name duration).mpr hgives)
    exact ⟨entry, by rw [hsplit]; exact List.mem_append_right _ List.mem_cons_self, hreads⟩
  corrected before entry after hsplit name wrong hreads hwrong := by
    obtain ⟨before', last, after', d, hlast, hd, hsilent⟩ :=
      exists_last (entry :: after) ⟨entry, List.mem_cons_self, wrong, hreads⟩
    have hgives : h.Gives name d := (hright name d).mp <| (mem_parseServerTiming_text db h).mpr
      ⟨before ++ before', last, after', by rw [hsplit, hlast, List.append_assoc], hd, hsilent⟩
    cases before' with
    | nil =>
      -- The misread piece itself would be the last.
      obtain ⟨rfl, rfl⟩ := List.cons.inj hlast
      have hboth := (entryMetric_iff_reads.mpr hreads).symm.trans (entryMetric_iff_reads.mpr hd)
      rw [(Prod.mk.inj (Option.some.inj hboth)).2] at hwrong
      exact (hwrong hgives).elim
    | cons first before' =>
      obtain ⟨rfl, rfl⟩ := List.cons.inj hlast
      exact ⟨last, List.mem_append_right _ List.mem_cons_self, d, hgives, hd⟩

end Readings

/-! ## Headers without separators inside quoted strings -/

/-- No value has a separator, and a name with a `dur` has a letter or a digit. -/
structure Header.Unquoted (h : Header) : Prop where
  values : ∀ m ∈ h.metrics, ∀ p ∈ m.params, ',' ∉ p.text ∧ ';' ∉ p.text
  names : ∀ m ∈ h.metrics, m.duration.isSome = true → ∃ c ∈ m.name.text, c.isAlphanum = true

section Unquoted

theorem writeParams_plain (x : List Char) (ps : List Param) :
    x ++ writeParams (fun _ => (.none, .none)) ps = join [';'] (x :: ps.map Param.text) := by
  induction ps generalizing x with
  | nil => rw [writeParams, List.append_nil, List.map_nil, join_singleton]
  | cons p ps ih =>
    rw [List.map_cons, join_cons_cons, ← ih, writeParams]
    simp [spaced, Ows.none]

theorem Metric.plain_eq (m : Metric) : m.plain = join [';'] (m.name.text :: m.params.map Param.text) :=
  writeParams_plain m.name.text m.params

theorem writeMetrics_plain (ms : List Metric) : writeMetrics .none ms = join [','] (ms.map Metric.plain) := by
  induction ms with
  | nil => rfl
  | cons m ms ih =>
    cases ms with
    | nil => rw [List.map_singleton, join_singleton]; rfl
    | cons m' ms =>
      have hstep : writeMetrics .none (m :: m' :: ms) = m.plain ++ [','] ++ writeMetrics .none (m' :: ms) := by
        rw [List.append_assoc]
        rfl
      rw [hstep, ih]
      exact (join_cons_cons [','] m.plain m'.plain (ms.map Metric.plain)).symm

/-- Letters and digits are visible ASCII. -/
theorem isAlphanum_visible {c : Char} (h : c.isAlphanum = true) : '!' ≤ c ∧ c ≤ '~' := by
  have hrange : ∀ low high : UInt32, 33 ≤ low.toNat → high.toNat ≤ 126 → low ≤ c.val ∧ c.val ≤ high →
      '!' ≤ c ∧ c ≤ '~' := fun low high hlow hhigh hc =>
    ⟨UInt32.le_iff_toNat_le.mpr (Nat.le_trans hlow (UInt32.le_iff_toNat_le.mp hc.1)),
      UInt32.le_iff_toNat_le.mpr (Nat.le_trans (UInt32.le_iff_toNat_le.mp hc.2) hhigh)⟩
  rcases Bool.or_eq_true_iff.mp h with hletter | hdigit
  · rcases Bool.or_eq_true_iff.mp hletter with hupper | hlower
    · exact hrange 'A'.val 'Z'.val (by decide) (by decide) (of_decide_eq_true hupper)
    · exact hrange 'a'.val 'z'.val (by decide) (by decide)
        ((Bool.and_eq_true_iff.mp hlower).imp of_decide_eq_true of_decide_eq_true)
  · exact hrange '0'.val '9'.val (by decide) (by decide)
      ((Bool.and_eq_true_iff.mp hdigit).imp of_decide_eq_true of_decide_eq_true)

theorem isNameChar_visible {c : Char} (h : isNameChar c = true) : '!' ≤ c ∧ c ≤ '~' := by
  simp only [isNameChar, Bool.or_eq_true, beq_iff_eq] at h
  rcases h with (h | rfl) | rfl
  · exact isAlphanum_visible h
  · decide
  · decide

theorem isTokenChar_visible {c : Char} (h : isTokenChar c = true) : '!' ≤ c ∧ c ≤ '~' := by
  have hother : ∀ c ∈ "!#$%&'*+-.^_`|~".toList, '!' ≤ c ∧ c ≤ '~' := forall_mem_of_all (by decide)
  rcases Bool.or_eq_true_iff.mp h with h | h
  · exact isAlphanum_visible h
  · exact hother c (List.contains_iff_mem.mp h)

/-- Tokens have no `=`. -/
theorem isTokenChar_ne {c : Char} (h : isTokenChar c = true) : c ≠ '=' := by
  rintro rfl
  exact absurd h (by decide)

variable {db : Database}

theorem Database.not_isSpace {c : Char} (db : Database) (h : '!' ≤ c ∧ c ≤ '~') : db.isSpace c = false :=
  db.visible c h.1 h.2

theorem isDecimalText_visible {d : PlainDecimal} {c : Char} (h : c ∈ d.text) : '!' ≤ c ∧ c ≤ '~' := by
  rcases PlainDecimal.mem_text h with hdigit | rfl
  · exact isAlphanum_visible (Bool.or_eq_true_iff.mpr (Or.inr hdigit))
  · decide

theorem stripped_name (db : Database) (m : Metric) : Stripped db.isSpace m.name.text :=
  stripped_of_forall fun c hc => db.not_isSpace (isNameChar_visible (m.name.accepted c hc))

/-- A parameter begins with a letter or a token and ends with a quote, a token or a decimal. -/
theorem stripped_param (db : Database) (p : Param) : Stripped db.isSpace p.text ∧ p.text ≠ [] := by
  have hquote : ∀ c ∈ ['"'], db.isSpace c = false := fun c hc =>
    db.not_isSpace (by rw [List.mem_singleton.mp hc]; decide)
  cases p with
  | dur value quoted =>
    have hdur : ∀ c ∈ "dur=".toList, db.isSpace c = false := by
      have hall : ∀ c ∈ "dur=".toList, '!' ≤ c ∧ c ≤ '~' := forall_mem_of_all (by decide)
      exact fun c hc => db.not_isSpace (hall c hc)
    have hvalue : ∀ c ∈ value.text, db.isSpace c = false := fun c hc => db.not_isSpace (isDecimalText_visible hc)
    refine ⟨?_, by simp [Param.text]⟩
    cases quoted with
    | true =>
      have hstripped := stripped_append ('"' :: value.text) (by decide) hdur (List.cons_ne_nil '"' []) hquote
      simpa [Param.text, inQuotes] using hstripped
    | false =>
      have hstripped := stripped_append [] (by decide) hdur value.text_ne_nil hvalue
      simpa [Param.text] using hstripped
  | other name value differs =>
    have hname : ∀ c ∈ name.text, db.isSpace c = false := fun c hc =>
      db.not_isSpace (isTokenChar_visible (name.accepted c hc))
    refine ⟨?_, by simp [Param.text]⟩
    cases value with
    | token value =>
      have hvalue : ∀ c ∈ value.text, db.isSpace c = false := fun c hc =>
        db.not_isSpace (isTokenChar_visible (value.accepted c hc))
      have hstripped := stripped_append ['='] name.nonempty hname value.nonempty hvalue
      simpa [Param.text, ParamValue.text] using hstripped
    | quoted value =>
      have hstripped := stripped_append ('=' :: '"' :: value.flatMap QuotedChar.text) name.nonempty hname
        (List.cons_ne_nil '"' []) hquote
      simpa [Param.text, ParamValue.text, inQuotes] using hstripped

/-- A metric without a `;` in its values is cut into its name and its parameters. -/
theorem entryParts_plain {m : Metric} (h : ∀ p ∈ m.params, ';' ∉ p.text) :
    entryParts db.toUnicode m.plain = m.name.text :: m.params.map Param.text := by
  have hname : ';' ∉ m.name.text := fun hmem => absurd (m.name.accepted _ hmem) (by decide)
  have hparts : ∀ part ∈ m.name.text :: m.params.map Param.text,
      ';' ∉ part ∧ Stripped db.isSpace part ∧ part ≠ [] := by
    intro part hpart
    rcases List.mem_cons.mp hpart with rfl | hpart
    · exact ⟨hname, stripped_name db m, m.name.nonempty⟩
    · obtain ⟨p, hp, rfl⟩ := List.mem_map.mp hpart
      exact ⟨h p hp, stripped_param db p⟩
  rw [entryParts, m.plain_eq, join, List.splitOn_intercalate _ (fun part hpart => (hparts part hpart).1)
    (List.cons_ne_nil _ _)]
  generalize m.name.text :: m.params.map Param.text = parts at hparts
  have hstrip : parts.map (PyFloat.strip db.isSpace) = parts := by
    conv_rhs => rw [← List.map_id parts]
    exact List.map_congr_left fun part hpart => strip_of_stripped (hparts part hpart).2.1
  rw [hstrip]
  exact List.filter_eq_self.mpr fun part hpart => decide_eq_true (hparts part hpart).2.2

/-- A `dur` is read as its value, and no other parameter as a duration. -/
theorem isDur_text {u : Unicode} {p : Param} {d : PyFloat} : IsDur u p.text d ↔ p.duration = some d := by
  cases p with
  | dur value quoted =>
    have htext : durText (Param.dur value quoted).text = some value.text := by
      have hnoquote : ∀ c ∈ value.text, (c == '"') = false := fun c hc => by
        rcases PlainDecimal.mem_text hc with hdigit | rfl
        · rw [beq_eq_false_iff_ne]
          rintro rfl
          exact absurd hdigit (by decide)
        · rfl
      have hstrip : PyFloat.strip (· == '"') value.text = value.text := strip_of_stripped (stripped_of_forall hnoquote)
      cases quoted with
      | true =>
        have hquotes : PyFloat.strip (· == '"') (['"'] ++ (value.text ++ ['"'])) = value.text := by
          rw [strip_append_left (by simp), strip_append_right (by simp), hstrip]
        exact congrArg some hquotes
      | false => exact congrArg some hstrip
    unfold IsDur
    rw [htext]
    simp only [Option.some.injEq, exists_eq_left', PlainDecimal.float_text, Param.duration]
  | other name value differs =>
    have htext : durText (Param.other name value differs).text = none := by
      unfold durText
      rw [if_neg]
      intro hpre
      obtain ⟨t, ht⟩ := List.isPrefixOf_iff_prefix.mp hpre
      -- Up to the first `=` stands the name.
      have hname : (name.text ++ '=' :: value.text).takeWhile (· ≠ '=') = name.text := by
        rw [List.takeWhile_append_of_pos fun c hc => decide_eq_true (isTokenChar_ne (name.accepted c hc))]
        simp
      have hdur : ("dur=".toList ++ t).takeWhile (· ≠ '=') = "dur".toList := rfl
      rw [Param.text] at ht
      rw [ht, hname] at hdur
      exact differs hdur
    unfold IsDur
    rw [htext]
    simp [Param.duration]

/-- **A metric without a `;` in its values is read as it is meant**, if its name is taken for one. -/
theorem reads_plain {m : Metric} (h : ∀ p ∈ m.params, ';' ∉ p.text) {name : String} {d : PyFloat} :
    Reads db.toUnicode m.plain name d ↔
      String.ofList m.name.text = name ∧ isMetricName db.toUnicode m.name.text = true ∧ m.duration = some d := by
  unfold Reads
  rw [entryParts_plain h, Metric.duration, List.findSome?_eq_some_iff]
  constructor
  · rintro ⟨first, others, part, rest, hcons, hname, hmetric, hothers, hpart, -⟩
    obtain ⟨rfl, hparams⟩ := List.cons.inj hcons
    obtain ⟨ps, ps', hsplit, rfl, hps'⟩ := List.map_eq_append_iff.mp hparams
    obtain ⟨p, ps'', rfl, rfl, rfl⟩ := List.map_eq_cons_iff.mp hps'
    refine ⟨hname, hmetric, ps, p, ps'', hsplit, isDur_text.mp hpart, fun q hq => ?_⟩
    by_contra hsome
    obtain ⟨d', hd'⟩ := Option.ne_none_iff_exists'.mp hsome
    exact hothers q.text (List.mem_map_of_mem hq) d' (isDur_text.mpr hd')
  · rintro ⟨hname, hmetric, ps, p, ps', hsplit, hp, hps⟩
    have hnonneg : d.isNonneg = true := by
      cases p with
      | dur value quoted =>
        obtain rfl := Option.some.inj hp
        exact isNonneg_ofRat value.value
      | other => exact absurd hp (by simp [Param.duration])
    refine ⟨m.name.text, ps.map Param.text, p.text, ps'.map Param.text, ?_, hname, hmetric, ?_, isDur_text.mpr hp,
      hnonneg⟩
    · rw [hsplit, List.map_append, List.map_cons]
    · intro other hother d' hd'
      obtain ⟨q, hq, rfl⟩ := List.mem_map.mp hother
      rw [isDur_text, hps q hq] at hd'
      exact absurd hd' (by simp)

/-- A name with a letter or a digit is taken for a name. -/
theorem isMetricName_text (db : Database) {name : Word isNameChar} (h : ∃ c ∈ name.text, c.isAlphanum = true) :
    isMetricName db.toUnicode name.text = true := by
  have hrest : ∀ c, c ∈ (name.text.filter (· ≠ '-')).filter (· ≠ '_') ↔ c ∈ name.text ∧ c ≠ '_' ∧ c ≠ '-' :=
    fun c => by simp
  unfold isMetricName
  rw [Bool.and_eq_true_iff, Bool.not_eq_true', List.isEmpty_eq_false_iff]
  constructor
  · obtain ⟨c, hc, halnum⟩ := h
    refine List.ne_nil_of_mem ((hrest c).mpr ⟨hc, ?_, ?_⟩) <;> rintro rfl <;> exact absurd halnum (by decide)
  · refine List.all_eq_true.mpr fun c hc => db.alnum c ?_
    obtain ⟨hc, hline, hdash⟩ := (hrest c).mp hc
    have haccepted := name.accepted c hc
    simpa [isNameChar, hdash, hline] using haccepted

/-- Without a comma in a value, the pieces of a header are its metrics. -/
theorem entries_plain {h : Header} (hvalues : ∀ m ∈ h.metrics, ∀ p ∈ m.params, ',' ∉ p.text) (hne : h.metrics ≠ []) :
    h.entries = h.metrics.map Metric.plain := by
  rw [Header.entries, writeMetrics_plain]
  refine List.splitOn_intercalate ',' (fun text htext hmem => ?_) (by simpa using hne)
  obtain ⟨m, hm, rfl⟩ := List.mem_map.mp htext
  rw [m.plain_eq] at hmem
  rcases mem_join hmem with hsep | ⟨part, hpart, hcomma⟩
  · exact absurd hsep (by decide)
  · rcases List.mem_cons.mp hpart with rfl | hpart
    · exact absurd (m.name.accepted _ hcomma) (by decide)
    · obtain ⟨p, hp, rfl⟩ := List.mem_map.mp hpart
      exact hvalues m hm p hp hcomma

/-- **Only separators inside quoted strings and names of dashes are misread.** -/
theorem readable_of_unquoted (db : Database) {h : Header} (hu : h.Unquoted) : Readable db.toUnicode h := by
  by_cases hne : h.metrics = []
  · have hentries : h.entries = [[]] := by
      rw [Header.entries, hne]
      rfl
    have hnothing : ∀ entry ∈ h.entries, ∀ name d, ¬Reads db.toUnicode entry name d := by
      intro entry hentry name d hreads
      rw [hentries, List.mem_singleton] at hentry
      subst hentry
      obtain ⟨first, others, part, rest, hparts, -⟩ := hreads
      exact absurd hparts (by simp [entryParts, PyFloat.strip])
    constructor
    · rintro name d ⟨m, hm, -⟩
      rw [hne] at hm
      exact absurd hm List.not_mem_nil
    · intro before entry after hsplit name wrong hreads
      exact (hnothing entry (by rw [hsplit]; exact List.mem_append_right _ List.mem_cons_self) name wrong hreads).elim
  · have hentries := entries_plain (fun m hm p hp => (hu.values m hm p hp).1) hne
    have hsemi : ∀ m ∈ h.metrics, ∀ p ∈ m.params, ';' ∉ p.text := fun m hm p hp => (hu.values m hm p hp).2
    constructor
    · rintro name d ⟨m, hm, hname, hd⟩
      have hmetric := isMetricName_text db (hu.names m hm (by rw [hd]; rfl))
      have hentry : m.plain ∈ h.entries := by
        rw [hentries]
        exact List.mem_map_of_mem hm
      exact ⟨m.plain, hentry, (reads_plain (hsemi m hm)).mpr ⟨hname, hmetric, hd⟩⟩
    · intro before entry after hsplit name wrong hreads hwrong
      have hentry : entry ∈ h.metrics.map Metric.plain := by
        rw [← hentries, hsplit]
        exact List.mem_append_right _ List.mem_cons_self
      obtain ⟨m, hm, rfl⟩ := List.mem_map.mp hentry
      obtain ⟨hname, -, hd⟩ := (reads_plain (hsemi m hm)).mp hreads
      exact (hwrong ⟨m, hm, hname, hd⟩).elim

end Unquoted

/-! ## The exact condition -/

/-- **The durations of a header are returned exactly if it is readable**, and it is readable if no quoted string has a
separator. -/
theorem right_iff_readable (db : Database) (h : Header) :
    (h.Right db.toUnicode ↔ Readable db.toUnicode h) ∧ (h.Unquoted → Readable db.toUnicode h) :=
  ⟨⟨readable_of_right, right_of_readable⟩, readable_of_unquoted db⟩

/-- The database as far as ASCII goes. -/
def asciiDatabase : Database where
  toUnicode := asciiUnicode
  blank := ⟨rfl, rfl⟩
  visible c hlow hhigh := by
    rw [Char.le_def, UInt32.le_iff_toNat_le] at hlow hhigh
    have hlow' : 33 ≤ c.toNat := hlow
    simp only [asciiUnicode, Bool.or_eq_false_iff, Bool.and_eq_false_iff, decide_eq_false_iff_not]
    omega
  alnum _ h := h

/-- `5`. -/
def five : PlainDecimal := ⟨['5'], none, forall_mem_of_all (by decide), by decide⟩

/-- `desc="a,b"`. -/
def aCommaB : Param :=
  .other ⟨"desc".toList, by decide, forall_mem_of_all (by decide)⟩
    (.quoted [.plain 'a' rfl, .plain ',' rfl, .plain 'b' rfl]) (by decide)

/-- `db;desc="a,b";dur=5`. -/
def quotedComma : Header where
  metrics := [⟨⟨"db".toList, by decide, forall_mem_of_all (by decide)⟩, [aCommaB, .dur five false], by decide⟩]
  distinct := by decide
  spacing := .none

/-- The comma in the description hides the duration. -/
theorem quoted_comma_hides :
    quotedComma.text = "db;desc=\"a,b\";dur=5" ∧ quotedComma.Gives "db" (ofRat false 5) ∧
      parseServerTiming asciiDatabase.toUnicode quotedComma.text = [] ∧
      ¬quotedComma.Right asciiDatabase.toUnicode := by
  have hgives : quotedComma.Gives "db" (ofRat false 5) := by
    have hfive : five.value = 5 := by simp [PlainDecimal.value, five, number, Nat.ofDigitChars]
    rw [← hfive]
    exact ⟨_, List.mem_singleton_self _, rfl, rfl⟩
  have hparse : parseServerTiming asciiDatabase.toUnicode quotedComma.text = [] := by decide
  refine ⟨by decide, hgives, hparse, fun hright => ?_⟩
  have hmem := (hright "db" (ofRat false 5)).mpr hgives
  rw [hparse] at hmem
  exact absurd hmem List.not_mem_nil

end SenseVoice.Bridge.TimingHeader
