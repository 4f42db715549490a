import Mathlib.Data.List.Lex
import SenseVoice.Json

/-!
# The text of a recognition response (`extract_text` in `bridge/bridge/sensevoice.py`)

Model of `extract_text` on a parsed response: a `dict` is an object (its keys are different), a `list` an array. The
depth of Python's stack is not modelled.

The abstract side are paths (`TextStep`): the first item of an array, or the field `data` or `output` of an object
without a text of its own. `textAt` is the text at the end of a path, and paths are in lexicographic order, `data`
before `output`.

Results:
* `extractText_object`: an object's own text, or the first text of its nested values;
* **`extractText_iff`**: `extract_text` returns the text at the first path that has one, and raises exactly if none has.
-/

namespace SenseVoice.Bridge

/-! ## `extract_text` -/

/-- `ValueError`. -/
structure ValueError where
  message : String
deriving DecidableEq

/-- What `extract_text` raises. -/
def noText : ValueError := ⟨"ASR response does not contain text"⟩

/-- The loop over `text`, `transcript` and `result`. -/
def ownText (fields : List (String × Value)) : Option String :=
  ["text", "transcript", "result"].findSome? fun key => (fields.lookup key).bind Value.asStr

/-- `payload.get(key)`, if it `is not None`. -/
def present (fields : List (String × Value)) (key : String) : Option Value :=
  match fields.lookup key with
  | some .null => none
  | value => value

/-- The values of the loop over `data` and `output`. -/
def nested (fields : List (String × Value)) : List Value := ["data", "output"].filterMap (present fields)

/-- That loop, with its `try` and `except ValueError`. -/
def firstText : List (Except ValueError String) → Except ValueError String
  | [] => .error noText
  | .ok text :: _ => .ok text
  | .error _ :: rest => firstText rest

theorem sizeOf_of_lookup {fields : List (String × Value)} {key : String} {value : Value}
    (h : fields.lookup key = some value) : sizeOf value < sizeOf fields := by
  induction fields with
  | nil => exact absurd h (by simp)
  | cons field rest ih =>
    obtain ⟨k, v⟩ := field
    rw [Value.lookup_cons_eq] at h
    simp only [List.cons.sizeOf_spec, Prod.mk.sizeOf_spec]
    split at h
    · obtain rfl := Option.some.inj h
      omega
    · have hrest := ih h
      omega

theorem lookup_of_present {fields : List (String × Value)} {key : String} {value : Value}
    (h : present fields key = some value) : fields.lookup key = some value := by
  unfold present at h
  split at h
  · exact absurd h (by simp)
  · exact h

theorem sizeOf_of_mem_nested {fields : List (String × Value)} {value : Value} (h : value ∈ nested fields) :
    sizeOf value < sizeOf fields := by
  obtain ⟨key, -, hkey⟩ := List.mem_filterMap.mp h
  exact sizeOf_of_lookup (lookup_of_present hkey)

/-- `extract_text`. -/
def extractText : Value → Except ValueError String
  | .string payload => .ok payload
  | .array (first :: _) => extractText first
  | .object fields =>
    match ownText fields with
    | some text => .ok text
    | none => firstText ((nested fields).attach.map fun value => extractText value.1)
  | _ => .error noText
termination_by payload => sizeOf payload
decreasing_by
  · simp only [Value.array.sizeOf_spec, List.cons.sizeOf_spec]
    omega
  · have hsize := sizeOf_of_mem_nested value.2
    simp only [Value.object.sizeOf_spec]
    omega

/-- An object: its own text, or the first text of its nested values. -/
theorem extractText_object (fields : List (String × Value)) :
    extractText (.object fields) =
      match ownText fields with
      | some text => .ok text
      | none => firstText ((nested fields).map extractText) := by
  rw [extractText, List.attach_map_val]

/-! ## Paths to a text -/

/-- A step of `extract_text` into a value. -/
inductive TextStep where
  | first
  | data
  | output
deriving DecidableEq

/-- `data` is tried before `output`. -/
def TextStep.rank : TextStep → ℕ
  | first => 0
  | data => 1
  | output => 2

/-- The value a step leads to. -/
def TextStep.next : TextStep → Value → Option Value
  | first, .array (item :: _) => some item
  | data, .object fields => if ownText fields = none then fields.lookup "data" else none
  | output, .object fields => if ownText fields = none then fields.lookup "output" else none
  | _, _ => none

/-- The text of a value itself. -/
def endText : Value → Option String
  | .string text => some text
  | .object fields => ownText fields
  | _ => none

/-- The text at the end of a path. -/
def textAt : List TextStep → Value → Option String
  | [], v => endText v
  | step :: path, v => (step.next v).bind (textAt path)

/-- The order of paths. -/
def Earlier : List TextStep → List TextStep → Prop := List.Lex fun a b => a.rank < b.rank

/-- The text at the first path that has one. -/
def FirstText (v : Value) (text : String) : Prop :=
  ∃ path, textAt path v = some text ∧ ∀ other, (textAt other v).isSome = true → path = other ∨ Earlier path other

variable {v w : Value} {text : String} {fields : List (String × Value)} {step : TextStep}

theorem rank_injective {a b : TextStep} (h : a.rank = b.rank) : a = b := by
  cases a <;> cases b <;> first | rfl | exact absurd h (by decide)

/-- A value without a text of its own whose steps lead to no text has none. -/
theorem textAt_eq_none (hend : endText v = none)
    (hstep : ∀ step path, textAt (step :: path) v = none) : ∀ path, textAt path v = none := by
  intro path
  cases path with
  | nil => exact hend
  | cons step path => exact hstep step path

/-- The first text behind a step is the first text, if no earlier step leads to one. -/
theorem FirstText.behind (hnext : step.next v = some w) (hend : endText v = none)
    (hearlier : ∀ other : TextStep, other.rank < step.rank → ∀ path, textAt (other :: path) v = none)
    (h : FirstText w text) : FirstText v text := by
  obtain ⟨path, hpath, hfirst⟩ := h
  have hat : ∀ path, textAt (step :: path) v = textAt path w := fun path => by
    rw [textAt, hnext, Option.bind_some]
  refine ⟨step :: path, by rw [hat, hpath], fun other hother => ?_⟩
  cases other with
  | nil =>
    rw [textAt, hend] at hother
    exact absurd hother (by simp)
  | cons other rest =>
    rcases lt_trichotomy other.rank step.rank with hlt | heq | hgt
    · rw [hearlier other hlt] at hother
      exact absurd hother (by simp)
    · obtain rfl := rank_injective heq
      rw [hat] at hother
      rcases hfirst rest hother with rfl | hlater
      · exact Or.inl rfl
      · exact Or.inr (List.Lex.cons hlater)
    · exact Or.inr (List.Lex.rel hgt)

theorem textAt_null (path : List TextStep) : textAt path .null = none :=
  textAt_eq_none rfl (fun step _ => by cases step <;> rfl) path

/-- A field that is missing or `None` leads to no text. -/
theorem textAt_absent {key : String} (hnext : step.next (.object fields) = fields.lookup key)
    (habsent : present fields key = none) (path : List TextStep) : textAt (step :: path) (.object fields) = none := by
  rw [textAt, hnext]
  unfold present at habsent
  split at habsent
  · rename_i hnull
    rw [hnull, Option.bind_some]
    exact textAt_null path
  · rw [habsent, Option.bind_none]

/-! ## What `extract_text` returns -/

/-- The result of a value: its first text, or the error if it has none. -/
def Describes (v : Value) : Except ValueError String → Prop
  | .ok text => FirstText v text
  | .error e => e = noText ∧ ∀ path, textAt path v = none

/-- The step leads to the value of the key, whose result is known. -/
theorem describes_firstText {rest : List (Except ValueError String)} {key : String}
    (hnext : step.next (.object fields) = fields.lookup key) (hown : ownText fields = none)
    (hearlier : ∀ other : TextStep, other.rank < step.rank → ∀ path, textAt (other :: path) (.object fields) = none)
    (hvalue : ∀ value, present fields key = some value → Describes value (extractText value))
    (hrest : (∀ path, textAt (step :: path) (.object fields) = none) → Describes (.object fields) (firstText rest)) :
    Describes (.object fields)
      (firstText (((present fields key).map extractText).toList ++ rest)) := by
  cases hpresent : present fields key with
  | none => exact hrest fun path => textAt_absent hnext hpresent path
  | some value =>
    have hlookup := hnext.trans (lookup_of_present hpresent)
    have hdescribes := hvalue value hpresent
    cases hresult : extractText value with
    | ok text =>
      rw [hresult] at hdescribes
      rw [Option.map_some, hresult]
      exact FirstText.behind hlookup hown hearlier hdescribes
    | error e =>
      rw [hresult] at hdescribes
      rw [Option.map_some, hresult]
      refine hrest fun path => ?_
      rw [textAt, hlookup, Option.bind_some]
      exact hdescribes.2 path

theorem nested_eq (fields : List (String × Value)) :
    (nested fields).map extractText =
      ((present fields "data").map extractText).toList ++ ((present fields "output").map extractText).toList := by
  unfold nested
  cases hdata : present fields "data" <;> cases houtput : present fields "output" <;> simp [hdata, houtput]

theorem mem_nested {key : String} (hkey : key ∈ ["data", "output"]) (h : present fields key = some v) :
    v ∈ nested fields := List.mem_filterMap.mpr ⟨key, hkey, h⟩

theorem describes_extractText (v : Value) : Describes v (extractText v) := by
  induction v using extractText.induct with
  | case1 payload =>
    rw [extractText]
    refine ⟨[], rfl, fun other hother => ?_⟩
    cases other with
    | nil => exact Or.inl rfl
    | cons step path => cases step <;> exact absurd hother (by simp [textAt, TextStep.next])
  | case2 first rest ih =>
    rw [extractText]
    have hlater : ∀ step : TextStep, step ≠ .first → ∀ path,
        textAt (step :: path) (.array (first :: rest)) = none := by
      intro step hstep path
      cases step with
      | first => exact absurd rfl hstep
      | _ => rfl
    cases hresult : extractText first with
    | ok text =>
      rw [hresult] at ih
      exact FirstText.behind (show TextStep.first.next _ = some first from rfl) rfl
        (fun other hother => absurd hother (Nat.not_lt_zero _)) ih
    | error e =>
      rw [hresult] at ih
      refine ⟨ih.1, textAt_eq_none rfl fun step path => ?_⟩
      by_cases hstep : step = .first
      · subst hstep
        exact ih.2 path
      · exact hlater step hstep path
  | case3 fields text hown =>
    rw [extractText_object, hown]
    refine ⟨[], hown, fun other hother => ?_⟩
    cases other with
    | nil => exact Or.inl rfl
    | cons step path => cases step <;> exact absurd hother (by simp [textAt, TextStep.next, hown])
  | case4 fields hown ih =>
    rw [extractText_object, hown]
    dsimp only
    rw [nested_eq]
    have hvalue : ∀ key ∈ ["data", "output"], ∀ value, present fields key = some value →
        Describes value (extractText value) := fun key hkey value hpresent => ih ⟨value, mem_nested hkey hpresent⟩
    -- `data`, and then `output`.
    have hnextData : TextStep.data.next (.object fields) = fields.lookup "data" := if_pos hown
    have hnextOutput : TextStep.output.next (.object fields) = fields.lookup "output" := if_pos hown
    refine describes_firstText hnextData hown ?_ (hvalue "data" (by simp)) fun hdata => ?_
    · intro other hother path
      cases other with
      | first => rfl
      | _ => exact absurd hother (by decide)
    rw [← List.append_nil (Option.toList _)]
    refine describes_firstText hnextOutput hown ?_ (hvalue "output" (by simp)) fun houtput => ?_
    · intro other hother path
      cases other with
      | first => rfl
      | data => exact hdata path
      | output => exact absurd hother (by decide)
    · refine ⟨rfl, textAt_eq_none hown fun step path => ?_⟩
      cases step with
      | first => rfl
      | data => exact hdata path
      | output => exact houtput path
  | case5 v hstring harray hobject =>
    cases v with
    | string payload => exact (hstring payload rfl).elim
    | object fields => exact (hobject fields rfl).elim
    | array items =>
      cases items with
      | nil =>
        rw [extractText]
        · exact ⟨rfl, textAt_eq_none rfl fun step _ => by cases step <;> rfl⟩
        all_goals simp
      | cons first rest => exact (harray first rest rfl).elim
    | _ =>
      rw [extractText]
      · exact ⟨rfl, textAt_eq_none rfl fun step _ => by cases step <;> rfl⟩
      all_goals simp

/-! ## Soundness and completeness -/

theorem Earlier.asymm {path path' : List TextStep} (h : Earlier path path') (h' : Earlier path' path) : False :=
  have : Std.Asymm fun a b : TextStep => a.rank < b.rank := ⟨fun _ _ => Nat.lt_asymm⟩
  Std.Asymm.asymm (r := List.Lex fun a b : TextStep => a.rank < b.rank) _ _ h h'

/-- Paths are ordered: two first texts are the same. -/
theorem FirstText.unique {text' : String} (h : FirstText v text) (h' : FirstText v text') : text = text' := by
  obtain ⟨path, hpath, hfirst⟩ := h
  obtain ⟨path', hpath', hfirst'⟩ := h'
  have hsame : path = path' := by
    rcases hfirst path' (by rw [hpath']; rfl) with heq | hlt
    · exact heq
    · rcases hfirst' path (by rw [hpath]; rfl) with heq | hgt
      · exact heq.symm
      · exact (Earlier.asymm hlt hgt).elim
  rw [hsame, hpath'] at hpath
  exact (Option.some.inj hpath).symm

/-- **`extract_text` is sound and complete**: it returns the text at the first path that has one, and raises, always
the same `ValueError`, exactly if no path has one. -/
theorem extractText_iff (v : Value) :
    (∀ text, extractText v = .ok text ↔ FirstText v text) ∧
      (∀ e, extractText v = .error e ↔ e = noText ∧ ∀ path, textAt path v = none) := by
  have hdescribes := describes_extractText v
  cases hresult : extractText v with
  | ok text =>
    rw [hresult] at hdescribes
    refine ⟨fun text' => ⟨fun h => ?_, fun h => ?_⟩, fun e => ⟨fun h => by simp at h, fun h => ?_⟩⟩
    · obtain rfl := Except.ok.inj h
      exact hdescribes
    · rw [hdescribes.unique h]
    · obtain ⟨path, hpath, -⟩ := hdescribes
      rw [h.2 path] at hpath
      exact absurd hpath (by simp)
  | error e =>
    rw [hresult] at hdescribes
    obtain ⟨rfl, hnone⟩ := hdescribes
    refine ⟨fun text => ⟨fun h => by simp at h, fun h => ?_⟩, fun e' => ⟨fun h => ?_, fun h => ?_⟩⟩
    · obtain ⟨path, hpath, -⟩ := h
      rw [hnone path] at hpath
      exact absurd hpath (by simp)
    · exact ⟨(Except.error.inj h).symm, hnone⟩
    · rw [h.1]

/-- A `data` field that holds no text does not hide `output`. -/
example : extractText (.object [("data", .object [("text", .null)]), ("output", .array [.string "测试"])]) =
    .ok "测试" := by
  have hdata : extractText (.object [("text", .null)]) = .error noText := by
    rw [extractText_object]
    rfl
  rw [extractText_object]
  change firstText [extractText (.object [("text", .null)]), extractText (.array [.string "测试"])] = _
  rw [hdata, extractText, extractText]
  rfl

end SenseVoice.Bridge
