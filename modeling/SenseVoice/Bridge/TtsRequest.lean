import SenseVoice.Bridge.Handling
import SenseVoice.Bridge.NormalizeText
import SenseVoice.Bridge.SummarizeTrace
import SenseVoice.Bridge.Tts
import SenseVoice.Serde

/-!
# What a speech request becomes (`speak` in `bridge/bridge/main.py`, `stream_pcm` in `bridge/bridge/tts.py`)

Model of the way of a `tts.speak` through the bridge: the text of the message (`json.loads`), the arguments
`handle` takes out of it, `RealSession.speak` up to the task it creates, and the body that `stream_pcm` posts.
`Speaking` has the tasks and what they play.

* `json.loads` reads what is JSON: `NaN`, lone surrogates, numbers beyond `float` and deep nesting have no
  value here. The nesting it takes is a parameter.
* `json.dumps(.., allow_nan=False)` raises for a setting that is no finite number.
* `_speak` turns what `stream_pcm` raises into a `tts.error`.

Results:
* `loads_toText`: the control plane's messages are read as they were written;
* `body_eq`: what the body is made of.
-/

namespace SenseVoice.Bridge

open Lib JsonText Binary64 Python

/-! ## `json.loads` -/

/-- The number of a numeral. -/
def pyNumberOf (n : Numeral) : Option Number :=
  if n.isInteger then
    some (if n.negative ∧ n.whole ≠ 0 then .negative (-n.whole) else .unsigned n.whole)
  else (nearest? n.magnitude).map fun m => .float (if n.negative then -m.value else m.value)

/-- `json.loads`. -/
def loads (depth : ℕ) (text : String) : Option Value :=
  (parse depth text.toList).bind fun d => (d.mapM pyNumberOf).map Value.ofDoc

/-! ## The arguments of `speak` -/

/-- What `handle` calls `session.speak` with. -/
structure SpeakArguments where
  text : Value
  voice : Value
  speed : Value
  instruct : Value

/-- `payload.get(..)`, with its default. -/
def speakArguments (payload : Value) : SpeakArguments where
  text := (payload.get "text").getD (.string "")
  voice := (payload.get "voice").getD .null
  speed := (payload.get "speed").getD .null
  instruct := (payload.get "instruct").getD .null

/-- `value.strip()`. -/
def stripValue : Value → Except Raised String
  | .string s => .ok (strip s)
  | v => .error (.attributeError ("'" ++ typeName v ++ "' object has no attribute 'strip'"))

/-! ## The body of a request -/

/-- The settings of `TtsClient`. -/
structure TtsClient where
  url : String
  voice : String
  speed : PyFloat
  instruct : String
  language : String
  temperature : Option PyFloat
  topP : Option PyFloat
  seed : Option ℤ
  avoidCommaSplit : Bool

/-- What a call of `speak` comes to. -/
inductive Spoken where
  /-- `tts.error`: no client. -/
  | unconfigured
  | blank
  /-- The task that speaks this text. -/
  | task (text : String)
deriving DecidableEq

/-- `RealSession.speak`. -/
def speak (tts : Option TtsClient) (a : SpeakArguments) : Except Raised Spoken :=
  match tts with
  | none => .ok .unconfigured
  | some _ => (stripValue a.text).map fun text => if text = "" then .blank else .task text

/-- `(requested or "").strip() or own`. -/
def chosen (requested : Value) (own : String) : Except Raised String :=
  (if truthy requested then stripValue requested else .ok "").map fun text => if text = "" then own else text

/-- The number a `float` is, if it is finite. -/
def floatRat : PyFloat → Option ℚ
  | .finite negative m => some (if negative then -m.value else m.value)
  | _ => none

/-- A `float` in a body. -/
def floatValue (x : PyFloat) : Except Raised Value :=
  match floatRat x with
  | some q => .ok (.number (.float q))
  | none => .error (.other "Out of range float values are not JSON compliant")

/-- An `int` in a body. -/
def intValue (n : ℤ) : Value := .number (if n < 0 then .negative n else .unsigned n.toNat)

/-- `value == 1.0`. -/
def isOne : Value → Bool
  | .bool b => b
  | .number n => n.toRat == 1
  | _ => false

/-- `speed if speed is not None else self.speed`. -/
def selectedSpeed (speed : Value) (own : PyFloat) : Except Raised Value :=
  match speed with
  | .null => floatValue own
  | v => .ok v

/-- A field that is there or not. -/
def optional (name : String) (value : Option Value) : List (String × Value) := (value.map fun v => (name, v)).toList

/-- A text that is left out when it is empty. -/
def nonEmpty (text : String) : Option Value := if text = "" then none else some (.string text)

/-- The body, from what has been selected. -/
def TtsClient.bodyOf (client : TtsClient) (text voice instruct : String) (speed : Value)
    (temperature topP : Option Value) : Value :=
  .json ([("input", .string (normalizeTtsText text client.avoidCommaSplit)), ("model", .string "qwen3-tts"),
      ("response_format", .string "pcm"), ("language", .string client.language)] ++
    optional "voice" (nonEmpty voice) ++ optional "instruct" (nonEmpty instruct) ++
    optional "speed" (if isOne speed then none else some speed) ++ optional "temperature" temperature ++
    optional "top_p" topP ++ optional "seed" (client.seed.map intValue))

/-- The body of `stream_pcm`. -/
def TtsClient.body (client : TtsClient) (text : String) (a : SpeakArguments) : Except Raised Value := do
  let voice ← chosen a.voice client.voice
  let instruct ← chosen a.instruct client.instruct
  let speed ← selectedSpeed a.speed client.speed
  let temperature ← client.temperature.mapM floatValue
  let topP ← client.topP.mapM floatValue
  return client.bodyOf text voice instruct speed temperature topP

/-! ## Reading what the control plane wrote -/

/-- **The messages of the control plane are read as they were written**, where Python takes their numbers for
the same ones. -/
theorem loads_toText {ryu : Spelling ℚ} {v : Value} {depth : ℕ} (hv : v.Canonical ryu)
    (hdepth : v.toDoc.depth ≤ depth)
    (hnumbers : ∀ n ∈ v.toDoc.numbers, ((Value.serdeSpelling ryu).numeral n).bind pyNumberOf = some n) :
    loads depth (v.toText ryu) = some v := by
  have hread : (v.toDoc.mapM fun n => ((Value.serdeSpelling ryu).numeral n).bind pyNumberOf) = some v.toDoc :=
    Doc.mapM_self hnumbers
  rw [loads, Value.toText, String.toList_ofList, parse_write Value.noGap _ hdepth]
  rw [← mapM_bind] at hread
  cases hnumerals : v.toDoc.mapM (Value.serdeSpelling ryu).numeral with
  | none =>
    rw [hnumerals] at hread
    cases hread
  | some d =>
    rw [hnumerals, Option.bind_some] at hread
    rw [Option.bind_some, hread, Option.map_some, Value.ofDoc_toDoc v hv]

/-- The numbers in an object are those in its values. -/
theorem numbers_json {fields : List (String × Value)} {P : Number → Prop}
    (h : ∀ f ∈ fields, ∀ n ∈ f.2.toDoc.numbers, P n) : ∀ n ∈ (Value.json fields).toDoc.numbers, P n := by
  have hfields : ∀ fs : List (String × Value), (∀ f ∈ fs, ∀ n ∈ f.2.toDoc.numbers, P n) →
      ∀ n ∈ numbersOfFields (Value.toFields fs), P n := by
    intro fs hfs
    induction fs with
    | nil => exact fun n hn => absurd hn List.not_mem_nil
    | cons f fs ih =>
      obtain ⟨hhead, htail⟩ := List.forall_mem_cons.mp hfs
      exact List.forall_mem_append.mpr ⟨hhead, ih htail⟩
  exact hfields _ fun f hf => h f ((Value.mem_setFields hf).resolve_left List.not_mem_nil)

/-- How the crate spells an `f64`: with a point or a power, so that reading it gives the number again. -/
def SpellsFloat (ryu : Spelling ℚ) (q : ℚ) : Prop :=
  ∃ n, ryu.numeral q = some n ∧ n.isInteger = false ∧
    (nearest? n.magnitude).map (fun m => if n.negative then -m.value else m.value) = some q

/-- Both sides read such a number as itself. -/
theorem SpellsFloat.reads {ryu : Spelling ℚ} {q : ℚ} (h : SpellsFloat ryu q) :
    Value.reread ryu (.float q) = some (.float q) ∧
      ((Value.serdeSpelling ryu).numeral (.float q)).bind pyNumberOf = some (.float q) := by
  obtain ⟨n, hnumeral, hinteger, hnearest⟩ := h
  have hspelled : (Value.serdeSpelling ryu).numeral (.float q) = some n := hnumeral
  have hfloat : ((nearest? n.magnitude).map fun m => Number.float (if n.negative then -m.value else m.value)) =
      some (.float q) := by
    have hmap := congrArg (Option.map Number.float) hnearest
    rw [Option.map_map] at hmap
    exact hmap
  have hnot : ¬ n.isInteger = true := by
    rw [hinteger]
    exact Bool.false_ne_true
  rw [Value.reread, hspelled, Option.bind_some, Option.bind_some]
  refine ⟨?_, ?_⟩
  · rw [Value.numberOf, if_neg fun h => hnot h.1, if_neg fun h => hnot h.1, hfloat]
  · rw [pyNumberOf, if_neg hnot, hfloat]

/-! ## What a body holds -/

theorem lookup_setFields (fields new : List (String × Value)) (k : String) :
    (Value.setFields fields new).lookup k = (new.reverse.lookup k).or (fields.lookup k) := by
  induction new generalizing fields with
  | nil => rfl
  | cons f new ih =>
    obtain ⟨name, v⟩ := f
    rw [Value.setFields_cons, ih, List.reverse_cons, List.lookup_append, Value.lookup_setField,
      Value.lookup_cons_eq]
    by_cases h : k = name
    · rw [if_pos h, if_pos h]
      cases new.reverse.lookup k <;> rfl
    · rw [if_neg h, if_neg h]
      cases new.reverse.lookup k <;> rfl

/-- What `json!` holds under a name. -/
theorem get_json (fields : List (String × Value)) (k : String) :
    (Value.json fields).get k = fields.reverse.lookup k := by
  have hlookup := lookup_setFields [] fields k
  rwa [List.lookup_nil, Option.or_none] at hlookup

/-- One more field that is there or not. -/
theorem get_json_optional (fields : List (String × Value)) (name : String) (value : Option Value) (k : String) :
    (Value.json (fields ++ optional name value)).get k =
      (if k = name then value else none).or ((Value.json fields).get k) := by
  rw [get_json, get_json, List.reverse_append, List.lookup_append]
  refine congrArg (Option.or · _) ?_
  cases value with
  | none =>
    rw [ite_self]
    rfl
  | some v => exact Value.lookup_cons_eq name k v []

/-- The settings that are numbers are finite ones. -/
structure TtsClient.Finite (client : TtsClient) : Prop where
  speed : (floatRat client.speed).isSome = true
  temperature : ∀ x ∈ client.temperature, (floatRat x).isSome = true
  topP : ∀ x ∈ client.topP, (floatRat x).isSome = true

/-- What a speech request asks for. -/
structure Speech where
  text : String
  voice : Option String
  speed : Option ℚ
  instruct : Option String

/-- The fields of a body that only the settings decide. -/
def TtsClient.settings (client : TtsClient) (k : String) : Option Value :=
  if k = "model" then some (.string "qwen3-tts")
  else if k = "response_format" then some (.string "pcm")
  else if k = "language" then some (.string client.language)
  else if k = "temperature" then (client.temperature.bind floatRat).map fun q => .number (.float q)
  else if k = "top_p" then (client.topP.bind floatRat).map fun q => .number (.float q)
  else if k = "seed" then client.seed.map intValue
  else none

/-- The body asks the server for this speech: what the request leaves open is as the settings say, a speed of
one and an empty text are not named, and nothing else depends on the request. -/
structure Carries (client : TtsClient) (speech : Speech) (body : Value) : Prop where
  input : body.get "input" = some (.string (normalizeTtsText speech.text client.avoidCommaSplit))
  voice : body.get "voice" = nonEmpty (speech.voice.getD client.voice)
  instruct : body.get "instruct" = nonEmpty (speech.instruct.getD client.instruct)
  speed : ∀ q, speech.speed.or (floatRat client.speed) = some q →
    body.get "speed" = if q = 1 then none else some (.number (.float q))
  settings : ∀ k, k ∉ ["input", "voice", "instruct", "speed"] → body.get k = client.settings k

/-- The arguments that name a speech. -/
def Speech.arguments (speech : Speech) : SpeakArguments where
  text := .string speech.text
  voice := (speech.voice.map .string).getD .null
  speed := (speech.speed.map fun q => .number (.float q)).getD .null
  instruct := (speech.instruct.map .string).getD .null

/-- A text that is not blank is spoken. -/
theorem speak_task (client : TtsClient) {speech : Speech} (hne : speech.text ≠ "")
    (hstrip : strip speech.text = speech.text) : speak (some client) speech.arguments = .ok (.task speech.text) := by
  have hstripped : stripValue (.string speech.text) = .ok speech.text := congrArg Except.ok hstrip
  unfold speak Speech.arguments
  simp only [hstripped]
  exact congrArg Except.ok (if_neg hne)

/-- A name that is asked for, with no white space to strip. -/
theorem chosen_eq {requested : Option String} (own : String) (h : ∀ v ∈ requested, v ≠ "" ∧ strip v = v) :
    chosen ((requested.map .string).getD .null) own = .ok (requested.getD own) := by
  cases requested with
  | none => rfl
  | some v =>
    obtain ⟨hne, hstrip⟩ := h v rfl
    have htruthy : truthy (.string v) = true := decide_eq_true hne
    have hstripped : stripValue (.string v) = .ok v := congrArg Except.ok hstrip
    change chosen (.string v) own = .ok v
    rw [chosen, if_pos htruthy, hstripped]
    exact congrArg Except.ok (if_neg hne)

theorem selectedSpeed_eq {own : PyFloat} (h : (floatRat own).isSome = true) (requested : Option ℚ) :
    ∃ q, requested.or (floatRat own) = some q ∧
      selectedSpeed ((requested.map fun q => .number (.float q)).getD .null) own = .ok (.number (.float q)) := by
  cases requested with
  | some q => exact ⟨q, rfl, rfl⟩
  | none =>
    obtain ⟨q, hq⟩ := Option.isSome_iff_exists.mp h
    refine ⟨q, hq, ?_⟩
    change floatValue own = _
    rw [floatValue, hq]

theorem mapM_floatValue {setting : Option PyFloat} (h : ∀ x ∈ setting, (floatRat x).isSome = true) :
    setting.mapM floatValue = .ok ((setting.bind floatRat).map fun q => .number (.float q)) := by
  cases setting with
  | none => rfl
  | some x =>
    obtain ⟨q, hq⟩ := Option.isSome_iff_exists.mp (h x rfl)
    have hvalue : floatValue x = .ok (.number (.float q)) := by rw [floatValue, hq]
    change (some <$> floatValue x : Except Raised (Option Value)) = _
    rw [hvalue, Option.bind_some, hq]
    rfl

/-- What a body holds under a name. -/
theorem get_bodyOf (client : TtsClient) (text voice instruct : String) (speed : Value)
    (temperature topP : Option Value) (k : String) :
    (client.bodyOf text voice instruct speed temperature topP).get k =
      (if k = "seed" then client.seed.map intValue else none).or
        ((if k = "top_p" then topP else none).or
          ((if k = "temperature" then temperature else none).or
            ((if k = "speed" then if isOne speed then none else some speed else none).or
              ((if k = "instruct" then nonEmpty instruct else none).or
                ((if k = "voice" then nonEmpty voice else none).or
                  (if k = "language" then some (.string client.language)
                  else if k = "response_format" then some (.string "pcm")
                  else if k = "model" then some (.string "qwen3-tts")
                  else if k = "input" then some (.string (normalizeTtsText text client.avoidCommaSplit))
                  else none)))))) := by
  simp only [TtsClient.bodyOf, get_json_optional]
  simp only [get_json, List.reverse_cons, List.reverse_nil, List.nil_append, List.cons_append,
    Value.lookup_cons_eq, List.lookup_nil]

/-- **The body of a request**: with finite settings there is one, and it carries the speech. -/
theorem body_carries {client : TtsClient} (hclient : client.Finite) {speech : Speech}
    (hvoice : ∀ v ∈ speech.voice, v ≠ "" ∧ strip v = v) (hinstruct : ∀ v ∈ speech.instruct, v ≠ "" ∧ strip v = v) :
    ∃ body, client.body speech.text speech.arguments = .ok body ∧ Carries client speech body := by
  obtain ⟨q, hq, hspeed⟩ := selectedSpeed_eq hclient.speed speech.speed
  have hone : isOne (.number (.float q)) = (q == 1) := rfl
  refine ⟨client.bodyOf speech.text (speech.voice.getD client.voice) (speech.instruct.getD client.instruct)
    (.number (.float q)) ((client.temperature.bind floatRat).map fun q => .number (.float q))
    ((client.topP.bind floatRat).map fun q => .number (.float q)), ?_, ?_⟩
  · unfold TtsClient.body Speech.arguments
    rw [chosen_eq client.voice hvoice, chosen_eq client.instruct hinstruct, hspeed,
      mapM_floatValue hclient.temperature, mapM_floatValue hclient.topP]
    rfl
  · refine ⟨?_, ?_, ?_, fun q' hq' => ?_, fun k hk => ?_⟩
    · rw [get_bodyOf]
      simp
    · rw [get_bodyOf]
      simp
    · rw [get_bodyOf]
      simp
    · obtain rfl := Option.some.inj (hq.symm.trans hq')
      rw [get_bodyOf, hone]
      simp
    · simp only [List.mem_cons, List.not_mem_nil, or_false, not_or] at hk
      rw [get_bodyOf, if_neg hk.2.2.2, if_neg hk.2.2.1, if_neg hk.2.1, if_neg hk.1]
      unfold TtsClient.settings
      by_cases hseed : k = "seed"
      · simp [hseed]
      by_cases htop : k = "top_p"
      · simp [htop]
      by_cases htemperature : k = "temperature"
      · simp [htemperature]
      by_cases hlanguage : k = "language"
      · simp [hlanguage]
      by_cases hformat : k = "response_format"
      · simp [hformat]
      by_cases hmodel : k = "model"
      · simp [hmodel]
      simp [hseed, htop, htemperature, hlanguage, hformat, hmodel]

end SenseVoice.Bridge
