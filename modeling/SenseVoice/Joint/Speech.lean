import SenseVoice.Bridge.TimingHeaders
import SenseVoice.Bridge.TtsRequest
import SenseVoice.ControlPlane.CommandLanguage

/-!
# A speech request, from the browser's body to the TTS server

`speak_text` trims and checks a request and writes a `tts.speak`; the bridge reads it, strips it again, fills
the settings in and posts a body. The two sides do not agree on white space: `str.strip` takes off the
separators `U+001C` to `U+001F` as well. They are control characters, and the check on those comes after the
trimming, so nothing that is accepted loses a character on the bridge, or is dropped there as blank.

Results:
* `strip_of_accepted`: what is accepted has nothing to strip;
* `speakFields_ok`: the fields of an accepted request;
* **`speech_carried`**: an accepted request reaches the TTS server as it was asked for.
-/

namespace SenseVoice.Joint

open Lib ControlPlane Bridge JsonText Text

/-! ## White space -/

/-- A trimmed text without control characters has nothing to strip. -/
theorem strip_of_accepted {s : String} (h : (trim s).toList.any isControl = false) : strip (trim s) = trim s := by
  have htrim : (trim s).toList = Python.PyFloat.strip isWhitespace s.toList := String.toList_ofList
  have hstripped := Python.stripped_strip isWhitespace s.toList
  rw [← htrim] at hstripped
  have hspace : ∀ c ∈ (trim s).toList, isWhitespace c = false → Bridge.isSpace c = false := by
    intro c hc hwhite
    have hcontrol := List.any_eq_false.mp h c hc
    rw [isControl, Bool.or_eq_true, decide_eq_true_eq, not_or] at hcontrol
    rw [Bridge.isSpace, hwhite, Bool.false_or, Bool.and_eq_false_iff]
    exact Or.inr (decide_eq_false fun hle => hcontrol.1 hle)
  have hbridge : Python.Stripped Bridge.isSpace (trim s).toList :=
    ⟨fun c hc => hspace c (List.mem_of_mem_head? hc) (hstripped.head c hc),
      fun c hc => hspace c (List.mem_of_mem_getLast? hc) (hstripped.last c hc)⟩
  have hstrip : Python.PyFloat.strip Bridge.isSpace (trim s).toList = (trim s).toList :=
    Python.strip_of_stripped hbridge
  have hdef : strip (trim s) = String.ofList (Python.PyFloat.strip Bridge.isSpace (trim s).toList) := rfl
  rw [hdef, hstrip, String.ofList_toList]

/-- A value that `speak_text` keeps is trimmed and not empty. -/
theorem mem_trimmed {value : Option String} {v : String} (h : v ∈ trimmed value) :
    v ≠ "" ∧ ∃ s, v = trim s := by
  obtain ⟨hmap, hne⟩ := Option.filter_eq_some_iff.mp h
  obtain ⟨s, -, rfl⟩ := Option.map_eq_some_iff.mp hmap
  refine ⟨fun hempty => ?_, s, rfl⟩
  rw [hempty] at hne
  exact absurd hne (by decide)

/-- A character of a voice is no control character. -/
theorem control_of_validVoice {v : String} (h : validTtsVoice v = true) : v.toList.any isControl = false := by
  rw [validTtsVoice, Bool.and_eq_true] at h
  refine List.any_eq_false.mpr fun c hc hcontrol => ?_
  have htoken := List.all_eq_true.mp h.2 c hc
  rw [Bool.or_eq_true, Bool.or_eq_true, beq_iff_eq, beq_iff_eq] at htoken
  rcases htoken with (halnum | rfl) | rfl
  · obtain ⟨hlow, hhigh⟩ := TimingHeader.isAlphanum_visible halnum
    have hlow : '!'.toNat ≤ c.toNat := hlow
    have hhigh : c.toNat ≤ '~'.toNat := hhigh
    simp only [isControl, Bool.or_eq_true, Bool.and_eq_true, decide_eq_true_eq] at hcontrol
    change 33 ≤ c.toNat at hlow
    change c.toNat ≤ 126 at hhigh
    omega
  · exact absurd hcontrol (by decide)
  · exact absurd hcontrol (by decide)

theorem control_of_validInstruct {v : String} (h : validTtsInstruct v = true) :
    v.toList.any isControl = false := by
  rw [validTtsInstruct, Bool.and_eq_true, Bool.not_eq_true'] at h
  exact h.2

theorem control_of_validText {v : String} (h : validSpeakText v = true) : v.toList.any isControl = false := by
  rw [validSpeakText, Bool.and_eq_true, Bool.not_eq_true'] at h
  exact h.2

theorem ne_empty_of_validText {v : String} (h : validSpeakText v = true) : v ≠ "" := by
  rintro rfl
  exact absurd h (by decide)

/-! ## The message -/

/-- What a request asks for. -/
def speechOf (request : SpeakRequest) : Speech where
  text := trim request.text
  voice := trimmed request.voice
  speed := request.speed.bind fun
    | .finite q => some q
    | _ => none
  instruct := trimmed request.instruct

/-- The fields of the `tts.speak` of a speech. -/
def speechFields (id : Uuid) (speech : Speech) : List (String × Value) :=
  [("type", .string "tts.speak"), ("sessionId", .string id), ("text", .string speech.text)] ++
    optional "voice" (speech.voice.map .string) ++ optional "speed" (speech.speed.map fun q => .number (.float q)) ++
    optional "instruct" (speech.instruct.map .string)

/-- The `tts.speak` of a speech. -/
def speechMessage (id : Uuid) (speech : Speech) : Value := .json (speechFields id speech)

/-- The number of a speed that `speak_text` accepts. -/
theorem finite_of_valid {speed : Option F32} (h : ∀ v ∈ speed, validTtsSpeed v = true) :
    speed.map F32.toJson =
      (speed.bind fun | .finite q => some q | _ => none).map fun q => Value.number (.float q) := by
  cases speed with
  | none => rfl
  | some v =>
    cases v with
    | finite q => rfl
    | nan => exact absurd (h .nan rfl) Bool.false_ne_true
    | infinite negative => exact absurd (h (.infinite negative) rfl) Bool.false_ne_true

theorem optional_map {α : Type} (name : String) (value : Option α) (f : α → Value) :
    (value.map fun v => (name, f v)).toList = optional name (value.map f) := by
  cases value <;> rfl

/-- **The fields of an accepted request.** -/
theorem speakFields_ok {request : SpeakRequest} {fields : List (String × Value)}
    (h : speakFields (some request) = .ok fields) (id : Uuid) :
    validSpeakText (speechOf request).text = true ∧
      (∀ v ∈ (speechOf request).voice, validTtsVoice v = true) ∧
      (∀ v ∈ (speechOf request).instruct, validTtsInstruct v = true) ∧
      (sessionMessage "tts.speak" id).extend (.object fields) = speechMessage id (speechOf request) := by
  have hall : ∀ {α : Type} {value : Option α} {p : α → Bool}, ¬ (value.any fun v => !p v) = true →
      ∀ v ∈ value, p v = true := by
    intro α value p hany v hv
    rw [hv, Option.any_some, Bool.not_eq_true, Bool.not_eq_false'] at hany
    exact hany
  unfold speakFields at h
  simp only at h
  split_ifs at h with htext hvoice hspeed hinstruct
  obtain rfl := Except.ok.inj h
  refine ⟨by simpa [speechOf] using htext, hall hvoice, hall hinstruct, ?_⟩
  have hspeeds := finite_of_valid (hall hspeed)
  simp only [optional_map, hspeeds]
  rfl

/-- The bridge takes the speech out of the message. -/
theorem speakArguments_speechMessage (id : Uuid) (speech : Speech) :
    speakArguments (speechMessage id speech) = speech.arguments ∧
      (speechMessage id speech).strField "type" = some "tts.speak" ∧
      (speechMessage id speech).strField "sessionId" = some id := by
  have hget : ∀ k, (speechMessage id speech).get k =
      (if k = "instruct" then speech.instruct.map .string else none).or
        ((if k = "speed" then speech.speed.map fun q => .number (.float q) else none).or
          ((if k = "voice" then speech.voice.map .string else none).or
            (if k = "text" then some (.string speech.text)
            else if k = "sessionId" then some (.string id)
            else if k = "type" then some (.string "tts.speak") else none))) := by
    intro k
    unfold speechMessage speechFields
    simp only [get_json_optional]
    simp only [get_json, List.reverse_cons, List.reverse_nil, List.nil_append, List.cons_append,
      Value.lookup_cons_eq, List.lookup_nil]
  refine ⟨?_, ?_, ?_⟩
  · unfold speakArguments Speech.arguments
    simp [hget]
  · simp [Value.strField, hget, Value.asStr]
  · simp [Value.strField, hget, Value.asStr]

/-- The values of the message are strings, and the speed. -/
theorem forall_speechFields {id : Uuid} {speech : Speech} (P : Value → Prop) (hstring : ∀ s, P (.string s))
    (hspeed : ∀ q ∈ speech.speed, P (.number (.float q))) : ∀ f ∈ speechFields id speech, P f.2 := by
  have hoptional : ∀ {α : Type} (name : String) (value : Option α) (g : α → Value), (∀ v ∈ value, P (g v)) →
      ∀ f ∈ optional name (value.map g), P f.2 := by
    intro α name value g h f hf
    cases value with
    | none => exact absurd hf List.not_mem_nil
    | some v =>
      rw [List.mem_singleton.mp hf]
      exact h v rfl
  intro f hf
  rw [speechFields, List.mem_append, List.mem_append, List.mem_append] at hf
  rcases hf with ((hf | hf) | hf) | hf
  · simp only [List.mem_cons, List.not_mem_nil, or_false] at hf
    rcases hf with rfl | rfl | rfl <;> exact hstring _
  · exact hoptional "voice" speech.voice .string (fun _ _ => hstring _) f hf
  · exact hoptional "speed" speech.speed (fun q => .number (.float q)) hspeed f hf
  · exact hoptional "instruct" speech.instruct .string (fun _ _ => hstring _) f hf

/-- **The message is read as it was written.** -/
theorem loads_speechMessage {ryu : Spelling ℚ} {depth : ℕ} (hdepth : 1 ≤ depth) (id : Uuid) {speech : Speech}
    (hspeed : ∀ q ∈ speech.speed, SpellsFloat ryu q) :
    loads depth ((speechMessage id speech).toText ryu) = some (speechMessage id speech) := by
  refine loads_toText ?_ ?_ ?_
  · exact Value.canonical_json (forall_speechFields (Value.Canonical ryu) (fun _ => trivial)
      fun q hq => (hspeed q hq).reads.1)
  · have hflat : (speechMessage id speech).toDoc.depth ≤ 0 + 1 :=
      Value.depth_json (forall_speechFields (·.toDoc.depth ≤ 0) (fun _ => Nat.le_refl 0) fun _ _ => Nat.le_refl 0)
    exact hflat.trans hdepth
  · have hnumbers : ∀ f ∈ speechFields id speech, ∀ n ∈ f.2.toDoc.numbers,
        ((Value.serdeSpelling ryu).numeral n).bind pyNumberOf = some n := by
      refine forall_speechFields (fun v => ∀ n ∈ v.toDoc.numbers,
        ((Value.serdeSpelling ryu).numeral n).bind pyNumberOf = some n)
        (fun s n hn => absurd hn List.not_mem_nil) ?_
      intro q hq n hn
      rw [List.mem_singleton.mp hn]
      exact (hspeed q hq).reads.2
    exact numbers_json hnumbers

/-! ## From the request to the body -/

/-- A request that is accepted is forwarded. -/
theorem forward_accepted {id : Uuid} {event : Value} {a : AppState} (h : (forward id event a).2.status = 202) :
    ∃ link, (forward id event a).1 = { a with bridgeOut := a.bridgeOut ++ [(link, event)] } := by
  rcases forward_cases id event a with ⟨-, hstatus, -⟩ | ⟨s, link, -, -, heq⟩
  · exact absurd h hstatus
  · rw [heq]
    exact ⟨link.id, rfl⟩

/-- **A speech request is carried.** Where the control plane accepts one, it adds one message to the link of
the bridge. The bridge reads from its text exactly what was asked for: the text as it was trimmed, not blank,
and the body it posts to the TTS server carries the speech. Nothing on the way raises. -/
theorem speech_carried {ryu : Spelling ℚ} {depth : ℕ} (hdepth : 1 ≤ depth) {client : TtsClient}
    (hclient : client.Finite) {id : Uuid} {request : SpeakRequest} {a : AppState}
    (hryu : ∀ q, request.speed = some (.finite q) → SpellsFloat ryu q)
    (h : (speakText id (some request) a).2.status = 202) :
    ∃ link message, (speakText id (some request) a).1 = { a with bridgeOut := a.bridgeOut ++ [(link, message)] } ∧
      ∃ payload, loads depth (message.toText ryu) = some payload ∧
        payload.strField "type" = some "tts.speak" ∧ payload.strField "sessionId" = some id ∧
        speak (some client) (speakArguments payload) = .ok (.task (trim request.text)) ∧
        ∃ body, client.body (trim request.text) (speakArguments payload) = .ok body ∧
          Carries client (speechOf request) body := by
  have hspeed : ∀ q ∈ (speechOf request).speed, SpellsFloat ryu q := by
    intro q hq
    obtain ⟨v, hv, hq⟩ := Option.bind_eq_some_iff.mp hq
    cases v with
    | finite q' =>
      obtain rfl := Option.some.inj hq
      exact hryu q' hv
    | nan => cases hq
    | infinite negative => cases hq
  unfold speakText at h ⊢
  cases hfields : speakFields (some request) with
  | error reply =>
    rw [hfields] at h
    have hstatus : reply.status = 202 := h
    rw [speakFields_error hfields] at hstatus
    cases hstatus
  | ok fields =>
    rw [hfields] at h
    obtain ⟨htext, hvoice, hinstruct, hmessage⟩ := speakFields_ok hfields id
    obtain ⟨link, hsent⟩ := forward_accepted h
    rw [hmessage] at hsent
    obtain ⟨harguments, htype, hid⟩ := speakArguments_speechMessage id (speechOf request)
    refine ⟨link, speechMessage id (speechOf request), ?_, speechMessage id (speechOf request),
      loads_speechMessage hdepth id hspeed, htype, hid, ?_, ?_⟩
    · rw [← hsent, ← hmessage]
    · rw [harguments]
      have hstrip : strip (speechOf request).text = (speechOf request).text :=
        strip_of_accepted (control_of_validText htext)
      exact speak_task client (ne_empty_of_validText htext) hstrip
    · rw [harguments]
      refine body_carries hclient (fun v hv => ?_) fun v hv => ?_
      · obtain ⟨hne, s, rfl⟩ := mem_trimmed hv
        exact ⟨hne, strip_of_accepted (control_of_validVoice (hvoice _ hv))⟩
      · obtain ⟨hne, s, rfl⟩ := mem_trimmed hv
        exact ⟨hne, strip_of_accepted (control_of_validInstruct (hinstruct _ hv))⟩

/-- The shortest digits, as `repr` spells them. -/
def shortestSpelling : Spelling ℚ :=
  Python.pySpelling.comap fun q => .float (Python.PyFloat.ofRat (decide (q < 0)) |q|)

/-- There is a point in the text, or a power. -/
theorem isInteger_layout (negative : Bool) (d : Binary64.Decimal) :
    (numeralOf negative (Python.PyFloat.layout d).whole (Python.PyFloat.layout d).fraction
      (Python.PyFloat.layout d).power).isInteger = false := by
  have hsome : ∀ {whole : ℕ} {fraction : List Char} {power : Option (Bool × List Char)},
      fraction ≠ [] ∨ power.isSome = true → (numeralOf negative whole fraction power).isInteger = false := by
    intro whole fraction power h
    rw [Numeral.isInteger, Bool.and_eq_false_iff]
    rcases h with hne | hpower
    · exact Or.inl (beq_false_of_ne fun hlength => hne (List.length_eq_zero_iff.mp hlength))
    · refine Or.inr ?_
      obtain ⟨p, rfl⟩ := Option.isSome_iff_exists.mp hpower
      rfl
  unfold Python.PyFloat.layout
  simp only
  split_ifs with hzero hsmall hlarge hlength
  · exact hsome (Or.inl (List.cons_ne_nil _ _))
  · exact hsome (Or.inl (List.append_ne_nil_of_right_ne_nil _ (Python.PyFloat.digitsOf_ne_nil hzero)))
  · exact hsome (Or.inl (List.cons_ne_nil _ _))
  · refine hsome (Or.inl fun hnil => hlength ?_)
    exact List.drop_eq_nil_iff.mp hnil
  · exact hsome (Or.inr rfl)

/-- **The shortest digits are a spelling that both sides read**, of every `float` that is not negative. -/
theorem shortestSpelling_spells (m : Binary64.Magnitude) : SpellsFloat shortestSpelling m.value := by
  obtain ⟨m', hm', hvalue⟩ := Option.map_eq_some_iff.mp (Binary64.nearest?_value m)
  have hsign : decide (m.value < 0) = false := decide_eq_false (not_lt.mpr m.value_nonneg)
  have hfloat : Python.PyFloat.ofRat (decide (m.value < 0)) |m.value| = .finite false m' := by
    rw [abs_of_nonneg m.value_nonneg, hsign, Python.PyFloat.ofRat, hm']
  have hnumeral : shortestSpelling.numeral m.value = (Python.PyFloat.finite false m').numeral :=
    congrArg Python.PyFloat.numeral hfloat
  refine ⟨_, hnumeral, isInteger_layout false m'.shortest, ?_⟩
  have hnumber : (Python.PyFloat.finite false m').numeral = some _ := rfl
  have hnearest := Python.PyFloat.nearest?_numeral hnumber
  rw [hvalue] at hnearest
  exact hnearest

/-- The defaults of the settings. -/
def defaultClient : TtsClient where
  url := "http://localhost:8082/v1/audio/speech"
  voice := "serena"
  speed := .ofRat false 1
  instruct := ""
  language := "chinese"
  temperature := some (.ofRat false (1 / 5))
  topP := some (.ofRat false (4 / 5))
  seed := some 42
  avoidCommaSplit := true

/-- A request with white space around its text. -/
def greeting : SpeakRequest := ⟨" 你好，world!\t", some " vivian", some (.finite (3 / 2)), some " "⟩

/-- A state with a session and a bridge. -/
def oneSession : AppState :=
  { AppState.new with inner :=
    { Inner.empty with
      sessions := AList.insert "s" ⟨"s", "ticket", .ready, 0, none, none⟩ ∅
      bridge := some ⟨"link"⟩ } }

theorem speech_carried_greeting : ∃ link message,
    (speakText "s" (some greeting) oneSession).1 =
        { oneSession with bridgeOut := oneSession.bridgeOut ++ [(link, message)] } ∧
      ∃ payload, loads 1 (message.toText shortestSpelling) = some payload ∧
        payload.strField "type" = some "tts.speak" ∧ payload.strField "sessionId" = some "s" ∧
        speak (some defaultClient) (speakArguments payload) = .ok (.task (trim greeting.text)) ∧
        ∃ body, defaultClient.body (trim greeting.text) (speakArguments payload) = .ok body ∧
          Carries defaultClient (speechOf greeting) body :=
  speech_carried (Nat.le_refl 1) ⟨by decide +kernel, by decide +kernel, by decide +kernel⟩
    (fun q hq => by
      obtain rfl : 3 / 2 = q := F32.finite.inj (Option.some.inj hq)
      have hvalue : (⟨3, -1, by decide, by decide, by decide +kernel⟩ : Binary64.Magnitude).value = 3 / 2 := by
        decide +kernel
      exact hvalue ▸ shortestSpelling_spells _) (by decide +kernel)

end SenseVoice.Joint
