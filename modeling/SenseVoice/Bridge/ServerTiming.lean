import SenseVoice.Bridge.RealSession
import SenseVoice.ControlPlane.Sockets
import SenseVoice.Lib.PyFloat
import SenseVoice.Serde

/-!
# A recognition result on its way to the control plane

Model of `parse_server_timing` in `bridge/sensevoice.py`, of the payload of `RealSession._transcribe`, and of
its text (`BridgeApp.emit`), which `handle_bridge_event` parses.

* The header is any text. White space, letters and digits come from Python's Unicode database (`Unicode`).
* A Python `dict` keeps its keys in the order they came; `put` writes in the place of an old value.
* The times of the payload are differences of clock readings, divided and rounded: finite numbers
  (`FiniteFloat`), since `/` raises where it would overflow. Only the header brings in other numbers.
* `network_stats` is the snapshot of `AgoraReceiver`, or empty.

Results:
* `mem_parseServerTiming`: the value of a metric is that of the last entry that gives it one;
* `fromStr_resultText`: the control plane reads the payload of `RealSession` from the text, if it reads it at all;
* **`deliverable_iff`**: it reads the text exactly if no metric of the header is left with an infinite duration.
-/

namespace SenseVoice.Bridge

open Lib Python PyFloat JsonText ControlPlane

/-! ## `parse_server_timing` -/

section Header

variable (u : Unicode)

/-- `[part.strip() for part in entry.split(";") if part.strip()]`. -/
def entryParts (entry : List Char) : List (List Char) :=
  ((entry.splitOn ';').map (PyFloat.strip u.isSpace)).filter (· ≠ [])

/-- `name.replace("-", "").replace("_", "").isalnum()`. -/
def isMetricName (name : List Char) : Bool :=
  let name := (name.filter (· ≠ '-')).filter (· ≠ '_')
  !name.isEmpty && name.all u.isAlnum

/-- `parameter[4:].strip('"')`, if the parameter starts with `dur=`. -/
def durText (parameter : List Char) : Option (List Char) :=
  if "dur=".toList.isPrefixOf parameter then some (PyFloat.strip (· == '"') (parameter.drop 4)) else none

/-- The loop over the parameters of an entry: the text of the first `dur` that `float` reads. -/
def readableDur (parameters : List (List Char)) : Option (List Char) :=
  (parameters.filterMap durText).find? fun text => (float u text).isSome

/-- The name of an entry and the text of its duration. -/
def entrySays (entry : List Char) : Option (List Char × List Char) :=
  match entryParts u entry with
  | [] => none
  | name :: parameters =>
    if isMetricName u name then (readableDur u parameters).map fun text => (name, text) else none

/-- The value an entry gives its metric: `if duration >= 0`. -/
def entryMetric (entry : List Char) : Option (String × PyFloat) := do
  let (name, text) ← entrySays u entry
  let duration ← float u text
  if duration.isNonneg then some (String.ofList name, duration) else none

/-- `result[name] = duration`. -/
def put (name : String) (duration : PyFloat) (result : List (String × PyFloat)) : List (String × PyFloat) :=
  if result.any (·.1 == name) then result.map fun e => if e.1 = name then (name, duration) else e
  else result ++ [(name, duration)]

/-- The loop's body for an entry. -/
def recordEntry (result : List (String × PyFloat)) (entry : List Char) : List (String × PyFloat) :=
  match entryMetric u entry with
  | some (name, duration) => put name duration result
  | none => result

/-- `parse_server_timing`. -/
def parseServerTiming (value : String) : List (String × PyFloat) :=
  (value.toList.splitOn ',').foldl (recordEntry u) []

/-- Every entry whose duration is infinite is followed by one that gives its metric another value. -/
def Overwritten (value : String) : Prop :=
  ∀ before entry after, value.toList.splitOn ',' = before ++ entry :: after →
    ∀ name text, entrySays u entry = some (name, text) → SpellsInfinity u text →
      ∃ later ∈ after, ∃ text' duration, entrySays u later = some (name, text') ∧
        float u text' = some duration ∧ duration.isNonneg = true

end Header

/-! ## The payload of `_transcribe` and its text -/

/-- A `float` that is a number. -/
structure FiniteFloat where
  negative : Bool
  magnitude : Binary64.Magnitude

/-- The `float`. -/
def FiniteFloat.toFloat (x : FiniteFloat) : PyFloat := .finite x.negative x.magnitude

/-- The snapshot of `on_remote_audio_track_statistics`, with the integers of the SDK. -/
structure NetworkStats where
  networkTransportDelayMs : Int32
  jitterBufferDelayMs : Int32
  audioLossRatePercent : Int32
  receivedSampleRate : Int32
  receivedBitrateKbps : Int32
  frozenRatePercent : Int32

/-- `boundary_reason`. -/
def BoundaryReason.toText : BoundaryReason → String
  | .maxDuration => "max-duration"
  | .silence => "silence"
  | .manual => "manual"
  | .interval => "interval"

/-- What `_transcribe` measures. -/
structure Measured where
  durationMs : FiniteFloat
  speechSpanMs : FiniteFloat
  boundaryReason : BoundaryReason
  networkStats : Option NetworkStats
  endpointMs : FiniteFloat
  audioQueueMs : FiniteFloat
  asrRequestPrepareMs : FiniteFloat
  asrHttpRoundTripMs : FiniteFloat
  asrResponseParseMs : FiniteFloat
  asrTotalMs : FiniteFloat
  rtf : FiniteFloat

/-- A call of `_transcribe`. The counter of the results and the clock are far from the end of `u64`. -/
structure Recognized where
  sessionId : String
  final : Bool
  index : ℕ
  seq : ℕ
  readyAtMs : ℕ
  measured : Measured
  seq_lt : seq < 2 ^ 64
  readyAt_lt : readyAtMs < 2 ^ 64

section Payload

/-- A number that is measured. -/
def measuredDoc (x : FiniteFloat) : Doc PyNumber := .number (.float x.toFloat)

/-- An integer of the SDK. -/
def sdkDoc (n : Int32) : Doc PyNumber := .number (.int n.toInt)

/-- `dict(self.network_stats)`. -/
def networkDoc : Option NetworkStats → Doc PyNumber
  | none => .object []
  | some stats => .object [
      ("networkTransportDelayMs", sdkDoc stats.networkTransportDelayMs),
      ("jitterBufferDelayMs", sdkDoc stats.jitterBufferDelayMs),
      ("audioLossRatePercent", sdkDoc stats.audioLossRatePercent),
      ("receivedSampleRate", sdkDoc stats.receivedSampleRate),
      ("receivedBitrateKbps", sdkDoc stats.receivedBitrateKbps),
      ("frozenRatePercent", sdkDoc stats.frozenRatePercent)]

/-- `result.server_timing_ms`. -/
def timingDoc (timing : List (String × PyFloat)) : Doc PyNumber :=
  .object (timing.map fun e => (e.1, .number (.float e.2)))

/-- `metrics`. -/
def metricsDoc (m : Measured) (timing : List (String × PyFloat)) : Doc PyNumber :=
  .object [
    ("schemaVersion", .number (.int 1)),
    ("audio", .object [
      ("durationMs", measuredDoc m.durationMs),
      ("speechSpanMs", measuredDoc m.speechSpanMs),
      ("boundaryReason", .string m.boundaryReason.toText)]),
    ("agora", networkDoc m.networkStats),
    ("bridge", .object [
      ("endpointMs", measuredDoc m.endpointMs),
      ("audioQueueMs", measuredDoc m.audioQueueMs),
      ("asrRequestPrepareMs", measuredDoc m.asrRequestPrepareMs),
      ("asrHttpRoundTripMs", measuredDoc m.asrHttpRoundTripMs),
      ("asrResponseParseMs", measuredDoc m.asrResponseParseMs),
      ("asrTotalMs", measuredDoc m.asrTotalMs)]),
    ("asr", .object [
      ("rtf", measuredDoc m.rtf),
      ("serverTimingMs", timingDoc timing)])]

/-- `payload`. -/
def payloadDoc (r : Recognized) (text : String) (timing : List (String × PyFloat)) : Doc PyNumber :=
  .object [
    ("type", .string (if r.final then "asr.final" else "asr.partial")),
    ("sessionId", .string r.sessionId),
    ("utteranceId", .string (utteranceId r.sessionId r.index)),
    ("seq", .number (.int r.seq)),
    ("text", .string text),
    ("metrics", metricsDoc r.measured timing),
    ("bridgeResultReadyAtUnixMs", .number (.int r.readyAtMs))]

/-- The blank that `json.dumps` puts after `,` and `:`. -/
def pyGap : Gap := ⟨[' '], by simp [JsonText.isSpace]⟩

/-- `json.dumps(payload, ensure_ascii=False)`, with `parse_server_timing` of the response's header. -/
def resultText (u : Unicode) (r : Recognized) (text header : String) : String :=
  String.ofList (write pyGap.text pySpelling.spell (payloadDoc r text (parseServerTiming u header)))

end Payload

/-! ## The metrics of a header -/

section Metrics

variable {u : Unicode} {e : String × PyFloat}

theorem mem_put {name : String} {duration : PyFloat} {result : List (String × PyFloat)} :
    e ∈ put name duration result ↔ e = (name, duration) ∨ e.1 ≠ name ∧ e ∈ result := by
  unfold put
  by_cases hany : result.any (·.1 == name) = true
  · rw [if_pos hany, List.mem_map]
    obtain ⟨old, hold, hname⟩ := List.any_eq_true.mp hany
    constructor
    · rintro ⟨f, hf, rfl⟩
      by_cases hn : f.1 = name
      · exact Or.inl (if_pos hn)
      · rw [if_neg hn]
        exact Or.inr ⟨hn, hf⟩
    · rintro (rfl | ⟨hn, he⟩)
      · exact ⟨old, hold, if_pos (beq_iff_eq.mp hname)⟩
      · exact ⟨e, he, if_neg hn⟩
  · rw [if_neg hany, List.mem_append, List.mem_singleton, or_comm]
    have hother : e ∈ result → e.1 ≠ name := fun he hn =>
      hany (List.any_eq_true.mpr ⟨e, he, beq_iff_eq.mpr hn⟩)
    constructor
    · exact Or.imp_right fun he => ⟨hother he, he⟩
    · exact Or.imp_right And.right

/-- No entry gives the metric a value. -/
def Silent (u : Unicode) (name : String) (entries : List (List Char)) : Prop :=
  ∀ entry ∈ entries, ∀ duration, entryMetric u entry ≠ some (name, duration)

/-- A value is there before an entry and stays, or the entry gives it. -/
theorem mem_recordEntry {result : List (String × PyFloat)} {entry : List Char} :
    e ∈ recordEntry u result entry ↔
      entryMetric u entry = some e ∨ e ∈ result ∧ ∀ duration, entryMetric u entry ≠ some (e.1, duration) := by
  unfold recordEntry
  cases hm : entryMetric u entry with
  | none => simp
  | some f =>
    obtain ⟨name, duration⟩ := f
    rw [mem_put]
    grind

/-- The loop over the entries: the last value of a metric stays. -/
theorem mem_foldl_entries (entries : List (List Char)) (result : List (String × PyFloat)) :
    e ∈ entries.foldl (recordEntry u) result ↔
      (∃ before entry after, entries = before ++ entry :: after ∧ entryMetric u entry = some e ∧
        Silent u e.1 after) ∨ e ∈ result ∧ Silent u e.1 entries := by
  induction entries generalizing result with
  | nil => simp [Silent]
  | cons entry entries ih =>
    rw [List.foldl_cons, ih, mem_recordEntry]
    have hsilent : Silent u e.1 (entry :: entries) ↔
        (∀ duration, entryMetric u entry ≠ some (e.1, duration)) ∧ Silent u e.1 entries :=
      List.forall_mem_cons
    rw [hsilent]
    constructor
    · rintro (⟨before, x, after, rfl, hx, hafter⟩ | ⟨hhead | ⟨he, hnot⟩, hrest⟩)
      · exact Or.inl ⟨entry :: before, x, after, rfl, hx, hafter⟩
      · exact Or.inl ⟨[], entry, entries, rfl, hhead, hrest⟩
      · exact Or.inr ⟨he, hnot, hrest⟩
    · rintro (⟨before, x, after, hsplit, hx, hafter⟩ | ⟨he, hnot, hrest⟩)
      · cases before with
        | nil =>
          obtain ⟨rfl, rfl⟩ := List.cons.inj hsplit
          exact Or.inr ⟨Or.inl hx, hafter⟩
        | cons y before =>
          obtain ⟨-, rfl⟩ := List.cons.inj hsplit
          exact Or.inl ⟨before, x, after, rfl, hx, hafter⟩
      · exact Or.inr ⟨Or.inr ⟨he, hnot⟩, hrest⟩

/-- **The metrics of a header**: each has the last value that an entry gives it. -/
theorem mem_parseServerTiming {value : String} :
    e ∈ parseServerTiming u value ↔
      ∃ before entry after, value.toList.splitOn ',' = before ++ entry :: after ∧
        entryMetric u entry = some e ∧ Silent u e.1 after := by
  rw [parseServerTiming, mem_foldl_entries]
  simp

theorem entryMetric_eq_some {entry : List Char} :
    entryMetric u entry = some e ↔ ∃ name text, entrySays u entry = some (name, text) ∧
      float u text = some e.2 ∧ e.2.isNonneg = true ∧ e.1 = String.ofList name := by
  obtain ⟨k, x⟩ := e
  unfold entryMetric
  cases hs : entrySays u entry with
  | none => simp
  | some said =>
    obtain ⟨name, text⟩ := said
    cases hx : float u text with
    | none => simp [hx]
    | some y => 
      simp [hx]
      grind

/-- A value that is not negative is a number or infinity. -/
theorem eq_infinity_of_isNonneg {x : PyFloat} (h : x.isNonneg = true) (hx : x.isFinite = false) :
    x = .infinity false := by
  cases x with
  | finite negative m => exact absurd hx (by simp [isFinite])
  | infinity negative =>
    cases negative with
    | false => rfl
    | true => exact absurd h (by simp [isNonneg])
  | nan => exact absurd h (by simp [isNonneg])

/-- No value is negative. -/
theorem isNonneg_of_mem {value : String} (h : e ∈ parseServerTiming u value) : e.2.isNonneg = true := by
  obtain ⟨before, entry, after, -, hm, -⟩ := mem_parseServerTiming.mp h
  obtain ⟨name, text, -, -, hnonneg, -⟩ := entryMetric_eq_some.mp hm
  exact hnonneg

/-- **All values are finite exactly if every infinite duration is overwritten.** -/
theorem finite_iff_overwritten {value : String} :
    (∀ e ∈ parseServerTiming u value, e.2.isFinite = true) ↔ Overwritten u value := by
  constructor
  · intro hfinite before entry after hsplit name text hsaid hspell
    by_contra hnone
    have hm : entryMetric u entry = some (String.ofList name, .infinity false) :=
      entryMetric_eq_some.mpr ⟨name, text, hsaid, float_eq_infinity.mpr hspell, rfl, rfl⟩
    have hmem : (String.ofList name, PyFloat.infinity false) ∈ parseServerTiming u value := by
      refine mem_parseServerTiming.mpr ⟨before, entry, after, hsplit, hm, fun later hlater x hx => ?_⟩
      obtain ⟨name', text', hsaid', hfloat, hnonneg, hname⟩ := entryMetric_eq_some.mp hx
      obtain rfl := String.ofList_injective hname
      exact hnone ⟨later, hlater, text', x, hsaid', hfloat, hnonneg⟩
    exact absurd (hfinite _ hmem) (by simp [isFinite])
  · intro hover e he
    by_contra hinf
    obtain ⟨before, entry, after, hsplit, hm, hsilent⟩ := mem_parseServerTiming.mp he
    obtain ⟨name, text, hsaid, hfloat, hnonneg, hname⟩ := entryMetric_eq_some.mp hm
    rw [eq_infinity_of_isNonneg hnonneg (Bool.eq_false_iff.mpr hinf)] at hfloat
    obtain ⟨later, hlater, text', duration, hsaid', hfloat', hnonneg'⟩ :=
      hover before entry after hsplit name text hsaid (float_eq_infinity.mp hfloat)
    exact hsilent later hlater duration
      (entryMetric_eq_some.mpr ⟨name, text', hsaid', hfloat', hnonneg', hname⟩)

end Metrics

/-! ## What the control plane reads -/

section Reading

/-- How `serde_json` reads what `json.dumps` writes for a number. -/
def readNumber (n : PyNumber) : Option Number := (pySpelling.numeral n).bind Value.numberOf

/-- **A number is read exactly if it is finite.** -/
theorem isSome_readNumber_float (x : PyFloat) : (readNumber (.float x)).isSome = x.isFinite := by
  cases x with
  | finite negative m =>
    obtain ⟨n, hn⟩ : ∃ n, (PyFloat.finite negative m).numeral = some n := ⟨_, rfl⟩
    have hnearest := nearest?_numeral hn
    have hsome : (Binary64.nearest? n.magnitude).isSome = true := by
      cases h : Binary64.nearest? n.magnitude with
      | none => simp [h] at hnearest
      | some _ => rfl
    change ((PyFloat.finite negative m).numeral.bind Value.numberOf).isSome = true
    rw [hn]
    exact Value.isSome_numberOf hsome
  | infinity negative => rfl
  | nan => rfl

/-- The counter and the clock are read as they are. -/
theorem readNumber_natCast {n : ℕ} (h : n < 2 ^ 64) :
    readNumber (.int n) = some (.unsigned n) := by
  have hnumeral : pySpelling.numeral (.int n) = some (numeralOf false n [] none) := by
    change some (numeralOf (decide ((n : ℤ) < 0)) (n : ℤ).natAbs [] none) = _
    rw [Int.natAbs_natCast, decide_eq_false (by omega)]
  rw [readNumber, hnumeral]
  exact Value.numberOf_unsigned h

theorem isSome_readNumber_int {n : ℤ} (h : n.natAbs < 2 ^ 63) : (readNumber (.int n)).isSome = true := by
  change (Value.numberOf (numeralOf (decide (n < 0)) n.natAbs [] none)).isSome = true
  have hint : (numeralOf (decide (n < 0)) n.natAbs [] none).isInteger = true := rfl
  have hwhole : (numeralOf (decide (n < 0)) n.natAbs [] none).whole = n.natAbs := rfl
  have hsign : (numeralOf (decide (n < 0)) n.natAbs [] none).negative = decide (n < 0) := rfl
  unfold Value.numberOf
  rw [hint, hwhole, hsign]
  by_cases hn : n < 0
  · rw [if_neg (by simp [hn]), if_pos ⟨rfl, decide_eq_true hn, by omega, by omega⟩]
    rfl
  · rw [if_pos ⟨rfl, decide_eq_false hn, by omega⟩]
    rfl

theorem isSome_readNumber_sdk (n : Int32) : (readNumber (.int n.toInt)).isSome = true := by
  refine isSome_readNumber_int ?_
  have hmin := n.le_toInt
  have hmax := n.toInt_lt
  omega

theorem numbers_timingDoc (timing : List (String × PyFloat)) :
    (timingDoc timing).numbers = timing.map fun e => .float e.2 := by
  have hfields : ∀ timing : List (String × PyFloat),
      numbersOfFields (timing.map fun e => (e.1, Doc.number (PyNumber.float e.2))) =
        timing.map fun e => PyNumber.float e.2 := by
    intro timing
    induction timing with
    | nil => rfl
    | cons e timing ih =>
      rw [List.map_cons, numbersOfFields, ih]
      rfl
  exact hfields timing

theorem isSome_numbers_networkDoc (stats : Option NetworkStats) :
    ∀ n ∈ (networkDoc stats).numbers, (readNumber n).isSome = true := by
  cases stats with
  | none => simp [networkDoc, Doc.numbers, numbersOfFields]
  | some stats =>
    simp [networkDoc, sdkDoc, Doc.numbers, numbersOfFields, isSome_readNumber_sdk]

/-- The metrics are read exactly if the durations are finite. -/
theorem isSome_metricsDoc (m : Measured) (timing : List (String × PyFloat)) :
    ((metricsDoc m timing).mapM readNumber).isSome = true ↔ ∀ e ∈ timing, e.2.isFinite = true := by
  have hmeasured : ∀ x : FiniteFloat, (readNumber (.float x.toFloat)).isSome = true := fun x =>
    isSome_readNumber_float x.toFloat
  have hone : (readNumber (.int 1)).isSome = true := isSome_readNumber_int (by decide)
  have hnetwork := isSome_numbers_networkDoc m.networkStats
  rw [isSome_mapM]
  have hnumbers : (metricsDoc m timing).numbers =
      .int 1 :: ([.float m.durationMs.toFloat, .float m.speechSpanMs.toFloat] ++
        ((networkDoc m.networkStats).numbers ++
          ([.float m.endpointMs.toFloat, .float m.audioQueueMs.toFloat,
            .float m.asrRequestPrepareMs.toFloat, .float m.asrHttpRoundTripMs.toFloat,
            .float m.asrResponseParseMs.toFloat, .float m.asrTotalMs.toFloat] ++
            (.float m.rtf.toFloat :: timing.map fun e => .float e.2)))) := by
    simp [metricsDoc, measuredDoc, Doc.numbers, numbersOfFields, ← numbers_timingDoc]
  rw [hnumbers]
  simp only [List.forall_mem_cons, List.forall_mem_append, List.forall_mem_map, List.not_mem_nil,
    false_implies, implies_true, hone, hmeasured, isSome_readNumber_float, true_and]
  exact and_iff_right hnetwork

theorem depth_timingDoc (timing : List (String × PyFloat)) : (timingDoc timing).depth = 1 := by
  have hfields : ∀ timing : List (String × PyFloat),
      depthFields (timing.map fun e => (e.1, Doc.number (PyNumber.float e.2))) = 0 := by
    intro timing
    induction timing with
    | nil => rfl
    | cons e timing ih =>
      rw [List.map_cons, depthFields, ih]
      rfl
  exact congrArg (· + 1) (hfields timing)

theorem depth_networkDoc (stats : Option NetworkStats) : (networkDoc stats).depth = 1 := by
  cases stats <;> rfl

/-- **The payload is read as the message of `RealSession`**, with the metrics as they are read. -/
theorem fromStr_resultText (u : Unicode) (r : Recognized) (text header : String) :
    Value.fromStr (resultText u r text header) =
      ((metricsDoc r.measured (parseServerTiming u header)).mapM readNumber).map fun metrics =>
        AsrMessage.toValue r.sessionId
          (.result ⟨r.final, r.index, r.seq, text, Value.ofDoc metrics, r.readyAtMs⟩) := by
  have hdepth : (payloadDoc r text (parseServerTiming u header)).depth ≤ Value.maxDepth := by
    simp only [payloadDoc, metricsDoc, Doc.depth, depthFields, depth_timingDoc, depth_networkDoc, measuredDoc]
    decide
  rw [resultText, Value.fromStr_ofList pyGap pySpelling hdepth]
  change ((payloadDoc r text (parseServerTiming u header)).mapM readNumber).map Value.ofDoc = _
  generalize parseServerTiming u header = timing
  simp only [payloadDoc, Doc.mapM, mapFields]
  rw [readNumber_natCast r.seq_lt, readNumber_natCast r.readyAt_lt]
  cases (metricsDoc r.measured timing).mapM readNumber with
  | none => rfl
  | some metrics =>
    simp [Value.ofDoc, Value.ofFields, AsrMessage.toValue, Value.json, Result.type]

/-- The control plane parses the text and puts the message, stamped, on the link of the session's client. -/
def Delivered (r : Recognized) (text emitted : String) : Prop :=
  ∃ message, Value.fromStr emitted = some message ∧ message.strField "text" = some text ∧
    ∀ times (a : AppState) client, (a.inner.sessions.lookup r.sessionId).isSome = true →
      a.inner.clients.lookup r.sessionId = some client →
      handleBridgeEvent (Value.fromStr emitted) times a = (a.sendClient client (stamp message times)).1

/-- A result that is parsed is relayed. -/
theorem handleBridgeEvent_result {sessionId : String} {result : Result} (times : RelayTimes) {a : AppState}
    {client : SocketLink} (hs : (a.inner.sessions.lookup sessionId).isSome = true)
    (hc : a.inner.clients.lookup sessionId = some client) :
    handleBridgeEvent (some (AsrMessage.toValue sessionId (.result result))) times a =
      (a.sendClient client (stamp (AsrMessage.toValue sessionId (.result result)) times)).1 := by
  have hparse : BridgeEvent.parse (some (AsrMessage.toValue sessionId (.result result))) =
      some ⟨some .relayed, sessionId, AsrMessage.toValue sessionId (.result result)⟩ := by
    have htype : (AsrMessage.toValue sessionId (.result result)).strField "type" = some result.type := by
      simp [AsrMessage.toValue, Value.strField, Value.json, Value.get_object, Value.lookup_setField,
        Value.asStr]
    have hid : (AsrMessage.toValue sessionId (.result result)).strField "sessionId" = some sessionId := by
      simp [AsrMessage.toValue, Value.strField, Value.json, Value.get_object, Value.lookup_setField,
        Value.asStr]
    have hkind : EventKind.ofType result.type = some .relayed := by
      unfold Result.type
      split <;> rfl
    simp [BridgeEvent.parse, htype, hid, hkind]
  obtain ⟨s, hs⟩ := Option.isSome_iff_exists.mp hs
  rw [handleBridgeEvent, hparse]
  simp only [applyBridgeEvent, hs, EventKind.state, relay, hc]

/-- **A result reaches the client exactly if every infinite duration of its header is overwritten.** -/
theorem deliverable_iff (u : Unicode) (r : Recognized) (text header : String) :
    (Delivered r text (resultText u r text header) ∧
        ∀ e ∈ parseServerTiming u header, e.2.isFinite = true ∧ e.2.isNonneg = true) ↔
      Overwritten u header := by
  rw [← finite_iff_overwritten]
  constructor
  · rintro ⟨-, hall⟩ e he
    exact (hall e he).1
  · intro hfinite
    refine ⟨?_, fun e he => ⟨hfinite e he, isNonneg_of_mem he⟩⟩
    obtain ⟨metrics, hmetrics⟩ := Option.isSome_iff_exists.mp ((isSome_metricsDoc r.measured _).mpr hfinite)
    have hread := fromStr_resultText u r text header
    rw [hmetrics, Option.map_some] at hread
    refine ⟨_, hread, ?_, fun times a client hs hc => ?_⟩
    · simp [AsrMessage.toValue, Value.strField, Value.json, Value.get_object, Value.lookup_setField, Value.asStr]
    · rw [hread]
      exact handleBridgeEvent_result times hs hc

end Reading

/-- What the Unicode database says of ASCII. -/
def asciiUnicode : Unicode where
  isSpace c := (9 ≤ c.toNat && c.toNat ≤ 13) || (28 ≤ c.toNat && c.toNat ≤ 32)
  isAlnum c := c.isAlphanum
  decimal _ := none

/-- Zero milliseconds. -/
def zeroMs : FiniteFloat where
  negative := false
  magnitude := ⟨0, 0, by decide, by decide, by
    rw [Binary64.overflow_eq, Nat.cast_zero, zero_mul]
    exact mul_pos (by norm_num) (zpow_pos (by norm_num) _)⟩

/-- The first result of a session. -/
def firstResult : Recognized where
  sessionId := "first"
  final := true
  index := 1
  seq := 1
  readyAtMs := 1763600000000
  measured := ⟨zeroMs, zeroMs, .silence, none, zeroMs, zeroMs, zeroMs, zeroMs, zeroMs, zeroMs, zeroMs⟩
  seq_lt := by decide
  readyAt_lt := by decide

/-- A header with an infinite duration is kept as such, and the text of its result is dropped. -/
theorem infinite_duration_dropped :
    parseServerTiming asciiUnicode "inference;dur=inf" = [("inference", .infinity false)] ∧
      Value.fromStr (resultText asciiUnicode firstResult "你好" "inference;dur=inf") = none ∧
      ∀ times a, handleBridgeEvent
        (Value.fromStr (resultText asciiUnicode firstResult "你好" "inference;dur=inf")) times a = a := by
  have hparse : parseServerTiming asciiUnicode "inference;dur=inf" = [("inference", .infinity false)] := by
    rfl
  have hnone : Value.fromStr (resultText asciiUnicode firstResult "你好" "inference;dur=inf") = none := by
    have hmetrics : (metricsDoc firstResult.measured [("inference", .infinity false)]).mapM readNumber =
        none := by
      rw [← Option.not_isSome_iff_eq_none, isSome_metricsDoc]
      simp [isFinite]
    rw [fromStr_resultText, hparse, hmetrics]
    rfl
  refine ⟨hparse, hnone, fun times a => ?_⟩
  rw [hnone]
  rfl

end SenseVoice.Bridge
