import Mathlib.Algebra.Order.Floor.Defs
import Mathlib.Data.Rat.Floor
import SenseVoice.Lib.PyFloat
import SenseVoice.Page.Events
import SenseVoice.Text

/-!
# The page's latency records (`app.js`, from `recordPartialEvent` to `clearObservations`)

Model of `asFiniteNumber`, `roundMetric`, `mergeObjects`, `recordPartialEvent`, `recordFinalEvent`,
`recordTraceUpdate`, `compileObservation`, `exportObservations` and `clearObservations`. `Runtime` has the
fields of `runtime` that they use, and an `Action` is what happens on the page: a server event (with the
reading of `performance.now()`), a click on commit, the end of a session, a click on clear.

* Numbers are exact rationals. `Number(value)` is `toNumber`; it is `none` for NaN and the infinities. The
  source computes with doubles: sums, differences and the product with `10 ** digits` in `roundMetric` are
  exact here, so a value whose product lies next to the middle between two hundredths may be rounded to the
  other one there (`1.005` to `1`, here to `1.01`). Hundredths are rounded to themselves on both sides.
* `undefined` is `none`. A `Map` finds a key by `sameKey` (SameValueZero): two events never have the same
  object.
* The fields of an object have different names, so the order in which `mergeObjects` takes them does not
  matter: here the last one first. No sender has an object under the name `__proto__`.
* A trace is changed only by functions that compile its observation next, so the observation's `raw` is a
  copy here.
* The exported file is JSON whose text is left out; a field that is `undefined` is not written. What
  `recordFinalEvent` sends to the socket is in `Page.Acknowledging`.

Results:
* `mapGet_mapSet`: reading a key after writing one;
* **`run_consistent`**: the observations are those of the traces, one for each, in their order.
-/

namespace SenseVoice.Page

open Lib

/-! ## Numbers -/

/-- White space and line ends of JavaScript. -/
def isJsSpace (c : Char) : Bool := (Text.isWhitespace c && c.toNat != 0x85) || c.toNat == 0xFEFF

/-- Digits after `0x`, `0o` or `0b`. -/
def radixNumber (radix : ℕ) (ds : List Char) : Option ℚ :=
  if ds = [] then none
  else (ds.foldlM (fun n c => ((JsonText.hexValue c).filter (· < radix)).map (n * radix + ·)) 0).map fun n => (n : ℚ)

/-- `Number(text)`. -/
def stringToNumber (s : String) : Option ℚ :=
  let number := match Python.PyFloat.strip isJsSpace s.toList with
    | [] => some 0
    | '0' :: 'x' :: ds | '0' :: 'X' :: ds => radixNumber 16 ds
    | '0' :: 'o' :: ds | '0' :: 'O' :: ds => radixNumber 8 ds
    | '0' :: 'b' :: ds | '0' :: 'B' :: ds => radixNumber 2 ds
    | '-' :: cs => (Python.PyFloat.readDecimal cs).map (- ·)
    | '+' :: cs => Python.PyFloat.readDecimal cs
    | cs => Python.PyFloat.readDecimal cs
  number.filter fun q => |q| < Binary64.overflow

/-- `Number(value)`. An array is converted by its text, which is that of its only item. -/
def toNumber : Value → Option ℚ
  | .null => some 0
  | .bool b => some (if b then 1 else 0)
  | .number n => some n.toRat
  | .string s => stringToNumber s
  | .array [] => some 0
  | .array [.null] => some 0
  | .array [.bool _] => none
  | .array [v] => toNumber v
  | .array _ => none
  | .object _ => none

/-- `asFiniteNumber`. -/
def asFiniteNumber : Option Value → Option ℚ
  | none => none
  | some .null => none
  | some (.string "") => none
  | some v => toNumber v

/-- `roundMetric` of a number or `null`. -/
def roundMetric (value : Option ℚ) : Option ℚ := value.map fun number => ⌊number * 100 + 1 / 2⌋ / 100

/-! ## `mergeObjects` -/

/-- `current`, if it is an object, or `{}`. -/
def objectOrEmpty : Option Value → List (String × Value)
  | some (.object fields) => fields
  | _ => []

mutual

/-- What `mergeObjects` assigns for a field. -/
def mergeValue (current : Option Value) : Value → Value
  | .object fields => .object (mergeFields (objectOrEmpty current) fields)
  | v => v

/-- The loop over the entries of `source`. -/
def mergeFields (target : List (String × Value)) : List (String × Value) → List (String × Value)
  | [] => target
  | (k, v) :: rest => Value.setField k (mergeValue (target.lookup k) v) (mergeFields target rest)

end

/-- `mergeObjects`. -/
def mergeObjects (target : List (String × Value)) (source : Option Value) : List (String × Value) :=
  match source with
  | some (.object fields) => mergeFields target fields
  | _ => target

/-! ## `Map` -/

/-- SameValueZero, and `===`, of two values that come from different events. -/
def sameKey : Option Value → Option Value → Bool
  | none, none => true
  | some .null, some .null => true
  | some (.bool a), some (.bool b) => a == b
  | some (.number a), some (.number b) => a.toRat == b.toRat
  | some (.string a), some (.string b) => a == b
  | _, _ => false

/-- `map.get(key)`. -/
def mapGet {α : Type} (key : Option Value) (entries : List (Option Value × α)) : Option α :=
  (entries.find? fun e => sameKey e.1 key).map Prod.snd

/-- `map.set(key, value)`. -/
def mapSet {α : Type} (key : Option Value) (value : α) : List (Option Value × α) → List (Option Value × α)
  | [] => [(key, value)]
  | e :: rest => if sameKey e.1 key then (e.1, value) :: rest else e :: mapSet key value rest

/-! ## The records -/

/-- `trace.browser`. -/
structure BrowserTimes where
  receivedAtMs : ℚ
  manualCommitLagMs : Option ℚ := none
  finalAfterPartialMs : Option ℚ := none

/-- A trace. -/
structure Trace where
  utteranceId : Option Value
  text : Option Value := none
  metrics : List (String × Value) := []
  browser : Option BrowserTimes := none

/-- An observation. -/
structure Observation where
  utteranceId : Option Value
  text : Option Value
  totalEstimatedMs : Option ℚ
  agoraNetworkMs : Option ℚ
  endpointMs : Option ℚ
  asrInferenceMs : Option ℚ
  vpsRelayMs : Option ℚ
  raw : Trace

/-- The fields of `runtime`. -/
structure Runtime where
  observations : List Observation := []
  traces : List (Option Value × Trace) := []
  firstPartialMs : List (Option Value × ℚ) := []
  manualCommitAt : Option ℚ := none

/-- `metrics.group.name`, where a group that is missing has no names. -/
def metricAt (metrics : List (String × Value)) (group name : String) : Option Value :=
  (metrics.lookup group).bind fun v => v.get name

/-- `vpsRelay`. -/
def vpsRelay (metrics : List (String × Value)) : ℚ :=
  (asFiniteNumber (metricAt metrics "vps" "relayQueueMs")).getD 0

/-- `totalEstimated`, with the time `vpsRelay` in the control plane. -/
def totalEstimated (metrics : List (String × Value)) (vpsRelay : ℚ) : Option ℚ :=
  (asFiniteNumber (metricAt metrics "bridge" "asrTotalMs")).map fun asrTotal =>
    asrTotal + (asFiniteNumber (metricAt metrics "bridge" "endpointMs")).getD 0 +
      (asFiniteNumber (metricAt metrics "agora" "networkTransportDelayMs")).getD 0 +
      (asFiniteNumber (metricAt metrics "agora" "jitterBufferDelayMs")).getD 0 + vpsRelay

/-- The observation of a trace. -/
def observe (trace : Trace) : Observation where
  utteranceId := trace.utteranceId
  text := trace.text
  totalEstimatedMs := roundMetric (totalEstimated trace.metrics (vpsRelay trace.metrics))
  agoraNetworkMs := roundMetric (some
    ((asFiniteNumber (metricAt trace.metrics "agora" "networkTransportDelayMs")).getD 0 +
      (asFiniteNumber (metricAt trace.metrics "agora" "jitterBufferDelayMs")).getD 0))
  endpointMs := roundMetric (asFiniteNumber (metricAt trace.metrics "bridge" "endpointMs"))
  asrInferenceMs := roundMetric (asFiniteNumber (metricAt trace.metrics "bridge" "asrTotalMs"))
  vpsRelayMs := roundMetric (some (vpsRelay trace.metrics))
  raw := trace

/-- The observation in the place of the first one of its utterance, or at the end. -/
def replaceObservation (new : Observation) : List Observation → List Observation
  | [] => [new]
  | o :: rest => if sameKey o.utteranceId new.utteranceId then new :: rest else o :: replaceObservation new rest

/-- `runtime.traces.get(utteranceId) || { utteranceId }`. -/
def traceIn (utteranceId : Option Value) (traces : List (Option Value × Trace)) : Trace :=
  (mapGet utteranceId traces).getD { utteranceId := utteranceId }

namespace Runtime

/-- `compileObservation`. -/
def compileObservation (trace : Trace) (r : Runtime) : Runtime :=
  { r with observations := replaceObservation (observe trace) r.observations }

/-- `recordPartialEvent`. -/
def recordPartialEvent (event : Value) (now : ℚ) (r : Runtime) : Runtime :=
  let utteranceId := event.get "utteranceId"
  if falsy utteranceId || (mapGet utteranceId r.firstPartialMs).isSome then r
  else { r with firstPartialMs := mapSet utteranceId now r.firstPartialMs }

/-- `trace.browser` after a final result. -/
def browserTimes (utteranceId : Option Value) (receivedAt : ℚ) (old : Option BrowserTimes) (r : Runtime) :
    BrowserTimes :=
  let browser : BrowserTimes := match old with
    | some browser => { browser with receivedAtMs := receivedAt }
    | none => ⟨receivedAt, none, none⟩
  let browser := match r.manualCommitAt with
    | some at' => { browser with manualCommitLagMs := roundMetric (some (max 0 (receivedAt - at'))) }
    | none => browser
  match mapGet utteranceId r.firstPartialMs with
  | some first =>
    if first = 0 then browser
    else { browser with finalAfterPartialMs := roundMetric (some (max 0 (receivedAt - first))) }
  | none => browser

/-- `recordFinalEvent`. -/
def recordFinalEvent (event : Value) (receivedAt : ℚ) (r : Runtime) : Runtime :=
  let utteranceId := event.get "utteranceId"
  let trace := traceIn utteranceId r.traces
  let trace := { trace with
    text := if falsy (event.get "text") then trace.text else event.get "text"
    metrics := mergeObjects trace.metrics (event.get "metrics")
    browser := some (r.browserTimes utteranceId receivedAt trace.browser) }
  { r with
    manualCommitAt := none
    traces := mapSet utteranceId trace r.traces }.compileObservation trace

/-- `recordTraceUpdate`. -/
def recordTraceUpdate (event : Value) (r : Runtime) : Runtime :=
  let utteranceId := event.get "utteranceId"
  if falsy utteranceId then r
  else
    let trace := traceIn utteranceId r.traces
    let trace := { trace with metrics := mergeObjects trace.metrics (event.get "metrics") }
    { r with traces := mapSet utteranceId trace r.traces }.compileObservation trace

/-- `clearObservations`. -/
def clearObservations (r : Runtime) : Runtime :=
  { r with observations := [], traces := [], firstPartialMs := [] }

/-- What the calls of `handleServerEvent` do here. -/
def call (now : ℚ) (r : Runtime) : Call → Runtime
  | .recordPartialEvent event => r.recordPartialEvent event now
  | .recordFinalEvent event => r.recordFinalEvent event now
  | .recordTraceUpdate event => r.recordTraceUpdate event
  | _ => r

end Runtime

/-- What happens on the page. -/
inductive Action where
  | received (event : Value) (now : ℚ)
  /-- `commit`, and the end of its request if it fails. -/
  | committed (now : ℚ)
  | commitFailed (committedAt : ℚ)
  /-- `start` and `cleanupLocal`. -/
  | reset
  | clear

namespace Runtime

/-- One action. -/
def act (r : Runtime) : Action → Runtime
  | .received event now => (handleServerEvent event).foldl (call now) r
  | .committed now => { r with manualCommitAt := some now }
  | .commitFailed committedAt =>
    if r.manualCommitAt = some committedAt then { r with manualCommitAt := none } else r
  | .reset => { r with manualCommitAt := none }
  | .clear => r.clearObservations

/-- The page after some actions. -/
def run (actions : List Action) : Runtime := actions.foldl act {}

end Runtime

/-! ## `exportObservations` -/

/-- An object literal: fields that are `undefined` are not written. -/
def jsObject (fields : List (String × Option Value)) : Value :=
  .json (fields.filterMap fun f => f.2.map fun v => (f.1, v))

/-- A number or `null`. -/
def numberOrNull (q : Option ℚ) : Option Value :=
  some (match q with
    | some q => .number (.float q)
    | none => .null)

/-- A number, if it was assigned. -/
def numberOrUndefined (q : Option ℚ) : Option Value := q.map fun q => .number (.float q)

/-- `trace.browser` in the file. -/
def BrowserTimes.toValue (browser : BrowserTimes) : Value :=
  jsObject [("receivedAtMs", numberOrUndefined (some browser.receivedAtMs)),
    ("manualCommitLagMs", numberOrUndefined browser.manualCommitLagMs),
    ("finalAfterPartialMs", numberOrUndefined browser.finalAfterPartialMs)]

/-- A trace in the file. -/
def Trace.toValue (trace : Trace) : Value :=
  jsObject [("utteranceId", trace.utteranceId), ("text", trace.text), ("metrics", some (.object trace.metrics)),
    ("browser", trace.browser.map BrowserTimes.toValue)]

/-- An observation in the file. -/
def Observation.toValue (o : Observation) : Value :=
  jsObject [("utteranceId", o.utteranceId), ("text", o.text),
    ("totalEstimatedMs", numberOrNull o.totalEstimatedMs),
    ("stages", some (jsObject [("agoraNetworkMs", numberOrNull o.agoraNetworkMs),
      ("endpointMs", numberOrNull o.endpointMs), ("asrInferenceMs", numberOrNull o.asrInferenceMs),
      ("vpsRelayMs", numberOrNull o.vpsRelayMs)])),
    ("raw", some o.raw.toValue)]

/-- `exportObservations`: the data in the file. -/
def Runtime.exportObservations (r : Runtime) : Value := .array (r.observations.map Observation.toValue)

/-! ## Keys -/

theorem sameKey_symm {a b : Option Value} (h : sameKey a b = true) : sameKey b a = true := by
  unfold sameKey at h ⊢
  split at h <;> grind

theorem sameKey_trans {a b c : Option Value} (h : sameKey a b = true) (h' : sameKey b c = true) :
    sameKey a c = true := by
  unfold sameKey at h h' ⊢
  split at h <;> split at h' <;> grind

theorem mapGet_cons {α : Type} (key : Option Value) (e : Option Value × α)
    (rest : List (Option Value × α)) :
    mapGet key (e :: rest) = if sameKey e.1 key = true then some e.2 else mapGet key rest := by
  unfold mapGet
  rw [List.find?_cons]
  by_cases h : sameKey e.1 key = true
  · simp [h]
  · simp [h]

/-- Reading a key after writing one. -/
theorem mapGet_mapSet {α : Type} (key key' : Option Value) (value : α) (entries : List (Option Value × α)) :
    mapGet key' (mapSet key value entries) =
      if sameKey key key' = true then some value else mapGet key' entries := by
  induction entries with
  | nil => rw [mapSet, mapGet_cons]
  | cons e rest ih =>
    unfold mapSet
    by_cases hkey : sameKey e.1 key = true
    · have hiff : sameKey e.1 key' = true ↔ sameKey key key' = true :=
        ⟨sameKey_trans (sameKey_symm hkey), sameKey_trans hkey⟩
      rw [if_pos hkey, mapGet_cons, mapGet_cons]
      by_cases h : sameKey key key' = true
      · rw [if_pos h, if_pos (hiff.mpr h)]
      · have hno : ¬ sameKey e.1 key' = true := fun hc => h (hiff.mp hc)
        rw [if_neg h, if_neg hno, if_neg hno]
    · rw [if_neg hkey, mapGet_cons, mapGet_cons, ih]
      by_cases h : sameKey key key' = true
      · have hno : ¬ sameKey e.1 key' = true := fun hc => hkey (sameKey_trans hc (sameKey_symm h))
        rw [if_pos h, if_pos h, if_neg hno]
      · rw [if_neg h, if_neg h]

/-! ## Traces and observations -/

/-- Every trace is stored under its utterance. -/
def Keyed (entries : List (Option Value × Trace)) : Prop := ∀ e ∈ entries, e.2.utteranceId = e.1

theorem traceIn_cons (id : Option Value) (e : Option Value × Trace) (rest : List (Option Value × Trace)) :
    traceIn id (e :: rest) = if sameKey e.1 id = true then e.2 else traceIn id rest := by
  unfold traceIn
  rw [mapGet_cons]
  split <;> rfl

/-- The key of an utterance's trace is the same key. -/
theorem traceIn_utteranceId {entries : List (Option Value × Trace)} (h : Keyed entries) (id : Option Value) :
    (traceIn id entries).utteranceId = id ∨ sameKey (traceIn id entries).utteranceId id = true := by
  induction entries with
  | nil => exact Or.inl rfl
  | cons e rest ih =>
    obtain ⟨hhead, htail⟩ := List.forall_mem_cons.mp h
    rw [traceIn_cons]
    by_cases hkey : sameKey e.1 id = true
    · rw [if_pos hkey, hhead]
      exact Or.inr hkey
    · rw [if_neg hkey]
      exact ih htail

theorem keyed_mapSet {entries : List (Option Value × Trace)} (h : Keyed entries) {id : Option Value}
    {trace : Trace} (ht : trace.utteranceId = (traceIn id entries).utteranceId) :
    Keyed (mapSet id trace entries) := by
  induction entries with
  | nil => exact List.forall_mem_singleton.mpr ht
  | cons e rest ih =>
    obtain ⟨hhead, htail⟩ := List.forall_mem_cons.mp h
    rw [traceIn_cons] at ht
    unfold mapSet
    by_cases hkey : sameKey e.1 id = true
    · rw [if_pos hkey] at ht ⊢
      exact List.forall_mem_cons.mpr ⟨ht.trans hhead, htail⟩
    · rw [if_neg hkey] at ht ⊢
      exact List.forall_mem_cons.mpr ⟨hhead, ih htail ht⟩

/-- The observation of a trace takes the place that the trace takes. -/
theorem replaceObservation_map {entries : List (Option Value × Trace)} (h : Keyed entries)
    {id : Option Value} {trace : Trace} (ht : trace.utteranceId = (traceIn id entries).utteranceId) :
    replaceObservation (observe trace) (entries.map fun e => observe e.2) =
      (mapSet id trace entries).map fun e => observe e.2 := by
  induction entries with
  | nil => rfl
  | cons e rest ih =>
    obtain ⟨hhead, htail⟩ := List.forall_mem_cons.mp h
    rw [traceIn_cons] at ht
    unfold mapSet
    rw [List.map_cons, replaceObservation]
    change (if sameKey e.2.utteranceId trace.utteranceId = true then _ else _) = _
    rw [hhead]
    by_cases hkey : sameKey e.1 id = true
    · rw [if_pos hkey] at ht ⊢
      rw [ht, hhead, if_pos (sameKey_trans hkey (sameKey_symm hkey)), List.map_cons]
    · rw [if_neg hkey] at ht ⊢
      have hother : ¬ sameKey e.1 trace.utteranceId = true := by
        intro hsame
        rcases traceIn_utteranceId htail id with hid | hid
        · rw [ht, hid] at hsame
          exact hkey hsame
        · rw [ht] at hsame
          exact hkey (sameKey_trans hsame hid)
      rw [if_neg hother, List.map_cons, ih htail ht]

/-- The observations are those of the traces, in their order. -/
structure Runtime.Consistent (r : Runtime) : Prop where
  keyed : Keyed r.traces
  observed : r.observations = r.traces.map fun e => observe e.2

namespace Runtime

/-- A trace stored and compiled. -/
theorem Consistent.store {r : Runtime} (h : r.Consistent) {id : Option Value} {trace : Trace}
    (ht : trace.utteranceId = (traceIn id r.traces).utteranceId) (committed : Option ℚ) :
    ({ r with
      manualCommitAt := committed
      traces := mapSet id trace r.traces }.compileObservation trace).Consistent := by
  refine ⟨keyed_mapSet h.keyed ht, ?_⟩
  change replaceObservation (observe trace) r.observations = _
  rw [h.observed]
  exact replaceObservation_map h.keyed ht

theorem Consistent.call {r : Runtime} (h : r.Consistent) (now : ℚ) (c : Call) : (r.call now c).Consistent := by
  cases c with
  | recordPartialEvent event =>
    unfold Runtime.call recordPartialEvent
    dsimp only
    split
    · exact h
    · exact ⟨h.keyed, h.observed⟩
  | recordFinalEvent event =>
    unfold Runtime.call recordFinalEvent
    refine h.store ?_ none
    rfl
  | recordTraceUpdate event =>
    unfold Runtime.call recordTraceUpdate
    dsimp only
    split
    · exact h
    · refine h.store ?_ r.manualCommitAt
      rfl
  | _ => exact h

theorem Consistent.act {r : Runtime} (h : r.Consistent) (a : Action) : (r.act a).Consistent := by
  cases a with
  | received event now =>
    unfold Runtime.act
    dsimp only
    induction handleServerEvent event generalizing r with
    | nil => exact h
    | cons c cs ih => exact ih (h.call now c)
  | committed now => exact ⟨h.keyed, h.observed⟩
  | commitFailed committedAt =>
    unfold Runtime.act
    dsimp only
    split
    · exact ⟨h.keyed, h.observed⟩
    · exact h
  | reset => exact ⟨h.keyed, h.observed⟩
  | clear => exact ⟨fun e he => absurd he List.not_mem_nil, rfl⟩

/-! ### What a server event does -/

theorem act_final {event : Value} (h : event.strField "type" = some "asr.final") (now : ℚ) (r : Runtime) :
    r.act (.received event now) = r.recordFinalEvent event now := by
  simp [Runtime.act, handleServerEvent, h, Runtime.call]

theorem act_update {event : Value} (h : event.strField "type" = some "trace.update") (now : ℚ) (r : Runtime) :
    r.act (.received event now) = r.recordTraceUpdate event := by
  simp [Runtime.act, handleServerEvent, h, Runtime.call]

/-- Other events leave the traces. -/
theorem act_traces {event : Value} (hfinal : event.strField "type" ≠ some "asr.final")
    (hupdate : event.strField "type" ≠ some "trace.update") (now : ℚ) (r : Runtime) :
    (r.act (.received event now)).traces = r.traces := by
  unfold Runtime.act handleServerEvent
  simp only [if_neg hfinal, if_neg hupdate]
  by_cases hpart : event.strField "type" = some "asr.partial"
  · simp only [hpart, Option.some.injEq, String.reduceEq, if_true, if_false, List.foldl_cons,
      List.foldl_nil, Runtime.call, recordPartialEvent]
    split <;> rfl
  · rw [if_neg hpart]
    split_ifs <;> rfl

/-- **The observations of the page are those of its traces, in their order.** -/
theorem run_consistent (actions : List Action) : (run actions).Consistent := by
  have hfold : ∀ (actions : List Action) (r : Runtime), r.Consistent → (actions.foldl act r).Consistent := by
    intro actions
    induction actions with
    | nil => exact fun r hr => hr
    | cons a actions ih => exact fun r hr => ih (r.act a) (hr.act a)
  exact hfold actions {} ⟨fun e he => absurd he List.not_mem_nil, rfl⟩

end Runtime

end SenseVoice.Page
