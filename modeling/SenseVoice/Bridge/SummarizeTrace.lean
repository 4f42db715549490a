import Mathlib.Data.List.Sort
import Mathlib.Data.Rat.Floor
import SenseVoice.Json

/-!
# The report of a trace file (`bridge/summarize_trace.py`)

Model of `nested_number`, `percentile`, `metric_values` and `summarize_report` on the data of the file
(`json.loads`).

* A `dict` is an object, a `list` an array. `report.get` raises on anything but a `dict`, and a `for` loop on
  what cannot be iterated.
* `percentile` has every index that it reads. Numbers are exact rationals; `int` truncates, and a negative index
  of a list counts from its end.
* The report is its data (`Report`): a row has the values of its metric and the numbers in its columns. The
  Markdown around them is left out.
-/

namespace SenseVoice.Bridge

/-- What the script raises, with the type that has no `get` or is not iterable. -/
inductive ReportError where
  | attributeError (type : String)
  | typeError (type : String)
  | indexError
deriving DecidableEq

/-- `type(value).__name__`. -/
def typeName : Value → String
  | .null => "NoneType"
  | .bool _ => "bool"
  | .number (.float _) => "float"
  | .number _ => "int"
  | .string _ => "str"
  | .array _ => "list"
  | .object _ => "dict"

/-- `value.get(key)`; `none` when the key is missing. -/
def pyGet (value : Value) (key : String) : Except ReportError (Option Value) :=
  match value with
  | .object fields => .ok (fields.lookup key)
  | v => .error (.attributeError (typeName v))

/-- The items of a `for` loop. -/
def pyIter : Value → Except ReportError (List Value)
  | .array items => .ok items
  | .object fields => .ok (fields.map fun f => .string f.1)
  | .string s => .ok (s.toList.map fun c => .string c.toString)
  | v => .error (.typeError (typeName v))

/-- `nested_number`. -/
def nestedNumber (value : Value) (path : List String) : Option ℚ :=
  match path.foldl (fun current key => current.bind fun v => v.get key) (some value) with
  | some (.number n) => some n.toRat
  | _ => none

/-- `IndexError`. -/
inductive IndexError where
  | outOfRange
deriving DecidableEq

/-- `int(q)`. -/
def pyInt (q : ℚ) : ℤ := if 0 ≤ q then ⌊q⌋ else ⌈q⌉

/-- `items[i]`. -/
def pyItem (items : List ℚ) (i : ℤ) : Except IndexError ℚ :=
  let j := if i < 0 then i + items.length else i
  if j < 0 then .error .outOfRange
  else match items[j.toNat]? with
    | some x => .ok x
    | none => .error .outOfRange

/-- `percentile`. -/
def percentile (values : List ℚ) (ratio : ℚ) : Except IndexError (Option ℚ) :=
  if values = [] then .ok none
  else do
    let ordered := values.mergeSort
    let position := (ordered.length - 1 : ℤ) * ratio
    let lower := pyInt position
    let upper := min (lower + 1) (ordered.length - 1 : ℤ)
    let weight := position - lower
    return some ((← pyItem ordered lower) * (1 - weight) + (← pyItem ordered upper) * weight)

/-- `fmean(values) if values else None`. -/
def average (values : List ℚ) : Option ℚ := if values = [] then none else some (values.sum / values.length)

/-- A line of `METRICS`. -/
structure ReportMetric where
  label : String
  path : List String
  unit : String

/-- `METRICS`. -/
def reportMetrics : List ReportMetric := [
  ⟨"端到端链路估算", ["summary", "estimatedEndToEndMs"], "ms"⟩,
  ⟨"立即断句到最终文本", ["browser", "manualCommitToFinalMs"], "ms"⟩,
  ⟨"客户端音量估算（仅参考）", ["browser", "speechEndToFinalMs"], "ms"⟩,
  ⟨"开始说话到最终文本", ["browser", "speechStartToFinalMs"], "ms"⟩,
  ⟨"开始说话到首个 partial", ["browser", "firstPartialMs"], "ms"⟩,
  ⟨"Agora 网络传输", ["agora", "networkTransportDelayMs"], "ms"⟩,
  ⟨"Agora 抖动缓冲", ["agora", "jitterBufferDelayMs"], "ms"⟩,
  ⟨"Bridge 断句", ["bridge", "endpointMs"], "ms"⟩,
  ⟨"Bridge 音频排队", ["bridge", "audioQueueMs"], "ms"⟩,
  ⟨"ASR 请求准备", ["bridge", "asrRequestPrepareMs"], "ms"⟩,
  ⟨"OminiX HTTP 往返", ["bridge", "asrHttpRoundTripMs"], "ms"⟩,
  ⟨"OminiX 总处理", ["bridge", "asrTotalMs"], "ms"⟩,
  ⟨"VPS 转发排队", ["vps", "relayQueueMs"], "ms"⟩,
  ⟨"文字交付 ACK RTT", ["delivery", "vpsBrowserAckRttMs"], "ms"⟩,
  ⟨"RTF", ["asr", "rtf"], "ratio"⟩,
  ⟨"Agora 收音丢包", ["agora", "audioLossRatePercent"], "%"⟩]

/-- `metric_values`, over observations that are `dict`s. -/
def metricValues (observations : List (List (String × Value))) (path : List String) : List ℚ :=
  observations.filterMap fun observation =>
    nestedNumber ((observation.lookup "metrics").getD (.object [])) path

/-- The row of a metric. -/
structure ReportRow where
  label : String
  unit : String
  values : List ℚ
  average : Option ℚ
  p50 : Option ℚ
  p95 : Option ℚ
  maximum : Option ℚ

/-- The report. -/
structure Report where
  exportedAt : Value
  samples : ℕ
  rows : List ReportRow

/-- The observation, if it is a `dict` whose `complete` is `True`. -/
def completeObservation : Value → Option (List (String × Value))
  | .object fields => if (fields.lookup "complete").bind Value.asBool = some true then some fields else none
  | _ => none

/-- The loop's body for a line of `METRICS`. -/
def reportRow (observations : List (List (String × Value))) (m : ReportMetric) : Except ReportError ReportRow := do
  let values := metricValues observations m.path
  let p50 ← (percentile values (1 / 2)).mapError fun _ => .indexError
  let p95 ← (percentile values (95 / 100)).mapError fun _ => .indexError
  return {
    label := m.label
    unit := m.unit
    values := values
    average := average values
    p50
    p95
    maximum := values.max? }

/-- `summarize_report`. -/
def summarizeReport (report : Value) : Except ReportError Report := do
  let found ← pyGet report "observations"
  let items ← pyIter (found.getD (.array []))
  let observations := items.filterMap completeObservation
  let exportedAt ← pyGet report "exportedAt"
  let rows ← reportMetrics.mapM (reportRow observations)
  return {
    exportedAt := exportedAt.getD (.string "未知")
    samples := observations.length
    rows }

end SenseVoice.Bridge
