import SenseVoice.Json

/-!
# The page's reaction to a server event (`handleServerEvent` in `app.js`)

Model of `handleServerEvent`, `markReady` and the session label. `handleServerEvent` is a chain of
tests on `event.type`; each branch makes some calls and returns. `Call` is one of these calls with its
arguments, and the function returns the calls in order.

* `ui` elements are all present in `index.html`, so the guards on `ui.ttsStatusText` pass.
* The text of a call is a template (`Piece`): fixed text and inserted values. `valueOr` is JavaScript's
  `||` with a default text.
* `setSessionState` writes the label of the session. `Call.label` is what a call makes of it: `markReady`
  writes `"识别中"` (and turns two indicators on), and `cleanupLocal` ends by writing `"待机"`. `start`
  writes `"正在启动..."` before it opens the socket.
* The metrics functions (`recordPartialEvent`, `recordFinalEvent`, `recordTraceUpdate`) are calls here.
-/

namespace SenseVoice.Page

/-- A part of a template: fixed text, or a value of the event. -/
inductive Piece where
  | text (s : String)
  | value (v : Option Value)

/-- The calls of `handleServerEvent`; `setAsrDot` is `setDot(ui.asrDot, mode)`. -/
inductive Call where
  | markReady
  | setAsrDot (mode : String)
  | setPartial (text : Option Value)
  | recordPartialEvent (event : Value)
  | recordFinalEvent (event : Value)
  | recordTraceUpdate (event : Value)
  | appendFinal (text : List Piece) (metrics : Option Value)
  | setTtsStatus (text : List Piece) (color : String)
  | log (message : String) (detail : Option Value)
  | cleanupLocal

/-- Whether a value counts as false in a condition. -/
def falsy : Option Value → Bool
  | none => true
  | some .null => true
  | some (.bool b) => !b
  | some (.string s) => s.isEmpty
  | some (.number (.unsigned n)) => n == 0
  | some (.number (.negative n)) => n == 0
  | some (.number (.float q)) => q == 0
  | _ => false

/-- `value || default`. -/
def valueOr (v : Option Value) (default : String) : Option Value :=
  if falsy v then some (.string default) else v

/-- `handleServerEvent`. -/
def handleServerEvent (event : Value) : List Call :=
  let type := event.strField "type"
  if type = some "session.ready" then [.markReady, .log "会话已就绪" none]
  else if type = some "asr.partial" then
    [.setAsrDot "busy", .setPartial (valueOr (event.get "text") ""), .recordPartialEvent event]
  else if type = some "asr.final" then
    [.setAsrDot "on", .setPartial (some (.string "")),
      .appendFinal [.value (event.get "text")] (event.get "metrics"), .recordFinalEvent event]
  else if type = some "trace.update" then [.recordTraceUpdate event]
  else if type = some "asr.error" then
    [.setAsrDot "error",
      .appendFinal [.text "⚠ 识别错误: ", .value (valueOr (event.get "message") "未知异常")] none,
      .log "识别异常" (some event)]
  else if type = some "tts.started" then
    [.setAsrDot "busy",
      .setTtsStatus [.text "正在朗读 (", .value (event.get "characters"), .text " 字)..."] "#38bdf8"]
  else if type = some "tts.finished" then
    [.setAsrDot "on", .setTtsStatus [.text "朗读完成"] "#34d399"]
  else if type = some "tts.error" then
    [.setAsrDot "", .setTtsStatus [.text "朗读失败: ", .value (event.get "message")] "#f87171",
      .appendFinal [.text "⚠ TTS 失败: ", .value (valueOr (event.get "message") "未知错误")] none]
  else if type = some "session.closed" then [.log "收到 session.closed 事件" none, .cleanupLocal]
  else if type = some "session.expired" then
    [.appendFinal [.text "⚠ 会话已到期，请重新开始识别。"] none, .cleanupLocal]
  else []

/-! ## The session label -/

/-- The label `markReady` writes. -/
def readyLabel : String := "识别中"

/-- What a call makes of the session label. -/
def Call.label : Call → Option String
  | .markReady => some readyLabel
  | .cleanupLocal => some "待机"
  | _ => none

/-- The calls the page makes for the messages of its socket, in order. -/
def calls (messages : List Value) : List Call := messages.flatMap handleServerEvent

/-- The session label after these calls. -/
def sessionLabel (cs : List Call) : String := (cs.filterMap Call.label).getLastD "正在启动..."

@[simp] theorem calls_nil : calls [] = [] := rfl

theorem calls_append (ms ms' : List Value) : calls (ms ++ ms') = calls ms ++ calls ms' :=
  List.flatMap_append

theorem calls_singleton (m : Value) : calls [m] = handleServerEvent m := List.flatMap_singleton _ _

/-- Calls that write no label leave it. -/
theorem sessionLabel_append {cs ds : List Call} (h : ∀ d ∈ ds, d.label = none) :
    sessionLabel (cs ++ ds) = sessionLabel cs := by
  unfold sessionLabel
  rw [List.filterMap_append, List.filterMap_eq_nil_iff.mpr h, List.append_nil]

/-- `markReady` before calls that write no label. -/
theorem sessionLabel_markReady {cs ds : List Call} (h : ∀ d ∈ ds, d.label = none) :
    sessionLabel (cs ++ .markReady :: ds) = readyLabel := by
  unfold sessionLabel
  rw [List.filterMap_append, List.filterMap_cons, List.filterMap_eq_nil_iff.mpr h]
  simp [Call.label]

end SenseVoice.Page
