import SenseVoice.ControlPlane.Auth

/-!
# The session commands: commit, speak, delete

Model of `commit_utterance`, `speak_text`, `delete_session` and `forward_session_command`. Each takes
the lock twice: `require_session_access` decides access under the first acquisition, the command is
carried out under the second. `Command` is what a handler still has to do between the two: for
`speak_text` the body has been validated and its message fields built (`speakFields`), which touches
no state. `runCommand` is the second critical section.

An `f32` is not-a-number, an infinity, or the rational it denotes.
-/

namespace SenseVoice.ControlPlane

open Lib Text

/-- An `f32`. -/
inductive F32 where
  | nan
  | infinite (negative : Bool)
  | finite (q : Rat)
deriving DecidableEq

/-- `SpeakRequest`. -/
structure SpeakRequest where
  text : String
  voice : Option String
  speed : Option F32
  instruct : Option String
deriving DecidableEq

/-- `valid_speak_text`. -/
def validSpeakText (value : String) : Bool :=
  !value.isEmpty && value.length ≤ 500 && !value.toList.any isControl

/-- `valid_tts_voice`. -/
def validTtsVoice (value : String) : Bool :=
  !value.isEmpty && byteLen value ≤ 64 && isToken value

/-- `valid_tts_speed`; `0.2_f32` is `13421773 / 2 ^ 26`. -/
def validTtsSpeed (value : F32) : Bool :=
  match value with
  | .finite q => (13421773 / 67108864 : Rat) ≤ q && q ≤ 3
  | _ => false

/-- `valid_tts_instruct`. -/
def validTtsInstruct (value : String) : Bool :=
  value.length ≤ 200 && !value.toList.any isControl

/-- `json!(speed)`. -/
def F32.toJson : F32 → Value
  | .finite q => .number (.float q)
  | _ => .null

/-- `value.map(trim).filter(|value| !value.is_empty())`. -/
def trimmed (value : Option String) : Option String :=
  (value.map trim).filter fun v => !v.isEmpty

/-- The fields `speak_text` puts after `type` and `sessionId`, or its error reply; `body` is the
parsed request, `none` when it does not parse. -/
def speakFields (body : Option SpeakRequest) : Except Reply (List (String × Value)) :=
  match body with
  | none =>
    .error (renderError 400 "invalid_request" "A JSON body with a text field is required")
  | some request =>
    let text := trim request.text
    let voice := trimmed request.voice
    let instruct := trimmed request.instruct
    if !validSpeakText text then
      .error (renderError 400 "invalid_text" "text must contain 1-500 non-control characters")
    else if voice.any fun v => !validTtsVoice v then
      .error (renderError 400 "invalid_voice"
        "voice must be 1-64 ASCII letters, digits, '-' or '_'")
    else if request.speed.any fun v => !validTtsSpeed v then
      .error (renderError 400 "invalid_speed" "speed must be a number between 0.2 and 3.0")
    else if instruct.any fun v => !validTtsInstruct v then
      .error (renderError 400 "invalid_instruct"
        "instruct must contain at most 200 non-control characters")
    else
      .ok ([("text", .string text)] ++ (voice.map fun v => ("voice", Value.string v)).toList ++
        (request.speed.map fun v => ("speed", v.toJson)).toList ++
        (instruct.map fun v => ("instruct", Value.string v)).toList)

/-- A command whose first critical section granted access. -/
inductive Command where
  | commit (id : Uuid)
  | speak (id : Uuid) (body : Option SpeakRequest)
  | delete (id : Uuid)
deriving DecidableEq

/-- The path parameter the command was issued with. -/
def Command.id : Command → Uuid
  | .commit id => id
  | .speak id _ => id
  | .delete id => id

/-- The reply to an unknown id. -/
def sessionNotFound : Reply := renderError 404 "session_not_found" "Session not found"

/-- `forward_session_command` and the end of `speak_text` under the lock: the message goes to the
bridge when the record exists. -/
def forward (id : Uuid) (event : Value) (a : AppState) : AppState × Reply :=
  if (a.inner.sessions.lookup id).isNone then (a, sessionNotFound)
  else
    match a.toBridge event with
    | (a, false) => (a, renderError 503 "bridge_offline" "The LAN bridge is not connected")
    | (a, true) => (a, accepted)

/-- `forward_session_command` with `"utterance.commit"`. -/
def commitUtterance (id : Uuid) (a : AppState) : AppState × Reply :=
  forward id (sessionMessage "utterance.commit" id) a

/-- `speak_text` after the access check. -/
def speakText (id : Uuid) (body : Option SpeakRequest) (a : AppState) : AppState × Reply :=
  match speakFields body with
  | .error reply => (a, reply)
  | .ok fields => forward id ((sessionMessage "tts.speak" id).extend (.object fields)) a

/-- `delete_session` after the access check. -/
def deleteSession (id : Uuid) (a : AppState) : AppState × Reply :=
  match a.inner.sessions.lookup id with
  | none => (a, sessionNotFound)
  | some _ =>
    let a := a.setState id .closed
    let a := (a.toBridge (sessionMessage "session.stop" id)).1
    (a.dismissClient id [sessionMessage "session.closed" id], ⟨204, .null, []⟩)

/-- The second critical section of a command. -/
def runCommand (c : Command) (a : AppState) : AppState × Reply :=
  match c with
  | .commit id => commitUtterance id a
  | .speak id body => speakText id body a
  | .delete id => deleteSession id a

end SenseVoice.ControlPlane
