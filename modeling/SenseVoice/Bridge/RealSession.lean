import SenseVoice.Bridge.Segmenter
import SenseVoice.Json

/-!
# Recognition in a session of the bridge (`RealSession` in `bridge/bridge/main.py`)

Model of `_on_pcm`, `_process_audio`, `_handle_segment`, `_transcribe`, `commit` and `stop`. Three
coroutines call `_transcribe` (`Slot`): the worker, the task in `partial_task`, and `commit`, which
`BridgeApp.handle` awaits, so that one call of it runs at a time. An event runs one coroutine from where
it waits to its next `await`; any of them may come in any order.

* `BridgeApp.emit` holds `send_lock` while it sends. `asyncio.Lock` serves its waiters in order
  (`waiting`); `acquire` is the call of `websocket.send` by the first one, or nothing if there is no
  connection, and `sent` is its return. An uncontended lock does not wait in the source; here other
  coroutines may run before `acquire`.
* `cancel()` on a waiting task gives up its place in the lock's queue. The task ends at its next
  resumption (`cancelled`), which nothing but the end of `_transcribe` follows.
* `partial_task` is `none` here also when the task is done: the source treats both alike.
* The audio queue holds 500 entries; its last one is the marker `None` (here `none`) of `stop`.
* `transcribe_detailed` and the sends are inputs: what they return or raise, and when. The `metrics`
  are computed from times and from the network's statistics, and are an input too.
* The part of `stop` before the marker (speech and receiver) and after the worker is left out, but for
  the cancellation of the partial task.
-/

namespace SenseVoice.Bridge

/-! ## What `_transcribe` emits -/

/-- `utterance_id`. -/
def utteranceId (sessionId : String) (index : ℕ) : String := sessionId ++ ":" ++ Nat.repr index

/-- The payload of an `asr.final` or an `asr.partial`. -/
structure Result where
  final : Bool
  index : ℕ
  seq : ℕ
  text : String
  metrics : Value
  readyAtMs : ℕ

/-- `payload["type"]`. -/
def Result.type (r : Result) : String := if r.final then "asr.final" else "asr.partial"

/-- The payloads of `_transcribe`; a trace has the call's local `payload`. -/
inductive AsrMessage where
  | result (r : Result)
  | trace (payload : Result) (seq : ℕ) (sendMs : Number)
  | error (index : ℕ) (message : String)

/-- The payload as JSON. -/
def AsrMessage.toValue (sessionId : String) : AsrMessage → Value
  | .result r => .json [("type", .string r.type), ("sessionId", .string sessionId),
      ("utteranceId", .string (utteranceId sessionId r.index)), ("seq", .number (.unsigned r.seq)),
      ("text", .string r.text), ("metrics", r.metrics),
      ("bridgeResultReadyAtUnixMs", .number (.unsigned r.readyAtMs))]
  | .trace payload seq sendMs => .json [("type", .string "trace.update"),
      ("sessionId", .string sessionId),
      ("utteranceId", .string (utteranceId sessionId payload.index)),
      ("seq", .number (.unsigned seq)), ("eventType", .string payload.type),
      ("metrics", .json [("bridge", .json [("resultWebSocketSendMs", .number sendMs)])])]
  | .error index message => .json [("type", .string "asr.error"), ("sessionId", .string sessionId),
      ("utteranceId", .string (utteranceId sessionId index)), ("message", .string message)]

/-! ## The calls of `_transcribe` -/

/-- The coroutines that call `_transcribe`. -/
inductive Slot where
  | worker
  | partialTask
  | commit
deriving DecidableEq

/-- Where a call of `_transcribe` waits. -/
inductive Stage where
  /-- The task has not run yet. -/
  | created
  /-- For the result of `transcribe_detailed`. -/
  | asr
  /-- For the sends of `emit`. -/
  | result (payload : Result)
  | trace (payload : Result) (seq : ℕ) (sendMs : Number)
  | error (message : String)

/-- A call of `_transcribe`. -/
structure Transcribe where
  event : SegmentEvent
  final : Bool
  stage : Stage

/-- What the call emits where it waits. -/
def Transcribe.message (c : Transcribe) : Option AsrMessage :=
  match c.stage with
  | .result payload => some (.result payload)
  | .trace payload seq sendMs => some (.trace payload seq sendMs)
  | .error message => some (.error c.event.utteranceIndex message)
  | _ => none

/-- The owner of `send_lock`, and whether it has called `websocket.send`. -/
structure Holder where
  slot : Slot
  sending : Bool

/-- What happens: a final segment begins its transcription, or a payload is given to the socket. -/
inductive Entry where
  | begins (index : ℕ)
  | sent (m : AsrMessage)

/-- How `transcribe_detailed` comes back. -/
inductive Outcome where
  | text (text : String) (metrics : Value) (readyAtMs : ℕ)
  | raised (message : String)

/-- The calls of `_transcribe`, the counter they share and the lock they send under; `cancelling` says
that the partial task has been cancelled and has not run since. -/
structure Recognition where
  calls : Slot → Option Transcribe := fun _ => none
  cancelling : Bool := false
  sequence : ℕ := 0
  waiting : List Slot := []
  holder : Option Holder := none
  websocket : Bool := true
  log : List Entry := []

namespace Recognition

/-- The slot's call moves on, or returns. -/
def set (slot : Slot) (c : Option Transcribe) (r : Recognition) : Recognition :=
  { r with calls := Function.update r.calls slot c }

/-- The call of `emit`, up to its wait for the lock. -/
def emit (slot : Slot) (c : Transcribe) (stage : Stage) (r : Recognition) : Recognition :=
  { r.set slot (some { c with stage := stage }) with waiting := r.waiting ++ [slot] }

/-- The slot's coroutine is not a cancelled task. -/
def live (slot : Slot) (r : Recognition) : Bool := !(slot == .partialTask && r.cancelling)

/-- `partial_task.cancel()`, if the task is not done. -/
def cancelPartial (r : Recognition) : Recognition :=
  if (r.calls .partialTask).isSome then
    { r with cancelling := true, waiting := r.waiting.filter (· ≠ .partialTask) }
  else r

/-- `asyncio.create_task(self._transcribe(event, final=False))`. -/
def createTask (event : SegmentEvent) (r : Recognition) : Recognition :=
  { r.set .partialTask (some ⟨event, false, .created⟩) with cancelling := false }

/-- `_transcribe(event, final=True)` up to its wait for `transcribe_detailed`. -/
def begin (slot : Slot) (event : SegmentEvent) (r : Recognition) : Recognition :=
  { r.set slot (some ⟨event, true, .asr⟩) with log := r.log ++ [.begins event.utteranceIndex] }

/-- `_handle_segment`, up to its first wait. -/
def handleSegment (slot : Slot) (event : SegmentEvent) (r : Recognition) : Recognition :=
  match event.kind with
  | .partialSegment => if (r.calls .partialTask).isNone then r.createTask event else r
  | .finalSegment => r.cancelPartial.begin slot event

/-- The partial task runs up to its wait for `transcribe_detailed`. -/
def start (r : Recognition) : Option Recognition :=
  match r.calls .partialTask with
  | some ⟨event, final, .created⟩ =>
    if r.live .partialTask then some (r.set .partialTask (some ⟨event, final, .asr⟩)) else none
  | _ => none

/-- `_transcribe`, from the return of `transcribe_detailed`. -/
def transcribed (slot : Slot) (outcome : Outcome) (r : Recognition) : Option Recognition :=
  match r.calls slot with
  | some ⟨event, final, .asr⟩ =>
    if r.live slot then
      match outcome with
      | .raised message => some (r.emit slot ⟨event, final, .asr⟩ (.error message))
      | .text text metrics readyAtMs =>
        if text = "" then some (r.set slot none)
        else
          let r := { r with sequence := r.sequence + 1 }
          some (r.emit slot ⟨event, final, .asr⟩
            (.result ⟨final, event.utteranceIndex, r.sequence, text, metrics, readyAtMs⟩))
    else none
  | _ => none

/-- The first waiter gets the lock and calls `websocket.send`. -/
def acquire (r : Recognition) : Option Recognition :=
  match r.holder, r.waiting with
  | none, slot :: rest =>
    ((r.calls slot).bind Transcribe.message).map fun m =>
      { r with
        waiting := rest
        holder := some ⟨slot, r.websocket⟩
        log := if r.websocket then r.log ++ [.sent m] else r.log }
  | _, _ => none

/-- What follows the return of `emit`, or the exception it raises. -/
def afterSend (slot : Slot) (c : Transcribe) (raised : Option String) (sendMs : Number)
    (r : Recognition) : Recognition × Option String :=
  match raised, c.stage with
  | none, .result payload => (r.emit slot c (.trace payload r.sequence sendMs), none)
  | none, _ => (r.set slot none, none)
  -- the handler of `_transcribe` emits once more, and nothing handles what that raises
  | some exc, .error _ => (r.set slot none, some exc)
  | some exc, _ => (r.emit slot c (.error exc), none)

/-- `websocket.send` returns or raises, and the lock is free; with the exception `_transcribe` raises. -/
def sent (raised : Option String) (sendMs : Number) (r : Recognition) :
    Option (Slot × Recognition × Option String) :=
  match r.holder with
  | none => none
  | some h =>
    if r.live h.slot ∧ (raised.isSome → h.sending) then
      (r.calls h.slot).map fun c =>
        (h.slot, { r with holder := none }.afterSend h.slot c raised sendMs)
    else none

/-- The cancelled task runs, and ends. -/
def cancelled (r : Recognition) : Option Recognition :=
  if r.cancelling then
    some { r.set .partialTask none with
      cancelling := false
      holder := r.holder.filter fun h => h.slot ≠ .partialTask }
  else none

end Recognition

/-! ## The session -/

/-- A PCM callback, with the verdict of the segmenter's threshold on its frame. -/
structure AudioFrame where
  pcm : Pcm
  receivedNs : ℤ
  speaking : Bool

/-- The task in `worker`. -/
inductive Worker where
  | running
  | returned
  | failed (exc : String)
deriving DecidableEq

/-- Where `stop` is. -/
inductive Stopping where
  | notCalled
  /-- It waits to put the marker into the queue. -/
  | putting
  /-- It awaits the worker. -/
  | joining
  | done
  | raised (exc : String)
deriving DecidableEq

/-- The recognition part of `RealSession`. -/
structure RealSession where
  queue : List (Option AudioFrame) := []
  segmenter : PcmSegmenter := {}
  worker : Worker := .running
  stopping : Stopping := .notCalled
  asr : Recognition := {}

/-- `maxsize` of the audio queue. -/
def queueSize : ℕ := 500

/-- What the event loop runs next. -/
inductive SessionEvent where
  | pcm (frame : AudioFrame)
  | work
  | start
  | transcribed (slot : Slot) (outcome : Outcome)
  | acquire
  | sent (raised : Option String) (sendMs : Number)
  | cancelled
  | commit (nowNs : ℤ)
  | stop
  | putMarker
  | joined
  | websocket (present : Bool)

namespace RealSession

/-- What `_handle_segment` does with what the segmenter returns. -/
def segment (slot : Slot) (out : PcmSegmenter × Option SegmentEvent) (s : RealSession) : RealSession :=
  { s with
    segmenter := out.1
    asr := match out.2 with
      | some event => s.asr.handleSegment slot event
      | none => s.asr }

/-- `_on_pcm`. -/
def onPcm (frame : AudioFrame) (s : RealSession) : RealSession :=
  if s.queue.length < queueSize then { s with queue := s.queue ++ [some frame] } else s

/-- `_process_audio`, for one item of the queue. -/
def work (cfg : SegmenterConfig) (s : RealSession) : Option RealSession :=
  if s.worker = .running ∧ (s.asr.calls .worker).isNone then
    match s.queue with
    | [] => none
    | none :: rest => some { s with queue := rest, worker := .returned }
    | some frame :: rest =>
      some ({ s with queue := rest }.segment .worker
        (s.segmenter.feed cfg frame.pcm frame.receivedNs frame.speaking))
  else none

/-- The end of a send; an exception that leaves `_transcribe` in the worker ends the worker. -/
def sent (raised : Option String) (sendMs : Number) (s : RealSession) : Option RealSession :=
  (s.asr.sent raised sendMs).map fun (slot, asr, exc) =>
    { s with
      asr := asr
      worker := match slot, exc with
        | .worker, some exc => .failed exc
        | _, _ => s.worker }

/-- `commit`. -/
def commit (nowNs : ℤ) (s : RealSession) : Option RealSession :=
  if (s.asr.calls .commit).isNone then some (s.segment .commit (s.segmenter.commit nowNs)) else none

/-- `stop`, from one wait to the next. -/
def putMarker (s : RealSession) : Option RealSession :=
  if s.stopping = .putting ∧ s.queue.length < queueSize then
    some { s with queue := s.queue ++ [none], stopping := .joining }
  else none

/-- `stop`, when the worker has ended. -/
def joined (s : RealSession) : Option RealSession :=
  match s.stopping, s.worker with
  | .joining, .returned => some { s with stopping := .done, asr := s.asr.cancelPartial }
  | .joining, .failed exc => some { s with stopping := .raised exc }
  | _, _ => none

/-- **One step** of a started session. -/
def step (cfg : SegmenterConfig) (s : RealSession) (e : SessionEvent) : Option RealSession :=
  match e with
  | .pcm frame => some (s.onPcm frame)
  | .work => s.work cfg
  | .start => s.asr.start.map fun asr => { s with asr := asr }
  | .transcribed slot outcome => (s.asr.transcribed slot outcome).map fun asr => { s with asr := asr }
  | .acquire => s.asr.acquire.map fun asr => { s with asr := asr }
  | .sent raised sendMs => s.sent raised sendMs
  | .cancelled => s.asr.cancelled.map fun asr => { s with asr := asr }
  | .commit nowNs => s.commit nowNs
  | .stop => if s.stopping = .notCalled then some { s with stopping := .putting } else none
  | .putMarker => s.putMarker
  | .joined => s.joined
  | .websocket present => some { s with asr := { s.asr with websocket := present } }

end RealSession

end SenseVoice.Bridge
