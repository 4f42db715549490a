import SenseVoice.Bridge.LivekitReceiver
import SenseVoice.Json
import SenseVoice.Lib.Run

/-!
# Speech in a session of the bridge (`RealSession` in `bridge/bridge/main.py`)

Model of `speak` and `_speak` over a `LivekitReceiver`. `BridgeApp.run` handles one message at a time,
so one call of `speak` runs at a time, and next to it every task that `speak` has made, the `producer` of
each `_speak`, and the receiver's `_send_loop`. An event runs one of them from where it waits to its next
`await`; any of them may come in any order.

* Time is an input: how many frames the pacing loop finds late when it runs (`late`) before it sleeps.
* `stream_pcm` is an input: the chunks it yields, when, and how it ends. So is how `emit` comes back.
* `cancel()` on a task makes the next run of the task raise `CancelledError` where it waits. A
  cancelled producer may take a while to end, and its clean-up may raise.
* The `finally` of `_speak` awaits the producer, and swallows a `CancelledError` there: a task that is
  cancelled while it waits for its producer ends as if it had not been cancelled.
* Requests are numbered: `current` tasks were created so far, and the last one is in `tts_task`. The task
  and the locals of each are kept (`tasks`, `streams`): a task that is not in `tts_task` any more runs on
  if it is not done, and a producer can outlive its task's turn.
* `stop` is left out, and the fields `voice`, `speed`, `instruct`, which only `stream_pcm` reads.
-/

namespace SenseVoice.Bridge

open Lib

/-! ## Constants and messages -/

/-- `TTS_TARGET_RATE`. -/
def ttsTargetRate : ℕ := 48000

/-- `frame_bytes`: 20 ms at 48 kHz mono 16-bit. -/
def frameBytes : ℕ := 1920

/-- `prebuffer_bytes`. -/
def prebufferBytes : ℕ := frameBytes * 5

/-- The payloads of `speak` and `_speak`. -/
inductive SpeechMessage where
  | started (characters : ℕ)
  | finished
  | error (message : String)
deriving DecidableEq

/-- The payload as JSON. -/
def SpeechMessage.toValue (sessionId : String) : SpeechMessage → Value
  | .started characters => .json [("type", .string "tts.started"), ("sessionId", .string sessionId),
      ("characters", .number (.unsigned characters))]
  | .finished => .json [("type", .string "tts.finished"), ("sessionId", .string sessionId)]
  | .error message => .json [("type", .string "tts.error"), ("sessionId", .string sessionId),
      ("message", .string message)]

/-! ## The parties -/

/-- The task in `producer`. -/
inductive Producer where
  | absent
  | created
  | running
  /-- Cancelled, and not yet ended; whether it had begun. -/
  | cancelling (started : Bool)
  | returned
  | cancelled
deriving DecidableEq

/-- The task exists and is not done. -/
def Producer.active : Producer → Bool
  | .created | .running | .cancelling _ => true
  | _ => false

/-- `cancel()`, if the task is not done. -/
def Producer.cancel : Producer → Producer
  | .created => .cancelling false
  | .running => .cancelling true
  | p => p

/-- The locals of one `_speak` that its producer shares, and the chunks that came so far. -/
structure TtsStream where
  upsampler : PcmUpsampler2x := {}
  pending : Pcm := []
  streamDone : Bool := false
  streamError : Option String := none
  producer : Producer := .absent
  chunks : List Pcm := []

/-- How a coroutine ends. -/
inductive Exit where
  | returned
  | cancelled
  | raised (exc : String)
deriving DecidableEq

/-- Where `_speak` waits. -/
inductive SpeakPc where
  /-- The task has not run yet. -/
  | created
  /-- For the `emit` of `tts.started`. -/
  | announcing
  /-- In the sleep of 10 ms, with `start_time` unset. -/
  | waiting
  /-- In the sleep until the next frame is due. -/
  | pacing
  /-- In the sleep of 150 ms. -/
  | draining
  /-- For the `emit` of `tts.finished`. -/
  | finishing
  /-- In the `finally`, for the cancelled producer; how the block was left. -/
  | unwinding (exit : Exit)
  /-- For the `emit` of `tts.error`. -/
  | failing
  | done (result : Exit)
deriving DecidableEq

/-- A task of `_speak`. -/
structure SpeakTask where
  text : String
  pc : SpeakPc := .created
  cancelling : Bool := false

/-- `task.done()`. -/
def SpeakTask.isDone (t : SpeakTask) : Bool :=
  match t.pc with
  | .done _ => true
  | _ => false

/-- Where `speak` is. -/
inductive SpeakCall where
  | idle
  /-- For the `emit` of its `tts.error`. -/
  | refusing
  /-- For the task it has cancelled. -/
  | interrupting (text : String)
deriving DecidableEq

/-- A call of `push_pcm`, and what it returned. -/
structure Push where
  request : ℕ
  frame : Pcm
  accepted : Bool

/-- What happens: a push, or a call of `emit`. -/
inductive SpeechEntry where
  | push (p : Push)
  | emit (request : ℕ) (m : SpeechMessage)

/-- The speech part of `RealSession`; `tts` says that it has a TTS client. -/
structure Speaking where
  tts : Bool := true
  call : SpeakCall := .idle
  tasks : ℕ → Option SpeakTask := fun _ => none
  current : ℕ := 0
  streams : ℕ → TtsStream := fun _ => {}
  receiver : LivekitReceiver := {}
  log : List SpeechEntry := []

/-! ## The pacing loop -/

/-- What an iteration of the loop does. -/
inductive Iteration where
  | fail (exc : String)
  /-- It sleeps for 10 ms, with `start_time` unset. -/
  | wait
  /-- It pushes the next frame when it is due. -/
  | frame
  /-- It pushes what is left, and leaves. -/
  | rest
deriving DecidableEq

/-- The tests of an iteration; `started` says that `start_time` is set. -/
def TtsStream.iteration (started : Bool) (st : TtsStream) : Iteration :=
  match st.streamError with
  | some exc => .fail exc
  | none =>
    if started = false ∧ ¬(prebufferBytes ≤ st.pending.length ∨ st.streamDone = true) then .wait
    else if started = false ∧ st.pending = [] then .fail "TTS returned no audio"
    else if frameBytes ≤ st.pending.length then .frame
    else if st.streamDone then .rest
    else .wait

namespace Speaking

/-- `self.tts_task`. -/
def ttsTask (s : Speaking) : Option SpeakTask := s.tasks s.current

def setStream (k : ℕ) (st : TtsStream) (s : Speaking) : Speaking :=
  { s with streams := Function.update s.streams k st }

def setTask (k : ℕ) (task : Option SpeakTask) (s : Speaking) : Speaking :=
  { s with tasks := Function.update s.tasks k task }

/-! The `_speak` of request `k`. -/

variable (k : ℕ)

def setPending (pending : Pcm) (s : Speaking) : Speaking :=
  s.setStream k { s.streams k with pending := pending }

/-- `producer` becomes what it is after a step of the task. -/
def setProducer (producer : Producer) (s : Speaking) : Speaking :=
  s.setStream k { s.streams k with producer := producer }

/-- The task goes on to its next wait. -/
def await (pc : SpeakPc) (s : Speaking) : Speaking :=
  s.setTask k ((s.tasks k).map fun t => { t with pc := pc, cancelling := false })

/-- The call of `emit`. -/
def emit (m : SpeechMessage) (s : Speaking) : Speaking :=
  { s with log := s.log ++ [.emit k m] }

/-- `self.receiver.push_pcm(frame, TTS_TARGET_RATE, 1)`, with what it returns. -/
def push (frame : Pcm) (s : Speaking) : Speaking × Bool :=
  let out := s.receiver.pushPcm k frame ttsTargetRate 1
  ({ s with receiver := out.1, log := s.log ++ [.push ⟨k, frame, out.2⟩] }, out.2)

/-- The next frame is pushed. -/
def pushFrame (s : Speaking) : Speaking × Bool :=
  (s.setPending k ((s.streams k).pending.drop frameBytes)).push k ((s.streams k).pending.take frameBytes)

/-- What is left is pushed, filled up to a frame. -/
def pushRest (s : Speaking) : Speaking :=
  if (s.streams k).pending = [] then s
  else ((s.setPending k []).push k (ljust frameBytes 0 (s.streams k).pending)).1

/-- What follows the `finally` when the block was left so. -/
def handleExit (exit : Exit) (s : Speaking) : Speaking :=
  match exit with
  | .returned => s.await k (.done .returned)
  | .cancelled => { s with receiver := s.receiver.clearAudioBuffer }.await k (.done .cancelled)
  | .raised exc => (s.emit k (.error exc)).await k .failing

/-- The block is left: the `finally`. -/
def leave (exit : Exit) (s : Speaking) : Speaking :=
  if (s.streams k).producer.active then
    (s.setProducer k (s.streams k).producer.cancel).await k (.unwinding exit)
  else s.handleExit k exit

/-- The loop, from the top of an iteration to its next wait, with `late` frames already due. -/
def loop (late : ℕ) (started : Bool) (s : Speaking) : Speaking :=
  match (s.streams k).iteration started with
  | .fail exc => s.leave k (.raised exc)
  | .wait => s.await k .waiting
  | .rest => (s.pushRest k).await k .draining
  | .frame =>
    match late with
    | 0 => s.await k .pacing
    | late + 1 =>
      if (s.pushFrame k).2 then loop late true (s.pushFrame k).1
      else (s.pushFrame k).1.await k .draining

/-! ## The task -/

/-- `CancelledError` where the task waits. -/
def interrupt (pc : SpeakPc) (s : Speaking) : Option Speaking :=
  match pc with
  | .created | .announcing | .failing => some (s.await k (.done .cancelled))
  | .waiting | .pacing | .draining | .finishing => some (s.leave k .cancelled)
  | .unwinding exit => if (s.streams k).producer.active then none else some (s.handleExit k exit)
  | .done _ => none

/-- `_speak`, from where it waits; `raised` is what a call of `emit` it waits for has raised. -/
def resume (text : String) (pc : SpeakPc) (raised : Option String) (late : ℕ) (s : Speaking) :
    Option Speaking :=
  match pc, raised with
  | .created, _ => some ((s.emit k (.started text.length)).await k .announcing)
  | .announcing, some exc => some (s.await k (.done (.raised exc)))
  | .announcing, none => some ((s.setProducer k .created).loop k late false)
  | .waiting, _ => some (s.loop k late false)
  | .pacing, _ =>
    some (if (s.pushFrame k).2 then (s.pushFrame k).1.loop k late true
      else (s.pushFrame k).1.await k .draining)
  | .draining, _ => some ((s.emit k .finished).await k .finishing)
  | .finishing, some exc => some (s.leave k (.raised exc))
  | .finishing, none => some (s.leave k .returned)
  | .unwinding exit, _ => if (s.streams k).producer.active then none else some (s.handleExit k exit)
  | .failing, some exc => some (s.await k (.done (.raised exc)))
  | .failing, none => some (s.await k (.done .returned))
  | .done _, _ => none

/-- The task runs. -/
def run (raised : Option String) (late : ℕ) (s : Speaking) : Option Speaking :=
  (s.tasks k).bind fun t =>
    if t.cancelling then s.interrupt k t.pc else s.resume k t.text t.pc raised late

/-! ## The requests -/

/-- `asyncio.create_task(self._speak(text, ..))`. -/
def createTask (text : String) (s : Speaking) : Speaking :=
  { s.setTask (s.current + 1) (some { text := text }) with current := s.current + 1 }

/-- `speak`, up to its first wait. -/
def request (text : String) (s : Speaking) : Option Speaking :=
  if s.call ≠ .idle then none
  else if s.tts = false then
    some { s.emit s.current (.error "TTS is not configured on this bridge") with call := .refusing }
  else if strip text = "" then some s
  else
    match s.ttsTask with
    | none => some (s.createTask (strip text))
    | some t =>
      if t.isDone then some (s.createTask (strip text))
      else
        some { s.setTask s.current (some { t with cancelling := true }) with call := .interrupting (strip text) }

/-- `speak`, from the end of its `emit`. -/
def refused (s : Speaking) : Option Speaking :=
  if s.call = .refusing then some { s with call := .idle } else none

/-- `speak`, from the end of the task it awaits; an exception of the task leaves it. -/
def resumed (s : Speaking) : Option Speaking :=
  match s.call, s.ttsTask with
  | .interrupting _, some ⟨_, .done (.raised _), _⟩ => some { s with call := .idle }
  | .interrupting text, some ⟨_, .done _, _⟩ =>
    some ({ s with
      call := .idle
      receiver := s.receiver.clearAudioBuffer }.createTask text)
  | _, _ => none

end Speaking

/-! ## The producers -/

namespace TtsStream

/-- `produce` begins. -/
def produce (st : TtsStream) : Option TtsStream :=
  if st.producer = .created then some { st with producer := .running } else none

/-- A chunk comes. -/
def chunk (pcm : Pcm) (st : TtsStream) : Option TtsStream :=
  if st.producer = .running then
    some { st with
      upsampler := (st.upsampler.feed pcm).1
      pending := st.pending ++ (st.upsampler.feed pcm).2
      chunks := st.chunks ++ [pcm] }
  else none

/-- `produce` ends; it handles the exceptions of the stream, and a cancellation ends it once the
stream is closed. -/
def ends (exit : Exit) (st : TtsStream) : Option TtsStream :=
  match st.producer, exit with
  | .running, .returned => some { st with producer := .returned, streamDone := true }
  | .running, .raised exc | .cancelling true, .raised exc =>
    some { st with producer := .returned, streamDone := true, streamError := some exc }
  | .cancelling started, .cancelled =>
    some { st with producer := .cancelled, streamDone := started }
  | _, _ => none

end TtsStream

/-! ## The system -/

/-- What the event loop runs next. -/
inductive SpeakEvent where
  | request (text : String)
  | refused
  | resumed
  | run (k : ℕ) (raised : Option String) (late : ℕ)
  | produce (k : ℕ)
  | chunk (k : ℕ) (pcm : Pcm)
  | ends (k : ℕ) (exit : Exit)
  | dequeue
  | connected (present : Bool)

namespace Speaking

/-- **One step** of a session that speaks. -/
def step (s : Speaking) (e : SpeakEvent) : Option Speaking :=
  match e with
  | .request text => s.request text
  | .refused => s.refused
  | .resumed => s.resumed
  | .run k raised late => s.run k raised late
  | .produce k => (s.streams k).produce.map fun st => s.setStream k st
  | .chunk k pcm => ((s.streams k).chunk pcm).map fun st => s.setStream k st
  | .ends k exit => ((s.streams k).ends exit).map fun st => s.setStream k st
  | .dequeue => s.receiver.dequeue.map fun receiver => { s with receiver := receiver }
  | .connected present => some { s with receiver := { s.receiver with connected := present } }

/-- The pushes so far, in order. -/
def pushed (s : Speaking) : List Push :=
  s.log.filterMap fun entry =>
    match entry with
    | .push p => some p
    | .emit _ _ => none

/-- The pushes of one request. -/
def block (k : ℕ) (s : Speaking) : List Push := s.pushed.filter fun p => p.request = k

end Speaking

end SenseVoice.Bridge
