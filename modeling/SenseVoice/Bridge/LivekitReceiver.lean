import SenseVoice.Bridge.Tts
import SenseVoice.Lib.Blocks

/-!
# The push queue of the LiveKit receiver (`bridge/bridge/livekit_receiver.py`)

Model of `push_pcm`, `clear_audio_buffer` and the queue between them and `_send_loop`. A full queue
gives up its oldest frame. The microphone's side, `start` and `stop` are left out, but for the room:
`connected` says that neither `room` nor `_rtc` is `None`.

A queued frame carries the number of the speak request it was pushed for, which the source does not
keep: the statements are about it, no definition reads it.
-/

namespace SenseVoice.Bridge

open Lib

/-- `PUSH_FRAME_MS`. -/
def pushFrameMs : ℕ := 10

/-- `PUSH_QUEUE_MAX_FRAMES`. -/
def pushQueueMaxFrames : ℕ := 200

/-- `rtc.AudioFrame`. -/
structure PushFrame where
  request : ℕ
  data : Pcm
  sampleRate : ℕ
  numChannels : ℕ
  samplesPerChannel : ℕ

/-- `slice_push_frames`. -/
def slicePushFrames (pcm : Pcm) (sampleRate channels : ℕ) : List Pcm :=
  blocks (sampleRate * channels * 2 * pushFrameMs / 1000) 0 pcm

/-- `LivekitReceiver`. -/
structure LivekitReceiver where
  connected : Bool := true
  pushQueue : List PushFrame := []

namespace LivekitReceiver

/-- `put_nowait`; when the queue is full its oldest frame leaves first. -/
def put (frame : PushFrame) (r : LivekitReceiver) : LivekitReceiver :=
  if r.pushQueue.length < pushQueueMaxFrames then { r with pushQueue := r.pushQueue ++ [frame] }
  else { r with pushQueue := r.pushQueue.tail ++ [frame] }

/-- The frames of one `push_pcm`. -/
def pushFrames (request : ℕ) (pcm : Pcm) (sampleRate channels : ℕ) : List PushFrame :=
  (slicePushFrames pcm sampleRate channels).map fun chunk =>
    ⟨request, chunk, sampleRate, channels, sampleRate * pushFrameMs / 1000⟩

/-- `push_pcm`. -/
def pushPcm (request : ℕ) (pcm : Pcm) (sampleRate channels : ℕ) (r : LivekitReceiver) :
    LivekitReceiver × Bool :=
  if r.connected = false ∨ pcm = [] then (r, false)
  else ((pushFrames request pcm sampleRate channels).foldl (fun r frame => r.put frame) r, true)

/-- `clear_audio_buffer`. -/
def clearAudioBuffer (r : LivekitReceiver) : LivekitReceiver := { r with pushQueue := [] }

/-- `_send_loop` takes a frame. -/
def dequeue (r : LivekitReceiver) : Option LivekitReceiver :=
  match r.pushQueue with
  | [] => none
  | _ :: rest => some { r with pushQueue := rest }

variable {r : LivekitReceiver}

theorem mem_put {frame f : PushFrame} (h : f ∈ (r.put frame).pushQueue) :
    f ∈ r.pushQueue ∨ f = frame := by
  unfold put at h
  split at h
  · simpa using h
  · rcases List.mem_append.mp h with h | h
    · exact Or.inl (List.mem_of_mem_tail h)
    · exact Or.inr (List.mem_singleton.mp h)

theorem mem_foldl_put {frames : List PushFrame} {f : PushFrame}
    (h : f ∈ (frames.foldl (fun r frame => r.put frame) r).pushQueue) :
    f ∈ r.pushQueue ∨ f ∈ frames := by
  induction frames generalizing r with
  | nil => exact Or.inl h
  | cons g frames ih =>
    rcases ih h with hput | hlater
    · rcases mem_put hput with hold | rfl
      · exact Or.inl hold
      · exact Or.inr List.mem_cons_self
    · exact Or.inr (List.mem_cons_of_mem _ hlater)

/-- What is in the queue after a push was there, or is of the request. -/
theorem mem_pushPcm {request : ℕ} {pcm : Pcm} {sampleRate channels : ℕ} {f : PushFrame}
    (h : f ∈ (r.pushPcm request pcm sampleRate channels).1.pushQueue) :
    f ∈ r.pushQueue ∨ f.request = request := by
  unfold pushPcm at h
  split at h
  · exact Or.inl h
  · rcases mem_foldl_put h with hold | hnew
    · exact Or.inl hold
    · obtain ⟨chunk, -, rfl⟩ := List.mem_map.mp hnew
      exact Or.inr rfl

/-- Taking a frame leaves only frames that were there. -/
theorem mem_dequeue {t : LivekitReceiver} (ht : r.dequeue = some t) {f : PushFrame}
    (h : f ∈ t.pushQueue) : f ∈ r.pushQueue := by
  unfold dequeue at ht
  split at ht
  · exact absurd ht (by simp)
  · rename_i first rest hq
    obtain rfl := Option.some.inj ht
    rw [hq]
    exact List.mem_cons_of_mem _ h

end LivekitReceiver

end SenseVoice.Bridge
