import SenseVoice.Bridge.LivekitReceiver
import SenseVoice.Lib.DropOldest

/-!
# What becomes of a pushed frame (`push_pcm`, `_send_loop`, `clear_audio_buffer`)

The push queue of a connected `LivekitReceiver` in any interleaving of its three users. `push_pcm` does not await, so
a call is one step; a frame that the send loop has taken is handed to `capture_frame`.

* `pushPcmNowait` is `push_pcm` with its `put_nowait` and `get_nowait` calls and their exceptions. `pushPcmNowait_eq`
  says that a queue within its bound never lets the second `put_nowait` fail.
* `Pushing` is the receiver with what was enqueued so far, and what was captured with its position there.

Results:
* `step_line`: a step is one of the queue of `Lib/DropOldest.lean`, at 200 frames;
* **`push_queue_exact`**: what is enqueued, in which order it is captured, and where a frame can be lost.
-/

namespace SenseVoice.Bridge

open Lib

/-! ## `push_pcm`, exception by exception -/

namespace LivekitReceiver

/-- `put_nowait`; `none` is `QueueFull`. -/
def putNowait (frame : PushFrame) (r : LivekitReceiver) : Option LivekitReceiver :=
  if r.pushQueue.length < pushQueueMaxFrames then some { r with pushQueue := r.pushQueue ++ [frame] } else none

/-- One turn of the loop of `push_pcm`: `false` is its `return False`. -/
def offer (frame : PushFrame) (r : LivekitReceiver) : LivekitReceiver × Bool :=
  match r.putNowait frame with
  | some r => (r, true)
  | none =>
    match r.dequeue with
    | none => (r, false)
    | some r =>
      match r.putNowait frame with
      | some r => (r, true)
      | none => (r, false)

def offerAll : List PushFrame → LivekitReceiver → LivekitReceiver × Bool
  | [], r => (r, true)
  | frame :: frames, r =>
    match r.offer frame with
    | (r, false) => (r, false)
    | (r, true) => r.offerAll frames

/-- `push_pcm`. -/
def pushPcmNowait (request : ℕ) (pcm : Pcm) (sampleRate channels : ℕ) (r : LivekitReceiver) :
    LivekitReceiver × Bool :=
  if r.connected = false ∨ pcm = [] then (r, false)
  else r.offerAll (pushFrames request pcm sampleRate channels)

variable {r : LivekitReceiver}

theorem put_pushQueue (frame : PushFrame) (r : LivekitReceiver) :
    (r.put frame).pushQueue = DropOldest.putOldest pushQueueMaxFrames r.pushQueue frame := by
  unfold put DropOldest.putOldest
  split <;> rfl

theorem length_put_le (h : r.pushQueue.length ≤ pushQueueMaxFrames) (frame : PushFrame) :
    (r.put frame).pushQueue.length ≤ pushQueueMaxFrames := by
  rw [put_pushQueue, DropOldest.putOldest_eq (by decide) h]
  exact DropOldest.length_rtake_le _ _

/-- The oldest frame leaves, so that the second `put_nowait` finds room. -/
theorem offer_eq (h : r.pushQueue.length ≤ pushQueueMaxFrames) (frame : PushFrame) :
    r.offer frame = (r.put frame, true) := by
  unfold offer put putNowait
  by_cases hroom : r.pushQueue.length < pushQueueMaxFrames
  · simp only [if_pos hroom]
  · cases hqueue : r.pushQueue with
    | nil =>
      rw [hqueue] at hroom
      exact absurd (by decide) hroom
    | cons oldest rest =>
      rw [hqueue, List.length_cons] at h hroom
      have hleft : rest.length < pushQueueMaxFrames := by omega
      simp [dequeue, hqueue, hroom, hleft]

theorem offerAll_eq (h : r.pushQueue.length ≤ pushQueueMaxFrames) (frames : List PushFrame) :
    r.offerAll frames = (frames.foldl (fun r frame => r.put frame) r, true) := by
  induction frames generalizing r with
  | nil => rfl
  | cons frame frames ih =>
    unfold offerAll
    rw [offer_eq h]
    exact ih (length_put_le h frame)

theorem pushPcmNowait_eq (h : r.pushQueue.length ≤ pushQueueMaxFrames) (request : ℕ) (pcm : Pcm)
    (sampleRate channels : ℕ) :
    r.pushPcmNowait request pcm sampleRate channels = r.pushPcm request pcm sampleRate channels := by
  unfold pushPcmNowait pushPcm
  rw [offerAll_eq h]

/-- The receiver with the frames put into its queue. -/
def putAll (frames : List PushFrame) (r : LivekitReceiver) : LivekitReceiver :=
  { r with pushQueue := frames.foldl (DropOldest.putOldest pushQueueMaxFrames) r.pushQueue }

theorem foldl_put (frames : List PushFrame) (r : LivekitReceiver) :
    frames.foldl (fun r frame => r.put frame) r = r.putAll frames := by
  induction frames generalizing r with
  | nil => rfl
  | cons frame frames ih =>
    rw [List.foldl_cons, ih]
    unfold putAll
    rw [put_pushQueue, List.foldl_cons]
    unfold put
    split <;> rfl

theorem length_putAll_le (h : r.pushQueue.length ≤ pushQueueMaxFrames) (frames : List PushFrame) :
    (r.putAll frames).pushQueue.length ≤ pushQueueMaxFrames := by
  change (frames.foldl (DropOldest.putOldest pushQueueMaxFrames) r.pushQueue).length ≤ pushQueueMaxFrames
  rw [DropOldest.foldl_putOldest (by decide) frames h]
  exact DropOldest.length_rtake_le pushQueueMaxFrames (r.pushQueue ++ frames)

end LivekitReceiver

/-! ## The frames of a call -/

theorem frame_size : 48000 * 1 * 2 * pushFrameMs / 1000 = 960 := rfl

/-- Whole frames, the last one padded with silence. -/
theorem slicePushFrames_exact {pcm : Pcm} (h : pcm ≠ []) :
    (∀ chunk ∈ slicePushFrames pcm 48000 1, chunk.length = 960) ∧
      ∃ k < 960, (slicePushFrames pcm 48000 1).flatten = pcm ++ List.replicate k 0 := by
  unfold slicePushFrames
  rw [frame_size]
  exact ⟨fun chunk hchunk => length_of_mem_blocks hchunk, flatten_blocks (by decide) 0 h⟩

theorem pushFrames_data (request : ℕ) (pcm : Pcm) (sampleRate channels : ℕ) :
    (LivekitReceiver.pushFrames request pcm sampleRate channels).map PushFrame.data =
      slicePushFrames pcm sampleRate channels := by
  unfold LivekitReceiver.pushFrames
  rw [List.map_map]
  exact List.map_id _

/-! ## The receiver with its history -/

/-- What happens to a connected receiver: a call of `push_pcm` with 48 kHz mono, a turn of the send loop, a call of
`clear_audio_buffer`. -/
inductive PushEvent where
  | push (request : ℕ) (pcm : Pcm) (nonempty : pcm ≠ [])
  | dequeue
  | clear

/-- The receiver, the frames enqueued so far, and those captured with their position among them. -/
structure Pushing where
  receiver : LivekitReceiver := {}
  enqueued : List PushFrame := []
  captured : List (ℕ × PushFrame) := []

namespace Pushing

/-- The position of the oldest frame in the queue. -/
def front (p : Pushing) : ℕ := p.enqueued.length - p.receiver.pushQueue.length

/-- **One step.** -/
def step (p : Pushing) (e : PushEvent) : Option Pushing :=
  match e with
  | .push request pcm _ =>
    match p.receiver.pushPcmNowait request pcm 48000 1 with
    | (r, true) =>
      some { p with
        receiver := r
        enqueued := p.enqueued ++ LivekitReceiver.pushFrames request pcm 48000 1 }
    | (r, false) => some { p with receiver := r }
  | .dequeue =>
    p.receiver.dequeue.map fun r =>
      { p with
        receiver := r
        captured := p.captured ++ p.receiver.pushQueue.head?.toList.map fun frame => (p.front, frame) }
  | .clear => some { p with receiver := p.receiver.clearAudioBuffer }

/-- The steps of a run of a new receiver. -/
abbrev trace (es : List PushEvent) : List (Run.Taken Pushing PushEvent) := Run.trace step {} es

abbrev final (es : List PushEvent) : Pushing := Run.final step {} es

/-- The receiver is connected and its queue within its bound. -/
structure Ready (p : Pushing) : Prop where
  connected : p.receiver.connected = true
  bounded : p.receiver.pushQueue.length ≤ pushQueueMaxFrames

/-- The queue with its history. -/
def line (p : Pushing) : DropOldest.Line PushFrame := ⟨p.receiver.pushQueue, p.enqueued, p.captured⟩

end Pushing

/-- What an event is to the queue. -/
def PushEvent.op : PushEvent → DropOldest.Op PushFrame
  | push request pcm _ => .put (LivekitReceiver.pushFrames request pcm 48000 1)
  | dequeue => .take
  | clear => .clear

namespace Pushing

variable {p q : Pushing}

/-- A call of `push_pcm` on a connected receiver answers `True`, and enqueues the frames. -/
theorem step_push (h : Ready p) (request : ℕ) {pcm : Pcm} (hpcm : pcm ≠ []) :
    (p.receiver.pushPcmNowait request pcm 48000 1).2 = true ∧
      p.step (.push request pcm hpcm) = some
        ⟨p.receiver.putAll (LivekitReceiver.pushFrames request pcm 48000 1),
          p.enqueued ++ LivekitReceiver.pushFrames request pcm 48000 1, p.captured⟩ := by
  have hanswer : p.receiver.pushPcmNowait request pcm 48000 1 =
      (p.receiver.putAll (LivekitReceiver.pushFrames request pcm 48000 1), true) := by
    unfold LivekitReceiver.pushPcmNowait
    rw [if_neg (by simp [h.connected, hpcm]), LivekitReceiver.offerAll_eq h.bounded, LivekitReceiver.foldl_put]
  unfold step
  dsimp only
  rw [hanswer]
  exact ⟨rfl, rfl⟩

/-- **A step is a step of the queue.** -/
theorem step_line (h : Ready p) (e : PushEvent) :
    p.line.step pushQueueMaxFrames e.op = (p.step e).map line := by
  cases e with
  | push request pcm hpcm =>
    rw [(step_push h request hpcm).2]
    rfl
  | dequeue =>
    unfold step LivekitReceiver.dequeue DropOldest.Line.step PushEvent.op line
    cases hqueue : p.receiver.pushQueue with
    | nil => simp
    | cons frame rest => simp [hqueue, front, DropOldest.Line.front]
  | clear => rfl

theorem ready_step (h : Ready p) {e : PushEvent} (hstep : p.step e = some q) : Ready q := by
  cases e with
  | push request pcm hpcm =>
    rw [(step_push h request hpcm).2] at hstep
    obtain rfl := Option.some.inj hstep
    exact ⟨h.connected, LivekitReceiver.length_putAll_le h.bounded _⟩
  | dequeue =>
    obtain ⟨r, hr, rfl⟩ := Option.map_eq_some_iff.mp hstep
    unfold LivekitReceiver.dequeue at hr
    split at hr
    · exact absurd hr (by simp)
    · rename_i frame rest hqueue
      obtain rfl := Option.some.inj hr
      have hbounded := h.bounded
      rw [hqueue] at hbounded
      exact ⟨h.connected, Nat.le_of_succ_le hbounded⟩
  | clear =>
    obtain rfl := Option.some.inj hstep
    exact ⟨h.connected, Nat.zero_le _⟩

/-! ## Every run -/

theorem ready_init : Ready {} where
  connected := rfl
  bounded := Nat.zero_le _

/-- A run of the receiver is a run of the queue. -/
theorem run_line (es : List PushEvent) :
    Run.trace (DropOldest.Line.step pushQueueMaxFrames) {} (es.map PushEvent.op) =
        (trace es).map (fun x => ⟨x.before.line, x.event.op, x.after.line⟩) ∧
      Run.final (DropOldest.Line.step pushQueueMaxFrames) {} (es.map PushEvent.op) = (final es).line :=
  Run.trace_map (P := Ready) (fun _ _ _ h hstep => ready_step h hstep) (fun _ e h => step_line h e) ready_init es

/-- What a call of `push_pcm` does: it answers `True`, the queue is within its bound after each of its frames, and
the frames are whole and hold the PCM, filled up with silence. -/
def PushesWhole (p : Pushing) (request : ℕ) (pcm : Pcm) (q : Pushing) : Prop :=
  (p.receiver.pushPcmNowait request pcm 48000 1).2 = true ∧
    (∀ first, first <+: LivekitReceiver.pushFrames request pcm 48000 1 →
      (p.receiver.offerAll first).1.pushQueue.length ≤ 200) ∧
    ∃ frames, q.enqueued = p.enqueued ++ frames ∧ (∀ frame ∈ frames, frame.data.length = 960) ∧
      ∃ k < 960, (frames.map PushFrame.data).flatten = pcm ++ List.replicate k 0

/-- The step loses the frame at the position: the frame was in the queue or is being pushed, and the queue is cleared
or at least 200 newer frames have been enqueued then. -/
def Loses (i : ℕ) (x : Run.Taken Pushing PushEvent) : Prop :=
  x.before.front ≤ i ∧ i < x.after.enqueued.length ∧
    (x.event = .clear ∨
      (∃ request pcm hpcm, x.event = .push request pcm hpcm) ∧ i + 200 < x.after.enqueued.length)

theorem pushesWhole (h : Ready p) {request : ℕ} {pcm : Pcm} {hpcm : pcm ≠ []}
    (hstep : p.step (.push request pcm hpcm) = some q) : PushesWhole p request pcm q := by
  obtain ⟨hanswer, hafter⟩ := step_push h request hpcm
  rw [hafter] at hstep
  obtain rfl := Option.some.inj hstep
  obtain ⟨hwhole, k, hk, hflatten⟩ := slicePushFrames_exact hpcm
  have hdata := pushFrames_data request pcm 48000 1
  refine ⟨hanswer, fun first _ => ?_, LivekitReceiver.pushFrames request pcm 48000 1, rfl, fun frame hframe => ?_,
    k, hk, ?_⟩
  · rw [LivekitReceiver.offerAll_eq h.bounded, LivekitReceiver.foldl_put]
    exact LivekitReceiver.length_putAll_le h.bounded first
  · refine hwhole frame.data ?_
    rw [← hdata]
    exact List.mem_map_of_mem hframe
  · rw [hdata, hflatten]

theorem loses_of_line {i : ℕ} {x : Run.Taken Pushing PushEvent}
    (h : DropOldest.Loses pushQueueMaxFrames i ⟨x.before.line, x.event.op, x.after.line⟩) : Loses i x := by
  obtain ⟨hfront, hi, hlost⟩ := h
  refine ⟨hfront, hi, ?_⟩
  cases hevent : x.event with
  | push request pcm hpcm =>
    rw [hevent] at hlost
    rcases hlost with hclear | ⟨-, hnewer⟩
    · exact absurd hclear (by simp [PushEvent.op])
    · exact Or.inr ⟨⟨request, pcm, hpcm, rfl⟩, hnewer⟩
  | dequeue =>
    rw [hevent] at hlost
    rcases hlost with hclear | ⟨⟨batch, hput⟩, -⟩
    · exact absurd hclear (by simp [PushEvent.op])
    · exact absurd hput (by simp [PushEvent.op])
  | clear => exact Or.inl rfl

/-- What becomes of the frames in a run. -/
structure QueueExact (es : List PushEvent) : Prop where
  pushes : ∀ x ∈ trace es, ∀ request pcm hpcm, x.event = .push request pcm hpcm →
    PushesWhole x.before request pcm x.after
  bounded : (final es).receiver.pushQueue.length ≤ 200
  queue : (final es).receiver.pushQueue = (final es).enqueued.drop (final es).front
  captured : ((final es).captured.map Prod.snd).Sublist (final es).enqueued
  once : (final es).captured.Pairwise fun x y => x.1 < y.1
  position : ∀ x ∈ (final es).captured, (final es).enqueued[x.1]? = some x.2
  accounted : ∀ i < (final es).enqueued.length, (final es).front ≤ i ∨
    (∃ frame, (i, frame) ∈ (final es).captured) ∨ ∃ x ∈ trace es, Loses i x

/-- **The push queue**, in every interleaving of `push_pcm` calls, dequeues and clears on a connected receiver:
every call answers `True` and enqueues whole frames that hold its PCM; the queue is never longer than 200 frames; the
frames captured are a part of the enqueued ones, in order, each position once; and a frame that is neither queued nor
captured was lost by a clear, or with at least 200 newer frames enqueued. -/
theorem push_queue_exact (es : List PushEvent) : QueueExact es := by
  obtain ⟨htrace, hfinal⟩ := run_line es
  have hgood := DropOldest.good_final (n := pushQueueMaxFrames) (by decide) (es.map PushEvent.op)
  rw [hfinal] at hgood
  refine ⟨fun x hx request pcm hpcm hevent => ?_, hgood.bounded, hgood.queue_eq, DropOldest.taken_sublist hgood,
    hgood.order, fun x hx => (hgood.position x hx).2, fun i hi => ?_⟩
  · have hready : Ready x.before :=
      Run.before_of_trace ready_init (fun y hy h => ready_step h (Run.mem_trace hy).2) x hx
    have hstep := (Run.mem_trace hx).2
    rw [hevent] at hstep
    exact pushesWhole hready hstep
  · have haccounted := DropOldest.accounted (n := pushQueueMaxFrames) (by decide) (es.map PushEvent.op) (i := i)
    rw [hfinal, htrace] at haccounted
    rcases haccounted hi with (hqueued | htaken) | ⟨y, hy, hlost⟩
    · exact Or.inl hqueued.1
    · exact Or.inr (Or.inl htaken)
    · obtain ⟨x, hx, rfl⟩ := List.mem_map.mp hy
      exact Or.inr (Or.inr ⟨x, hx, loses_of_line hlost⟩)

end Pushing

end SenseVoice.Bridge
