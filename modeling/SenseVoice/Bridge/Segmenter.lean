import Mathlib.Data.Rat.Cast.Order
import SenseVoice.Lib.Run
import SenseVoice.Lib.Suffix

/-!
# The utterance segmenter (`segmenter.py`)

Model of `PcmSegmenter`. `feed` and `commit` return at most one event, so the model returns an `Option`.

* Milliseconds are exact rationals where the source has floats: the duration of a frame, the running sums
  of `_pre_roll_duration_ms`, `_speech_candidate_ms`, `_silence_ms` and `_utterance_ms`, and what is
  compared with a limit. A sum of floats may miss a limit that the exact sum meets: with the default limits,
  4028 silent bytes and then 3666 and 4014 speaking ones have a run of exactly 240 ms, which the source
  adds up to 240.00000000000003 and cuts. Every result on the segmenter is about exact sums.
* `pcm_dbfs(pcm) >= threshold_dbfs` is computed on floats: the verdict is an argument of `feed`, and may be
  anything.
* `received_ns` and the `time.perf_counter_ns()` of `commit` are arguments.
* The configuration carries that its sample rate is positive; its limits are not negative by their type.
-/

namespace SenseVoice.Bridge

open Lib

/-- The bytes of a PCM16 frame. -/
abbrev Pcm := List UInt8

/-- `SegmenterConfig`, without the threshold of the verdict. -/
structure SegmenterConfig where
  sampleRate : ℕ := 16000
  preRollMs : ℕ := 240
  speechStartMs : ℕ := 140
  speechEndMs : ℕ := 650
  partialIntervalMs : ℕ := 1100
  maxUtteranceMs : ℕ := 15000
  sampleRate_pos : 0 < sampleRate := by decide

/-- `len(pcm) / (self.config.sample_rate * 2) * 1000.0`. -/
def SegmenterConfig.durationMs (cfg : SegmenterConfig) (pcm : Pcm) : ℚ :=
  (pcm.length : ℚ) / (cfg.sampleRate * 2) * 1000

/-- `SegmentEvent.kind`. -/
inductive SegmentKind where
  | partialSegment
  | finalSegment
  deriving DecidableEq, Repr

/-- `SegmentEvent.boundary_reason`. -/
inductive BoundaryReason where
  | maxDuration
  | silence
  | manual
  | interval
  deriving DecidableEq, Repr

/-- `SegmentEvent`. -/
structure SegmentEvent where
  kind : SegmentKind
  pcm : Pcm
  utteranceIndex : ℕ
  audioDurationMs : ℚ
  endpointMs : ℚ
  boundaryReason : BoundaryReason
  speechStartedNs : ℤ
  lastVoiceNs : ℤ
  emittedNs : ℤ
  deriving DecidableEq

/-- `PcmSegmenter`, without its configuration. -/
structure PcmSegmenter where
  preRoll : List Pcm := []
  preRollDurationMs : ℚ := 0
  active : Bool := false
  speechCandidateMs : ℚ := 0
  silenceMs : ℚ := 0
  utterance : Pcm := []
  utteranceMs : ℚ := 0
  lastPartialMs : ℚ := 0
  speechCandidateStartedNs : ℤ := 0
  speechStartedNs : ℤ := 0
  lastVoiceNs : ℤ := 0
  utteranceIndex : ℕ := 0
  nextUtteranceIndex : ℕ := 1
  deriving DecidableEq

namespace PcmSegmenter

/-- `reset`: everything but the index of the next utterance. -/
def reset (s : PcmSegmenter) : PcmSegmenter := { nextUtteranceIndex := s.nextUtteranceIndex }

/-- The loop of `_push_pre_roll`, over the frames kept and their running duration. -/
def popOver (cfg : SegmenterConfig) : List Pcm → ℚ → List Pcm × ℚ
  | [], ms => ([], ms)
  | removed :: rest, ms =>
    if (cfg.preRollMs : ℚ) < ms then popOver cfg rest (ms - cfg.durationMs removed)
    else (removed :: rest, ms)

/-- `_push_pre_roll`. -/
def pushPreRoll (cfg : SegmenterConfig) (pcm : Pcm) (s : PcmSegmenter) : PcmSegmenter :=
  let kept := popOver cfg (s.preRoll ++ [pcm]) (s.preRollDurationMs + cfg.durationMs pcm)
  { s with preRoll := kept.1, preRollDurationMs := kept.2 }

/-- `_snapshot`. -/
def snapshot (kind : SegmentKind) (reason : BoundaryReason) (emittedNs : ℤ) (s : PcmSegmenter) :
    SegmentEvent where
  kind := kind
  pcm := s.utterance
  utteranceIndex := s.utteranceIndex
  audioDurationMs := s.utteranceMs
  endpointMs :=
    if reason = .silence then s.silenceMs
    else if s.lastVoiceNs ≠ 0 then max 0 ((emittedNs - s.lastVoiceNs : ℤ) / 1000000)
    else 0
  boundaryReason := reason
  speechStartedNs := s.speechStartedNs
  lastVoiceNs := s.lastVoiceNs
  emittedNs := emittedNs

/-- `_finish`. -/
def finish (reason : BoundaryReason) (emittedNs : ℤ) (s : PcmSegmenter) :
    PcmSegmenter × Option SegmentEvent :=
  (s.reset, some (s.snapshot .finalSegment reason emittedNs))

/-- The candidate's counters, at a frame outside an utterance. -/
def countCandidate (cfg : SegmenterConfig) (pcm : Pcm) (receivedNs : ℤ) (speaking : Bool)
    (s : PcmSegmenter) : PcmSegmenter :=
  if speaking then
    { s with
      speechCandidateStartedNs :=
        if s.speechCandidateMs = 0 then receivedNs else s.speechCandidateStartedNs
      speechCandidateMs := s.speechCandidateMs + cfg.durationMs pcm
      lastVoiceNs := receivedNs }
  else { s with speechCandidateMs := 0, speechCandidateStartedNs := 0 }

/-- The start of an utterance: the pre-roll becomes its beginning. -/
def activate (receivedNs : ℤ) (s : PcmSegmenter) : PcmSegmenter :=
  { s with
    active := true
    utteranceIndex := s.nextUtteranceIndex
    nextUtteranceIndex := s.nextUtteranceIndex + 1
    speechStartedNs :=
      if s.speechCandidateStartedNs ≠ 0 then s.speechCandidateStartedNs else receivedNs
    utterance := s.preRoll.flatten
    utteranceMs := s.preRollDurationMs
    lastPartialMs := s.preRollDurationMs
    silenceMs := 0
    preRoll := []
    preRollDurationMs := 0 }

/-- `feed` outside an utterance. -/
def feedInactive (cfg : SegmenterConfig) (pcm : Pcm) (receivedNs : ℤ) (speaking : Bool)
    (s : PcmSegmenter) : PcmSegmenter :=
  let s := (s.pushPreRoll cfg pcm).countCandidate cfg pcm receivedNs speaking
  if s.speechCandidateMs < cfg.speechStartMs then s else s.activate receivedNs

/-- The utterance's counters, at a frame inside it. -/
def extend (cfg : SegmenterConfig) (pcm : Pcm) (receivedNs : ℤ) (speaking : Bool)
    (s : PcmSegmenter) : PcmSegmenter :=
  { s with
    utterance := s.utterance ++ pcm
    utteranceMs := s.utteranceMs + cfg.durationMs pcm
    silenceMs := if speaking then 0 else s.silenceMs + cfg.durationMs pcm
    lastVoiceNs := if speaking then receivedNs else s.lastVoiceNs }

/-- `feed` inside an utterance. -/
def feedActive (cfg : SegmenterConfig) (pcm : Pcm) (receivedNs : ℤ) (speaking : Bool)
    (s : PcmSegmenter) : PcmSegmenter × Option SegmentEvent :=
  let s := s.extend cfg pcm receivedNs speaking
  if (cfg.maxUtteranceMs : ℚ) ≤ s.utteranceMs then s.finish .maxDuration receivedNs
  else if (cfg.speechEndMs : ℚ) ≤ s.silenceMs then s.finish .silence receivedNs
  else if speaking ∧ (cfg.partialIntervalMs : ℚ) ≤ s.utteranceMs - s.lastPartialMs then
    let s := { s with lastPartialMs := s.utteranceMs }
    (s, some (s.snapshot .partialSegment .interval receivedNs))
  else (s, none)

/-- `feed`. -/
def feed (cfg : SegmenterConfig) (pcm : Pcm) (receivedNs : ℤ) (speaking : Bool) (s : PcmSegmenter) :
    PcmSegmenter × Option SegmentEvent :=
  if pcm = [] ∨ pcm.length % 2 = 1 then (s, none)
  else if s.active then s.feedActive cfg pcm receivedNs speaking
  else (s.feedInactive cfg pcm receivedNs speaking, none)

/-- `commit`. -/
def commit (nowNs : ℤ) (s : PcmSegmenter) : PcmSegmenter × Option SegmentEvent :=
  if s.active = false ∨ s.utterance = [] then (s, none) else s.finish .manual nowNs

/-- A call of the segmenter. -/
inductive Call where
  | feed (pcm : Pcm) (receivedNs : ℤ) (speaking : Bool)
  | commit (nowNs : ℤ)
  deriving DecidableEq

/-- What a call leaves and returns. -/
def call (cfg : SegmenterConfig) (c : Call) (s : PcmSegmenter) : PcmSegmenter × Option SegmentEvent :=
  match c with
  | .feed pcm receivedNs speaking => s.feed cfg pcm receivedNs speaking
  | .commit nowNs => s.commit nowNs

end PcmSegmenter

end SenseVoice.Bridge
