import Mathlib.Data.List.DropRight
import Mathlib.Data.List.Find
import SenseVoice.Bridge.AudioConservation

/-!
# Exact endpointing of the segmenter

When an utterance starts, is shown and ends, read off the calls since the last final alone. The
segmenter counts these instants with running sums; `Endpointing` defines them by the frames themselves.

* An utterance starts at the first frame where the run of speaking frames that ends there reaches
  `speech_start_ms` (`speechOf`).
* It ends at the first later frame where it reaches `max_utterance_ms`, else where the run of silent
  frames since the start reaches `speech_end_ms`, or at a commit when it holds audio (`reasonAt`).
* A partial is due at a later speaking frame that does not end it, when `partial_interval_ms` were added
  since the previous partial or the start (`due`, `pending`).

Results:
* `speechOf_eq_some_iff`: the split at the start, by the runs of the prefixes;
* `stateOf_call`: the segmenter is a function of the calls since the last final, call by call;
* **`exact_endpointing`**: the events of every run are those of its history, in time order.
-/

namespace SenseVoice.Bridge

open Lib PcmSegmenter

/-- A frame that `feed` accepts. -/
structure Frame where
  pcm : Pcm
  receivedNs : ℤ
  speaking : Bool
  nonempty : pcm ≠ []

/-- The frame a call feeds, with its verdict, if `feed` accepts it. -/
def PcmSegmenter.Call.heard : Call → Option Frame
  | .feed pcm receivedNs speaking =>
    if h : pcm = [] ∨ pcm.length % 2 = 1 then none
    else some ⟨pcm, receivedNs, speaking, fun hnil => h (Or.inl hnil)⟩
  | .commit _ => none

/-- The clock that a call reads. -/
def PcmSegmenter.Call.ns : Call → ℤ
  | .feed _ receivedNs _ => receivedNs
  | .commit nowNs => nowNs

/-- The thresholds are positive. -/
structure SegmenterConfig.Positive (cfg : SegmenterConfig) : Prop where
  speechStartMs : 0 < cfg.speechStartMs
  speechEndMs : 0 < cfg.speechEndMs
  partialIntervalMs : 0 < cfg.partialIntervalMs
  maxUtteranceMs : 0 < cfg.maxUtteranceMs

namespace Endpointing

/-! ## The events of a history -/

/-- The frames of a window of calls. -/
def heard (w : List Call) : List Frame := w.filterMap Call.heard

/-- The run of consecutive speaking frames at the end. -/
def speakingRun (fs : List Frame) : List Frame := fs.rtakeWhile fun f => f.speaking

/-- The run of consecutive silent frames at the end. -/
def silentRun (fs : List Frame) : List Frame := fs.rtakeWhile fun f => !f.speaking

/-- When the run of speaking frames at the end began. -/
def startNs (fs : List Frame) : ℤ := ((speakingRun fs).head?.map (·.receivedNs)).getD 0

/-- When the last speaking frame came. -/
def lastVoiceNs (fs : List Frame) : ℤ :=
  ((fs.filter fun f => f.speaking).getLast?.map (·.receivedNs)).getD 0

/-- The frames of a window, split at the start of its utterance: up to the frame that starts it, and the
later ones. -/
structure Speech where
  candidates : List Frame
  later : List Frame

section Definition

variable (cfg : SegmenterConfig)

/-- How long the frames are. -/
def span (fs : List Frame) : ℚ := total (fun f => cfg.durationMs f.pcm) fs

/-- The run of speaking frames at the end is long enough to start an utterance. -/
def reaches (fs : List Frame) : Bool := decide ((cfg.speechStartMs : ℚ) ≤ span cfg (speakingRun fs))

/-- The split at the first frame that starts an utterance. -/
def speechOf (fs : List Frame) : Option Speech :=
  ((List.range fs.length).find? fun i => reaches cfg (fs.take (i + 1))).map fun i =>
    ⟨fs.take (i + 1), fs.drop (i + 1)⟩

/-- The audio of the utterance: the longest pre-roll up to its start, and every later frame. -/
def Speech.audio (u : Speech) : List Pcm :=
  trim cfg.durationMs cfg.preRollMs (u.candidates.map (·.pcm)) ++ u.later.map (·.pcm)

/-- The last of these frames is one to show them at, and they are long enough. -/
def due (fs : List Frame) : Bool :=
  fs.getLast?.any (·.speaking) && decide ((cfg.partialIntervalMs : ℚ) ≤ span cfg fs)

/-- The frames since the previous partial, or since the start. -/
def pending (later : List Frame) : List Frame :=
  later.foldl (fun fs f => (if due cfg fs then [] else fs) ++ [f]) []

/-- What the last frame of the utterance is the instant of. -/
def Speech.frameReason (u : Speech) : Option BoundaryReason :=
  if (cfg.maxUtteranceMs : ℚ) ≤ total cfg.durationMs (u.audio cfg) then some .maxDuration
  else if (cfg.speechEndMs : ℚ) ≤ span cfg (silentRun u.later) then some .silence
  else if due cfg (pending cfg u.later) then some .interval
  else none

/-- What the call that ends the window is the instant of. -/
def reasonAt (c : Call) (u : Speech) : Option BoundaryReason :=
  match c with
  | .feed .. => if c.heard.isNone ∨ u.later = [] then none else u.frameReason cfg
  | .commit _ => if u.audio cfg = [] then none else some .manual

/-- The event of the utterance `n` at an instant. -/
def Speech.event (n : ℕ) (u : Speech) (ns : ℤ) (reason : BoundaryReason) : SegmentEvent where
  kind := if reason = .interval then .partialSegment else .finalSegment
  pcm := (u.audio cfg).flatten
  utteranceIndex := n
  audioDurationMs := total cfg.durationMs (u.audio cfg)
  endpointMs :=
    if reason = .silence then span cfg (silentRun u.later)
    else max 0 ((ns - lastVoiceNs (u.candidates ++ u.later) : ℤ) / 1000000)
  boundaryReason := reason
  speechStartedNs := startNs u.candidates
  lastVoiceNs := lastVoiceNs (u.candidates ++ u.later)
  emittedNs := ns

/-- The event of the call `c`, after the calls `w` since the last final. -/
def eventAt (n : ℕ) (w : List Call) (c : Call) : Option SegmentEvent :=
  (speechOf cfg (heard (w ++ [c]))).bind fun u => (reasonAt cfg c u).map (u.event cfg n c.ns)

/-- The events of the calls `cs`, after the calls `w` since the last final; the next utterance is the
`n`-th. -/
def eventsFrom : ℕ → List Call → List Call → List SegmentEvent
  | _, _, [] => []
  | n, w, c :: cs =>
    match eventAt cfg n w c with
    | none => eventsFrom n (w ++ [c]) cs
    | some e =>
      e :: if e.kind = .finalSegment then eventsFrom (n + 1) [] cs else eventsFrom n (w ++ [c]) cs

/-- **The events of a history.** -/
def history (cs : List Call) : List SegmentEvent := eventsFrom cfg 1 [] cs

end Definition

/-! ## One more frame -/

section Frames

variable {cfg : SegmenterConfig} {fs : List Frame} {f : Frame}

theorem durationMs_pos (cfg : SegmenterConfig) {pcm : Pcm} (h : pcm ≠ []) : 0 < cfg.durationMs pcm := by
  have hlen : 0 < pcm.length := List.length_pos_of_ne_nil h
  have hrate := cfg.sampleRate_pos
  unfold SegmenterConfig.durationMs
  positivity

@[simp] theorem span_nil : span cfg [] = 0 := rfl

theorem span_concat : span cfg (fs ++ [f]) = span cfg fs + cfg.durationMs f.pcm := by
  simp [span]

/-- Only no frames take no time. -/
theorem span_eq_zero_iff : span cfg fs = 0 ↔ fs = [] := by
  constructor
  · intro h
    cases fs with
    | nil => rfl
    | cons f fs =>
      have hpos := durationMs_pos cfg f.nonempty
      have hrest : 0 ≤ span cfg fs := by
        unfold span total
        refine List.sum_nonneg fun x hx => ?_
        obtain ⟨g, -, rfl⟩ := List.mem_map.mp hx
        exact durationMs_nonneg g.pcm
      simp only [span, total_cons] at h hrest
      linarith
  · rintro rfl
    rfl

theorem speakingRun_concat :
    speakingRun (fs ++ [f]) = if f.speaking then speakingRun fs ++ [f] else [] :=
  List.rtakeWhile_concat _ _ _

theorem silentRun_concat :
    silentRun (fs ++ [f]) = if f.speaking then [] else silentRun fs ++ [f] := by
  unfold silentRun
  rw [List.rtakeWhile_concat]
  cases f.speaking <;> rfl

theorem startNs_concat : startNs (fs ++ [f]) =
    if f.speaking then if speakingRun fs = [] then f.receivedNs else startNs fs else 0 := by
  unfold startNs
  rw [speakingRun_concat]
  cases f.speaking with
  | false => rfl
  | true => cases speakingRun fs <;> rfl

theorem lastVoiceNs_concat :
    lastVoiceNs (fs ++ [f]) = if f.speaking then f.receivedNs else lastVoiceNs fs := by
  unfold lastVoiceNs
  rw [List.filter_append]
  cases h : f.speaking with
  | false => simp [h]
  | true => simp [h]

theorem pending_concat :
    pending cfg (fs ++ [f]) = (if due cfg (pending cfg fs) then [] else pending cfg fs) ++ [f] := by
  unfold pending
  rw [List.foldl_append]
  rfl

theorem due_concat : due cfg (fs ++ [f]) = true ↔
    f.speaking = true ∧ (cfg.partialIntervalMs : ℚ) ≤ span cfg (fs ++ [f]) := by
  simp [due]

/-- One more frame after the start is one of the utterance. -/
theorem speechOf_concat_some {u : Speech} (h : speechOf cfg fs = some u) :
    speechOf cfg (fs ++ [f]) = some { u with later := u.later ++ [f] } := by
  obtain ⟨i, hi, rfl⟩ := Option.map_eq_some_iff.mp h
  have hlt : i < fs.length := List.mem_range.mp (List.mem_of_find?_eq_some hi)
  have hfind : (List.range fs.length).find? (fun i => reaches cfg ((fs ++ [f]).take (i + 1))) =
      some i := by
    rw [← hi]
    refine List.find?_congr fun j hj => ?_
    rw [List.take_append_of_le_length (List.mem_range.mp hj)]
  unfold speechOf
  rw [List.length_append, List.length_singleton, List.range_succ, List.find?_append, hfind]
  simp only [Option.some_or, Option.map_some]
  rw [List.take_append_of_le_length hlt, List.drop_append_of_le_length hlt]

/-- One more frame while no utterance has started starts it, if the run that ends there is long enough. -/
theorem speechOf_concat_none (h : speechOf cfg fs = none) :
    speechOf cfg (fs ++ [f]) = if reaches cfg (fs ++ [f]) then some ⟨fs ++ [f], []⟩ else none := by
  have hnone := Option.map_eq_none_iff.mp h
  have hfind : (List.range fs.length).find? (fun i => reaches cfg ((fs ++ [f]).take (i + 1))) =
      none := by
    rw [← hnone]
    refine List.find?_congr fun j hj => ?_
    rw [List.take_append_of_le_length (List.mem_range.mp hj)]
  have hall : (fs ++ [f]).take (fs.length + 1) = fs ++ [f] := List.take_of_length_le (by simp)
  have hdrop : (fs ++ [f]).drop (fs.length + 1) = [] := List.drop_of_length_le (by simp)
  unfold speechOf
  rw [List.length_append, List.length_singleton, List.range_succ, List.find?_append, hfind,
    Option.none_or, List.find?_singleton, hall]
  by_cases hr : reaches cfg (fs ++ [f])
  · rw [if_pos hr, if_pos hr, Option.map_some, hall, hdrop]
  · rw [if_neg hr, if_neg hr, Option.map_none]

/-- **The start of an utterance** is the first frame where the run of speaking frames that ends there is
long enough. -/
theorem speechOf_eq_some_iff {u : Speech} :
    speechOf cfg fs = some u ↔
      fs = u.candidates ++ u.later ∧ u.candidates ≠ [] ∧ reaches cfg u.candidates = true ∧
        ∀ p, p <+: u.candidates → p ≠ [] → p ≠ u.candidates → reaches cfg p = false := by
  constructor
  · intro h
    obtain ⟨i, hi, rfl⟩ := Option.map_eq_some_iff.mp h
    obtain ⟨hreach, hmem, hfirst⟩ := List.find?_range_eq_some.mp hi
    have hlt : i < fs.length := List.mem_range.mp hmem
    refine ⟨(List.take_append_drop _ _).symm, ?_, hreach, fun p hp hne hlast => ?_⟩
    · exact List.ne_nil_of_length_pos (by simp; omega)
    · have hlen : p.length < i + 1 := by
        have hle := hp.length_le
        have hneq : p.length ≠ (fs.take (i + 1)).length := fun heq => hlast (hp.eq_of_length heq)
        rw [List.length_take] at hle hneq
        omega
      have hpos : 0 < p.length := List.length_pos_of_ne_nil hne
      have hpfs : p = fs.take (p.length - 1 + 1) := by
        rw [Nat.sub_add_cancel hpos]
        exact List.prefix_iff_eq_take.mp (hp.trans (List.take_prefix _ _))
      rw [hpfs]
      simpa using hfirst (p.length - 1) (by omega)
  · rintro ⟨rfl, hne, hreach, hfirst⟩
    have hpos : 0 < u.candidates.length := List.length_pos_of_ne_nil hne
    have hfind : (List.range (u.candidates ++ u.later).length).find?
        (fun i => reaches cfg ((u.candidates ++ u.later).take (i + 1))) =
        some (u.candidates.length - 1) := by
      refine List.find?_range_eq_some.mpr ⟨?_, ?_, fun j hj => ?_⟩
      · rw [Nat.sub_add_cancel hpos, List.take_left]
        exact hreach
      · rw [List.mem_range, List.length_append]
        omega
      · have hle : j + 1 ≤ u.candidates.length := by omega
        rw [List.take_append_of_le_length hle]
        simpa using hfirst (u.candidates.take (j + 1)) (List.take_prefix _ _)
          (List.ne_nil_of_length_pos (by rw [List.length_take]; omega))
          (fun heq => by have := congrArg List.length heq; rw [List.length_take] at this; omega)
    unfold speechOf
    rw [hfind, Option.map_some, Nat.sub_add_cancel hpos, List.take_left, List.drop_left]

end Frames

/-! ## The segmenter as a function of its history -/

section States

variable (cfg : SegmenterConfig)

/-- The segmenter while it waits for speech, after these frames. -/
def waitingState (n : ℕ) (fs : List Frame) : PcmSegmenter where
  preRoll := trim cfg.durationMs cfg.preRollMs (fs.map (·.pcm))
  preRollDurationMs := total cfg.durationMs (trim cfg.durationMs cfg.preRollMs (fs.map (·.pcm)))
  speechCandidateMs := span cfg (speakingRun fs)
  speechCandidateStartedNs := startNs fs
  lastVoiceNs := lastVoiceNs fs
  nextUtteranceIndex := n

/-- The segmenter inside the utterance `n`. -/
def speakingState (n : ℕ) (u : Speech) : PcmSegmenter where
  active := true
  speechCandidateMs := span cfg (speakingRun u.candidates)
  silenceMs := span cfg (silentRun u.later)
  utterance := (u.audio cfg).flatten
  utteranceMs := total cfg.durationMs (u.audio cfg)
  lastPartialMs := total cfg.durationMs (u.audio cfg) -
    if due cfg (pending cfg u.later) then 0 else span cfg (pending cfg u.later)
  speechCandidateStartedNs := startNs u.candidates
  speechStartedNs := startNs u.candidates
  lastVoiceNs := lastVoiceNs (u.candidates ++ u.later)
  utteranceIndex := n
  nextUtteranceIndex := n + 1

/-- The segmenter after the calls `w` since the last final. -/
def stateOf (n : ℕ) (w : List Call) : PcmSegmenter :=
  match speechOf cfg (heard w) with
  | none => waitingState cfg n (heard w)
  | some u => speakingState cfg n u

/-- The segmenter after one more call. -/
def stateAfter (n : ℕ) (w : List Call) (c : Call) : PcmSegmenter :=
  if (eventAt cfg n w c).any fun e => e.kind = .finalSegment then stateOf cfg (n + 1) []
  else stateOf cfg n (w ++ [c])

variable {cfg} {n : ℕ} {fs : List Frame} {f : Frame} {u : Speech}

theorem heard_concat_none {w : List Call} {c : Call} (h : c.heard = none) :
    heard (w ++ [c]) = heard w := by
  simp [heard, h]

theorem heard_concat_some {w : List Call} {c : Call} (h : c.heard = some f) :
    heard (w ++ [c]) = heard w ++ [f] := by
  simp [heard, h]

/-- A frame has its own length and more: the loop of `_push_pre_roll` keeps the longest pre-roll. -/
theorem pushPreRoll_waitingState :
    (waitingState cfg n fs).pushPreRoll cfg f.pcm =
      { waitingState cfg n fs with
        preRoll := trim cfg.durationMs cfg.preRollMs ((fs ++ [f]).map (·.pcm))
        preRollDurationMs :=
          total cfg.durationMs (trim cfg.durationMs cfg.preRollMs ((fs ++ [f]).map (·.pcm))) } := by
  have hkept : popOver cfg ((waitingState cfg n fs).preRoll ++ [f.pcm])
      ((waitingState cfg n fs).preRollDurationMs + cfg.durationMs f.pcm) =
      (trim cfg.durationMs cfg.preRollMs ((fs ++ [f]).map (·.pcm)),
        total cfg.durationMs (trim cfg.durationMs cfg.preRollMs ((fs ++ [f]).map (·.pcm)))) := by
    have hsum : (waitingState cfg n fs).preRollDurationMs + cfg.durationMs f.pcm =
        total cfg.durationMs ((waitingState cfg n fs).preRoll ++ [f.pcm]) := by
      simp [waitingState]
    rw [hsum, popOver_trim, waitingState, trim_push durationMs_nonneg, List.map_append,
      List.map_singleton]
  simp only [pushPreRoll, hkept]

/-- A frame outside an utterance counts towards the run at the end. -/
theorem countCandidate_waitingState :
    ((waitingState cfg n fs).pushPreRoll cfg f.pcm).countCandidate cfg f.pcm f.receivedNs f.speaking =
      waitingState cfg n (fs ++ [f]) := by
  rw [pushPreRoll_waitingState]
  unfold countCandidate waitingState
  rw [speakingRun_concat, startNs_concat, lastVoiceNs_concat]
  cases f.speaking with
  | false => simp
  | true => simp [span_concat, span_eq_zero_iff]

/-- An utterance has a speaking frame before its start. -/
theorem speakingRun_ne_nil (hpos : cfg.Positive) (h : reaches cfg fs = true) : speakingRun fs ≠ [] := by
  intro hnil
  have hle : (cfg.speechStartMs : ℚ) ≤ 0 := by
    simpa [reaches, hnil] using h
  have := hpos.speechStartMs
  have hzero : cfg.speechStartMs ≤ 0 := by exact_mod_cast hle
  omega

/-- The start was read off the clock at a frame. -/
theorem startNs_mem (h : speakingRun fs ≠ []) : ∃ g ∈ fs, g.speaking = true ∧ startNs fs = g.receivedNs := by
  obtain ⟨g, rest, hrun⟩ := List.exists_cons_of_ne_nil h
  have hmem : g ∈ speakingRun fs := by rw [hrun]; exact List.mem_cons_self
  refine ⟨g, (List.rtakeWhile_suffix _ _).subset hmem, List.mem_rtakeWhile_imp hmem, ?_⟩
  unfold startNs
  rw [hrun]
  rfl

/-- A frame outside an utterance starts one, or is waited past. -/
theorem feedInactive_waitingState (hpos : cfg.Positive) (hns : ∀ g ∈ fs ++ [f], 0 < g.receivedNs) :
    (waitingState cfg n fs).feedInactive cfg f.pcm f.receivedNs f.speaking =
      if reaches cfg (fs ++ [f]) then speakingState cfg n ⟨fs ++ [f], []⟩
      else waitingState cfg n (fs ++ [f]) := by
  unfold feedInactive
  rw [countCandidate_waitingState]
  by_cases hr : reaches cfg (fs ++ [f]) = true
  · have hle : ¬ (waitingState cfg n (fs ++ [f])).speechCandidateMs < cfg.speechStartMs :=
      not_lt.mpr (of_decide_eq_true hr)
    obtain ⟨g, hg, -, hstart⟩ := startNs_mem (speakingRun_ne_nil hpos hr)
    have hne : startNs (fs ++ [f]) ≠ 0 := by
      have := hns g hg
      omega
    rw [if_neg hle, if_pos hr]
    simp [activate, waitingState, speakingState, Speech.audio, hne, silentRun, pending, due]
  · have hlt : (waitingState cfg n (fs ++ [f])).speechCandidateMs < cfg.speechStartMs :=
      not_le.mp fun hle => hr (decide_eq_true hle)
    rw [if_pos hlt, if_neg hr]

theorem audio_concat :
    Speech.audio cfg { u with later := u.later ++ [f] } = u.audio cfg ++ [f.pcm] := by
  simp [Speech.audio]

/-- A frame inside an utterance adds to every counter but the one of the partials. -/
theorem extend_speakingState :
    (speakingState cfg n u).extend cfg f.pcm f.receivedNs f.speaking =
      { speakingState cfg n { u with later := u.later ++ [f] } with
        lastPartialMs := (speakingState cfg n u).lastPartialMs } := by
  unfold PcmSegmenter.extend speakingState
  simp only [audio_concat, silentRun_concat, ← List.append_assoc, lastVoiceNs_concat]
  cases f.speaking with
  | false => simp [span_concat]
  | true => simp

/-- What was added since the previous partial, at one more frame. -/
theorem pendingMs_concat (cfg : SegmenterConfig) (n : ℕ) (u : Speech) (f : Frame) :
    (speakingState cfg n { u with later := u.later ++ [f] }).utteranceMs -
      (speakingState cfg n u).lastPartialMs = span cfg (pending cfg (u.later ++ [f])) := by
  simp only [speakingState, audio_concat, pending_concat, span_concat, total_append, total_cons,
    total_nil]
  split
  · rw [span_nil]
    ring
  · ring

/-- The counter of the partials, where one is due. -/
theorem lastPartialMs_due (h : due cfg (pending cfg u.later) = true) :
    (speakingState cfg n u).lastPartialMs = (speakingState cfg n u).utteranceMs := by
  simp [speakingState, h]

/-- The counter of the partials, where none is due. -/
theorem lastPartialMs_concat (h : ¬ due cfg (pending cfg (u.later ++ [f])) = true) :
    (speakingState cfg n { u with later := u.later ++ [f] }).lastPartialMs =
      (speakingState cfg n u).lastPartialMs := by
  have hsum := pendingMs_concat cfg n u f
  have hlast : (speakingState cfg n { u with later := u.later ++ [f] }).lastPartialMs =
      (speakingState cfg n { u with later := u.later ++ [f] }).utteranceMs -
        span cfg (pending cfg (u.later ++ [f])) := by
    simp [speakingState, h]
  linarith

/-- The event that the source takes of the utterance's counters. -/
theorem snapshot_speakingState {kind : SegmentKind} {reason : BoundaryReason} {ns : ℤ} {x : ℚ}
    (hkind : kind = if reason = .interval then .partialSegment else .finalSegment)
    (hvoice : lastVoiceNs (u.candidates ++ u.later) ≠ 0) :
    snapshot kind reason ns { speakingState cfg n u with lastPartialMs := x } =
      u.event cfg n ns reason := by
  simp [snapshot, speakingState, Speech.event, hkind, hvoice]

/-- A frame inside an utterance is an instant of it, or is passed over. -/
theorem feedActive_speakingState {v : Speech} (hv : v = { u with later := u.later ++ [f] })
    (hvoice : lastVoiceNs (v.candidates ++ v.later) ≠ 0) :
    (speakingState cfg n u).feedActive cfg f.pcm f.receivedNs f.speaking =
      (if (v.frameReason cfg).any (· ≠ .interval) then waitingState cfg (n + 1) []
        else speakingState cfg n v, (v.frameReason cfg).map (v.event cfg n f.receivedNs)) := by
  have hlater : v.later = u.later ++ [f] := by rw [hv]
  have hpending : (speakingState cfg n v).utteranceMs - (speakingState cfg n u).lastPartialMs =
      span cfg (pending cfg v.later) := by
    rw [hv]
    exact pendingMs_concat _ _ _ _
  have hdue : due cfg (pending cfg v.later) = true ↔
      f.speaking = true ∧ (cfg.partialIntervalMs : ℚ) ≤ span cfg (pending cfg v.later) := by
    rw [hlater, pending_concat]
    exact due_concat
  unfold feedActive
  rw [extend_speakingState, ← hv]
  simp only [hpending, ← hdue]
  by_cases hmax : (cfg.maxUtteranceMs : ℚ) ≤ total cfg.durationMs (v.audio cfg)
  · have hreason : v.frameReason cfg = some .maxDuration := if_pos hmax
    rw [if_pos (show _ ≤ (speakingState cfg n v).utteranceMs from hmax), hreason, finish]
    exact Prod.ext rfl (congrArg some (snapshot_speakingState rfl hvoice))
  rw [if_neg (show ¬ _ ≤ (speakingState cfg n v).utteranceMs from hmax)]
  by_cases hend : (cfg.speechEndMs : ℚ) ≤ span cfg (silentRun v.later)
  · have hreason : v.frameReason cfg = some .silence := by
      rw [Speech.frameReason, if_neg hmax, if_pos hend]
    rw [if_pos (show _ ≤ (speakingState cfg n v).silenceMs from hend), hreason, finish]
    exact Prod.ext rfl (congrArg some (snapshot_speakingState rfl hvoice))
  rw [if_neg (show ¬ _ ≤ (speakingState cfg n v).silenceMs from hend)]
  by_cases hshow : due cfg (pending cfg v.later) = true
  · have hreason : v.frameReason cfg = some .interval := by
      rw [Speech.frameReason, if_neg hmax, if_neg hend, if_pos hshow]
    have hshown : { speakingState cfg n v with
        lastPartialMs := (speakingState cfg n v).utteranceMs } = speakingState cfg n v := by
      rw [← lastPartialMs_due hshow]
    rw [if_pos hshow, hreason]
    exact Prod.ext hshown (congrArg some (snapshot_speakingState rfl hvoice))
  · have hreason : v.frameReason cfg = none := by
      rw [Speech.frameReason, if_neg hmax, if_neg hend, if_neg hshow]
    have hlast : (speakingState cfg n v).lastPartialMs = (speakingState cfg n u).lastPartialMs := by
      rw [hv]
      exact lastPartialMs_concat (hlater ▸ hshow)
    rw [if_neg hshow, hreason, ← hlast]
    rfl

/-- The last voice was read off the clock at the last speaking frame. -/
theorem lastVoiceNs_mem {g : Frame} (hg : g ∈ fs) (h : g.speaking = true) :
    ∃ f ∈ fs, lastVoiceNs fs = f.receivedNs := by
  have hne : (fs.filter fun f => f.speaking) ≠ [] :=
    List.ne_nil_of_mem (List.mem_filter.mpr ⟨hg, h⟩)
  refine ⟨_, (List.mem_filter.mp (List.getLast_mem hne)).1, ?_⟩
  rw [lastVoiceNs, List.getLast?_eq_some_getLast hne]
  rfl

/-- An utterance has been heard. -/
theorem lastVoiceNs_ne_zero (hpos : cfg.Positive) (h : speechOf cfg fs = some u)
    (hns : ∀ g ∈ fs, 0 < g.receivedNs) : lastVoiceNs (u.candidates ++ u.later) ≠ 0 := by
  obtain ⟨rfl, -, hreach, -⟩ := speechOf_eq_some_iff.mp h
  obtain ⟨g, hg, hspeaking, -⟩ := startNs_mem (speakingRun_ne_nil hpos hreach)
  obtain ⟨f, hf, hlast⟩ := lastVoiceNs_mem (List.mem_append_left u.later hg) hspeaking
  have := hns f hf
  omega

/-- An utterance without audio holds no frame. -/
theorem audio_flatten_eq_nil : (u.audio cfg).flatten = [] ↔ u.audio cfg = [] := by
  constructor
  · intro h
    by_contra hne
    obtain ⟨p, hp⟩ := List.exists_mem_of_ne_nil _ hne
    have hmem : p ∈ (u.candidates ++ u.later).map (·.pcm) := by
      rw [List.map_append]
      rcases List.mem_append.mp hp with hp | hp
      · have hbudget : (0 : ℚ) ≤ cfg.preRollMs := by positivity
        exact List.mem_append_left _ ((trim_longest hbudget _).suffix.subset hp)
      · exact List.mem_append_right _ hp
    obtain ⟨f, -, rfl⟩ := List.mem_map.mp hmem
    exact f.nonempty (List.flatten_eq_nil_iff.mp h _ hp)
  · intro h
    rw [h]
    rfl

/-- A call that feeds no frame: the manual end of `commit`, or nothing. -/
theorem stateOf_call_of_heard_none (hpos : cfg.Positive) {w : List Call} {c : Call}
    (hc : c.heard = none) (hns : ∀ g ∈ heard w, 0 < g.receivedNs) :
    (stateOf cfg n w).call cfg c = (stateAfter cfg n w c, eventAt cfg n w c) := by
  unfold stateAfter eventAt stateOf
  rw [heard_concat_none hc]
  cases c with
  | feed pcm receivedNs speaking =>
    have hbad : pcm = [] ∨ pcm.length % 2 = 1 := by
      by_contra hgood
      simp [Call.heard, hgood] at hc
    rw [call, feed, if_pos hbad]
    cases speechOf cfg (heard w) with
    | none => rfl
    | some u => simp [reasonAt, hc]
  | commit nowNs =>
    rw [call, commit]
    cases hspeech : speechOf cfg (heard w) with
    | none => exact if_pos (Or.inl rfl)
    | some u =>
      have hutterance : (speakingState cfg n u).utterance = (u.audio cfg).flatten := rfl
      by_cases haudio : u.audio cfg = []
      · rw [if_pos (Or.inr (by rw [hutterance, audio_flatten_eq_nil, haudio]))]
        simp [reasonAt, haudio]
      · have hholds : ¬ ((speakingState cfg n u).active = false ∨
            (speakingState cfg n u).utterance = []) := by
          rw [hutterance, audio_flatten_eq_nil]
          simp [speakingState, haudio]
        rw [if_neg hholds]
        have hevent : snapshot .finalSegment .manual nowNs (speakingState cfg n u) =
            u.event cfg n nowNs .manual :=
          snapshot_speakingState rfl (lastVoiceNs_ne_zero hpos hspeech hns)
        simp only [Option.bind_some, reasonAt, if_neg haudio, Option.map_some]
        exact Prod.ext rfl (congrArg some hevent)

/-- A call that feeds a frame. -/
theorem stateOf_call_of_heard_some (hpos : cfg.Positive) {w : List Call} {c : Call}
    (hc : c.heard = some f) (hns : ∀ g ∈ heard w ++ [f], 0 < g.receivedNs) :
    (stateOf cfg n w).call cfg c = (stateAfter cfg n w c, eventAt cfg n w c) := by
  cases c with
  | commit nowNs => exact absurd hc (by simp [Call.heard])
  | feed pcm receivedNs speaking =>
    by_cases hbad : pcm = [] ∨ pcm.length % 2 = 1
    · simp [Call.heard, hbad] at hc
    have hf : f = ⟨pcm, receivedNs, speaking, fun hnil => hbad (Or.inl hnil)⟩ := by
      simpa [Call.heard, hbad] using hc.symm
    have hpcm : f.pcm = pcm ∧ f.receivedNs = receivedNs ∧ f.speaking = speaking := by
      rw [hf]
      exact ⟨rfl, rfl, rfl⟩
    obtain ⟨rfl, rfl, rfl⟩ := hpcm
    rw [call, feed, if_neg hbad]
    unfold stateAfter eventAt stateOf
    rw [heard_concat_some hc]
    cases hspeech : speechOf cfg (heard w) with
    | none =>
      rw [speechOf_concat_none hspeech]
      simp only [show (waitingState cfg n (heard w)).active = false from rfl, Bool.false_eq_true,
        if_false, feedInactive_waitingState hpos hns]
      split
      · simp [reasonAt]
      · rfl
    | some u =>
      have hmore := speechOf_concat_some (f := f) hspeech
      have hvoice := lastVoiceNs_ne_zero hpos hmore hns
      have hreason : reasonAt cfg (.feed f.pcm f.receivedNs f.speaking)
          { u with later := u.later ++ [f] } =
          Speech.frameReason cfg { u with later := u.later ++ [f] } := by
        simp [reasonAt, hc]
      rw [hmore]
      simp only [show (speakingState cfg n u).active = true from rfl, if_true,
        feedActive_speakingState rfl hvoice, Option.bind_some, hreason]
      cases Speech.frameReason cfg { u with later := u.later ++ [f] } with
      | none => rfl
      | some reason => cases reason <;> rfl

/-- **One call.** The segmenter goes on as its history tells, and returns the event it tells. -/
theorem stateOf_call (hpos : cfg.Positive) {w : List Call} {c : Call}
    (hns : ∀ g ∈ heard (w ++ [c]), 0 < g.receivedNs) :
    (stateOf cfg n w).call cfg c = (stateAfter cfg n w c, eventAt cfg n w c) := by
  cases hc : c.heard with
  | none =>
    rw [heard_concat_none hc] at hns
    exact stateOf_call_of_heard_none hpos hc hns
  | some f =>
    rw [heard_concat_some hc] at hns
    exact stateOf_call_of_heard_some hpos hc hns

end States

/-! ## Whole runs -/

section Whole

variable {cfg : SegmenterConfig} {n : ℕ} {fs : List Frame} {f : Frame} {u : Speech}

/-- A receive time is one of the run's clock readings. -/
theorem ns_of_mem_heard {w : List Call} (h : f ∈ heard w) : ∃ c ∈ w, f.receivedNs = c.ns := by
  obtain ⟨c, hc, hf⟩ := List.mem_filterMap.mp h
  refine ⟨c, hc, ?_⟩
  cases c with
  | commit nowNs => exact absurd hf (by simp [Call.heard])
  | feed pcm receivedNs speaking =>
    simp only [Call.heard] at hf
    split at hf
    · exact absurd hf (by simp)
    · rw [← Option.some.inj hf]
      rfl

/-- The receive times of a window with a clock that does not go back. -/
theorem heard_pairwise {w : List Call} (h : (w.map Call.ns).Pairwise (· ≤ ·)) :
    (heard w).Pairwise fun f g => f.receivedNs ≤ g.receivedNs := by
  induction w with
  | nil => exact List.Pairwise.nil
  | cons c w ih =>
    rw [List.map_cons, List.pairwise_cons] at h
    have hrest := ih h.2
    cases hc : c.heard with
    | none => simpa [heard, hc] using hrest
    | some f =>
      have hhead : heard (c :: w) = f :: heard w := by simp [heard, hc]
      rw [hhead, List.pairwise_cons]
      refine ⟨fun g hg => ?_, hrest⟩
      obtain ⟨d, hd, hg⟩ := ns_of_mem_heard hg
      obtain ⟨d', hd', hf⟩ := ns_of_mem_heard (w := [c]) (f := f) (by simp [heard, hc])
      rw [List.mem_singleton.mp hd'] at hf
      rw [hf, hg]
      exact h.1 _ (List.mem_map_of_mem hd)

/-- The last voice is not before any speaking frame. -/
theorem le_lastVoiceNs (h : fs.Pairwise fun f g => f.receivedNs ≤ g.receivedNs) (hf : f ∈ fs)
    (hs : f.speaking = true) : f.receivedNs ≤ lastVoiceNs fs := by
  induction fs using List.reverseRecOn with
  | nil => exact absurd hf List.not_mem_nil
  | append_singleton fs g ih =>
    rw [List.pairwise_append] at h
    rw [lastVoiceNs_concat]
    rcases List.mem_append.mp hf with hf | hf
    · split
      · exact h.2.2 f hf g List.mem_cons_self
      · exact ih h.1 hf
    · obtain rfl := List.mem_singleton.mp hf
      rw [if_pos hs]

/-- The instants of an event are in order. -/
theorem eventAt_ordered (hpos : cfg.Positive) {w : List Call} {c : Call}
    (hmono : ((w ++ [c]).map Call.ns).Pairwise (· ≤ ·)) {e : SegmentEvent}
    (he : eventAt cfg n w c = some e) :
    e.speechStartedNs ≤ e.lastVoiceNs ∧ e.lastVoiceNs ≤ e.emittedNs := by
  obtain ⟨u, hu, he⟩ := Option.bind_eq_some_iff.mp he
  obtain ⟨reason, -, rfl⟩ := Option.map_eq_some_iff.mp he
  obtain ⟨hsplit, -, hreach, -⟩ := speechOf_eq_some_iff.mp hu
  obtain ⟨g, hg, hspeaking, hstart⟩ := startNs_mem (speakingRun_ne_nil hpos hreach)
  have hmem : g ∈ u.candidates ++ u.later := List.mem_append_left _ hg
  constructor
  · change startNs u.candidates ≤ lastVoiceNs (u.candidates ++ u.later)
    rw [hstart]
    exact le_lastVoiceNs (hsplit ▸ heard_pairwise hmono) hmem hspeaking
  · obtain ⟨f, hf, hlast⟩ := lastVoiceNs_mem hmem hspeaking
    change lastVoiceNs (u.candidates ++ u.later) ≤ c.ns
    obtain ⟨d, hd, hns⟩ := ns_of_mem_heard (hsplit ▸ hf)
    rw [hlast, hns]
    rcases List.mem_append.mp hd with hd | hd
    · rw [List.map_append, List.pairwise_append] at hmono
      exact hmono.2.2 _ (List.mem_map_of_mem hd) _ List.mem_cons_self
    · rw [List.mem_singleton.mp hd]

/-- The events of the calls `cs` are those of the history, whatever came before. -/
theorem eventsFrom_spec (hpos : cfg.Positive) (cs : List Call) {w : List Call}
    (hns : ∀ c ∈ w ++ cs, 0 < c.ns) (hmono : ((w ++ cs).map Call.ns).Pairwise (· ≤ ·)) :
    eventsOf cfg (Run.trace (fun s c => some (s.call cfg c).1) (stateOf cfg n w) cs) =
        eventsFrom cfg n w cs ∧
      ∀ e ∈ eventsFrom cfg n w cs,
        e.speechStartedNs ≤ e.lastVoiceNs ∧ e.lastVoiceNs ≤ e.emittedNs := by
  induction cs generalizing n w with
  | nil => exact ⟨rfl, fun e he => absurd he List.not_mem_nil⟩
  | cons c cs ih =>
    have hassoc : w ++ [c] ++ cs = w ++ c :: cs := by simp
    have hcall : (stateOf cfg n w).call cfg c = (stateAfter cfg n w c, eventAt cfg n w c) := by
      refine stateOf_call hpos fun g hg => ?_
      obtain ⟨d, hd, hg⟩ := ns_of_mem_heard hg
      rw [hg]
      exact hns d (hassoc ▸ List.mem_append_left _ hd)
    -- after a final the window is empty, else the call joins it
    have hgo := ih (n := n) (w := w ++ [c]) (by rwa [hassoc]) (by rwa [hassoc])
    have hnew := ih (n := n + 1) (w := []) (fun d hd => hns d (by simp_all))
      (List.Pairwise.sublist (List.Sublist.map _ (by simp)) hmono)
    have hordered : ∀ e, eventAt cfg n w c = some e →
        e.speechStartedNs ≤ e.lastVoiceNs ∧ e.lastVoiceNs ≤ e.emittedNs := fun e he =>
      eventAt_ordered hpos (List.Pairwise.sublist (List.Sublist.map _ (by simp)) hmono) he
    rw [Run.trace_take rfl, hcall]
    unfold eventsOf at hgo hnew ⊢
    rw [List.filterMap_cons, emitted, hcall, eventsFrom, stateAfter]
    cases heq : eventAt cfg n w c with
    | none => simpa using hgo
    | some e =>
      have hfirst := hordered e heq
      by_cases hfinal : e.kind = .finalSegment
      · simpa [hfinal, hfirst] using hnew
      · simpa [hfinal, hfirst] using hgo

end Whole

end Endpointing

open Endpointing

/-- **Exact endpointing.** Under positive thresholds and a clock that does not go back, the events of every
run of `feed` and `commit` calls are those of its history, and each tells its instants in order. -/
theorem exact_endpointing (cfg : SegmenterConfig) (hpos : cfg.Positive) (cs : List Call)
    (hns : ∀ c ∈ cs, 0 < c.ns) (hmono : (cs.map Call.ns).Pairwise (· ≤ ·)) :
    eventsOf cfg (segmentation cfg cs) = history cfg cs ∧
      ∀ e ∈ eventsOf cfg (segmentation cfg cs),
        e.speechStartedNs ≤ e.lastVoiceNs ∧ e.lastVoiceNs ≤ e.emittedNs := by
  obtain ⟨hevents, hordered⟩ := eventsFrom_spec (n := 1) (w := []) hpos cs hns hmono
  have hrun : eventsOf cfg (segmentation cfg cs) = history cfg cs := hevents
  rw [hrun]
  exact ⟨rfl, hordered⟩

/-- Frames of 100 ms: two of speech start an utterance, 650 ms of silence end it. -/
theorem exact_endpointing_silence :
    let cfg : SegmenterConfig := { sampleRate := 10 }
    let cs : List Call := [.feed [0, 1] 1 true, .feed [0, 1] 2 true, .feed [0, 1] 3 true] ++
      List.replicate 7 (.feed [0, 0] 9 false)
    eventsOf cfg (segmentation cfg cs) = history cfg cs ∧
      (history cfg cs).map (fun e => (e.boundaryReason, e.endpointMs)) = [(.silence, 700)] :=
  ⟨(exact_endpointing _ ⟨by decide, by decide, by decide, by decide⟩ _ (by decide) (by decide)).1,
    by decide +kernel⟩

end SenseVoice.Bridge
