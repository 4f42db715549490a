import Mathlib.Tactic.Linarith
import Mathlib.Tactic.Positivity
import Mathlib.Tactic.Ring
import SenseVoice.Bridge.Segmenter

/-!
# No audio is lost, doubled or misnumbered by the segmenter

A run of the segmenter falls into utterances. The calls of an utterance are those that wait for speech,
the one that activates, and the later ones up to the final. What `feed` and `commit` return is cut from
these: the pre-roll left at the activation, then every later frame.

Results:
* `popOver_trim`: the loop of `_push_pre_roll` is `Lib.trim`;
* `feedActive_cases`, `feedInactive_cases`: everything one frame can do;
* `book_step`: one call keeps the account of the audio;
* **`audio_conservation`**: every run is conserved.
-/

namespace SenseVoice.Bridge

open Lib PcmSegmenter

/-- One call of a run, with the segmenter before and after it. -/
abbrev FeedStep := Run.Taken PcmSegmenter Call

/-- The frame a call feeds, if `feed` accepts it. -/
def PcmSegmenter.Call.frame : Call → Option Pcm
  | .feed pcm _ _ => if pcm = [] ∨ pcm.length % 2 = 1 then none else some pcm
  | .commit _ => none

/-- The frames that steps feed, in feeding order. -/
def frames (xs : List FeedStep) : List Pcm := xs.filterMap fun x => x.event.frame

section Runs

variable (cfg : SegmenterConfig)

/-- What a call returns. -/
def emitted (x : FeedStep) : Option SegmentEvent := (x.before.call cfg x.event).2

/-- The steps of a run of calls on a new segmenter. -/
def segmentation (cs : List Call) : List FeedStep :=
  Run.trace (fun s c => some (s.call cfg c).1) {} cs

/-- The segmenter a run ends with. -/
def segmenter (cs : List Call) : PcmSegmenter :=
  Run.final (fun s c => some (s.call cfg c).1) {} cs

/-- Every event that steps return, in order. -/
def eventsOf (xs : List FeedStep) : List SegmentEvent := xs.filterMap (emitted cfg)

/-- The finals that steps return. -/
def finalsOf (xs : List FeedStep) : List SegmentEvent :=
  (eventsOf cfg xs).filter fun e => e.kind = .finalSegment

end Runs

/-! ## Durations -/

section Durations

variable {cfg : SegmenterConfig}

theorem durationMs_nonneg (pcm : Pcm) : 0 ≤ cfg.durationMs pcm := by
  unfold SegmenterConfig.durationMs
  positivity

@[simp] theorem durationMs_nil : cfg.durationMs [] = 0 := by
  simp [SegmenterConfig.durationMs]

theorem durationMs_append (p q : Pcm) :
    cfg.durationMs (p ++ q) = cfg.durationMs p + cfg.durationMs q := by
  unfold SegmenterConfig.durationMs
  rw [List.length_append]
  push_cast
  ring

theorem durationMs_flatten (l : List Pcm) : cfg.durationMs l.flatten = total cfg.durationMs l := by
  induction l with
  | nil => simp
  | cons p l ih => rw [List.flatten_cons, durationMs_append, ih, total_cons]

/-- The running duration of the pre-roll loop is the duration of what it keeps, and it keeps the longest
suffix. -/
theorem popOver_trim (l : List Pcm) :
    popOver cfg l (total cfg.durationMs l) =
      (trim cfg.durationMs cfg.preRollMs l,
        total cfg.durationMs (trim cfg.durationMs cfg.preRollMs l)) := by
  induction l with
  | nil => rfl
  | cons p l ih =>
    unfold popOver
    split
    · rw [trim_of_lt ‹_›, total_cons, add_sub_cancel_left, ih]
    · rw [trim_of_le (not_lt.mp ‹_›)]

end Durations

/-! ## Utterances -/

/-- The calls of one utterance, with the frames of its pre-roll. -/
structure Utterance where
  waiting : List FeedStep
  activation : FeedStep
  later : List FeedStep
  preRoll : List Pcm

namespace Utterance

/-- The calls in order. -/
def steps (u : Utterance) : List FeedStep := u.waiting ++ u.activation :: u.later

/-- The frames since the previous final, up to and including the activating one. -/
def candidates (u : Utterance) : List Pcm := frames (u.waiting ++ [u.activation])

/-- The candidates that the pre-roll has dropped. -/
def skipped (u : Utterance) : List Pcm := u.candidates.take (u.candidates.length - u.preRoll.length)

/-- The frames of the utterance. -/
def block (u : Utterance) : List Pcm := u.preRoll ++ frames u.later

/-- The utterance begins with the longest suffix of the frames up to the activating one that the
pre-roll limit allows, and no call up to there returns an event. -/
structure Activated (cfg : SegmenterConfig) (u : Utterance) : Prop where
  quiet : ∀ x ∈ u.waiting, x.before.active = false ∧ x.after.active = false
  activates : u.activation.before.active = false ∧ u.activation.after.active = true
  longest : LongestWithin cfg.durationMs cfg.preRollMs u.candidates u.preRoll
  active : ∀ x ∈ u.later, x.before.active = true
  silent : ∀ x ∈ u.waiting ++ [u.activation], emitted cfg x = none

end Utterance

/-- The event is about the frames `block`, as utterance `n`. -/
structure CutFrom (cfg : SegmenterConfig) (n : ℕ) (block : List Pcm) (e : SegmentEvent) : Prop where
  index : e.utteranceIndex = n
  pcm : e.pcm = block.flatten
  nonempty : e.pcm ≠ []
  duration : e.audioDurationMs = cfg.durationMs e.pcm
  bounded : ∃ pre f, block = pre ++ [f] ∧
    e.audioDurationMs ≤ max (cfg.preRollMs : ℚ) cfg.maxUtteranceMs + cfg.durationMs f

/-- Every event of these calls is a partial, about the frames so far. -/
def Partials (cfg : SegmenterConfig) (n : ℕ) (preRoll : List Pcm) (later : List FeedStep) : Prop :=
  ∀ pre x post, later = pre ++ x :: post → ∀ e, emitted cfg x = some e →
    e.kind = .partialSegment ∧ CutFrom cfg n (preRoll ++ frames (pre ++ [x])) e

/-- The utterance `n` ended with the final `e`. -/
structure Utterance.Complete (cfg : SegmenterConfig) (n : ℕ) (u : Utterance) (e : SegmentEvent) :
    Prop where
  activated : u.Activated cfg
  ends : ∃ pre x, u.later = pre ++ [x] ∧ emitted cfg x = some e ∧ Partials cfg n u.preRoll pre
  kind : e.kind = .finalSegment
  cut : CutFrom cfg n u.block e

/-! ## What one call does -/

section Calls

variable {cfg : SegmenterConfig} {s : PcmSegmenter}

/-- What a frame outside an utterance does: the pre-roll takes it, and may become an utterance. -/
theorem feedInactive_cases (cfg : SegmenterConfig) (pcm : Pcm) (receivedNs : ℤ) (speaking : Bool)
    (s : PcmSegmenter) :
    let kept := popOver cfg (s.preRoll ++ [pcm]) (s.preRollDurationMs + cfg.durationMs pcm)
    let s' := s.feedInactive cfg pcm receivedNs speaking
    (s'.active = s.active ∧ s'.preRoll = kept.1 ∧ s'.preRollDurationMs = kept.2 ∧
        s'.nextUtteranceIndex = s.nextUtteranceIndex) ∨
      s'.active = true ∧ s'.utterance = kept.1.flatten ∧ s'.utteranceMs = kept.2 ∧
        s'.utteranceIndex = s.nextUtteranceIndex ∧
        s'.nextUtteranceIndex = s.nextUtteranceIndex + 1 := by
  have hcount : ∀ s : PcmSegmenter, let s' := s.countCandidate cfg pcm receivedNs speaking
      s'.active = s.active ∧ s'.preRoll = s.preRoll ∧
        s'.preRollDurationMs = s.preRollDurationMs ∧
        s'.nextUtteranceIndex = s.nextUtteranceIndex := by
    intro s
    unfold countCandidate
    split <;> exact ⟨rfl, rfl, rfl, rfl⟩
  obtain ⟨hactive, hpre, hms, hnext⟩ := hcount (s.pushPreRoll cfg pcm)
  intro kept s'
  simp only [s', feedInactive]
  split
  · exact Or.inl ⟨hactive, hpre, hms, hnext⟩
  · refine Or.inr ⟨rfl, ?_, hms, hnext, ?_⟩
    · simp only [activate, hpre]
      rfl
    · simp only [activate, hnext]
      rfl

/-- What a frame inside an utterance does: it ends the utterance, or extends it and may show it. -/
theorem feedActive_cases (cfg : SegmenterConfig) (pcm : Pcm) (receivedNs : ℤ) (speaking : Bool)
    (s : PcmSegmenter) :
    (∃ reason, s.feedActive cfg pcm receivedNs speaking =
      (s.extend cfg pcm receivedNs speaking).finish reason receivedNs) ∨
    ∃ s' out, s.feedActive cfg pcm receivedNs speaking = (s', out) ∧
      s.utteranceMs + cfg.durationMs pcm < cfg.maxUtteranceMs ∧ s'.active = s.active ∧
      s'.utterance = s.utterance ++ pcm ∧ s'.utteranceMs = s.utteranceMs + cfg.durationMs pcm ∧
      s'.utteranceIndex = s.utteranceIndex ∧ s'.nextUtteranceIndex = s.nextUtteranceIndex ∧
      ∀ e, out = some e → e = s'.snapshot .partialSegment .interval receivedNs := by
  unfold feedActive
  simp only
  split
  · exact Or.inl ⟨_, rfl⟩
  · have hmax : s.utteranceMs + cfg.durationMs pcm < cfg.maxUtteranceMs := not_le.mp ‹_›
    split
    · exact Or.inl ⟨_, rfl⟩
    · split
      · exact Or.inr ⟨_, _, rfl, hmax, rfl, rfl, rfl, rfl, rfl,
          fun e he => (Option.some.inj he).symm⟩
      · exact Or.inr ⟨_, _, rfl, hmax, rfl, rfl, rfl, rfl, rfl, fun e he => absurd he (by simp)⟩

/-- What a call does when it does not feed a frame: nothing, or the manual final of `commit`. -/
theorem call_of_frame_none (cfg : SegmenterConfig) {c : Call} (h : c.frame = none) (s : PcmSegmenter) :
    s.call cfg c = (s, none) ∨
      s.active = true ∧ s.utterance ≠ [] ∧ ∃ nowNs, s.call cfg c = s.finish .manual nowNs := by
  cases c with
  | feed pcm receivedNs speaking =>
    have hbad : pcm = [] ∨ pcm.length % 2 = 1 := by
      by_contra hgood
      simp [Call.frame, hgood] at h
    exact Or.inl (by rw [call, feed, if_pos hbad])
  | commit nowNs =>
    rw [call, commit]
    split
    · exact Or.inl rfl
    · rename_i hno
      rw [not_or, Bool.not_eq_false] at hno
      exact Or.inr ⟨hno.1, hno.2, nowNs, rfl⟩

/-- What a call does when it feeds a frame. -/
theorem call_of_frame_some (cfg : SegmenterConfig) {c : Call} {pcm : Pcm} (h : c.frame = some pcm)
    (s : PcmSegmenter) :
    pcm ≠ [] ∧ ∃ receivedNs speaking, s.call cfg c =
      if s.active then s.feedActive cfg pcm receivedNs speaking
      else (s.feedInactive cfg pcm receivedNs speaking, none) := by
  cases c with
  | feed q receivedNs speaking =>
    by_cases hbad : q = [] ∨ q.length % 2 = 1
    · simp [Call.frame, hbad] at h
    · simp only [Call.frame, if_neg hbad, Option.some.injEq] at h
      subst h
      refine ⟨fun hnil => hbad (Or.inl hnil), receivedNs, speaking, ?_⟩
      rw [call, feed, if_neg hbad]
  | commit nowNs => exact absurd h (by simp [Call.frame])

end Calls

/-! ## The account of a run -/

section Accounts

variable {cfg : SegmenterConfig} {n : ℕ} {s : PcmSegmenter}

theorem frames_append (xs ys : List FeedStep) : frames (xs ++ ys) = frames xs ++ frames ys :=
  List.filterMap_append

/-- A call inside an utterance adds to its partials. -/
theorem Partials.concat {preRoll : List Pcm} {later : List FeedStep} {x : FeedStep}
    (h : Partials cfg n preRoll later)
    (hx : ∀ e, emitted cfg x = some e →
      e.kind = .partialSegment ∧ CutFrom cfg n (preRoll ++ frames (later ++ [x])) e) :
    Partials cfg n preRoll (later ++ [x]) := by
  intro pre y post hsplit e he
  rcases Run.split_concat hsplit with ⟨rfl, rfl, -⟩ | ⟨post, -, rfl⟩
  · exact hx e he
  · exact h pre y post rfl e he

/-- The steps since the previous final, and the segmenter they leave: waiting for speech, or inside the
utterance `n`. -/
inductive Current (cfg : SegmenterConfig) (n : ℕ) (rest : List FeedStep) (s : PcmSegmenter) : Prop
  | waiting (hidle : s.active = false)
      (hquiet : ∀ x ∈ rest, x.before.active = false ∧ x.after.active = false)
      (hsilent : ∀ x ∈ rest, emitted cfg x = none)
      (hpre : s.preRoll = trim cfg.durationMs cfg.preRollMs (frames rest))
      (hms : s.preRollDurationMs = total cfg.durationMs s.preRoll)
      (hnext : s.nextUtteranceIndex = n)
  | speaking (u : Utterance) (hrest : rest = u.steps) (hactivated : u.Activated cfg)
      (hpartials : Partials cfg n u.preRoll u.later) (hon : s.active = true)
      (hpcm : s.utterance = u.block.flatten)
      (hms : s.utteranceMs = cfg.durationMs s.utterance)
      (hmax : s.utteranceMs ≤ max (cfg.preRollMs : ℚ) cfg.maxUtteranceMs)
      (hindex : s.utteranceIndex = n) (hnext : s.nextUtteranceIndex = n + 1)

/-- What one call does to the account: it goes on, or the utterance `n` is complete. -/
def Accounted (cfg : SegmenterConfig) (n : ℕ) (rest : List FeedStep) (s : PcmSegmenter) : Prop :=
  Current cfg n rest s ∨
    ∃ (u : Utterance) (e : SegmentEvent), rest = u.steps ∧ u.Complete cfg n e ∧ Current cfg (n + 1) [] s

/-- A step inside an utterance is one of the utterance. -/
theorem Utterance.Activated.extend {u : Utterance} (h : u.Activated cfg) {x : FeedStep}
    (hx : x.before.active = true) : { u with later := u.later ++ [x] }.Activated cfg where
  quiet := h.quiet
  activates := h.activates
  longest := h.longest
  active := by
    intro y hy
    rcases List.mem_append.mp hy with hy | hy
    · exact h.active y hy
    · rw [List.mem_singleton.mp hy, hx]
  silent := h.silent

theorem Utterance.steps_extend (u : Utterance) (x : FeedStep) :
    { u with later := u.later ++ [x] }.steps = u.steps ++ [x] := by
  simp [Utterance.steps]

/-- A call that waits for speech. -/
theorem wait_step {rest : List FeedStep} {c : Call} (hidle : s.active = false)
    (hquiet : ∀ x ∈ rest, x.before.active = false ∧ x.after.active = false)
    (hsilent : ∀ x ∈ rest, emitted cfg x = none)
    (hpre : s.preRoll = trim cfg.durationMs cfg.preRollMs (frames rest))
    (hms : s.preRollDurationMs = total cfg.durationMs s.preRoll) (hnext : s.nextUtteranceIndex = n) :
    Current cfg n (rest ++ [⟨s, c, (s.call cfg c).1⟩]) (s.call cfg c).1 := by
  -- the new step joins the waiting ones, if the segmenter stays inactive
  have hstay : (s.call cfg c).1.active = false → (s.call cfg c).2 = none →
      (s.call cfg c).1.preRoll =
        trim cfg.durationMs cfg.preRollMs (frames (rest ++ [⟨s, c, (s.call cfg c).1⟩])) →
      (s.call cfg c).1.preRollDurationMs = total cfg.durationMs (s.call cfg c).1.preRoll →
      (s.call cfg c).1.nextUtteranceIndex = n →
      Current cfg n (rest ++ [⟨s, c, (s.call cfg c).1⟩]) (s.call cfg c).1 := by
    intro hidle' hnone hpre' hms' hnext'
    refine .waiting hidle' (fun x hx => ?_) (fun x hx => ?_) hpre' hms' hnext'
    · rcases List.mem_append.mp hx with hx | hx
      · exact hquiet x hx
      · rw [List.mem_singleton.mp hx]
        exact ⟨hidle, hidle'⟩
    · rcases List.mem_append.mp hx with hx | hx
      · exact hsilent x hx
      · rw [List.mem_singleton.mp hx]
        exact hnone
  cases hframe : c.frame with
  | none =>
    have hcall : s.call cfg c = (s, none) :=
      (call_of_frame_none cfg hframe s).resolve_right fun h => by simp [hidle] at h
    refine hstay (by rw [hcall, hidle]) (by rw [hcall]) ?_ (by rw [hcall]; exact hms)
      (by rw [hcall]; exact hnext)
    rw [frames_append, hcall]
    simp [frames, hframe, hpre]
  | some pcm =>
    obtain ⟨-, receivedNs, speaking, hcall⟩ := call_of_frame_some cfg hframe s
    simp only [hidle, Bool.false_eq_true, if_false] at hcall
    have hfr : frames (rest ++ [⟨s, c, (s.call cfg c).1⟩]) = frames rest ++ [pcm] := by
      rw [frames_append]
      simp [frames, hframe]
    -- the loop trims the frames since the previous final
    have hkept : popOver cfg (s.preRoll ++ [pcm]) (s.preRollDurationMs + cfg.durationMs pcm) =
        (trim cfg.durationMs cfg.preRollMs (frames rest ++ [pcm]),
          total cfg.durationMs (trim cfg.durationMs cfg.preRollMs (frames rest ++ [pcm]))) := by
      have hsum : s.preRollDurationMs + cfg.durationMs pcm =
          total cfg.durationMs (s.preRoll ++ [pcm]) := by
        rw [hms, total_append]
        simp
      rw [hsum, popOver_trim, hpre, trim_push durationMs_nonneg]
    have hcases := feedInactive_cases cfg pcm receivedNs speaking s
    simp only [hkept] at hcases
    rcases hcases with ⟨hactive, hpre', hms', hnext'⟩ | ⟨hactive, hutt, hms', hindex, hnext'⟩
    · refine hstay ?_ (by rw [hcall]) ?_ ?_ ?_
      · rw [hcall, hactive, hidle]
      · rw [hfr, hcall, hpre']
      · rw [hcall, hpre', hms']
      · rw [hcall, hnext', hnext]
    · refine .speaking ⟨rest, ⟨s, c, (s.call cfg c).1⟩, [],
        trim cfg.durationMs cfg.preRollMs (frames rest ++ [pcm])⟩ rfl ?_ ?_ ?_ ?_ ?_ ?_ ?_ ?_
      · refine ⟨hquiet, ⟨hidle, by rw [hcall, hactive]⟩, ?_,
          fun x hx => absurd hx List.not_mem_nil, fun x hx => ?_⟩
        · unfold Utterance.candidates
          rw [hfr]
          exact trim_longest (Nat.cast_nonneg _) _
        · rcases List.mem_append.mp hx with hx | hx
          · exact hsilent x hx
          · rw [List.mem_singleton.mp hx, emitted, hcall]
      · intro pre x post hsplit
        exact absurd hsplit (by simp)
      · rw [hcall, hactive]
      · rw [hcall, hutt]
        simp [Utterance.block, frames]
      · rw [hcall, hms', hutt, durationMs_flatten]
      · rw [hcall, hms']
        exact le_trans (trim_longest (Nat.cast_nonneg _) _).within (le_max_left _ _)
      · rw [hcall, hindex, hnext]
      · rw [hcall, hnext', hnext]

/-- A final of the frames so far ends the utterance. -/
theorem finish_step {u : Utterance} {x : FeedStep} {s' : PcmSegmenter} {reason : BoundaryReason} {ns : ℤ}
    (hx : x.after = (x.before.call cfg x.event).1)
    (hactivated : { u with later := u.later ++ [x] }.Activated cfg)
    (hpartials : Partials cfg n u.preRoll u.later)
    (hcall : x.before.call cfg x.event = s'.finish reason ns)
    (hpcm : s'.utterance = { u with later := u.later ++ [x] }.block.flatten) (hne : s'.utterance ≠ [])
    (hms : s'.utteranceMs = cfg.durationMs s'.utterance) (hindex : s'.utteranceIndex = n)
    (hnext : s'.nextUtteranceIndex = n + 1)
    (hbound : ∃ pre f, { u with later := u.later ++ [x] }.block = pre ++ [f] ∧
      s'.utteranceMs ≤ max (cfg.preRollMs : ℚ) cfg.maxUtteranceMs + cfg.durationMs f) :
    Accounted cfg n (u.steps ++ [x]) x.after := by
  have hfinal : emitted cfg x = some (s'.snapshot .finalSegment reason ns) := by
    rw [emitted, hcall]
    rfl
  refine Or.inr ⟨_, s'.snapshot .finalSegment reason ns, (u.steps_extend x).symm,
    ⟨hactivated, ⟨u.later, x, rfl, hfinal, hpartials⟩, rfl, ⟨hindex, hpcm, hne, hms, hbound⟩⟩, ?_⟩
  rw [hx, hcall]
  refine .waiting rfl ?_ ?_ rfl rfl hnext
  · exact fun y hy => absurd hy List.not_mem_nil
  · exact fun y hy => absurd hy List.not_mem_nil

/-- A call inside an utterance. -/
theorem speak_step {u : Utterance} {c : Call} (hactivated : u.Activated cfg)
    (hpartials : Partials cfg n u.preRoll u.later) (hon : s.active = true)
    (hpcm : s.utterance = u.block.flatten) (hms : s.utteranceMs = cfg.durationMs s.utterance)
    (hmax : s.utteranceMs ≤ max (cfg.preRollMs : ℚ) cfg.maxUtteranceMs)
    (hindex : s.utteranceIndex = n) (hnext : s.nextUtteranceIndex = n + 1) :
    Accounted cfg n (u.steps ++ [⟨s, c, (s.call cfg c).1⟩]) (s.call cfg c).1 := by
  set x : FeedStep := ⟨s, c, (s.call cfg c).1⟩ with hx
  have hactivated' : { u with later := u.later ++ [x] }.Activated cfg := hactivated.extend hon
  cases hframe : c.frame with
  | none =>
    have hblock : { u with later := u.later ++ [x] }.block = u.block := by
      simp [Utterance.block, frames, hx, hframe]
    rcases call_of_frame_none cfg hframe s with hcall | ⟨-, hne, ns, hcall⟩
    · refine Or.inl (.speaking { u with later := u.later ++ [x] } (u.steps_extend x).symm hactivated'
        (hpartials.concat fun e he => ?_) ?_ ?_ ?_ ?_ ?_ ?_)
      · rw [emitted, hx, hcall] at he
        exact absurd he (by simp)
      all_goals rw [hcall]
      · exact hon
      · rw [hblock, hpcm]
      · exact hms
      · exact hmax
      · exact hindex
      · exact hnext
    · refine finish_step rfl hactivated' hpartials hcall (by rw [hblock, hpcm]) hne hms hindex hnext ?_
      rw [hblock]
      have hne' : u.block ≠ [] := by
        intro hnil
        exact hne (by rw [hpcm, hnil, List.flatten_nil])
      obtain ⟨pre, f, hf⟩ := (List.eq_nil_or_concat u.block).resolve_left hne'
      rw [List.concat_eq_append] at hf
      exact ⟨pre, f, hf, le_add_of_le_of_nonneg hmax (durationMs_nonneg f)⟩
  | some pcm =>
    obtain ⟨hne, receivedNs, speaking, hcall⟩ := call_of_frame_some cfg hframe s
    rw [if_pos hon] at hcall
    have hblock : { u with later := u.later ++ [x] }.block = u.block ++ [pcm] := by
      simp [Utterance.block, frames, hx, hframe]
    have hflat : { u with later := u.later ++ [x] }.block.flatten = s.utterance ++ pcm := by
      rw [hblock, List.flatten_append, hpcm]
      simp
    have hmore : s.utteranceMs + cfg.durationMs pcm = cfg.durationMs (s.utterance ++ pcm) := by
      rw [hms, durationMs_append]
    have hne' : s.utterance ++ pcm ≠ [] := by simp [hne]
    have hbound : s.utteranceMs + cfg.durationMs pcm ≤
        max (cfg.preRollMs : ℚ) cfg.maxUtteranceMs + cfg.durationMs pcm := by linarith
    rcases feedActive_cases cfg pcm receivedNs speaking s with
      ⟨reason, hend⟩ | ⟨s', out, hgo, hlt, hon', hutt', hms', hindex', hnext', hout⟩
    · refine finish_step rfl hactivated' hpartials (hcall.trans hend) hflat.symm hne' hmore hindex
        hnext ?_
      exact ⟨u.block, pcm, hblock, hbound⟩
    · have hcall' : s.call cfg c = (s', out) := hcall.trans hgo
      refine Or.inl (.speaking { u with later := u.later ++ [x] } (u.steps_extend x).symm hactivated'
        (hpartials.concat fun e he => ?_) ?_ ?_ ?_ ?_ ?_ ?_)
      · rw [emitted, hx, hcall'] at he
        obtain rfl := hout e he
        refine ⟨rfl, ?_⟩
        change CutFrom cfg n { u with later := u.later ++ [x] }.block _
        refine ⟨hindex'.trans hindex, hutt'.trans hflat.symm, ?_, ?_, u.block, pcm, hblock, ?_⟩
        · rw [show (s'.snapshot .partialSegment .interval receivedNs).pcm = s'.utterance from rfl, hutt']
          exact hne'
        · change s'.utteranceMs = cfg.durationMs s'.utterance
          rw [hms', hutt', hmore]
        · change s'.utteranceMs ≤ _
          rw [hms']
          exact hbound
      all_goals rw [hcall']
      · exact hon'.trans hon
      · exact hutt'.trans hflat.symm
      · exact hms'.trans (hmore.trans (by rw [hutt']))
      · exact le_trans (le_of_lt (hms' ▸ hlt)) (le_max_right _ _)
      · exact hindex'.trans hindex
      · exact hnext'.trans hnext

/-- **One call keeps the account.** -/
theorem Current.step {rest : List FeedStep} {c : Call} (h : Current cfg n rest s) :
    Accounted cfg n (rest ++ [⟨s, c, (s.call cfg c).1⟩]) (s.call cfg c).1 := by
  cases h with
  | waiting hidle hquiet hsilent hpre hms hnext =>
    exact Or.inl (wait_step hidle hquiet hsilent hpre hms hnext)
  | speaking u hrest hactivated hpartials hon hpcm hms hmax hindex hnext =>
    subst hrest
    exact speak_step hactivated hpartials hon hpcm hms hmax hindex hnext

end Accounts

/-! ## Whole runs -/

section Whole

variable {cfg : SegmenterConfig} {n : ℕ}

/-- What every event says of its own audio; the one frame is the last of the event's. -/
structure Sound (cfg : SegmenterConfig) (fed : List Pcm) (e : SegmentEvent) : Prop where
  nonempty : e.pcm ≠ []
  duration : e.audioDurationMs = cfg.durationMs e.pcm
  bounded : ∃ f ∈ fed, f <:+ e.pcm ∧
    e.audioDurationMs ≤ max (cfg.preRollMs : ℚ) cfg.maxUtteranceMs + cfg.durationMs f

/-- **What becomes of the audio of a run** of calls: the utterances `us`, then the calls `rest`. -/
structure Conserved (cfg : SegmenterConfig) (cs : List Call) (us : List Utterance)
    (rest : List FeedStep) : Prop where
  steps : segmentation cfg cs = us.flatMap Utterance.steps ++ rest
  /-- The blocks are disjoint and contiguous in the fed frames, in feeding order. -/
  audio : cs.filterMap Call.frame = us.flatMap (fun u => u.skipped ++ u.block) ++ frames rest
  /-- Each is the pre-roll left at the activation and every later frame up to the final. -/
  complete : ∀ (i : ℕ) (u : Utterance), us[i]? = some u → ∃ e, u.Complete cfg (i + 1) e
  /-- The finals carry the blocks, and the numbers from 1 on. -/
  pcm : (finalsOf cfg (segmentation cfg cs)).map (·.pcm) = us.map (·.block.flatten)
  indices : (finalsOf cfg (segmentation cfg cs)).map (·.utteranceIndex) = List.range' 1 us.length
  /-- A partial is a prefix of the final with its index, or of the utterance that is still open. -/
  prefixes : ∀ e ∈ eventsOf cfg (segmentation cfg cs), e.kind = .partialSegment →
    (∃ f ∈ finalsOf cfg (segmentation cfg cs),
      f.utteranceIndex = e.utteranceIndex ∧ e.pcm <+: f.pcm) ∨
    e.utteranceIndex = us.length + 1 ∧ (segmenter cfg cs).active = true ∧
      e.pcm <+: (segmenter cfg cs).utterance
  sound : ∀ e ∈ eventsOf cfg (segmentation cfg cs), Sound cfg (cs.filterMap Call.frame) e

theorem eventsOf_append (xs ys : List FeedStep) :
    eventsOf cfg (xs ++ ys) = eventsOf cfg xs ++ eventsOf cfg ys := List.filterMap_append

theorem finalsOf_append (xs ys : List FeedStep) :
    finalsOf cfg (xs ++ ys) = finalsOf cfg xs ++ finalsOf cfg ys := by
  unfold finalsOf
  rw [eventsOf_append, List.filter_append]

/-- The steps of a run are its calls. -/
theorem segmentation_events (cfg : SegmenterConfig) (cs : List Call) :
    (segmentation cfg cs).map Run.Taken.event = cs := by
  unfold segmentation
  generalize ({} : PcmSegmenter) = s
  induction cs generalizing s with
  | nil => rfl
  | cons c cs ih => rw [Run.trace_take rfl, List.map_cons, ih]

theorem frames_segmentation (cfg : SegmenterConfig) (cs : List Call) :
    frames (segmentation cfg cs) = cs.filterMap Call.frame := by
  conv_rhs => rw [← segmentation_events cfg cs]
  rw [List.filterMap_map]
  rfl

theorem Sound.mono {fed fed' : List Pcm} {e : SegmentEvent} (h : Sound cfg fed e)
    (hsub : ∀ f ∈ fed, f ∈ fed') : Sound cfg fed' e := by
  obtain ⟨f, hf, hle⟩ := h.bounded
  exact ⟨h.nonempty, h.duration, f, hsub f hf, hle⟩

/-- A cut is sound. -/
theorem CutFrom.sound {block : List Pcm} {e : SegmentEvent} (h : CutFrom cfg n block e) :
    Sound cfg block e := by
  obtain ⟨pre, f, hblock, hle⟩ := h.bounded
  refine ⟨h.nonempty, h.duration, f, by rw [hblock]; simp, ?_, hle⟩
  rw [h.pcm, hblock, List.flatten_append]
  simp

/-- A cut is a prefix of what the utterance becomes. -/
theorem CutFrom.prefix_of {pre post : List Pcm} {e : SegmentEvent} (h : CutFrom cfg n pre e) :
    e.pcm <+: (pre ++ post).flatten := by
  rw [h.pcm, List.flatten_append]
  exact List.prefix_append _ _

/-- The events of partials are partials of this utterance, and prefixes of it. -/
theorem Partials.events {preRoll : List Pcm} {later : List FeedStep} (h : Partials cfg n preRoll later)
    {e : SegmentEvent} (he : e ∈ eventsOf cfg later) :
    e.kind = .partialSegment ∧ e.utteranceIndex = n ∧ e.pcm <+: (preRoll ++ frames later).flatten ∧
      Sound cfg (preRoll ++ frames later) e := by
  obtain ⟨x, hx, hx'⟩ := List.mem_filterMap.mp he
  obtain ⟨pre, post, rfl⟩ := List.append_of_mem hx
  obtain ⟨hkind, hcut⟩ := h pre x post rfl e hx'
  have hsplit : preRoll ++ frames (pre ++ x :: post) =
      preRoll ++ frames (pre ++ [x]) ++ frames post := by
    rw [List.append_assoc, ← frames_append, List.append_assoc, List.singleton_append]
  rw [hsplit]
  exact ⟨hkind, hcut.index, hcut.prefix_of, hcut.sound.mono fun f hf => List.mem_append_left _ hf⟩

/-- Before the later calls nothing is returned. -/
theorem Utterance.Activated.eventsOf_steps {u : Utterance} (h : u.Activated cfg) :
    eventsOf cfg u.steps = eventsOf cfg u.later := by
  have hnone : eventsOf cfg (u.waiting ++ [u.activation]) = [] :=
    List.filterMap_eq_nil_iff.mpr h.silent
  rw [Utterance.steps, ← List.singleton_append (x := u.activation), ← List.append_assoc,
    eventsOf_append, hnone, List.nil_append]

/-- The frames of an activated utterance: those the pre-roll dropped, and its block. -/
theorem Utterance.Activated.frames_steps {u : Utterance} (h : u.Activated cfg) :
    frames u.steps = u.skipped ++ u.block := by
  have hcand : u.candidates = u.skipped ++ u.preRoll :=
    (List.suffix_iff_eq_append.mp h.longest.suffix).symm
  rw [Utterance.steps, ← List.singleton_append (x := u.activation), ← List.append_assoc, frames_append]
  change u.candidates ++ _ = _
  rw [hcand, Utterance.block, List.append_assoc]

/-- The events of a complete utterance: partials, and its final. -/
theorem Utterance.Complete.events {u : Utterance} {f : SegmentEvent} (h : u.Complete cfg n f) :
    ∃ ps, eventsOf cfg u.steps = ps ++ [f] ∧
      ∀ e ∈ ps, e.kind = .partialSegment ∧ e.utteranceIndex = n ∧ e.pcm <+: f.pcm ∧
        Sound cfg u.block e := by
  obtain ⟨pre, x, hlater, hx, hpartials⟩ := h.ends
  refine ⟨eventsOf cfg pre, ?_, fun e he => ?_⟩
  · rw [h.activated.eventsOf_steps, hlater, eventsOf_append]
    simp [eventsOf, hx]
  · obtain ⟨hkind, hindex, hprefix, hsound⟩ := hpartials.events he
    have hblock : u.block = u.preRoll ++ frames pre ++ frames [x] := by
      rw [Utterance.block, hlater, frames_append, List.append_assoc]
    refine ⟨hkind, hindex, hprefix.trans ?_, hsound.mono fun g hg => ?_⟩
    · rw [h.cut.pcm, hblock]
      exact ⟨_, List.flatten_append.symm⟩
    · rw [hblock]
      exact List.mem_append_left _ hg

/-- Every event of a complete utterance is a prefix of its final. -/
theorem Utterance.Complete.mem_events {u : Utterance} {f e : SegmentEvent} (h : u.Complete cfg n f)
    (he : e ∈ eventsOf cfg u.steps) :
    e.utteranceIndex = f.utteranceIndex ∧ e.pcm <+: f.pcm ∧ Sound cfg u.block e := by
  obtain ⟨ps, hps, hsounds⟩ := h.events
  rw [hps] at he
  rcases List.mem_append.mp he with he | he
  · obtain ⟨-, hindex, hprefix, hsound⟩ := hsounds e he
    exact ⟨hindex.trans h.cut.index.symm, hprefix, hsound⟩
  · obtain rfl := List.mem_singleton.mp he
    exact ⟨rfl, List.prefix_rfl, h.cut.sound⟩

/-- A complete utterance returns one final. -/
theorem Utterance.Complete.finalsOf_steps {u : Utterance} {f : SegmentEvent}
    (h : u.Complete cfg n f) : finalsOf cfg u.steps = [f] := by
  obtain ⟨ps, hps, hsounds⟩ := h.events
  have hnone : ps.filter (fun e => e.kind = .finalSegment) = [] := by
    refine List.filter_eq_nil_iff.mpr fun e he => ?_
    rw [(hsounds e he).1]
    decide
  rw [finalsOf, hps, List.filter_append, hnone, List.nil_append]
  simp [h.kind]

/-- The finals of complete utterances, numbered from `n` on. -/
theorem finalsOf_flatMap {us : List Utterance}
    (h : ∀ (i : ℕ) (u : Utterance), us[i]? = some u → ∃ e, u.Complete cfg (n + i) e) :
    (finalsOf cfg (us.flatMap Utterance.steps)).map (·.pcm) = us.map (·.block.flatten) ∧
      (finalsOf cfg (us.flatMap Utterance.steps)).map (·.utteranceIndex) =
        List.range' n us.length := by
  induction us generalizing n with
  | nil => exact ⟨rfl, rfl⟩
  | cons u us ih =>
    obtain ⟨e, he⟩ := h 0 u (by simp)
    have hrest := ih (n := n + 1) fun i v hv => by
      obtain ⟨e', he'⟩ := h (i + 1) v (by simpa using hv)
      exact ⟨e', by rwa [Nat.add_assoc, Nat.add_comm 1 i]⟩
    rw [List.flatMap_cons, finalsOf_append, he.finalsOf_steps, List.map_append, List.map_append,
      hrest.1, hrest.2]
    refine ⟨?_, ?_⟩
    · rw [List.map_cons, List.map_nil, he.cut.pcm]
      rfl
    · rw [List.map_cons, List.map_nil, he.cut.index]
      rfl

/-- The events since the last final are partials of the open utterance. -/
theorem Current.events {rest : List FeedStep} {s : PcmSegmenter} (h : Current cfg n rest s)
    {e : SegmentEvent} (he : e ∈ eventsOf cfg rest) :
    e.kind = .partialSegment ∧ e.utteranceIndex = n ∧ s.active = true ∧ e.pcm <+: s.utterance ∧
      Sound cfg (frames rest) e := by
  cases h with
  | waiting hidle hquiet hsilent hpre hms hnext =>
    obtain ⟨x, hx, hsome⟩ := List.mem_filterMap.mp he
    exact absurd hsome (by simp [hsilent x hx])
  | speaking u hrest hactivated hpartials hon hpcm hms hmax hindex hnext =>
    subst hrest
    rw [hactivated.eventsOf_steps] at he
    obtain ⟨hkind, hidx, hprefix, hsound⟩ := hpartials.events he
    refine ⟨hkind, hidx, hon, hpcm ▸ hprefix, hsound.mono fun f hf => ?_⟩
    rw [hactivated.frames_steps]
    exact List.mem_append_right _ hf

/-- The account of a whole run. -/
theorem accounts (cfg : SegmenterConfig) (cs : List Call) :
    ∃ (us : List Utterance) (rest : List FeedStep),
      segmentation cfg cs = us.flatMap Utterance.steps ++ rest ∧
      (∀ (i : ℕ) (u : Utterance), us[i]? = some u → ∃ e, u.Complete cfg (i + 1) e) ∧
      Current cfg (us.length + 1) rest (segmenter cfg cs) := by
  refine Run.history_final (I := fun past s => ∃ (us : List Utterance) (rest : List FeedStep),
    past = us.flatMap Utterance.steps ++ rest ∧
    (∀ (i : ℕ) (u : Utterance), us[i]? = some u → ∃ e, u.Complete cfg (i + 1) e) ∧
    Current cfg (us.length + 1) rest s) ?_ ?_ cs
  · refine ⟨[], [], rfl, fun i u h => absurd h (by simp), .waiting rfl ?_ ?_ rfl rfl rfl⟩
    · exact fun x hx => absurd hx List.not_mem_nil
    · exact fun x hx => absurd hx List.not_mem_nil
  · rintro past s c t ⟨us, rest, rfl, hcomplete, hcurrent⟩ hstep
    obtain rfl := Option.some.inj hstep
    rcases hcurrent.step (c := c) with hgo | ⟨u, e, hsteps, hdone, hnew⟩
    · exact ⟨us, _, by rw [List.append_assoc], hcomplete, hgo⟩
    · refine ⟨us ++ [u], [], ?_, fun i v hv => ?_, ?_⟩
      · rw [List.append_assoc, hsteps, List.flatMap_append, List.append_nil]
        simp
      · rcases Nat.lt_or_ge i us.length with hi | hi
        · exact hcomplete i v (by rwa [List.getElem?_append_left hi] at hv)
        · rw [List.getElem?_append_right hi] at hv
          obtain ⟨hzero, rfl⟩ : i - us.length = 0 ∧ u = v := by
            cases hk : i - us.length with
            | zero => simpa [hk] using hv
            | succ k => simp [hk] at hv
          obtain rfl : i = us.length := by omega
          exact ⟨e, hdone⟩
      · simpa using hnew

/-- **Audio conservation.** In every run of `feed` and `commit` calls, the finals carry disjoint blocks of
the fed frames in feeding order, each the longest pre-roll up to the activating frame and every later
frame, numbered 1, 2, 3, …; partials are prefixes of them; and every event tells its own duration, which is
bounded by the configured limits and one frame. -/
theorem audio_conservation (cfg : SegmenterConfig) (cs : List Call) :
    ∃ us rest, Conserved cfg cs us rest := by
  obtain ⟨us, rest, hsteps, hcomplete, hcurrent⟩ := accounts cfg cs
  have hfinals := finalsOf_flatMap (n := 1) fun i u hu => by
    obtain ⟨e, he⟩ := hcomplete i u hu
    exact ⟨e, by rwa [Nat.add_comm 1 i]⟩
  have hrest : finalsOf cfg rest = [] := by
    refine List.filter_eq_nil_iff.mpr fun e he => ?_
    rw [(hcurrent.events he).1]
    decide
  have hall : finalsOf cfg (segmentation cfg cs) = finalsOf cfg (us.flatMap Utterance.steps) := by
    rw [hsteps, finalsOf_append, hrest, List.append_nil]
  have hactivated : ∀ u ∈ us, u.Activated cfg := by
    intro u hu
    obtain ⟨i, hi⟩ := List.mem_iff_getElem?.mp hu
    obtain ⟨e, he⟩ := hcomplete i u hi
    exact he.activated
  have haudio : cs.filterMap Call.frame =
      us.flatMap (fun u => u.skipped ++ u.block) ++ frames rest := by
    rw [← frames_segmentation cfg, hsteps, frames_append]
    congr 1
    rw [frames, List.filterMap_flatMap]
    exact List.flatMap_congr fun u hu => (hactivated u hu).frames_steps
  -- the final of a complete utterance is one of the run
  have hdone : ∀ e ∈ eventsOf cfg (us.flatMap Utterance.steps), ∃ u ∈ us,
      ∃ f ∈ finalsOf cfg (segmentation cfg cs),
        e.utteranceIndex = f.utteranceIndex ∧ e.pcm <+: f.pcm ∧ Sound cfg u.block e := by
    intro e he
    obtain ⟨x, hx, hx'⟩ := List.mem_filterMap.mp he
    obtain ⟨u, hu, hxu⟩ := List.mem_flatMap.mp hx
    obtain ⟨i, hi⟩ := List.mem_iff_getElem?.mp hu
    obtain ⟨f, hf⟩ := hcomplete i u hi
    refine ⟨u, hu, f, ?_, hf.mem_events (List.mem_filterMap.mpr ⟨x, hxu, hx'⟩)⟩
    obtain ⟨pre, post, hus⟩ := List.append_of_mem hu
    rw [hall, hus, List.flatMap_append, finalsOf_append, List.flatMap_cons, finalsOf_append,
      hf.finalsOf_steps]
    simp
  refine ⟨us, rest, hsteps, haudio, hcomplete, by rw [hall, hfinals.1], by rw [hall, hfinals.2],
    fun e he hkind => ?_, fun e he => ?_⟩
  · rw [hsteps, eventsOf_append] at he
    rcases List.mem_append.mp he with he | he
    · obtain ⟨u, -, f, hf, hindex, hprefix, -⟩ := hdone e he
      exact Or.inl ⟨f, hf, hindex.symm, hprefix⟩
    · obtain ⟨-, hindex, hon, hprefix, -⟩ := hcurrent.events he
      exact Or.inr ⟨hindex, hon, hprefix⟩
  · rw [hsteps, eventsOf_append] at he
    rw [haudio]
    rcases List.mem_append.mp he with he | he
    · obtain ⟨u, hu, f, -, -, -, hsound⟩ := hdone e he
      refine hsound.mono fun g hg => List.mem_append_left _ ?_
      exact List.mem_flatMap.mpr ⟨u, hu, List.mem_append_right _ hg⟩
    · exact (hcurrent.events he).2.2.2.2.mono fun g hg => List.mem_append_right _ hg

end Whole

end SenseVoice.Bridge
