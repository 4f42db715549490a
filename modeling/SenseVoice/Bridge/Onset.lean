import SenseVoice.Bridge.Endpointing

/-!
# The onset of speech in an utterance

The pre-roll is cut to `pre_roll_ms` at every frame, the run of speaking frames is counted on its own. When
the run starts an utterance, the pre-roll at that moment is all that the utterance has of it. Durations and
their sums are exact, as everywhere on the segmenter: a run whose length is `pre_roll_ms` to the last bit may
be cut by the rounding of the source's floats.

Results:
* `activation`: what an utterance starts with, read off the frames since the last final;
* `onset_suffix_iff`: the pre-roll holds the whole run exactly if the run is not longer than `pre_roll_ms`;
* `fits_of_short`: it never is, where no frame is longer than `pre_roll_ms - speech_start_ms`;
* **`onset_kept`**: an utterance then begins with its onset, and audio without silence is cut without a loss.
-/

namespace SenseVoice.Bridge

open Lib PcmSegmenter Endpointing

variable (cfg : SegmenterConfig)

/-- The call has returned a final. -/
def endsUtterance (x : FeedStep) : Bool := (emitted cfg x).any fun e => e.kind = .finalSegment

/-- The frames since the last final. -/
def heardSince (past : List FeedStep) : List Frame :=
  past.foldl (fun fs x => if endsUtterance cfg x then [] else fs ++ x.event.heard.toList) []

/-- The call starts an utterance. -/
def Activates (x : FeedStep) : Prop := x.before.active = false ∧ x.after.active = true

/-- The run of speaking frames that starts an utterance; the last frame alone, where it is silent (which
takes a `speech_start_ms` of 0). -/
def onset (fs : List Frame) : List Frame :=
  if speakingRun fs = [] then fs.getLast?.toList else speakingRun fs

/-- The onset of the utterance that a call starts. -/
def onsetOf (past : List FeedStep) (x : FeedStep) : List Frame :=
  onset (heardSince cfg past ++ x.event.heard.toList)

/-- The audio of frames. -/
def audioOf (fs : List Frame) : Pcm := (fs.map (·.pcm)).flatten

/-- No onset of the run is longer than the pre-roll may be. -/
def OnsetsFit (xs : List FeedStep) : Prop :=
  ∀ past x post, xs = past ++ x :: post → Activates x → span cfg (onsetOf cfg past x) ≤ cfg.preRollMs

/-- The audio that waits in a segmenter for the next final. -/
def openAudio (s : PcmSegmenter) : Pcm := if s.active then s.utterance else s.preRoll.flatten

/-- The audio of the finals that steps return. -/
def finalAudio (xs : List FeedStep) : Pcm := ((finalsOf cfg xs).map (·.pcm)).flatten

variable {cfg} {past : List FeedStep} {x : FeedStep} {fs : List Frame} {f : Frame}

theorem heardSince_concat : heardSince cfg (past ++ [x]) =
    if endsUtterance cfg x then [] else heardSince cfg past ++ x.event.heard.toList := by
  unfold heardSince
  rw [List.foldl_append]
  rfl

/-! ## The onset and the pre-roll -/

theorem onset_suffix (fs : List Frame) : onset fs <:+ fs := by
  unfold onset
  split
  · rcases List.eq_nil_or_concat fs with rfl | ⟨fs, f, rfl⟩
    · exact List.suffix_rfl
    · rw [List.concat_eq_append, List.getLast?_concat]
      exact List.suffix_append fs [f]
  · exact List.rtakeWhile_suffix _ _

theorem onset_concat : f ∈ onset (fs ++ [f]) := by
  unfold onset
  rw [speakingRun_concat]
  cases f.speaking <;> simp

theorem audioOf_append (fs gs : List Frame) : audioOf (fs ++ gs) = audioOf fs ++ audioOf gs := by
  simp [audioOf]

theorem durationMs_audioOf (fs : List Frame) : cfg.durationMs (audioOf fs) = span cfg fs := by
  rw [audioOf, durationMs_flatten]
  simp [span, total, Function.comp_def]

theorem span_append (fs gs : List Frame) : span cfg (fs ++ gs) = span cfg fs + span cfg gs :=
  total_append fs gs

/-- **The pre-roll holds the whole onset** exactly if the onset is not longer than the pre-roll may be. -/
theorem onset_suffix_iff (fs : List Frame) :
    audioOf (onset fs) <:+ (trim cfg.durationMs cfg.preRollMs (fs.map (·.pcm))).flatten ↔
      span cfg (onset fs) ≤ cfg.preRollMs := by
  have hbudget : (0 : ℚ) ≤ cfg.preRollMs := by positivity
  have hlongest := trim_longest (w := cfg.durationMs) hbudget (fs.map (·.pcm))
  constructor
  · rintro ⟨rest, hrest⟩
    have htotal : cfg.durationMs rest + span cfg (onset fs) =
        total cfg.durationMs (trim cfg.durationMs cfg.preRollMs (fs.map (·.pcm))) := by
      rw [← durationMs_flatten, ← hrest, durationMs_append, durationMs_audioOf]
    have hrest_nonneg : 0 ≤ cfg.durationMs rest := durationMs_nonneg rest
    have hwithin := hlongest.within
    linarith
  · intro hfits
    have hsuffix : (onset fs).map (·.pcm) <:+ fs.map (·.pcm) := (onset_suffix fs).map _
    have htotal : total cfg.durationMs ((onset fs).map (·.pcm)) ≤ cfg.preRollMs := by
      rw [← durationMs_flatten]
      exact (durationMs_audioOf (onset fs)).trans_le hfits
    obtain ⟨rest, hrest⟩ := hlongest.longest _ hsuffix htotal
    refine ⟨rest.flatten, ?_⟩
    rw [← hrest, List.flatten_append]
    rfl

/-! ## One call -/

section Calls

variable {n : ℕ} {s : PcmSegmenter} {c : Call}

/-- A call that feeds no frame leaves a segmenter that waits for speech. -/
theorem call_inactive (cfg : SegmenterConfig) (hidle : s.active = false) (hc : c.heard = none) :
    s.call cfg c = (s, none) := by
  cases c with
  | feed pcm receivedNs speaking =>
    have hbad : pcm = [] ∨ pcm.length % 2 = 1 := by
      by_contra hgood
      simp [Call.heard, hgood] at hc
    rw [call, feed, if_pos hbad]
  | commit nowNs => rw [call, commit, if_pos (Or.inl hidle)]

/-- A call that feeds a frame. -/
theorem call_heard (hc : c.heard = some f) : s.call cfg c =
    if s.active then s.feedActive cfg f.pcm f.receivedNs f.speaking
    else (s.feedInactive cfg f.pcm f.receivedNs f.speaking, none) := by
  cases c with
  | feed pcm receivedNs speaking =>
    by_cases hbad : pcm = [] ∨ pcm.length % 2 = 1
    · simp [Call.heard, hbad] at hc
    · simp only [Call.heard, dif_neg hbad, Option.some.injEq] at hc
      subst hc
      rw [call, feed, if_neg hbad]
  | commit nowNs => exact absurd hc (by simp [Call.heard])

/-- A frame that is heard while the segmenter waits starts an utterance, or is waited past. -/
theorem call_waiting (cfg : SegmenterConfig) (hc : c.heard = some f) : (waitingState cfg n fs).call cfg c =
    (if span cfg (speakingRun (fs ++ [f])) < cfg.speechStartMs then waitingState cfg n (fs ++ [f])
      else (waitingState cfg n (fs ++ [f])).activate f.receivedNs, none) := by
  rw [call_heard hc, if_neg (by simp [waitingState])]
  unfold feedInactive
  rw [countCandidate_waitingState]
  rfl

/-- A frame that an utterance goes on with does not change when it started. -/
theorem feedActive_started {pcm : Pcm} {receivedNs : ℤ} {speaking : Bool}
    (h : (s.feedActive cfg pcm receivedNs speaking).1.active = true) :
    (s.feedActive cfg pcm receivedNs speaking).1.speechStartedNs = s.speechStartedNs := by
  unfold feedActive at h ⊢
  dsimp only at h ⊢
  split_ifs at h ⊢
  · exact absurd h (by simp [finish, reset])
  · exact absurd h (by simp [finish, reset])
  · rfl
  · rfl

/-- What a call leaves of an utterance that it does not end. -/
structure GoesOn (cfg : SegmenterConfig) (s : PcmSegmenter) (c : Call) : Prop where
  active : (s.call cfg c).1.active = true
  ends : endsUtterance cfg ⟨s, c, (s.call cfg c).1⟩ = false
  utterance : (s.call cfg c).1.utterance = s.utterance ++ audioOf c.heard.toList
  started : (s.call cfg c).1.speechStartedNs = s.speechStartedNs
  events : ∀ e, (s.call cfg c).2 = some e →
    e.pcm = (s.call cfg c).1.utterance ∧ e.speechStartedNs = (s.call cfg c).1.speechStartedNs

theorem goesOn_of_stays (hon : s.active = true) (hc : c.heard = none) (h : s.call cfg c = (s, none)) :
    GoesOn cfg s c where
  active := by rw [h, hon]
  ends := by simp [endsUtterance, emitted, h]
  utterance := by simp [h, hc, audioOf]
  started := by rw [h]
  events := by
    intro e he
    rw [h] at he
    exact absurd he (by simp)

/-- A call inside an utterance ends it, or the utterance goes on. -/
theorem call_active (cfg : SegmenterConfig) (hon : s.active = true) (c : Call) :
    (∃ (s' : PcmSegmenter) (reason : BoundaryReason) (ns : ℤ), s.call cfg c = s'.finish reason ns ∧
        s'.utterance = s.utterance ++ audioOf c.heard.toList ∧
        s'.speechStartedNs = s.speechStartedNs) ∨
      GoesOn cfg s c := by
  cases hc : c.heard with
  | none =>
    cases c with
    | feed pcm receivedNs speaking =>
      have hbad : pcm = [] ∨ pcm.length % 2 = 1 := by
        by_contra hgood
        simp [Call.heard, hgood] at hc
      exact Or.inr (goesOn_of_stays hon hc (by rw [call, feed, if_pos hbad]))
    | commit nowNs =>
      by_cases hempty : s.utterance = []
      · exact Or.inr (goesOn_of_stays hon hc (by rw [call, commit, if_pos (Or.inr hempty)]))
      · exact Or.inl ⟨s, .manual, nowNs, by rw [call, commit, if_neg (by simp [hon, hempty])],
          by simp [audioOf], rfl⟩
  | some f =>
    have haudio : audioOf (some f).toList = f.pcm := by simp [audioOf]
    have hcall : s.call cfg c = s.feedActive cfg f.pcm f.receivedNs f.speaking := by
      rw [call_heard hc, if_pos hon]
    rcases feedActive_cases cfg f.pcm f.receivedNs f.speaking s with
      ⟨reason, hend⟩ | ⟨s', out, hgo, -, hactive, hutterance, -, -, -, hout⟩
    · rw [haudio]
      exact Or.inl ⟨_, _, _, hcall.trans hend, rfl, rfl⟩
    · have hcall' : s.call cfg c = (s', out) := hcall.trans hgo
      have hactive' : s'.active = true := hactive.trans hon
      have hstarted : s'.speechStartedNs = s.speechStartedNs := by
        have hstays : (s.feedActive cfg f.pcm f.receivedNs f.speaking).1.active = true := by
          rw [hgo, hactive']
        have hsame := feedActive_started hstays
        rwa [hgo] at hsame
      refine Or.inr ⟨by rw [hcall', hactive'], ?_, by rw [hcall', hutterance, hc, haudio],
        by rw [hcall', hstarted], fun e he => ?_⟩
      · cases out with
        | none => simp [endsUtterance, emitted, hcall']
        | some e =>
          have hpartial := hout e rfl
          simp [endsUtterance, emitted, hcall', hpartial, snapshot]
      · rw [hcall'] at he ⊢
        rw [hout e he]
        exact ⟨rfl, rfl⟩

theorem endsUtterance_finish {s' : PcmSegmenter} {reason : BoundaryReason} {ns : ℤ}
    (h : s.call cfg c = s'.finish reason ns) :
    endsUtterance cfg ⟨s, c, (s.call cfg c).1⟩ = true := by
  unfold endsUtterance emitted
  rw [h]
  rfl

end Calls

/-! ## Whole runs -/

/-- While the segmenter waits for speech, it is a function of the frames since the last final, and no run
of them was long enough. -/
def Waits (cfg : SegmenterConfig) (past : List FeedStep) (s : PcmSegmenter) : Prop :=
  s.active = false → (∃ n, s = waitingState cfg n (heardSince cfg past)) ∧
    (heardSince cfg past = [] ∨ span cfg (speakingRun (heardSince cfg past)) < cfg.speechStartMs)

theorem waits_step {s : PcmSegmenter} (h : Waits cfg past s) (c : Call) :
    Waits cfg (past ++ [⟨s, c, (s.call cfg c).1⟩]) (s.call cfg c).1 := by
  unfold Waits
  intro hidle'
  cases hs : s.active with
  | true =>
    rcases call_active cfg hs c with ⟨s', reason, ns, hcall, -⟩ | hgo
    · rw [heardSince_concat, if_pos (endsUtterance_finish hcall), hcall]
      exact ⟨⟨s'.nextUtteranceIndex, rfl⟩, Or.inl rfl⟩
    · exact absurd (hgo.active.symm.trans hidle') (by simp)
  | false =>
    obtain ⟨⟨n, hn⟩, hrun⟩ := h hs
    cases hc : c.heard with
    | none =>
      have hcall := call_inactive cfg hs hc
      have hends : endsUtterance cfg ⟨s, c, (s.call cfg c).1⟩ = false := by
        simp [endsUtterance, emitted, hcall]
      rw [heardSince_concat, hends]
      simp only [hcall, hc, Option.toList_none, List.append_nil]
      exact ⟨⟨n, hn⟩, hrun⟩
    | some f =>
      have hcall : s.call cfg c = _ := hn.symm ▸ call_waiting cfg hc
      have hends : endsUtterance cfg ⟨s, c, (s.call cfg c).1⟩ = false := by
        simp [endsUtterance, emitted, hcall]
      rw [heardSince_concat, hends]
      simp only [hc, Option.toList_some]
      rw [hcall] at hidle' ⊢
      dsimp only at hidle' ⊢
      split at hidle'
      · rename_i hshort
        rw [if_pos hshort]
        exact ⟨⟨n, rfl⟩, Or.inr hshort⟩
      · exact absurd hidle' (by simp [activate])

/-- **The segmenter waits** as its history tells, before every call of a run. -/
theorem waits_before {cs : List Call} {post : List FeedStep} (h : segmentation cfg cs = past ++ x :: post) :
    Waits cfg past x.before := by
  refine Run.forall_history (I := Waits cfg) (fun _ => ⟨⟨1, rfl⟩, Or.inl rfl⟩) ?_ h
  intro past s c t hw ht
  obtain rfl := Option.some.inj ht
  exact waits_step hw c

/-- A step of a run is a call of the segmenter. -/
theorem after_eq {cs : List Call} {post : List FeedStep} (h : segmentation cfg cs = past ++ x :: post) :
    x.after = (x.before.call cfg x.event).1 := by
  have hmem : x ∈ segmentation cfg cs := h ▸ List.mem_append_right _ List.mem_cons_self
  exact (Option.some.inj (Run.mem_trace hmem).2).symm

/-- **What an utterance starts with**, by the frames since the last final. -/
theorem activation {cs : List Call} {post : List FeedStep} (h : segmentation cfg cs = past ++ x :: post)
    (ha : Activates x) :
    ∃ f n, x.event.heard = some f ∧ x.before = waitingState cfg n (heardSince cfg past) ∧
      (heardSince cfg past = [] ∨ span cfg (speakingRun (heardSince cfg past)) < cfg.speechStartMs) ∧
      x.after = (waitingState cfg n (heardSince cfg past ++ [f])).activate f.receivedNs := by
  obtain ⟨hidle, hon⟩ := ha
  obtain ⟨⟨n, hn⟩, hrun⟩ := waits_before h hidle
  have hafter := after_eq h
  cases hc : x.event.heard with
  | none =>
    rw [hafter, call_inactive cfg hidle hc, hidle] at hon
    exact absurd hon (by simp)
  | some f =>
    refine ⟨f, n, rfl, hn, hrun, ?_⟩
    rw [hafter, hn, call_waiting cfg hc] at hon ⊢
    dsimp only at hon ⊢
    split at hon
    · exact absurd hon (by simp [waitingState])
    · rw [if_neg ‹_›]

/-- A step of a run at the end of its calls so far. -/
theorem heard_concat (past : List FeedStep) (x : FeedStep) :
    heard ((past ++ [x]).map (·.event)) = heard (past.map (·.event)) ++ x.event.heard.toList := by
  cases hx : x.event.heard <;> simp [heard, hx]

/-- The frames since the last final are frames of the run. -/
theorem heardSince_suffix (past : List FeedStep) :
    heardSince cfg past <:+ heard (past.map (·.event)) := by
  induction past using List.reverseRecOn with
  | nil => exact List.suffix_rfl
  | append_singleton past x ih =>
    rw [heardSince_concat, heard_concat]
    split
    · exact List.nil_suffix
    · obtain ⟨rest, hrest⟩ := ih
      exact ⟨rest, by rw [← hrest, List.append_assoc]⟩

/-- No onset is longer than the pre-roll may be, where every frame leaves room for a run that is not long
enough yet. -/
theorem fits_of_short {cs : List Call}
    (hshort : ∀ f ∈ heard cs, cfg.durationMs f.pcm ≤ cfg.preRollMs - cfg.speechStartMs) :
    OnsetsFit cfg (segmentation cfg cs) := by
  intro past x post hsplit ha
  obtain ⟨f, n, hf, -, hrun, -⟩ := activation hsplit ha
  have hmem : f ∈ heard cs := by
    refine List.mem_filterMap.mpr ⟨x.event, ?_, hf⟩
    rw [← segmentation_events cfg cs, hsplit]
    simp
  have hd := hshort f hmem
  have hstart : (0 : ℚ) ≤ cfg.speechStartMs := by positivity
  have hone : span cfg [f] = cfg.durationMs f.pcm := by simp [span]
  unfold onsetOf onset
  rw [hf, Option.toList_some, speakingRun_concat]
  cases f.speaking with
  | false =>
    rw [if_pos (by simp), List.getLast?_concat, Option.toList_some, hone]
    linarith
  | true =>
    rw [if_neg (by simp), if_pos rfl, span_append, hone]
    rcases hrun with hnil | hlt
    · have hzero : span cfg (speakingRun (heardSince cfg past)) = 0 := by
        rw [hnil]
        rfl
      linarith
    · linarith

/-! ## From the onset to the events -/

/-- The utterance that the segmenter is in has been started by a step since the last final, and holds what
it started with. -/
def Opened (cfg : SegmenterConfig) (past : List FeedStep) (s : PcmSegmenter) : Prop :=
  ∃ pre x mid, past = pre ++ x :: mid ∧ Activates x ∧ (∀ y ∈ mid, endsUtterance cfg y = false) ∧
    x.after.utterance <+: s.utterance ∧ s.speechStartedNs = x.after.speechStartedNs

theorem opened_step {s : PcmSegmenter} (h : s.active = true → Opened cfg past s) (c : Call)
    (hon : (s.call cfg c).1.active = true) :
    Opened cfg (past ++ [⟨s, c, (s.call cfg c).1⟩]) (s.call cfg c).1 := by
  cases hs : s.active with
  | false => exact ⟨past, _, [], rfl, ⟨hs, hon⟩, by simp, List.prefix_rfl, rfl⟩
  | true =>
    rcases call_active cfg hs c with ⟨s', reason, ns, hcall, -⟩ | hgo
    · rw [hcall] at hon
      exact absurd hon (by simp [finish, reset])
    · obtain ⟨pre, x, mid, rfl, hx, hmid, hutterance, hstarted⟩ := h hs
      refine ⟨pre, x, mid ++ [⟨s, c, (s.call cfg c).1⟩], by simp, hx, fun y hy => ?_, ?_, ?_⟩
      · rcases List.mem_append.mp hy with hy | hy
        · exact hmid y hy
        · rw [List.mem_singleton.mp hy]
          exact hgo.ends
      · rw [hgo.utterance]
        exact hutterance.trans (List.prefix_append _ _)
      · exact hgo.started.trans hstarted

/-- **Every event is about what its utterance started with.** -/
theorem event_opened {cs : List Call} {post : List FeedStep} {e : SegmentEvent}
    (h : segmentation cfg cs = past ++ x :: post) (he : emitted cfg x = some e) :
    ∃ pre y mid, past = pre ++ y :: mid ∧ Activates y ∧ (∀ z ∈ mid, endsUtterance cfg z = false) ∧
      y.after.utterance <+: e.pcm ∧ e.speechStartedNs = y.after.speechStartedNs := by
  have hopened : x.before.active = true → Opened cfg past x.before := by
    refine Run.forall_history (I := fun past s => s.active = true → Opened cfg past s)
      (fun hon => absurd hon (by simp)) ?_ h
    intro past s c t hopened ht
    obtain rfl := Option.some.inj ht
    exact opened_step hopened c
  unfold emitted at he
  cases hon : x.before.active with
  | false =>
    cases hc : x.event.heard with
    | none =>
      rw [call_inactive cfg hon hc] at he
      exact absurd he (by simp)
    | some f =>
      rw [call_heard hc, hon] at he
      exact absurd he (by simp)
  | true =>
    obtain ⟨pre, y, mid, rfl, hy, hmid, hutterance, hstarted⟩ := hopened hon
    refine ⟨pre, y, mid, rfl, hy, hmid, ?_⟩
    rcases call_active cfg hon x.event with ⟨s', reason, ns, hcall, hmore, hsame⟩ | hgo
    · rw [hcall] at he
      obtain rfl := Option.some.inj he
      refine ⟨?_, hsame.trans hstarted⟩
      change _ <+: s'.utterance
      rw [hmore]
      exact hutterance.trans (List.prefix_append _ _)
    · obtain ⟨hpcm, hns⟩ := hgo.events e he
      rw [hpcm, hgo.utterance, hns, hgo.started]
      exact ⟨hutterance.trans (List.prefix_append _ _), hstarted⟩

/-! ## Audio without silence -/

theorem speakingRun_eq_self (h : ∀ f ∈ fs, f.speaking = true) : speakingRun fs = fs :=
  List.rtakeWhile_eq_self_iff.mpr h

/-- The pre-roll of speaking frames that started no utterance, or start one that fits, is all of them. -/
theorem preRoll_whole {n : ℕ} (h : span cfg fs ≤ cfg.preRollMs) :
    (waitingState cfg n fs).preRoll.flatten = audioOf fs := by
  have htotal : total cfg.durationMs (fs.map (·.pcm)) ≤ cfg.preRollMs := by
    rw [← durationMs_flatten]
    exact (durationMs_audioOf fs).trans_le h
  unfold waitingState
  rw [trim_of_le htotal]
  rfl

theorem finalAudio_concat (past : List FeedStep) (x : FeedStep) : finalAudio cfg (past ++ [x]) =
    finalAudio cfg past ++ ((finalsOf cfg [x]).map (·.pcm)).flatten := by
  unfold finalAudio
  rw [finalsOf_append, List.map_append, List.flatten_append]

/-- A call that returns no final adds none. -/
theorem finalsOf_singleton (h : endsUtterance cfg x = false) : finalsOf cfg [x] = [] := by
  unfold endsUtterance at h
  unfold finalsOf eventsOf
  cases he : emitted cfg x with
  | none => simp [he]
  | some e => simpa [he] using h

/-- Where every frame so far is speaking, the segmenter waits with all of the frames since the last final. -/
theorem preRoll_waits {s : PcmSegmenter} (hpre : cfg.speechStartMs ≤ cfg.preRollMs)
    (hw : Waits cfg past s) (hspeaking : ∀ f ∈ heard (past.map (·.event)), f.speaking = true)
    (hidle : s.active = false) : s.preRoll.flatten = audioOf (heardSince cfg past) := by
  obtain ⟨⟨n, rfl⟩, hrun⟩ := hw hidle
  have hall : speakingRun (heardSince cfg past) = heardSince cfg past :=
    speakingRun_eq_self fun f hf => hspeaking f ((heardSince_suffix past).subset hf)
  have hbudget : (cfg.speechStartMs : ℚ) ≤ cfg.preRollMs := by exact_mod_cast hpre
  refine preRoll_whole ?_
  rcases hrun with hnil | hlt
  · rw [hnil, span_nil]
    positivity
  · rw [hall] at hlt
    linarith

/-- **One call keeps the account** of audio without silence whose onsets fit. -/
theorem account_step {s : PcmSegmenter} (hpre : cfg.speechStartMs ≤ cfg.preRollMs) (c : Call)
    (hw : Waits cfg past s)
    (hspeaking : ∀ f ∈ heard ((past ++ [(⟨s, c, (s.call cfg c).1⟩ : FeedStep)]).map (·.event)),
      f.speaking = true)
    (hfits : OnsetsFit cfg (past ++ [⟨s, c, (s.call cfg c).1⟩]))
    (h : finalAudio cfg past ++ openAudio s = audioOf (heard (past.map (·.event)))) :
    finalAudio cfg (past ++ [⟨s, c, (s.call cfg c).1⟩]) ++ openAudio (s.call cfg c).1 =
      audioOf (heard ((past ++ [(⟨s, c, (s.call cfg c).1⟩ : FeedStep)]).map (·.event))) := by
  have hspeaking' : ∀ f ∈ heard (past.map (·.event)), f.speaking = true := by
    intro f hf
    refine hspeaking f ?_
    rw [heard_concat]
    exact List.mem_append_left _ hf
  rw [finalAudio_concat, heard_concat, audioOf_append, ← h, List.append_assoc, List.append_assoc]
  congr 1
  cases hs : s.active with
  | true =>
    rcases call_active cfg hs c with ⟨s', reason, ns, hcall, hutterance, -⟩ | hgo
    · -- the final carries the utterance, and nothing waits
      have hfinal : finalsOf cfg [⟨s, c, (s.call cfg c).1⟩] = [s'.snapshot .finalSegment reason ns] := by
        simp [finalsOf, eventsOf, emitted, hcall, finish, snapshot]
      rw [hfinal, hcall]
      simp [openAudio, hs, finish, reset, snapshot, hutterance]
    · rw [finalsOf_singleton hgo.ends]
      simp [openAudio, hgo.active, hs, hgo.utterance]
  | false =>
    have hpreRoll := preRoll_waits hpre hw hspeaking' hs
    cases hc : c.heard with
    | none =>
      have hcall := call_inactive cfg hs hc
      rw [finalsOf_singleton (by simp [endsUtterance, emitted, hcall]), hcall]
      simp [audioOf]
    | some f =>
      have hcall : s.call cfg c = (s.feedInactive cfg f.pcm f.receivedNs f.speaking, none) := by
        rw [call_heard hc, hs]
        rfl
      have hends : endsUtterance cfg ⟨s, c, (s.call cfg c).1⟩ = false := by
        simp [endsUtterance, emitted, hcall]
      rw [finalsOf_singleton hends]
      cases hon : (s.call cfg c).1.active with
      | false =>
        have hw' := waits_step hw c
        have hafter := preRoll_waits hpre hw' hspeaking hon
        rw [heardSince_concat, hends] at hafter
        simp [openAudio, hon, hs, hafter, hpreRoll, hc, audioOf_append]
      | true =>
        -- the utterance begins with the onset, which is every frame that waited
        have hfit := hfits past _ [] rfl ⟨hs, hon⟩
        obtain ⟨⟨n, hn⟩, -⟩ := hw hs
        have hall : speakingRun (heardSince cfg past ++ [f]) = heardSince cfg past ++ [f] := by
          refine speakingRun_eq_self fun g hg => hspeaking g ?_
          rw [heard_concat, hc]
          rcases List.mem_append.mp hg with hg | hg
          · exact List.mem_append_left _ ((heardSince_suffix past).subset hg)
          · exact List.mem_append_right _ hg
        have honset : onsetOf cfg past ⟨s, c, (s.call cfg c).1⟩ = heardSince cfg past ++ [f] := by
          unfold onsetOf onset
          rw [hc, Option.toList_some, hall, if_neg (by simp)]
        rw [honset] at hfit
        have hafter : (s.call cfg c).1.utterance = audioOf (heardSince cfg past ++ [f]) := by
          rw [hn, call_waiting cfg hc] at hon ⊢
          split at hon
          · exact absurd hon (by simp [waitingState])
          · rw [if_neg ‹_›]
            exact preRoll_whole hfit
        simp [openAudio, hon, hs, hafter, hpreRoll, audioOf_append]

/-! ## Onsets of every run -/

/-- What a segmentation keeps of the onsets. -/
structure OnsetsKept (cfg : SegmenterConfig) (cs : List Call) : Prop where
  starts : ∀ past x post, segmentation cfg cs = past ++ x :: post → Activates x →
    (audioOf (onsetOf cfg past x) <:+ x.after.utterance ↔
      span cfg (onsetOf cfg past x) ≤ cfg.preRollMs) ∧
    ∃ f ∈ onsetOf cfg past x, x.after.speechStartedNs = f.receivedNs
  events : ∀ past x post e, segmentation cfg cs = past ++ x :: post → emitted cfg x = some e →
    ∃ pre y mid, past = pre ++ y :: mid ∧ Activates y ∧ (∀ z ∈ mid, endsUtterance cfg z = false) ∧
      y.after.utterance <+: e.pcm ∧ e.speechStartedNs = y.after.speechStartedNs
  whole : (∀ f ∈ heard cs, f.speaking = true) → OnsetsFit cfg (segmentation cfg cs) →
    finalAudio cfg (segmentation cfg cs) ++ openAudio (segmenter cfg cs) = audioOf (heard cs)
  short : (∀ f ∈ heard cs, cfg.durationMs f.pcm ≤ cfg.preRollMs - cfg.speechStartMs) →
    OnsetsFit cfg (segmentation cfg cs)

/-- **The onset of speech is kept** as far as the pre-roll goes: an utterance begins with the run of frames
that started it exactly if the run is not longer than `pre_roll_ms`, and every event of the utterance
carries that beginning and when it was; and audio without silence is cut without a loss. -/
theorem onset_kept (cfg : SegmenterConfig) (hpre : cfg.speechStartMs ≤ cfg.preRollMs) (cs : List Call) :
    OnsetsKept cfg cs where
  starts := by
    intro past x post hsplit ha
    obtain ⟨f, n, hf, -, -, hafter⟩ := activation hsplit ha
    have hfs : onsetOf cfg past x = onset (heardSince cfg past ++ [f]) := by
      unfold onsetOf
      rw [hf, Option.toList_some]
    rw [hfs, hafter]
    refine ⟨onset_suffix_iff _, ?_⟩
    unfold activate
    dsimp only
    split
    · rename_i hstarted
      have hstart : (waitingState cfg n (heardSince cfg past ++ [f])).speechCandidateStartedNs =
          startNs (heardSince cfg past ++ [f]) := rfl
      rw [hstart] at hstarted ⊢
      unfold onset startNs at *
      cases hrun : speakingRun (heardSince cfg past ++ [f]) with
      | nil => simp [hrun] at hstarted
      | cons g gs => exact ⟨g, by simp, by simp⟩
    · exact ⟨f, onset_concat, rfl⟩
  events := fun past x post e hsplit he => event_opened hsplit he
  whole := by
    have haccount : Waits cfg (segmentation cfg cs) (segmenter cfg cs) ∧
        ((∀ f ∈ heard ((segmentation cfg cs).map (·.event)), f.speaking = true) →
          OnsetsFit cfg (segmentation cfg cs) →
          finalAudio cfg (segmentation cfg cs) ++ openAudio (segmenter cfg cs) =
            audioOf (heard ((segmentation cfg cs).map (·.event)))) := by
      refine Run.history_final (I := fun past s => Waits cfg past s ∧
        ((∀ f ∈ heard (past.map (·.event)), f.speaking = true) → OnsetsFit cfg past →
          finalAudio cfg past ++ openAudio s = audioOf (heard (past.map (·.event)))))
        ⟨fun _ => ⟨⟨1, rfl⟩, Or.inl rfl⟩, fun _ _ => rfl⟩ ?_ cs
      rintro past s c t ⟨hw, haccount⟩ ht
      obtain rfl := Option.some.inj ht
      refine ⟨waits_step hw c, fun hspeaking hfits => account_step hpre c hw hspeaking hfits ?_⟩
      refine haccount (fun f hf => hspeaking f ?_) fun pre x post hsplit ha => ?_
      · exact (heard_concat past _).symm ▸ List.mem_append_left _ hf
      · exact hfits pre x (post ++ [⟨s, c, (s.call cfg c).1⟩]) (by simp [hsplit]) ha
    rw [segmentation_events] at haccount
    exact haccount.2
  short := fits_of_short

/-- The default limits, and speech in a frame of 100 ms and one of 200 ms. -/
theorem onset_kept_default :
    OnsetsKept { sampleRate := 10 } [.feed [0, 1] 1 true, .feed [0, 1, 0, 1] 2 true] :=
  onset_kept { sampleRate := 10 } (by decide) _

/-- A speaking frame of 300 ms starts an utterance that has nothing of it. -/
theorem onset_clipped : ∃ (cfg : SegmenterConfig) (cs : List Call) (x : FeedStep) (f : Frame),
    cfg.speechStartMs ≤ cfg.preRollMs ∧ segmentation cfg cs = [] ++ x :: [] ∧ Activates x ∧
      f.speaking = true ∧ onsetOf cfg [] x = [f] ∧ x.after.speechStartedNs = f.receivedNs ∧
      x.after.utterance = [] := by
  refine ⟨{ sampleRate := 10 }, [.feed [0, 1, 0, 1, 0, 1] 1 true], _,
    ⟨[0, 1, 0, 1, 0, 1], 1, true, by decide⟩, by decide, rfl, ⟨rfl, ?_⟩, rfl, rfl, ?_, ?_⟩
  all_goals decide +kernel

end SenseVoice.Bridge
