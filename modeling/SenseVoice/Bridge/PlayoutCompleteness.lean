import SenseVoice.Bridge.TerminalEvents
import SenseVoice.Bridge.Upsampling

/-!
# The playout of a `_speak` is complete

Without a disturbance (no cancellation, no error of the stream, no failing `emit`) a `_speak` whose frames are
accepted plays its whole stream. The one branch that could misfire is the test for an empty buffer, after the loop
has run dry and waits with `start_time` unset: at the end of a stream it would report that there was no audio.
It cannot, since an upsampled stream is never a whole number of frames long (`barren_of_nothing_pending`).

Results:
* `smooth_step`: without a disturbance the task ends with `tts.finished`, or has had no sample to play;
* `finishes`: once its stream has ended, a bounded number of runs ends the task, whatever happens;
* **`playout_complete`**: both together.
-/

namespace SenseVoice.Bridge

open Lib

namespace Playout

variable {ρ : Type} {rx : AudioReceiver ρ} {s t : Playout ρ} {st : TtsStream} {ps : List Push}

/-! ## Without a disturbance -/

/-- The event is no cancellation, no error of the stream and no failure of an `emit`. -/
def Undisturbed : PlayoutEvent ρ → Prop
  | .cancel | .ends (.raised _) | .run (some _) _ => False
  | _ => True

/-- There was no sample to play. -/
structure Barren (s : Playout ρ) : Prop where
  complete : s.stream.Complete
  short : s.stream.chunks.flatten.length < 2
  log : s.log = transcript s.request [.started s.text.length] [] [.error "TTS returned no audio"]

/-- All was played, and reported so. -/
structure PlayedAll (s : Playout ρ) : Prop where
  told : ∃ ps, s.log = transcript s.request [.started s.text.length] ps [.finished] ∧ Played s.stream ps

/-- What an undisturbed `_speak` comes to. -/
structure Smooth (s : Playout ρ) : Prop where
  calm : s.cancelling = false
  unharmed : s.stream.streamError = none
  unwinding : ∀ exit, s.pc = .unwinding exit → exit = .returned ∧ ∃ p ∈ pushesOf s.log, p.accepted = false
  failing : s.pc = .failing → Barren s
  done : ∀ exit, s.pc = .done exit →
    (∃ p ∈ pushesOf s.log, p.accepted = false) ∨ exit = .returned ∧ (Barren s ∨ PlayedAll s)

/-- The upsampled stream has two bytes less than a multiple of four. -/
theorem length_audio (st : TtsStream) : st.audio.length = 2 * (2 * (st.chunks.flatten.length / 2) - 1) := by
  have hrest : PcmUpsampler2x.AtRest {} := Nat.zero_lt_two
  unfold TtsStream.audio
  rw [PcmUpsampler2x.feeds_flatten hrest]
  exact length_samples _

theorem length_pushed (h : ∀ p ∈ ps, p.frame.length = frameBytes) :
    (ps.map Push.frame).flatten.length = frameBytes * ps.length := by
  induction ps with
  | nil => rfl
  | cons p ps ih =>
    rw [List.map_cons, List.flatten_cons, List.length_append, h p List.mem_cons_self,
      ih fun q hq => h q (List.mem_cons_of_mem _ hq), List.length_cons, Nat.mul_succ, Nat.add_comm]

/-- **Nothing is pending at the end of the frames only if there were none**: no multiple of the frame is the
length of an upsampled stream. -/
theorem barren_of_nothing_pending (h : st.Open ps) (hnil : st.pending = []) :
    ps = [] ∧ st.chunks.flatten.length < 2 := by
  have hsum : (ps.map Push.frame).flatten.length = st.audio.length := by
    rw [← h.sum, hnil, List.append_nil]
  rw [length_pushed h.whole, length_audio] at hsum
  have hframe : frameBytes = 1920 := rfl
  rw [hframe] at hsum
  refine ⟨List.eq_nil_of_length_eq_zero ?_, ?_⟩ <;> omega

theorem Played.audible (h : Played st ps) : 2 ≤ st.chunks.flatten.length := by
  obtain ⟨k, hk, hcovered⟩ := h.covered
  have hlength := congrArg List.length hcovered
  rw [length_pushed h.whole, List.length_append, length_audio, List.length_replicate] at hlength
  have hpos : 0 < ps.length := List.length_pos_of_ne_nil h.nonempty
  have hframe : frameBytes = 1920 := rfl
  rw [hframe] at hlength hk
  omega

/-- Why an iteration fails where the stream has not. -/
theorem iteration_fail {started : Bool} {exc : String} (h : st.iteration started = .fail exc)
    (herr : st.streamError = none) : exc = "TTS returned no audio" ∧ st.pending = [] ∧ st.streamDone = true := by
  unfold TtsStream.iteration at h
  rw [herr] at h
  dsimp only at h
  split_ifs at h with hwait hempty
  · obtain ⟨hstarted, hnil⟩ := hempty
    refine ⟨(Iteration.fail.inj h).symm, hnil, ?_⟩
    by_contra hopen
    refine hwait ⟨hstarted, not_or.mpr ⟨?_, hopen⟩⟩
    rw [hnil]
    decide

/-- The task is in the block, and no failure is being handled. -/
def inBlock : SpeakPc → Bool
  | .unwinding _ | .failing | .done _ => false
  | _ => true

theorem smooth_inBlock (hcalm : s.cancelling = false) (herr : s.stream.streamError = none)
    (hpc : inBlock s.pc = true) : Smooth s where
  calm := hcalm
  unharmed := herr
  unwinding := fun exit h => absurd hpc (by simp [h, inBlock])
  failing := fun h => absurd hpc (by simp [h, inBlock])
  done := fun exit h => absurd hpc (by simp [h, inBlock])

theorem pushRest_streamError : (s.pushRest rx).stream.streamError = s.stream.streamError := by
  unfold pushRest
  split <;> rfl

/-- An iteration fails only where there was no sample. -/
theorem smooth_fail (hclosed : s.stream.streamDone = true → s.stream.producer.active = false)
    (hlog : s.log = transcript s.request [.started s.text.length] ps []) (hloop : s.stream.Looping ps)
    (herr : s.stream.streamError = none) {started : Bool} {exc : String}
    (hfail : s.stream.iteration started = .fail exc) : Smooth (s.leave rx (.raised exc)) := by
  obtain ⟨rfl, hnil, hdone⟩ := iteration_fail hfail herr
  obtain ⟨rfl, hshort⟩ := barren_of_nothing_pending hloop.kept hnil
  have hbarren : Barren ((s.emit (.error "TTS returned no audio")).await .failing) := by
    refine ⟨hloop.live.complete hdone herr, hshort, ?_⟩
    change s.log ++ [_] = _
    rw [hlog, transcript_emit]
    rfl
  unfold leave
  rw [if_neg (by simp [hclosed hdone])]
  exact ⟨rfl, herr, fun exit h => absurd h (by simp [handleExit, await]), fun _ => hbarren,
    fun exit h => absurd h (by simp [handleExit, await])⟩

theorem smooth_loop (late : ℕ) {started : Bool}
    (hclosed : s.stream.streamDone = true → s.stream.producer.active = false)
    (hlog : s.log = transcript s.request [.started s.text.length] ps []) (hloop : s.stream.Looping ps)
    (herr : s.stream.streamError = none) : Smooth (s.loop rx late started) := by
  have hrest : Smooth ((s.pushRest rx).await .draining) :=
    smooth_inBlock rfl (pushRest_streamError.trans herr) rfl
  induction late generalizing started s ps with
  | zero =>
    unfold loop
    cases hiteration : s.stream.iteration started with
    | fail exc => exact smooth_fail hclosed hlog hloop herr hiteration
    | wait => exact smooth_inBlock rfl herr rfl
    | rest => exact hrest
    | frame => exact smooth_inBlock rfl herr rfl
  | succ late ih =>
    unfold loop
    cases hiteration : s.stream.iteration started with
    | fail exc => exact smooth_fail hclosed hlog hloop herr hiteration
    | wait => exact smooth_inBlock rfl herr rfl
    | rest => exact hrest
    | frame =>
      dsimp only
      split
      · rename_i haccepted
        have hlen := Speaking.iteration_frame hiteration
        exact ih hclosed (log_pushFrame hlog) (looping_take hloop hlen rfl haccepted) herr
          (smooth_inBlock rfl (pushRest_streamError.trans herr) rfl)
      · exact smooth_inBlock rfl herr rfl

/-- The block is left after `tts.finished`. -/
theorem smooth_finished (herr : s.stream.streamError = none)
    (hlog : s.log = transcript s.request [.started s.text.length] ps [.finished])
    (hdrained : Drained s.stream ps) :
    Smooth (s.leave rx .returned) := by
  have hrefused : (∃ p ∈ ps, p.accepted = false) → ∃ p ∈ pushesOf s.log, p.accepted = false := by
    rw [hlog, pushesOf_transcript]
    exact id
  unfold leave
  split
  · rename_i hactive
    refine ⟨rfl, herr, fun exit h => ?_, fun h => absurd h (by simp [await]),
      fun exit h => absurd h (by simp [await])⟩
    exact ⟨(SpeakPc.unwinding.inj h).symm, hrefused (hdrained.resolve_right (not_played hactive))⟩
  · refine ⟨rfl, herr, fun exit h => absurd h (by simp [handleExit, await]),
      fun h => absurd h (by simp [handleExit, await]), fun exit h => ?_⟩
    rcases hdrained with hsome | hplayed
    · exact Or.inl (hrefused hsome)
    · exact Or.inr ⟨(SpeakPc.done.inj h).symm, Or.inr ⟨ps, hlog, hplayed⟩⟩

theorem smooth_resume (h : Stage s) (hs : Smooth s) {late : ℕ} (ht : s.resume rx none late = some t) :
    Smooth t := by
  have herr := hs.unharmed
  unfold resume at ht
  cases hpc : s.pc with
  | created =>
    rw [hpc] at ht
    obtain rfl := Option.some.inj ht
    exact smooth_inBlock rfl herr rfl
  | announcing =>
    rw [hpc] at ht
    obtain rfl := Option.some.inj ht
    obtain ⟨ps, tail, hlog, hwhere⟩ := h.begun (by simp [hpc]) (by simp [hpc])
    rw [hpc] at hwhere
    obtain ⟨hstream, rfl, rfl⟩ := hwhere
    obtain ⟨hloop, hopen⟩ := looping_created hstream
    exact smooth_loop late (s := s.setProducer .created) (fun hdone => absurd hdone hopen) hlog hloop herr
  | waiting =>
    rw [hpc] at ht
    obtain rfl := Option.some.inj ht
    obtain ⟨ps, tail, hlog, hwhere⟩ := h.begun (by simp [hpc]) (by simp [hpc])
    rw [hpc] at hwhere
    obtain ⟨hloop, rfl⟩ := hwhere
    exact smooth_loop late h.closed hlog hloop herr
  | pacing =>
    rw [hpc] at ht
    obtain rfl := Option.some.inj ht
    obtain ⟨ps, tail, hlog, hwhere⟩ := h.begun (by simp [hpc]) (by simp [hpc])
    rw [hpc] at hwhere
    obtain ⟨hloop, hlen, rfl⟩ := hwhere
    split
    · rename_i haccepted
      exact smooth_loop late (s := (s.pushFrame rx).1) h.closed (log_pushFrame hlog)
        (looping_take hloop hlen rfl haccepted) herr
    · exact smooth_inBlock rfl herr rfl
  | draining =>
    rw [hpc] at ht
    obtain rfl := Option.some.inj ht
    exact smooth_inBlock rfl herr rfl
  | finishing =>
    rw [hpc] at ht
    obtain rfl := Option.some.inj ht
    obtain ⟨ps, tail, hlog, hwhere⟩ := h.begun (by simp [hpc]) (by simp [hpc])
    rw [hpc] at hwhere
    obtain ⟨hdrained, rfl⟩ := hwhere
    exact smooth_finished herr hlog hdrained
  | unwinding exit =>
    obtain ⟨rfl, hrefused⟩ := hs.unwinding exit hpc
    rw [hpc] at ht
    dsimp only at ht
    split at ht
    · exact absurd ht (by simp)
    · obtain rfl := Option.some.inj ht
      exact ⟨rfl, herr, fun exit h => absurd h (by simp [handleExit, await]),
        fun h => absurd h (by simp [handleExit, await]), fun _ _ => Or.inl hrefused⟩
  | failing =>
    have hbarren := hs.failing hpc
    rw [hpc] at ht
    obtain rfl := Option.some.inj ht
    refine ⟨rfl, herr, fun exit h => absurd h (by simp [await]), fun h => absurd h (by simp [await]),
      fun exit h => ?_⟩
    exact Or.inr ⟨(SpeakPc.done.inj h).symm, Or.inl ⟨hbarren.complete, hbarren.short, hbarren.log⟩⟩
  | done result =>
    rw [hpc] at ht
    exact absurd ht (by simp)

/-- A producer that moves harms nothing but by an error. -/
theorem smooth_move (hs : Smooth s) (hmove : s.stream.ProducerMove st) (herr : st.streamError = none) :
    Smooth { s with stream := st } := by
  have hidle : ¬ s.stream.Complete := not_complete hmove.active
  refine ⟨hs.calm, herr, hs.unwinding, fun h => absurd (hs.failing h).complete hidle, fun exit h => ?_⟩
  rcases hs.done exit h with hrefused | ⟨-, hbarren | ⟨ps, -, hplayed⟩⟩
  · exact Or.inl hrefused
  · exact absurd hbarren.complete hidle
  · exact absurd hplayed.complete hidle

/-- **One step without a disturbance.** -/
theorem smooth_step (h : Stage s) (hs : Smooth s) {e : PlayoutEvent ρ} (he : Undisturbed e)
    (ht : s.step rx e = some t) : Smooth t := by
  cases e with
  | run raised late =>
    cases raised with
    | some exc => exact he.elim
    | none =>
      simp only [step, run, hs.calm] at ht
      exact smooth_resume h hs ht
  | cancel => exact he.elim
  | produce =>
    obtain ⟨st, hst, rfl⟩ := Option.map_eq_some_iff.mp ht
    refine smooth_move hs (TtsStream.produce_move hst) ?_
    unfold TtsStream.produce at hst
    split at hst
    · obtain rfl := Option.some.inj hst
      exact hs.unharmed
    · exact absurd hst (by simp)
  | chunk pcm =>
    obtain ⟨st, hst, rfl⟩ := Option.map_eq_some_iff.mp ht
    refine smooth_move hs (TtsStream.chunk_move hst) ?_
    unfold TtsStream.chunk at hst
    split at hst
    · obtain rfl := Option.some.inj hst
      exact hs.unharmed
    · exact absurd hst (by simp)
  | ends exit =>
    obtain ⟨st, hst, rfl⟩ := Option.map_eq_some_iff.mp ht
    refine smooth_move hs (TtsStream.ends_move hst) ?_
    unfold TtsStream.ends at hst
    split at hst
    · obtain rfl := Option.some.inj hst
      exact hs.unharmed
    · exact he.elim
    · exact he.elim
    · obtain rfl := Option.some.inj hst
      exact hs.unharmed
    · exact absurd hst (by simp)
  | receiver r =>
    obtain rfl := Option.some.inj ht
    exact ⟨hs.calm, hs.unharmed, hs.unwinding, fun hpc => ⟨(hs.failing hpc).complete, (hs.failing hpc).short,
      (hs.failing hpc).log⟩, fun exit hpc => (hs.done exit hpc).imp_right fun hend => ⟨hend.1, hend.2.imp
        (fun hb => ⟨hb.complete, hb.short, hb.log⟩) fun hp => ⟨hp.told⟩⟩⟩

/-- A run without a disturbance. -/
theorem smooth_after (rx : AudioReceiver ρ) (k : ℕ) (text : String) (r : ρ) {es : List (PlayoutEvent ρ)}
    (h : ∀ e ∈ es, Undisturbed e) : Smooth ((start k text r).after rx es) := by
  have hboth : Stage ((start k text r).after rx es) ∧ Smooth ((start k text r).after rx es) := by
    refine Run.forall_states (P := fun s => Stage s ∧ Smooth s) ⟨stage_start k text r, smooth_inBlock rfl rfl rfl⟩
      (fun x hx hs => ?_) _ (Run.final_mem_states _ es)
    obtain ⟨⟨before, later, hes, -⟩, ht⟩ := Run.mem_trace hx
    have he : Undisturbed x.event := h _ (hes ▸ List.mem_append_right _ List.mem_cons_self)
    exact ⟨stage_step hs.1 ht, smooth_step hs.1 hs.2 he ht⟩
  exact hboth.2

/-! ## The end is reached -/

/-- A run of the task. -/
def isRun : PlayoutEvent ρ → Bool
  | .run _ _ => true
  | _ => false

/-- How many runs the task needs at most, once its stream has ended. -/
def runsLeft (s : Playout ρ) : ℕ :=
  match s.pc with
  | .created | .announcing => 1
  | .waiting => s.stream.pending.length / frameBytes + 5
  | .pacing => s.stream.pending.length / frameBytes + 4
  | .draining => 3
  | .finishing | .unwinding _ => 2
  | .failing => 1
  | .done _ => 0

/-- The stream has ended. -/
structure Ended (s : Playout ρ) : Prop where
  done : s.stream.streamDone = true
  idle : s.stream.producer.active = false

theorem runsLeft_handleExit (rx : AudioReceiver ρ) (s : Playout ρ) (exit : Exit) :
    (s.handleExit rx exit).runsLeft ≤ 1 := by
  cases exit with
  | returned | cancelled => exact Nat.zero_le _
  | raised exc => exact Nat.le_refl _

theorem Ended.handleExit (h : Ended s) (exit : Exit) : Ended (s.handleExit rx exit) := by
  cases exit <;> exact ⟨h.done, h.idle⟩

/-- The block is left at once. -/
theorem Ended.leave (h : Ended s) (exit : Exit) :
    Ended (s.leave rx exit) ∧ (s.leave rx exit).runsLeft ≤ 1 := by
  unfold Playout.leave
  rw [if_neg (by simp [h.idle])]
  exact ⟨h.handleExit exit, runsLeft_handleExit rx s exit⟩

theorem Ended.pushRest (h : Ended s) : Ended (s.pushRest rx) := by
  unfold Playout.pushRest
  split
  · exact h
  · exact ⟨h.done, h.idle⟩

/-- A stream that has ended is not waited for. -/
theorem iteration_ended {started : Bool} (hdone : st.streamDone = true) : st.iteration started ≠ .wait := by
  unfold TtsStream.iteration
  split
  · simp
  · split_ifs with hwait
    · exact absurd (Or.inr hdone) hwait.2
    · simp
    · simp
    · simp

/-- A frame less. -/
theorem frames_drop (hlen : frameBytes ≤ st.pending.length) :
    st.pending.length / frameBytes = (st.pending.drop frameBytes).length / frameBytes + 1 := by
  rw [List.length_drop]
  exact Nat.div_eq_sub_div TtsStream.frameBytes_pos hlen

theorem Ended.leaveLoop (h : Ended s) (exit : Exit) : Ended (s.leave rx exit) ∧
    (s.leave rx exit).runsLeft ≤ s.stream.pending.length / frameBytes + 4 :=
  ⟨(h.leave exit).1, (h.leave exit).2.trans (Nat.le_add_left_of_le (by decide))⟩

theorem Ended.restLoop (h : Ended s) : Ended ((s.pushRest rx).await .draining) ∧
    ((s.pushRest rx).await .draining).runsLeft ≤ s.stream.pending.length / frameBytes + 4 :=
  ⟨⟨h.pushRest.done, h.pushRest.idle⟩, Nat.le_add_left_of_le (Nat.le_succ 3)⟩

/-- By induction on the frames that are late: each is one less to push. -/
theorem Ended.loop (rx : AudioReceiver ρ) (late : ℕ) (started : Bool) (h : Ended s) :
    Ended (s.loop rx late started) ∧ (s.loop rx late started).runsLeft ≤ s.stream.pending.length / frameBytes + 4 := by
  induction late generalizing started s with
  | zero =>
    unfold Playout.loop
    cases hiteration : s.stream.iteration started with
    | fail exc => exact h.leaveLoop _
    | wait => exact absurd hiteration (iteration_ended h.done)
    | rest => exact h.restLoop
    | frame => exact ⟨⟨h.done, h.idle⟩, Nat.le_refl _⟩
  | succ late ih =>
    unfold Playout.loop
    cases hiteration : s.stream.iteration started with
    | fail exc => exact h.leaveLoop _
    | wait => exact absurd hiteration (iteration_ended h.done)
    | rest => exact h.restLoop
    | frame =>
      have hless := frames_drop (Speaking.iteration_frame hiteration)
      dsimp only
      split
      · have hnext : Ended (s.pushFrame rx).1 := ⟨h.done, h.idle⟩
        have hlate := ih true hnext
        refine ⟨hlate.1, hlate.2.trans ?_⟩
        rw [hless]
        exact Nat.add_le_add_right (Nat.le_succ _) 4
      · exact ⟨⟨h.done, h.idle⟩, Nat.le_add_left_of_le (Nat.le_succ 3)⟩

/-- The stream begins after `tts.started`. -/
theorem Stage.not_begun (h : Stage s) (hdone : s.stream.streamDone = true) :
    s.pc ≠ .created ∧ s.pc ≠ .announcing := by
  obtain ⟨head, ps, tail, -, -, hwhere⟩ := h.told
  constructor
  · intro hpc
    rw [hpc] at hwhere
    rw [hwhere.1] at hdone
    exact Bool.false_ne_true hdone
  · intro hpc
    rw [hpc] at hwhere
    rw [hwhere.1] at hdone
    exact Bool.false_ne_true hdone

theorem Ended.unwound (h : Ended s) {exit : Exit} (hpc : s.pc = .unwinding exit)
    (ht : (if s.stream.producer.active then none else some (s.handleExit rx exit)) = some t) :
    Ended t ∧ t.runsLeft < s.runsLeft := by
  rw [if_neg (by simp [h.idle])] at ht
  obtain rfl := Option.some.inj ht
  have hleft : s.runsLeft = 2 := by
    unfold runsLeft
    rw [hpc]
  exact ⟨h.handleExit exit, by have := runsLeft_handleExit rx s exit; omega⟩

theorem Ended.interrupt (hstage : Stage s) (h : Ended s) (ht : s.interrupt rx = some t) :
    Ended t ∧ t.runsLeft < s.runsLeft := by
  obtain ⟨hcreated, hannouncing⟩ := hstage.not_begun h.done
  unfold Playout.interrupt at ht
  cases hpc : s.pc with
  | created => exact absurd hpc hcreated
  | announcing => exact absurd hpc hannouncing
  | failing =>
    rw [hpc] at ht
    obtain rfl := Option.some.inj ht
    refine ⟨⟨h.done, h.idle⟩, ?_⟩
    unfold runsLeft
    rw [hpc]
    exact Nat.zero_lt_one
  | waiting | pacing | draining | finishing =>
    rw [hpc] at ht
    obtain rfl := Option.some.inj ht
    refine ⟨(h.leave _).1, lt_of_le_of_lt (h.leave _).2 ?_⟩
    have hframes : 0 ≤ s.stream.pending.length / frameBytes := Nat.zero_le _
    unfold runsLeft
    rw [hpc]
    dsimp only
    omega
  | unwinding exit =>
    rw [hpc] at ht
    exact h.unwound hpc ht
  | done result =>
    rw [hpc] at ht
    exact absurd ht (by simp)

theorem Ended.resume (hstage : Stage s) (h : Ended s) {raised : Option String} {late : ℕ}
    (ht : s.resume rx raised late = some t) : Ended t ∧ t.runsLeft < s.runsLeft := by
  obtain ⟨hcreated, hannouncing⟩ := hstage.not_begun h.done
  unfold Playout.resume at ht
  cases hpc : s.pc with
  | created => exact absurd hpc hcreated
  | announcing => exact absurd hpc hannouncing
  | waiting =>
    rw [hpc] at ht
    obtain rfl := Option.some.inj ht
    have hleft : s.runsLeft = s.stream.pending.length / frameBytes + 5 := by
      unfold runsLeft
      rw [hpc]
    exact ⟨(h.loop rx late false).1, by rw [hleft]; exact Nat.lt_succ_of_le (h.loop rx late false).2⟩
  | pacing =>
    rw [hpc] at ht
    obtain rfl := Option.some.inj ht
    have hleft : s.runsLeft = s.stream.pending.length / frameBytes + 4 := by
      unfold runsLeft
      rw [hpc]
    obtain ⟨ps, tail, -, hwhere⟩ := hstage.begun (by simp [hpc]) (by simp [hpc])
    rw [hpc] at hwhere
    rw [hleft, frames_drop hwhere.2.1]
    split
    · have hnext : Ended (s.pushFrame rx).1 := ⟨h.done, h.idle⟩
      have hlate := hnext.loop rx late true
      exact ⟨hlate.1, lt_of_le_of_lt hlate.2 (Nat.add_lt_add_right (Nat.lt_succ_self _) 4)⟩
    · exact ⟨⟨h.done, h.idle⟩, Nat.lt_add_left _ (Nat.lt_succ_self 3)⟩
  | draining =>
    rw [hpc] at ht
    obtain rfl := Option.some.inj ht
    refine ⟨⟨h.done, h.idle⟩, ?_⟩
    unfold runsLeft
    rw [hpc]
    exact Nat.lt_succ_self 2
  | finishing =>
    rw [hpc] at ht
    have hleft : s.runsLeft = 2 := by
      unfold runsLeft
      rw [hpc]
    rw [hleft]
    cases raised with
    | none =>
      obtain rfl := Option.some.inj ht
      exact ⟨(h.leave _).1, Nat.lt_succ_of_le (h.leave _).2⟩
    | some exc =>
      obtain rfl := Option.some.inj ht
      exact ⟨(h.leave _).1, Nat.lt_succ_of_le (h.leave _).2⟩
  | unwinding exit =>
    rw [hpc] at ht
    exact h.unwound hpc ht
  | failing =>
    rw [hpc] at ht
    have hleft : s.runsLeft = 1 := by
      unfold runsLeft
      rw [hpc]
    rw [hleft]
    cases raised with
    | none =>
      obtain rfl := Option.some.inj ht
      exact ⟨⟨h.done, h.idle⟩, Nat.zero_lt_one⟩
    | some exc =>
      obtain rfl := Option.some.inj ht
      exact ⟨⟨h.done, h.idle⟩, Nat.zero_lt_one⟩
  | done result =>
    rw [hpc] at ht
    exact absurd ht (by simp)

theorem ended_ends (hidle : s.stream.producer.active = false) :
    s.stream.produce = none ∧ (∀ pcm, s.stream.chunk pcm = none) ∧ ∀ exit, s.stream.ends exit = none := by
  refine ⟨?_, fun pcm => ?_, fun exit => ?_⟩
  · cases hst : s.stream.produce with
    | none => rfl
    | some st => exact absurd ((TtsStream.produce_move hst).active.symm.trans hidle) (by decide)
  · cases hst : s.stream.chunk pcm with
    | none => rfl
    | some st => exact absurd ((TtsStream.chunk_move hst).active.symm.trans hidle) (by decide)
  · cases hst : s.stream.ends exit with
    | none => rfl
    | some st => exact absurd ((TtsStream.ends_move hst).active.symm.trans hidle) (by decide)

/-- Once the stream has ended only the task has steps to take. -/
theorem Ended.step (hstage : Stage s) (h : Ended s) {e : PlayoutEvent ρ} (ht : s.step rx e = some t) :
    Ended t ∧ t.runsLeft + (if isRun e then 1 else 0) ≤ s.runsLeft := by
  obtain ⟨hproduce, hchunk, hends⟩ := ended_ends h.idle
  cases e with
  | run raised late =>
    simp only [Playout.step, run] at ht
    split at ht
    · exact h.interrupt hstage ht
    · exact h.resume hstage ht
  | cancel =>
    simp only [Playout.step] at ht
    split at ht
    · exact absurd ht (by simp)
    · obtain rfl := Option.some.inj ht
      exact ⟨⟨h.done, h.idle⟩, Nat.le_refl _⟩
  | produce => exact absurd ht (by simp [Playout.step, hproduce])
  | chunk pcm => exact absurd ht (by simp [Playout.step, hchunk])
  | ends exit => exact absurd ht (by simp [Playout.step, hends])
  | receiver r =>
    obtain rfl := Option.some.inj ht
    exact ⟨⟨h.done, h.idle⟩, Nat.le_refl _⟩

/-- The task can run until it is done. -/
theorem Ended.can_run (hstage : Stage s) (h : Ended s) {raised : Option String} {late : ℕ}
    (ht : s.run rx raised late = none) : s.runsLeft = 0 := by
  obtain ⟨hcreated, hannouncing⟩ := hstage.not_begun h.done
  unfold run Playout.interrupt Playout.resume at ht
  cases hpc : s.pc with
  | created => exact absurd hpc hcreated
  | announcing => exact absurd hpc hannouncing
  | waiting | pacing | draining => cases hcancel : s.cancelling <;> simp [hpc, hcancel] at ht
  | finishing | failing => cases hcancel : s.cancelling <;> cases raised <;> simp [hpc, hcancel] at ht
  | unwinding exit => cases hcancel : s.cancelling <;> simp [hpc, hcancel, h.idle] at ht
  | done result =>
    unfold runsLeft
    rw [hpc]

/-- **The task ends**: every run of it counts, whatever happens between them. -/
theorem finishes (rx : AudioReceiver ρ) (es : List (PlayoutEvent ρ)) (hstage : Stage s) (h : Ended s) :
    Ended (s.after rx es) ∧ (s.after rx es).runsLeft ≤ s.runsLeft - es.countP isRun := by
  induction es generalizing s with
  | nil => exact ⟨h, Nat.le_refl _⟩
  | cons e es ih =>
    unfold after Run.final
    cases ht : s.step rx e with
    | some t =>
      obtain ⟨hended, hless⟩ := h.step hstage ht
      obtain ⟨hended', hless'⟩ := ih (stage_step hstage ht) hended
      refine ⟨hended', hless'.trans ?_⟩
      rw [List.countP_cons]
      omega
    | none =>
      obtain ⟨hended', hless'⟩ := ih hstage h
      refine ⟨hended', hless'.trans ?_⟩
      rw [List.countP_cons]
      cases e with
      | run raised late =>
        have hzero := h.can_run hstage ht
        rw [hzero, Nat.zero_sub, Nat.zero_sub]
      | cancel | produce | chunk pcm | ends exit | receiver r => exact Nat.le_refl _

theorem isDone_of_runsLeft (h : s.runsLeft = 0) : s.isDone = true := by
  unfold runsLeft at h
  unfold isDone
  cases hpc : s.pc with
  | done result => rfl
  | created | announcing | waiting | pacing | draining | finishing | unwinding exit | failing =>
    rw [hpc] at h
    exact absurd h (Nat.succ_ne_zero _)

/-- Where the task can wait, its runs left are few more than the frames left. -/
theorem runsLeft_le (s : Playout ρ) : s.runsLeft ≤ s.stream.pending.length / frameBytes + 5 := by
  have hframes : 0 ≤ s.stream.pending.length / frameBytes := Nat.zero_le _
  unfold runsLeft
  split <;> omega

/-! ## Completeness -/

/-- What a `_speak` has done that was not disturbed. -/
structure PlayedOut (s : Playout ρ) : Prop where
  complete : s.stream.Complete
  outcome : (s.stream.chunks.flatten.length < 2 ∧
      s.log = transcript s.request [.started s.text.length] [] [.error "TTS returned no audio"]) ∨
    (2 ≤ s.stream.chunks.flatten.length ∧
      ∃ ps, s.log = transcript s.request [.started s.text.length] ps [.finished] ∧
        (∀ p ∈ ps, p.frame.length = frameBytes) ∧
        ∃ n < frameBytes, (ps.map Push.frame).flatten =
          (PcmUpsampler2x.feed s.stream.chunks.flatten {}).2 ++ List.replicate n 0)

theorem playedOut_of_smooth (hs : Smooth s) {exit : Exit} (hdone : s.pc = .done exit)
    (haccepted : ∀ p ∈ pushesOf s.log, p.accepted = true) : exit = .returned ∧ PlayedOut s := by
  have hrest : PcmUpsampler2x.AtRest {} := Nat.zero_lt_two
  rcases hs.done exit hdone with ⟨p, hp, hrefused⟩ | ⟨hexit, hbarren | ⟨ps, hlog, hplayed⟩⟩
  · exact absurd (haccepted p hp) (by simp [hrefused])
  · exact ⟨hexit, hbarren.complete, Or.inl ⟨hbarren.short, hbarren.log⟩⟩
  · refine ⟨hexit, hplayed.complete, Or.inr ⟨hplayed.audible, ps, hlog, hplayed.whole, ?_⟩⟩
    rw [← PcmUpsampler2x.feeds_flatten hrest]
    exact hplayed.covered

/-- **The playout is complete.** Where no `emit` fails, a `_speak` whose frames are all accepted pushes the
upsampled stream in whole frames and reports it, or has no sample to play and reports that; and once the stream
has ended, so does the task. -/
theorem playout_complete (rx : AudioReceiver ρ) (k : ℕ) (text : String) (r : ρ) (es : List (PlayoutEvent ρ))
    (hundisturbed : ∀ e ∈ es, Undisturbed e) :
    (∀ exit, ((start k text r).after rx es).pc = .done exit →
      (∀ p ∈ pushesOf ((start k text r).after rx es).log, p.accepted = true) →
      exit = .returned ∧ PlayedOut ((start k text r).after rx es)) ∧
    (((start k text r).after rx es).stream.streamDone = true →
      ∀ es', ((start k text r).after rx es).stream.pending.length / frameBytes + 5 ≤ es'.countP isRun →
      (((start k text r).after rx es).after rx es').isDone = true) := by
  have hstage : Stage ((start k text r).after rx es) := stage_after k text r es
  have hsmooth : Smooth ((start k text r).after rx es) := smooth_after rx k text r hundisturbed
  refine ⟨fun exit hdone haccepted => playedOut_of_smooth hsmooth hdone haccepted, fun hended es' hruns => ?_⟩
  obtain ⟨-, hless⟩ := finishes rx es' hstage ⟨hended, hstage.closed hended⟩
  have hleft := runsLeft_le ((start k text r).after rx es)
  exact isDone_of_runsLeft (by omega)

/-- One sample, cut in its middle, to a receiver that accepts. -/
theorem playout_complete_one :
    (∀ e ∈ oneSample none, Undisturbed e) ∧
      PlayedOut ((start 0 "a" ()).after (answering true) (oneSample none)) := by
  have hundisturbed : ∀ e ∈ oneSample none, Undisturbed e := by
    simp [oneSample, Undisturbed]
  have haccepted : ∀ p ∈ pushesOf ((start 0 "a" ()).after (answering true) (oneSample none)).log,
      p.accepted = true := by
    intro p hp
    have hlog : pushesOf ((start 0 "a" ()).after (answering true) (oneSample none)).log =
      [⟨0, ljust frameBytes 0 [1, 0], true⟩] := rfl
    rw [hlog] at hp
    rw [List.mem_singleton.mp hp]
  exact ⟨hundisturbed, ((playout_complete (answering true) 0 "a" () (oneSample none) hundisturbed).1 .returned rfl
    haccepted).2⟩

/-- Where the `emit` of `tts.finished` fails, a `tts.error` follows it: every frame was accepted, the stream ended
by itself, and nobody cancelled. -/
theorem finished_and_failed :
    (∀ e ∈ oneSample (some "closed"), e ≠ .cancel ∧ ∀ exc, e ≠ .ends (.raised exc)) ∧
      (∀ p ∈ pushesOf ((start 0 "a" ()).after (answering true) (oneSample (some "closed"))).log,
        p.accepted = true) ∧
      ((start 0 "a" ()).after (answering true) (oneSample (some "closed"))).pc =
        .done .returned ∧
      ((start 0 "a" ()).after (answering true) (oneSample (some "closed"))).log =
        [.emit 0 (.started 1), .push ⟨0, ljust frameBytes 0 [1, 0], true⟩, .emit 0 .finished,
          .emit 0 (.error "closed")] := by
  refine ⟨by simp [oneSample], fun p hp => ?_, rfl, rfl⟩
  have hlog : pushesOf ((start 0 "a" ()).after (answering true) (oneSample (some "closed"))).log =
    [⟨0, ljust frameBytes 0 [1, 0], true⟩] := rfl
  rw [hlog] at hp
  rw [List.mem_singleton.mp hp]

end Playout

end SenseVoice.Bridge
