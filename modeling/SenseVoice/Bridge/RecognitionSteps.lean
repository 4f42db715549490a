import SenseVoice.Bridge.AudioConservation
import SenseVoice.Bridge.RealSession

/-!
# What a step of a session does to its recognition

A step either runs one call of `_transcribe` between two of its waits (`Move`), or handles an event of
the segmenter (`Segmented`). `Sequel` is the one or the other.

Results:
* `call_numbers`: the segmenter numbers its finals one after the other, and a partial like the next
  final;
* **`step_sequel`**: everything a step can do to the calls, the lock and the log.
-/

namespace SenseVoice.Bridge

open Lib

/-! ## Numbers of utterances -/

namespace PcmSegmenter

/-- The number of the next final. -/
def upcoming (s : PcmSegmenter) : ℕ := if s.active then s.utteranceIndex else s.nextUtteranceIndex

/-- The utterance that is open has the last number given. -/
def Numbered (s : PcmSegmenter) : Prop :=
  s.active = true → s.utteranceIndex + 1 = s.nextUtteranceIndex

/-- The number of the next final before and after a call, by what the call returns. -/
inductive Numbers (n n' : ℕ) : Option SegmentEvent → Prop
  | silent (h : n' = n) : Numbers n n' none
  | shows {e : SegmentEvent} (hkind : e.kind = .partialSegment) (hindex : e.utteranceIndex = n)
      (h : n' = n) : Numbers n n' (some e)
  | ends {e : SegmentEvent} (hkind : e.kind = .finalSegment) (hindex : e.utteranceIndex = n)
      (h : n' = n + 1) : Numbers n n' (some e)

variable {cfg : SegmenterConfig} {s : PcmSegmenter}

theorem upcoming_active (h : s.active = true) : s.upcoming = s.utteranceIndex := by
  rw [upcoming, if_pos h]

theorem upcoming_idle (h : s.active = false) : s.upcoming = s.nextUtteranceIndex := by
  rw [upcoming, if_neg (by simp [h])]

/-- A final has the number of the open utterance. -/
theorem finish_numbers (hs : s.Numbered) (hon : s.active = true) (reason : BoundaryReason) (ns : ℤ) :
    (s.finish reason ns).1.Numbered ∧
      Numbers s.upcoming (s.finish reason ns).1.upcoming (s.finish reason ns).2 := by
  refine ⟨fun h => absurd h (by simp [finish, reset]), .ends rfl (upcoming_active hon).symm ?_⟩
  rw [upcoming_active hon, hs hon]
  rfl

/-- **A call of the segmenter keeps the numbers in order.** -/
theorem call_numbers (cfg : SegmenterConfig) (hs : s.Numbered) (c : Call) :
    (s.call cfg c).1.Numbered ∧
      Numbers s.upcoming (s.call cfg c).1.upcoming (s.call cfg c).2 := by
  cases hframe : c.frame with
  | none =>
    rcases call_of_frame_none cfg hframe s with hcall | ⟨hon, -, ns, hcall⟩
    · rw [hcall]
      exact ⟨hs, .silent rfl⟩
    · rw [hcall]
      exact finish_numbers hs hon .manual ns
  | some pcm =>
    obtain ⟨-, ns, speaking, hcall⟩ := call_of_frame_some cfg hframe s
    rw [hcall]
    cases hon : s.active with
    | false =>
      rw [if_neg (by simp)]
      rcases feedInactive_cases cfg pcm ns speaking s with
        ⟨hactive, -, -, hnext⟩ | ⟨hactive, -, -, hindex, hnext⟩
      · rw [hon] at hactive
        refine ⟨fun h => absurd (hactive.symm.trans h) (by simp), .silent ?_⟩
        rw [upcoming_idle hactive, upcoming_idle hon, hnext]
      · refine ⟨fun _ => by rw [hindex, hnext], .silent ?_⟩
        rw [upcoming_active hactive, upcoming_idle hon, hindex]
    | true =>
      rw [if_pos rfl]
      rcases feedActive_cases cfg pcm ns speaking s with
        ⟨reason, hend⟩ | ⟨s', out, hgo, -, hactive, -, -, hindex, hnext, hout⟩
      · rw [hend]
        exact finish_numbers (s := s.extend cfg pcm ns speaking) hs hon reason ns
      · rw [hgo]
        have hup : s'.upcoming = s.upcoming := by
          rw [upcoming_active (hactive.trans hon), upcoming_active hon, hindex]
        refine ⟨fun _ => by rw [hindex, hnext, hs hon], ?_⟩
        cases out with
        | none => exact .silent hup
        | some e =>
          obtain rfl := hout e rfl
          exact .shows rfl (by rw [upcoming_active hon, ← hindex]; rfl) hup

end PcmSegmenter

/-! ## What a step does to the recognition -/

/-- The slot's coroutine is the one that runs: its result has come, or its send has come back. The last
argument is the holder of the lock from then on. -/
inductive Runs (r : Recognition) (slot : Slot) (c : Transcribe) : Option Holder → Prop
  | asr (h : c.stage = .asr) : Runs r slot c r.holder
  | sender {h : Holder} (hh : r.holder = some h) (hs : h.slot = slot) : Runs r slot c none

/-- What one coroutine does between two of its waits. -/
inductive Move (e : SessionEvent) (r : Recognition) : Recognition → Prop
  | starts {event : SegmentEvent} {final : Bool}
      (hc : r.calls .partialTask = some ⟨event, final, .created⟩) :
      Move e r (r.set .partialTask (some ⟨event, final, .asr⟩))
  | returns {slot : Slot} {c : Transcribe} {h : Option Holder} (hc : r.calls slot = some c)
      (hlive : r.live slot = true) (hr : Runs r slot c h) :
      Move e r ({ r with holder := h }.set slot none)
  | emits {slot : Slot} {c : Transcribe} {h : Option Holder} {stage : Stage}
      (hc : r.calls slot = some c) (hlive : r.live slot = true) (hr : Runs r slot c h)
      (hstage : (∃ message, stage = .error message) ∨
        ∃ payload ms, c.stage = .result payload ∧ stage = .trace payload r.sequence ms) :
      Move e r ({ r with holder := h }.emit slot c stage)
  | numbers {slot : Slot} {event : SegmentEvent} {final : Bool} {text : String} {metrics : Value}
      {ready : ℕ} (he : e = .transcribed slot (.text text metrics ready)) (htext : text ≠ "")
      (hc : r.calls slot = some ⟨event, final, .asr⟩) (hlive : r.live slot = true) :
      Move e r ({ r with sequence := r.sequence + 1 }.emit slot ⟨event, final, .asr⟩
        (.result ⟨final, event.utteranceIndex, r.sequence + 1, text, metrics, ready⟩))
  | acquires {slot : Slot} {rest : List Slot} {c : Transcribe} {m : AsrMessage}
      (hh : r.holder = none) (hw : r.waiting = slot :: rest) (hc : r.calls slot = some c)
      (hm : c.message = some m) :
      Move e r { r with
        waiting := rest
        holder := some ⟨slot, r.websocket⟩
        log := if r.websocket then r.log ++ [.sent m] else r.log }
  | ends (hcancel : r.cancelling = true) :
      Move e r { r.set .partialTask none with
        cancelling := false
        holder := r.holder.filter fun h => h.slot ≠ .partialTask }
  | cancels : Move e r r.cancelPartial
  | socket (present : Bool) : Move e r { r with websocket := present }

/-- What becomes of the recognition and of the number of the next final. -/
inductive Sequel (e : SessionEvent) (r : Recognition) (n : ℕ) : Recognition → ℕ → Prop
  | same : Sequel e r n r n
  | moved {r' : Recognition} (h : Move e r r') : Sequel e r n r' n
  | creates {event : SegmentEvent} (hidle : r.calls .partialTask = none)
      (hindex : event.utteranceIndex = n) : Sequel e r n (r.createTask event) n
  | begins {slot : Slot} {event : SegmentEvent} (hslot : slot ≠ .partialTask)
      (hidle : r.calls slot = none) (hindex : event.utteranceIndex = n) :
      Sequel e r n (r.cancelPartial.begin slot event) (n + 1)

section Steps

variable {cfg : SegmenterConfig} {e : SessionEvent} {r r' : Recognition}

theorem start_move (h : r.start = some r') : Move e r r' := by
  unfold Recognition.start at h
  split at h
  · rename_i event final hc
    split at h
    · obtain rfl := Option.some.inj h
      exact .starts hc
    · exact absurd h (by simp)
  · exact absurd h (by simp)

theorem transcribed_move {slot : Slot} {outcome : Outcome}
    (h : r.transcribed slot outcome = some r') : Move (.transcribed slot outcome) r r' := by
  unfold Recognition.transcribed at h
  split at h
  · rename_i event final hc
    split at h
    · rename_i hlive
      cases outcome with
      | raised message =>
        obtain rfl := Option.some.inj h
        exact .emits hc hlive (.asr rfl) (Or.inl ⟨message, rfl⟩)
      | text text metrics ready =>
        simp only at h
        split at h
        · obtain rfl := Option.some.inj h
          exact .returns hc hlive (.asr rfl)
        · obtain rfl := Option.some.inj h
          exact .numbers rfl ‹_› hc hlive
    · exact absurd h (by simp)
  · exact absurd h (by simp)

theorem acquire_move (h : r.acquire = some r') : Move e r r' := by
  unfold Recognition.acquire at h
  split at h
  · rename_i slot rest hh hw
    obtain ⟨m, hm, rfl⟩ := Option.map_eq_some_iff.mp h
    obtain ⟨c, hc, hm⟩ := Option.bind_eq_some_iff.mp hm
    exact .acquires hh hw hc hm
  · exact absurd h (by simp)

/-- What a call does after a send, and when an exception leaves `_transcribe`. -/
theorem sent_move {raised : Option String} {sendMs : Number} {slot : Slot} {exc : Option String}
    (h : r.sent raised sendMs = some (slot, r', exc)) :
    Move e r r' ∧ (exc.isSome = true → ∃ hold c message, r.holder = some hold ∧ hold.slot = slot ∧
      r.calls slot = some c ∧ c.stage = .error message ∧ raised = exc) := by
  unfold Recognition.sent at h
  split at h
  · exact absurd h (by simp)
  · rename_i hold hh
    split at h
    · rename_i hlive
      obtain ⟨c, hc, hout⟩ := Option.map_eq_some_iff.mp h
      rw [Prod.mk.injEq] at hout
      obtain ⟨rfl, hafter⟩ := hout
      unfold Recognition.afterSend at hafter
      split at hafter
      · obtain ⟨rfl, rfl⟩ := Prod.mk.inj hafter
        exact ⟨.emits hc hlive.1 (.sender hh rfl) (Or.inr ⟨_, sendMs, ‹_›, rfl⟩), by simp⟩
      · obtain ⟨rfl, rfl⟩ := Prod.mk.inj hafter
        exact ⟨.returns hc hlive.1 (.sender hh rfl), by simp⟩
      · obtain ⟨rfl, rfl⟩ := Prod.mk.inj hafter
        exact ⟨.returns hc hlive.1 (.sender hh rfl), fun _ => ⟨hold, c, _, hh, rfl, hc, ‹_›, rfl⟩⟩
      · obtain ⟨rfl, rfl⟩ := Prod.mk.inj hafter
        exact ⟨.emits hc hlive.1 (.sender hh rfl) (Or.inl ⟨_, rfl⟩), by simp⟩
    · exact absurd h (by simp)

theorem cancelled_move (h : r.cancelled = some r') : Move e r r' := by
  unfold Recognition.cancelled at h
  split at h
  · obtain rfl := Option.some.inj h
    exact .ends ‹_›
  · exact absurd h (by simp)

/-- What the recognition does with what the segmenter returns. -/
theorem segment_sequel (cfg : SegmenterConfig) {s : RealSession} {slot : Slot}
    (hslot : slot ≠ .partialTask) (hidle : s.asr.calls slot = none) (hs : s.segmenter.Numbered) (c : PcmSegmenter.Call) :
    (s.segment slot (s.segmenter.call cfg c)).segmenter.Numbered ∧
      Sequel e s.asr s.segmenter.upcoming (s.segment slot (s.segmenter.call cfg c)).asr
        (s.segment slot (s.segmenter.call cfg c)).segmenter.upcoming := by
  obtain ⟨hnumbered, hnumbers⟩ := PcmSegmenter.call_numbers cfg hs c
  refine ⟨hnumbered, ?_⟩
  unfold RealSession.segment
  generalize s.segmenter.call cfg c = out at hnumbers
  obtain ⟨s', out⟩ := out
  cases hnumbers with
  | silent h =>
    rw [h]
    exact .same
  | shows hkind hindex h =>
    simp only [h, Recognition.handleSegment, hkind]
    split
    · exact .creates (Option.isNone_iff_eq_none.mp ‹_›) hindex
    · exact .same
  | ends hkind hindex h =>
    simp only [h, Recognition.handleSegment, hkind]
    exact .begins hslot hidle hindex

/-- **Everything a step can do to the recognition.** -/
theorem step_sequel {s t : RealSession} (h : s.step cfg e = some t) (hs : s.segmenter.Numbered) :
    t.segmenter.Numbered ∧ Sequel e s.asr s.segmenter.upcoming t.asr t.segmenter.upcoming := by
  have hmoved : ∀ asr, Move e s.asr asr → ∀ q w p, t = ⟨q, s.segmenter, w, p, asr⟩ →
      t.segmenter.Numbered ∧ Sequel e s.asr s.segmenter.upcoming t.asr t.segmenter.upcoming := by
    rintro asr hmove q w p rfl
    exact ⟨hs, .moved hmove⟩
  have hsame : ∀ q w p, t = ⟨q, s.segmenter, w, p, s.asr⟩ →
      t.segmenter.Numbered ∧ Sequel e s.asr s.segmenter.upcoming t.asr t.segmenter.upcoming := by
    rintro q w p rfl
    exact ⟨hs, .same⟩
  cases e with
  | pcm frame =>
    obtain rfl := Option.some.inj h
    unfold RealSession.onPcm
    split <;> exact ⟨hs, .same⟩
  | work =>
    simp only [RealSession.step, RealSession.work] at h
    split at h
    · rename_i hidle
      split at h
      · exact absurd h (by simp)
      · exact hsame _ _ _ (Option.some.inj h).symm
      · rename_i frame rest hq
        obtain rfl := Option.some.inj h
        exact segment_sequel cfg (s := { s with queue := rest }) (by simp) (by simpa using hidle.2) hs
          (.feed frame.pcm frame.receivedNs frame.speaking)
    · exact absurd h (by simp)
  | start =>
    obtain ⟨asr, hasr, rfl⟩ := Option.map_eq_some_iff.mp h
    exact hmoved _ (start_move hasr) _ _ _ rfl
  | transcribed slot outcome =>
    obtain ⟨asr, hasr, rfl⟩ := Option.map_eq_some_iff.mp h
    exact hmoved _ (transcribed_move hasr) _ _ _ rfl
  | acquire =>
    obtain ⟨asr, hasr, rfl⟩ := Option.map_eq_some_iff.mp h
    exact hmoved _ (acquire_move hasr) _ _ _ rfl
  | sent raised sendMs =>
    obtain ⟨⟨slot, asr, exc⟩, hasr, rfl⟩ := Option.map_eq_some_iff.mp h
    exact hmoved _ (sent_move hasr).1 _ _ _ rfl
  | cancelled =>
    obtain ⟨asr, hasr, rfl⟩ := Option.map_eq_some_iff.mp h
    exact hmoved _ (cancelled_move hasr) _ _ _ rfl
  | commit nowNs =>
    simp only [RealSession.step, RealSession.commit] at h
    split at h
    · obtain rfl := Option.some.inj h
      exact segment_sequel cfg (by simp) (Option.isNone_iff_eq_none.mp ‹_›) hs
        (.commit nowNs)
    · exact absurd h (by simp)
  | stop =>
    simp only [RealSession.step] at h
    split at h
    · exact hsame _ _ _ (Option.some.inj h).symm
    · exact absurd h (by simp)
  | putMarker =>
    simp only [RealSession.step, RealSession.putMarker] at h
    split at h
    · exact hsame _ _ _ (Option.some.inj h).symm
    · exact absurd h (by simp)
  | joined =>
    simp only [RealSession.step, RealSession.joined] at h
    split at h
    · exact hmoved _ .cancels _ _ _ (Option.some.inj h).symm
    · exact hsame _ _ _ (Option.some.inj h).symm
    · exact absurd h (by simp)
  | websocket present => exact hmoved _ (.socket present) _ _ _ (Option.some.inj h).symm

end Steps

end SenseVoice.Bridge
