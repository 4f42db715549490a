import SenseVoice.Bridge.Recognition

/-!
# Overlapping transcriptions

The worker, the partial task and `commit` may each wait for a transcription. They share `sequence`, which
`_transcribe` reads once more for the trace, after it has waited for the send of its result; and nothing
makes a `commit` that began first return first. The worker awaits its own finals one after the other.

Results:
* **`traces_correlate`**: traces carry the `seq` of their results, as long as no result is numbered while
  another one is being sent; `trace_misnumbered`: else they may not;
* **`finals_in_order`**: finals are sent in the order of their utterances, as long as none gets its text
  while an earlier one waits for its own; `final_overtaken`: else they may not.
-/

namespace SenseVoice.Bridge

open Lib Recognition

section Overlap

variable {cfg : SegmenterConfig} {e : SessionEvent} {n n' : ℕ} {r r' : Recognition}

/-- The steps of a session. -/
def sessionSteps (cfg : SegmenterConfig) (es : List SessionEvent) :
    List (Run.Taken RealSession SessionEvent) :=
  Run.trace (RealSession.step cfg) {} es

/-- The states of a session. -/
def sessionStates (cfg : SegmenterConfig) (es : List SessionEvent) : List RealSession :=
  Run.states (RealSession.step cfg) {} es

theorem session_mem (cfg : SegmenterConfig) (es : List SessionEvent) :
    session cfg es ∈ sessionStates cfg es := Run.final_mem_states _ _

/-! ## Traces -/

/-- The message, if it is a trace, has the utterance, the type and the `seq` of the result it measures. -/
def Correlates (sessionId : String) : AsrMessage → Prop
  | .trace payload seq sendMs =>
    let trace := (AsrMessage.trace payload seq sendMs).toValue sessionId
    let result := (AsrMessage.result payload).toValue sessionId
    trace.get "utteranceId" = result.get "utteranceId" ∧ trace.get "eventType" = result.get "type" ∧
      trace.get "seq" = result.get "seq"
  | _ => True

/-- The slot's call waits for the sends of its result, and is not cancelled. -/
def Recognition.SendsResult (r : Recognition) (slot : Slot) (p : Result) : Prop :=
  (∃ c, r.calls slot = some c ∧ c.stage = .result p) ∧ r.live slot = true

/-- A transcription gets its number while the result of another one is being sent. -/
def NumbersAmidSend (x : Run.Taken RealSession SessionEvent) : Prop :=
  ∃ slot text metrics ready, x.event = .transcribed slot (.text text metrics ready) ∧ text ≠ "" ∧
    ∃ other p, other ≠ slot ∧ x.before.asr.SendsResult other p

/-- The counter is that of every result being sent, and no trace differs from its result. -/
structure Settled (r : Recognition) : Prop where
  current : ∀ slot p, r.SendsResult slot p → p.seq = r.sequence
  traces : ∀ slot c p seq ms, r.calls slot = some c → c.stage = .trace p seq ms → seq = p.seq
  sent : ∀ p seq ms, .sent (.trace p seq ms) ∈ r.log → seq = p.seq

/-- A trace correlates exactly if it has its result's `seq`. -/
theorem correlates_trace (sessionId : String) (p : Result) (seq : ℕ) (ms : Number) :
    Correlates sessionId (.trace p seq ms) ↔ seq = p.seq := by
  simp [Correlates, AsrMessage.toValue, Value.json, Value.lookup_setField]

theorem settled_init : Settled {} where
  current _ _ h := by
    obtain ⟨⟨c, hc, -⟩, -⟩ := h
    exact absurd hc (by simp)
  traces _ _ _ _ _ h := absurd h (by simp)
  sent _ _ _ h := absurd h (by simp)

/-- The stage is neither the send of a result nor that of a trace. -/
def Stage.Plain (stage : Stage) : Prop :=
  (∀ p, stage ≠ .result p) ∧ ∀ p seq ms, stage ≠ .trace p seq ms

/-- A step that keeps the counter, and changes calls to plain stages only. -/
theorem Settled.of_calls (hs : Settled r) (hseq : r'.sequence = r.sequence)
    (hcalls : ∀ k c, r'.calls k = some c →
      r.calls k = some c ∧ (r'.live k = true → r.live k = true) ∨ c.stage.Plain)
    (hlog : ∀ p seq ms, .sent (.trace p seq ms) ∈ r'.log → .sent (.trace p seq ms) ∈ r.log) :
    Settled r' where
  current k p hk := by
    obtain ⟨⟨c, hc, hstage⟩, hlive⟩ := hk
    rcases hcalls k c hc with ⟨hold, hkeep⟩ | hplain
    · rw [hseq]
      exact hs.current k p ⟨⟨c, hold, hstage⟩, hkeep hlive⟩
    · exact absurd hstage (hplain.1 p)
  traces k c p seq ms hc hstage := by
    rcases hcalls k c hc with ⟨hold, -⟩ | hplain
    · exact hs.traces k c p seq ms hold hstage
    · exact absurd hstage (hplain.2 p seq ms)
  sent p seq ms hmem := hs.sent p seq ms (hlog p seq ms hmem)

/-- A task that is not cancelled after a change was not before it. -/
theorem cancelPartial_live_of {slot : Slot} (h : r.cancelPartial.live slot = true) :
    r.live slot = true := by
  unfold cancelPartial at h
  split at h
  · unfold live at h ⊢
    cases slot <;> simp_all
  · exact h

/-- What runs between two waits keeps the counter and the traces, unless it numbers a result amid the
send of another one. -/
theorem Move.settled (h : Move e r r') (hs : Settled r)
    (hno : ∀ slot text metrics ready, e = .transcribed slot (.text text metrics ready) → text ≠ "" →
      ∀ other p, other ≠ slot → ¬ r.SendsResult other p) : Settled r' := by
  have hplain : ∀ stage : Stage, stage = .created ∨ stage = .asr ∨ (∃ message, stage = .error message) →
      stage.Plain := by
    rintro stage (rfl | rfl | ⟨message, rfl⟩) <;> exact ⟨by simp, by simp⟩
  cases h with
  | starts hc =>
    refine hs.of_calls rfl (fun k c' hc' => ?_) fun _ _ _ h => h
    rcases set_cases hc' with ⟨-, hold⟩ | ⟨-, hnew⟩
    · exact Or.inl ⟨hold, id⟩
    · rw [← Option.some.inj hnew]
      exact Or.inr (hplain _ (Or.inr (Or.inl rfl)))
  | @returns slot c h hc hlive hrun =>
    refine hs.of_calls rfl (fun k c' hc' => ?_) fun _ _ _ h => h
    rcases set_cases (r := { r with holder := h }) hc' with ⟨-, hold⟩ | ⟨-, hnew⟩
    · exact Or.inl ⟨hold, id⟩
    · exact absurd hnew (by simp)
  | @emits slot c h stage hc hlive hrun hstage =>
    rcases hstage with ⟨message, rfl⟩ | ⟨payload, ms, hresult, rfl⟩
    · refine hs.of_calls rfl (fun k c' hc' => ?_) fun _ _ _ h => h
      rcases set_cases (r := { r with holder := h }) hc' with ⟨-, hold⟩ | ⟨-, hnew⟩
      · exact Or.inl ⟨hold, id⟩
      · rw [← Option.some.inj hnew]
        exact Or.inr (hplain _ (Or.inr (Or.inr ⟨message, rfl⟩)))
    · -- the trace reads the counter, which is still that of the result
      have hcurrent : payload.seq = r.sequence := hs.current slot payload ⟨⟨c, hc, hresult⟩, hlive⟩
      refine ⟨fun k p hk => ?_, fun k c' p seq ms' hc' hst => ?_, hs.sent⟩
      · obtain ⟨⟨c', hc', hst⟩, hk'⟩ := hk
        rcases set_cases (r := { r with holder := h }) hc' with ⟨-, hold⟩ | ⟨-, hnew⟩
        · exact hs.current k p ⟨⟨c', hold, hst⟩, hk'⟩
        · rw [← Option.some.inj hnew] at hst
          exact absurd hst (by simp)
      · rcases set_cases (r := { r with holder := h }) hc' with ⟨-, hold⟩ | ⟨-, hnew⟩
        · exact hs.traces k c' p seq ms' hold hst
        · rw [← Option.some.inj hnew] at hst
          obtain ⟨rfl, rfl, -⟩ := Stage.trace.inj hst
          exact hcurrent.symm
  | @numbers slot event final text metrics ready he htext hc hlive =>
    refine ⟨fun k p hk => ?_, fun k c' p seq ms hc' hst => ?_, hs.sent⟩
    · obtain ⟨⟨c', hc', hst⟩, hk'⟩ := hk
      rcases set_cases (r := { r with sequence := r.sequence + 1 }) hc' with ⟨hne, hold⟩ | ⟨-, hnew⟩
      · exact absurd ⟨⟨c', hold, hst⟩, hk'⟩ (hno slot text metrics ready he htext k p hne)
      · rw [← Option.some.inj hnew] at hst
        rw [← Stage.result.inj hst]
        rfl
    · rcases set_cases (r := { r with sequence := r.sequence + 1 }) hc' with ⟨-, hold⟩ | ⟨-, hnew⟩
      · exact hs.traces k c' p seq ms hold hst
      · rw [← Option.some.inj hnew] at hst
        exact absurd hst (by simp)
  | @acquires slot rest c m hh hw hc hm =>
    refine ⟨hs.current, hs.traces, fun p seq ms hmem => ?_⟩
    simp only at hmem
    split at hmem
    · rcases List.mem_append.mp hmem with hmem | hmem
      · exact hs.sent p seq ms hmem
      · obtain rfl := Entry.sent.inj (List.mem_singleton.mp hmem)
        refine hs.traces slot c p seq ms hc ?_
        unfold Transcribe.message at hm
        split at hm <;> simp_all
    · exact hs.sent p seq ms hmem
  | ends hcancel =>
    refine hs.of_calls rfl (fun k c' hc' => ?_) fun _ _ _ h => h
    rcases set_cases (r := r) hc' with ⟨hne, hold⟩ | ⟨-, hnew⟩
    · exact Or.inl ⟨hold, fun _ => by simp [live, hne]⟩
    · exact absurd hnew (by simp)
  | cancels =>
    obtain ⟨-, hlog, hseq⟩ := r.cancelPartial_frame
    refine hs.of_calls hseq (fun k c hc => Or.inl ⟨r.cancelPartial_calls ▸ hc, cancelPartial_live_of⟩)
      fun p seq ms hmem => hlog ▸ hmem
  | socket present => exact ⟨hs.current, hs.traces, hs.sent⟩

/-- **A step keeps the counter and the traces**, unless it numbers a result amid the send of another. -/
theorem Sequel.settled (h : Sequel e r n r' n') (hs : Settled r)
    (hno : ∀ slot text metrics ready, e = .transcribed slot (.text text metrics ready) → text ≠ "" →
      ∀ other p, other ≠ slot → ¬ r.SendsResult other p) : Settled r' := by
  cases h with
  | same => exact hs
  | moved h => exact h.settled hs hno
  | @creates event hidle hindex =>
    refine hs.of_calls rfl (fun k c hc => ?_) fun _ _ _ h => h
    rcases set_cases (r := r) hc with ⟨hne, hold⟩ | ⟨-, hnew⟩
    · exact Or.inl ⟨hold, fun _ => by simp [live, hne]⟩
    · rw [← Option.some.inj hnew]
      exact Or.inr ⟨by simp, by simp⟩
  | @begins slot event hslot hidle hindex =>
    obtain ⟨-, hlog, hseq⟩ := r.cancelPartial_frame
    refine hs.of_calls hseq (fun k c hc => ?_) fun p seq ms hmem => ?_
    · rcases set_cases (r := r.cancelPartial) hc with ⟨-, hold⟩ | ⟨-, hnew⟩
      · exact Or.inl ⟨r.cancelPartial_calls ▸ hold, cancelPartial_live_of⟩
      · rw [← Option.some.inj hnew]
        exact Or.inr ⟨by simp, by simp⟩
    · rcases List.mem_append.mp hmem with hmem | hmem
      · exact hlog ▸ hmem
      · exact absurd hmem (by simp)

/-- **Trace correlation.** In every run of a session in which no transcription gets its number while the
result of another one is being sent, every trace that is sent carries the utterance, the type and the
`seq` of its result. -/
theorem traces_correlate (cfg : SegmenterConfig) (sessionId : String) (es : List SessionEvent)
    (hno : ∀ x ∈ sessionSteps cfg es, ¬ NumbersAmidSend x) :
    ∀ t ∈ sessionStates cfg es, ∀ m, .sent m ∈ t.asr.log → Correlates sessionId m := by
  have hsettled : ∀ t ∈ sessionStates cfg es, Recognizing t ∧ Settled t.asr := by
    refine Run.forall_states ⟨recognizing_init, settled_init⟩ fun x hx ⟨hr, hs⟩ => ?_
    have hstep := (Run.mem_trace hx).2
    refine ⟨hr.step hstep, (step_sequel hstep hr.numbered).2.settled hs ?_⟩
    intro slot text metrics ready he htext other p hne hsends
    exact hno x hx ⟨slot, text, metrics, ready, he, htext, other, p, hne, hsends⟩
  intro t ht m hm
  cases m with
  | trace p seq ms => exact (correlates_trace sessionId p seq ms).mpr ((hsettled t ht).2.sent p seq ms hm)
  | _ => trivial

/-! ## Finals -/

/-- The text of a final comes while an earlier utterance waits for its own. -/
def Overtakes (x : Run.Taken RealSession SessionEvent) : Prop :=
  ∃ slot text metrics ready c, x.event = .transcribed slot (.text text metrics ready) ∧ text ≠ "" ∧
    x.before.asr.Awaits slot c ∧
    ∃ other c', x.before.asr.Awaits other c' ∧ c'.event.utteranceIndex < c.event.utteranceIndex

/-- The finals are in the order of their utterances, and those still awaited come after them. -/
structure InOrder (r : Recognition) : Prop where
  increasing : r.finals.Pairwise (· < ·)
  awaited : ∀ slot c, r.Awaits slot c → ∀ i ∈ r.finals, i < c.event.utteranceIndex

theorem inOrder_init : InOrder {} where
  increasing := List.Pairwise.nil
  awaited _ _ h := absurd h.1 (by simp)

/-- **A step keeps the order of the finals**, unless one overtakes another. -/
theorem Sequel.inOrder (h : Sequel e r n r' n') (hs : Streaming n r) (hi : InOrder r)
    (hno : ∀ slot text metrics ready c, e = .transcribed slot (.text text metrics ready) → text ≠ "" →
      r.Awaits slot c → ∀ other c', r.Awaits other c' →
        ¬ c'.event.utteranceIndex < c.event.utteranceIndex) : InOrder r' := by
  rcases (results_step h hs.queued).finals with
    hsub | ⟨slot, c, hawaits, hdone, hfinals, text, metrics, ready, he, htext⟩
  · refine ⟨hi.increasing.sublist hsub, fun slot c hc i hmem => ?_⟩
    rcases h.awaits hs.queued hc with hold | ⟨hn, -, -, -⟩
    · exact hi.awaited slot c hold i (hsub.mem hmem)
    · rw [hn]
      exact hs.known i (hsub.mem hmem)
  · refine ⟨?_, fun slot' c' hc' i hmem => ?_⟩
    · rw [hfinals, List.pairwise_append]
      refine ⟨hi.increasing, List.pairwise_singleton _ _, fun a ha b hb => ?_⟩
      rw [List.mem_singleton.mp hb]
      exact hi.awaited slot c hawaits a ha
    · rw [hfinals] at hmem
      rcases h.awaits hs.queued hc' with hold | ⟨hn, -, -, -⟩
      · rcases List.mem_append.mp hmem with hmem | hmem
        · exact hi.awaited slot' c' hold i hmem
        · -- the one that gets its text is the earliest
          rw [List.mem_singleton.mp hmem]
          refine lt_of_le_of_ne (not_lt.mp (hno slot text metrics ready c he htext hawaits slot' c' hold)) ?_
          intro heq
          obtain rfl := hs.distinct slot slot' c c' hawaits hold heq
          exact hdone c' hc'
      · rw [hn]
        rcases List.mem_append.mp hmem with hmem | hmem
        · exact hs.known i hmem
        · rw [List.mem_singleton.mp hmem]
          exact (hs.awaited slot c hawaits).1

/-- **Transcript order.** In every run of a session in which no final gets its text while an earlier
utterance waits for its own, the finals are sent in the order of their utterances. -/
theorem finals_in_order (cfg : SegmenterConfig) (es : List SessionEvent)
    (hno : ∀ x ∈ sessionSteps cfg es, ¬ Overtakes x) :
    ∀ t ∈ sessionStates cfg es,
      (((sentResults t.asr.log).filter Result.final).map Result.index).Pairwise (· < ·) := by
  have hordered : ∀ t ∈ sessionStates cfg es, Recognizing t ∧ InOrder t.asr := by
    refine Run.forall_states ⟨recognizing_init, inOrder_init⟩ fun x hx ⟨hr, hi⟩ => ?_
    have hstep := (Run.mem_trace hx).2
    refine ⟨hr.step hstep, (step_sequel hstep hr.numbered).2.inOrder hr.streaming hi ?_⟩
    intro slot text metrics ready c he htext hc other c' hc' hlt
    exact hno x hx ⟨slot, text, metrics, ready, c, he, htext, hc, other, c', hc', hlt⟩
  intro t ht
  exact (hordered t ht).2.increasing.sublist
    (((List.sublist_append_left _ _).filter _).map _)

end Overlap

/-! ## Runs in turn, and runs that overlap -/

section Examples

/-- Audio of 20 ms, once or more often, each time put into the queue and taken by the worker. -/
def hear (speaking : Bool) (times : ℕ) : List SessionEvent :=
  (List.replicate times
    [SessionEvent.pcm ⟨List.replicate 640 0, 1, speaking⟩, .work]).flatten

/-- The text of a transcription. -/
def SessionEvent.heard (slot : Slot) : SessionEvent := .transcribed slot (.text "text" .null 0)

/-- A send that returns. -/
def SessionEvent.done : SessionEvent := .sent none (.unsigned 0)

/-- Two utterances, one committed and one ended by the worker, each transcribed before the next. -/
def inTurn : List SessionEvent :=
  hear true 7 ++ [.commit 1, .heard .commit, .acquire, .done, .acquire, .done] ++ hear true 7 ++
    hear false 33 ++ [.heard .worker, .acquire, .done, .acquire, .done]

/-- In turn, a text comes while no other call runs. -/
theorem inTurn_alone : ∀ x ∈ sessionSteps {} inTurn, ∀ slot outcome,
    x.event = .transcribed slot outcome → ∀ other, other ≠ slot → x.before.asr.calls other = none := by
  have hbool : ∀ x ∈ sessionSteps {} inTurn, (match x.event with
      | .transcribed slot _ => [Slot.worker, .partialTask, .commit].all fun other =>
        other == slot || (x.before.asr.calls other).isNone
      | _ => true) = true := by decide +kernel
  intro x hx slot outcome he other hne
  have hall := hbool x hx
  rw [he] at hall
  have hother : other ∈ [Slot.worker, .partialTask, .commit] := by cases other <;> simp
  simpa [hne] using List.all_eq_true.mp hall other hother

/-- The `seq` of the result and that of its trace, where the entry sends a trace. -/
def Entry.sentTrace : Entry → Option (ℕ × ℕ)
  | .sent (.trace payload seq _) => some (payload.seq, seq)
  | _ => none

theorem exists_sentTrace {log : List Entry} {a b : ℕ} (h : (a, b) ∈ log.filterMap Entry.sentTrace) :
    ∃ payload sendMs, .sent (.trace payload b sendMs) ∈ log ∧ payload.seq = a := by
  obtain ⟨x, hx, hsends⟩ := List.mem_filterMap.mp h
  unfold Entry.sentTrace at hsends
  split at hsends
  · rename_i payload seq sendMs
    obtain ⟨rfl, rfl⟩ := Prod.mk.inj (Option.some.inj hsends)
    exact ⟨payload, sendMs, hx, rfl⟩
  · exact absurd hsends (by simp)

/-- `traces_correlate` on utterances in turn. -/
theorem traces_correlate_inTurn :
    ∃ payload seq sendMs, .sent (.trace payload seq sendMs) ∈ (session {} inTurn).asr.log ∧
      Correlates "first" (.trace payload seq sendMs) := by
  have htrace : (2, 2) ∈ (session {} inTurn).asr.log.filterMap Entry.sentTrace := by decide +kernel
  obtain ⟨payload, sendMs, hx, -⟩ := exists_sentTrace htrace
  refine ⟨payload, 2, sendMs, hx,
    traces_correlate {} "first" inTurn ?_ _ (session_mem {} inTurn) _ hx⟩
  rintro y hy ⟨slot, text, metrics, ready, he, -, other, p, hne, ⟨c, hc, -⟩, -⟩
  exact absurd ((inTurn_alone y hy slot _ he other hne).symm.trans hc) (by simp)

/-- `finals_in_order` on utterances in turn. -/
theorem finals_in_order_inTurn :
    (((sentResults (session {} inTurn).asr.log).filter Result.final).map
      Result.index).Pairwise (· < ·) := by
  refine finals_in_order {} inTurn ?_ _ (session_mem {} inTurn)
  rintro x hx ⟨slot, text, metrics, ready, c, he, -, hc, other, c', hc', hlt⟩
  by_cases hne : other = slot
  · subst hne
    obtain rfl := Option.some.inj (hc.1.symm.trans hc'.1)
    exact absurd hlt (lt_irrefl _)
  · exact absurd ((inTurn_alone x hx slot _ he other hne).symm.trans hc'.1) (by simp)

/-- The worker's result is numbered while the one of the commit is being sent. -/
def amidSend : List SessionEvent :=
  hear true 7 ++ [.commit 1] ++ hear true 7 ++ hear false 33 ++
    [.heard .commit, .acquire, .heard .worker, .done, .acquire, .done, .acquire]

/-- Then the trace of the commit has the number of the worker's result. -/
theorem trace_misnumbered :
    ¬ ∀ t ∈ sessionStates {} amidSend, ∀ m, .sent m ∈ t.asr.log → Correlates "first" m := by
  intro h
  have htrace : (1, 2) ∈ (session {} amidSend).asr.log.filterMap Entry.sentTrace := by decide +kernel
  obtain ⟨payload, sendMs, hx, hseq⟩ := exists_sentTrace htrace
  have hsame := (correlates_trace "first" payload 2 sendMs).mp (h _ (session_mem {} amidSend) _ hx)
  omega

/-- The text of the worker's final comes before that of the commit. -/
def workerFirst : List SessionEvent :=
  hear true 7 ++ [.commit 1] ++ hear true 7 ++ hear false 33 ++
    [.heard .worker, .acquire, .done, .heard .commit, .acquire, .done, .acquire]

/-- Then the second utterance is sent before the first one. -/
theorem final_overtaken :
    ¬ ∀ t ∈ sessionStates {} workerFirst,
      (((sentResults t.asr.log).filter Result.final).map Result.index).Pairwise (· < ·) := by
  intro h
  have horder : ((sentResults (session {} workerFirst).asr.log).filter Result.final).map
      Result.index = [2, 1] := by decide +kernel
  have hpair := h _ (session_mem {} workerFirst)
  rw [horder] at hpair
  exact absurd hpair (by decide)

end Examples

end SenseVoice.Bridge
