import SenseVoice.Bridge.RecognitionSteps
import SenseVoice.Text

/-!
# The recognition stream of a session

`results` are the payloads sent so far and those that wait for the lock, in the order in which they are
or will be sent. A step may add one at the end, with the next `seq`, and may drop some.

Results:
* `Queued.step`: who waits for the lock, and with what;
* **`results_step`**: what a step does to the results;
* `Streaming.step`: numbers and finals along a step;
* **`recognition_stream`**: the events of every run are well formed.
-/

namespace SenseVoice.Bridge

open Lib

/-- The result an entry of the log sends. -/
def Entry.sentResult : Entry → Option Result
  | .sent (.result p) => some p
  | _ => none

/-- The final segment an entry begins. -/
def Entry.begun : Entry → Option ℕ
  | .begins index => some index
  | _ => none

/-- The results sent, in order. -/
def sentResults (log : List Entry) : List Result := log.filterMap Entry.sentResult

namespace Recognition

/-- The result the slot waits to send. -/
def pending (r : Recognition) (slot : Slot) : Option Result :=
  match r.calls slot with
  | some ⟨_, _, .result p⟩ => some p
  | _ => none

/-- The results sent and to be sent, in order. -/
def results (r : Recognition) : List Result := sentResults r.log ++ r.waiting.filterMap r.pending

/-- The numbers of the utterances whose final is sent or to be sent, in order. -/
def finals (r : Recognition) : List ℕ := (r.results.filter Result.final).map Result.index

/-- The slot's call waits for the text of a final. -/
def Awaits (r : Recognition) (slot : Slot) (c : Transcribe) : Prop :=
  r.calls slot = some c ∧ c.final = true ∧ c.stage = .asr

/-- Who waits for the lock, and with what. -/
structure Queued (r : Recognition) : Prop where
  nodup : r.waiting.Nodup
  held : ∀ h, r.holder = some h → h.slot ∉ r.waiting
  emitting : ∀ slot ∈ r.waiting, ∃ c, r.calls slot = some c ∧ c.message.isSome = true
  sends : ∀ h, r.holder = some h → ∃ c, r.calls h.slot = some c ∧ c.message.isSome = true
  live : r.cancelling = true → .partialTask ∉ r.waiting
  kinds : ∀ slot c, r.calls slot = some c → (c.final = true ↔ slot ≠ .partialTask)
  payloads : ∀ slot c p, r.calls slot = some c → c.stage = .result p →
    p.final = c.final ∧ p.index = c.event.utteranceIndex

@[simp] theorem set_calls (slot k : Slot) (c : Option Transcribe) (r : Recognition) :
    (r.set slot c).calls k = if k = slot then c else r.calls k :=
  Function.update_apply r.calls slot c k

@[simp] theorem emit_calls (slot k : Slot) (c : Transcribe) (stage : Stage) (r : Recognition) :
    (r.emit slot c stage).calls k = if k = slot then some { c with stage := stage } else r.calls k :=
  set_calls slot k _ r

/-- The calls after the change of one slot. -/
theorem set_cases {slot k : Slot} {x : Option Transcribe} {c : Transcribe} {r : Recognition}
    (h : (r.set slot x).calls k = some c) :
    (k ≠ slot ∧ r.calls k = some c) ∨ (k = slot ∧ x = some c) := by
  rw [set_calls] at h
  split at h
  · exact Or.inr ⟨‹_›, h⟩
  · exact Or.inl ⟨‹_›, h⟩

@[simp] theorem cancelPartial_calls (r : Recognition) : r.cancelPartial.calls = r.calls := by
  unfold cancelPartial
  split <;> rfl

theorem cancelPartial_waiting (r : Recognition) : r.cancelPartial.waiting.Sublist r.waiting := by
  unfold cancelPartial
  split
  · exact List.filter_sublist
  · exact List.Sublist.refl _

/-- The frame of a cancellation. -/
theorem cancelPartial_frame (r : Recognition) :
    r.cancelPartial.holder = r.holder ∧ r.cancelPartial.log = r.log ∧
      r.cancelPartial.sequence = r.sequence := by
  unfold cancelPartial
  split <;> exact ⟨rfl, rfl, rfl⟩

/-- After a cancellation the task does not wait for the lock. -/
theorem cancelPartial_live {r : Recognition} (hr : r.Queued) :
    .partialTask ∉ r.cancelPartial.waiting := by
  unfold cancelPartial
  split
  · simp
  · rename_i hnone
    intro hmem
    obtain ⟨c, hc, -⟩ := hr.emitting _ hmem
    exact hnone (by rw [hc]; rfl)

end Recognition

open Recognition

section Lock

variable {e : SessionEvent} {n n' : ℕ} {r r' : Recognition}

/-- A call that does not send neither waits for the lock nor holds it. -/
theorem Recognition.Queued.outside (slot : Slot) (hr : r.Queued)
    (hc : ∀ c, r.calls slot = some c → c.message = none) :
    slot ∉ r.waiting ∧ ∀ h, r.holder = some h → h.slot ≠ slot := by
  refine ⟨fun hmem => ?_, fun h hh => ?_⟩
  · obtain ⟨c, hc', hm⟩ := hr.emitting slot hmem
    exact absurd hm (by simp [hc c hc'])
  · rintro rfl
    obtain ⟨c, hc', hm⟩ := hr.sends h hh
    exact absurd hm (by simp [hc c hc'])

/-- A coroutine that runs does not wait for the lock, and does not hold it from then on. -/
theorem Runs.free {slot : Slot} {c : Transcribe} {h : Option Holder} (hrun : Runs r slot c h)
    (hr : r.Queued) (hc : r.calls slot = some c) :
    slot ∉ r.waiting ∧ ∀ k, h = some k → k.slot ≠ slot ∧ r.holder = some k := by
  cases hrun with
  | asr hstage =>
    obtain ⟨hw, hh⟩ := hr.outside slot fun c' hc' => by
      obtain rfl := Option.some.inj (hc.symm.trans hc')
      rw [Transcribe.message, hstage]
    exact ⟨hw, fun k hk => ⟨hh k hk, hk⟩⟩
  | sender hh hs => exact ⟨hs ▸ hr.held _ hh, fun k hk => absurd hk (by simp)⟩

/-- A call that is not at a send is changed, by a slot outside the lock. -/
theorem Recognition.Queued.set {slot : Slot} {c : Option Transcribe} {h : Option Holder}
    (hr : r.Queued) (hw : slot ∉ r.waiting) (hh : ∀ k, h = some k → k.slot ≠ slot ∧ r.holder = some k)
    (hkind : ∀ c', c = some c' → (c'.final = true ↔ slot ≠ .partialTask))
    (hpayload : ∀ c' p, c = some c' → c'.stage ≠ .result p) :
    ({ r with holder := h }.set slot c).Queued where
  nodup := hr.nodup
  held k hk := hr.held k (hh k hk).2
  emitting k hk := by
    obtain ⟨c', hc', hm⟩ := hr.emitting k hk
    refine ⟨c', ?_, hm⟩
    have hne : k ≠ slot := by
      rintro rfl
      exact hw hk
    rw [set_calls, if_neg hne]
    exact hc'
  sends k hk := by
    obtain ⟨hne, hold⟩ := hh k hk
    obtain ⟨c', hc', hm⟩ := hr.sends k hold
    refine ⟨c', ?_, hm⟩
    rw [set_calls, if_neg hne]
    exact hc'
  live := hr.live
  kinds k c' hc' := by
    rw [set_calls] at hc'
    split at hc'
    · rename_i heq
      rw [heq]
      exact hkind c' hc'
    · exact hr.kinds k c' hc'
  payloads k c' p hc' hp := by
    rw [set_calls] at hc'
    split at hc'
    · exact absurd hp (hpayload c' p hc')
    · exact hr.payloads k c' p hc' hp

/-- A call of a live slot outside the lock begins to wait for it. -/
theorem Recognition.Queued.emit {slot : Slot} {c : Transcribe} {h : Option Holder} {stage : Stage}
    (hr : r.Queued) (hc : r.calls slot = some c) (hlive : r.live slot = true) (hw : slot ∉ r.waiting)
    (hh : ∀ k, h = some k → k.slot ≠ slot ∧ r.holder = some k)
    (hstage : { c with stage := stage }.message.isSome = true)
    (hpayload : ∀ p, stage = .result p → p.final = c.final ∧ p.index = c.event.utteranceIndex) :
    ({ r with holder := h }.emit slot c stage).Queued where
  nodup := List.nodup_append.mpr ⟨hr.nodup, List.nodup_singleton slot, fun a ha b hb heq =>
    hw (List.mem_singleton.mp hb ▸ heq ▸ ha)⟩
  held k hk := by
    obtain ⟨hne, hold⟩ := hh k hk
    intro hmem
    rcases List.mem_append.mp hmem with hmem | hmem
    · exact hr.held k hold hmem
    · exact hne (List.mem_singleton.mp hmem)
  emitting k hk := by
    rw [emit_calls]
    split
    · exact ⟨_, rfl, hstage⟩
    · rename_i hne
      exact hr.emitting k ((List.mem_append.mp hk).resolve_right fun hmem =>
        hne (List.mem_singleton.mp hmem))
  sends k hk := by
    obtain ⟨hne, hold⟩ := hh k hk
    rw [emit_calls, if_neg hne]
    exact hr.sends k hold
  live hcancel hmem := by
    rcases List.mem_append.mp hmem with hmem | hmem
    · exact hr.live hcancel hmem
    · obtain rfl := List.mem_singleton.mp hmem
      unfold Recognition.live at hlive
      rw [show r.cancelling = true from hcancel] at hlive
      exact absurd hlive (by decide)
  kinds k c' hc' := by
    rw [emit_calls] at hc'
    split at hc'
    · rename_i heq
      rw [heq, ← Option.some.inj hc']
      exact hr.kinds slot c hc
    · exact hr.kinds k c' hc'
  payloads k c' p hc' hp := by
    rw [emit_calls] at hc'
    split at hc'
    · rw [← Option.some.inj hc'] at hp ⊢
      exact hpayload p hp
    · exact hr.payloads k c' p hc' hp

/-- A cancelled task gives up its place. -/
theorem Recognition.Queued.cancelPartial (hr : r.Queued) : r.cancelPartial.Queued := by
  obtain ⟨hholder, -, -⟩ := r.cancelPartial_frame
  have hsub := r.cancelPartial_waiting
  refine ⟨hr.nodup.sublist hsub, fun h hh hmem => ?_, fun slot hmem => ?_, fun h hh => ?_,
    fun _ => cancelPartial_live hr, ?_, ?_⟩
  · exact hr.held h (hholder ▸ hh) (hsub.mem hmem)
  · rw [cancelPartial_calls]
    exact hr.emitting slot (hsub.mem hmem)
  · rw [cancelPartial_calls]
    exact hr.sends h (hholder ▸ hh)
  · rw [cancelPartial_calls]
    exact hr.kinds
  · rw [cancelPartial_calls]
    exact hr.payloads

/-- What runs between two waits keeps the lock in order. -/
theorem Move.queued (h : Move e r r') (hr : r.Queued) : r'.Queued := by
  cases h with
  | starts hc =>
    obtain ⟨hw, hh⟩ := hr.outside .partialTask fun c' hc' => by
      obtain rfl := Option.some.inj (hc.symm.trans hc')
      rfl
    refine hr.set hw (fun k hk => ⟨hh k hk, hk⟩) (fun c' hc' => ?_) (fun c' p hc' => ?_)
    · rw [← Option.some.inj hc']
      exact (hr.kinds .partialTask _ hc :)
    · rw [← Option.some.inj hc']
      simp
  | returns hc hlive hrun =>
    obtain ⟨hw, hh⟩ := hrun.free hr hc
    exact hr.set hw hh (fun c' h => absurd h (by simp)) (fun c' p h => absurd h (by simp))
  | emits hc hlive hrun hstage =>
    obtain ⟨hw, hh⟩ := hrun.free hr hc
    rcases hstage with ⟨message, rfl⟩ | ⟨payload, ms, -, rfl⟩
    · exact hr.emit hc hlive hw hh rfl (by simp)
    · exact hr.emit hc hlive hw hh rfl (by simp)
  | @numbers slot event final text metrics ready he htext hc hlive =>
    obtain ⟨hw, hh⟩ := (Runs.asr rfl).free hr hc
    have hr' : { r with sequence := r.sequence + 1 }.Queued := ⟨hr.1, hr.2, hr.3, hr.4, hr.5, hr.6, hr.7⟩
    refine hr'.emit hc hlive hw hh rfl fun p hp => ?_
    rw [← Stage.result.inj hp]
    exact ⟨rfl, rfl⟩
  | @acquires slot rest c m hh hw hc hm =>
    have hnodup := hr.nodup
    rw [hw, List.nodup_cons] at hnodup
    refine ⟨hnodup.2, fun h hold => ?_, fun k hk => ?_, fun h hold => ?_, fun hcancel hmem => ?_,
      hr.kinds, hr.payloads⟩
    · obtain rfl := Option.some.inj hold
      exact hnodup.1
    · exact hr.emitting k (hw ▸ List.mem_cons_of_mem _ hk)
    · obtain rfl := Option.some.inj hold
      exact ⟨c, hc, by rw [hm]; rfl⟩
    · exact hr.live hcancel (hw ▸ List.mem_cons_of_mem _ hmem)
  | ends hcancel =>
    have hset : ({ r with holder := r.holder.filter fun h => h.slot ≠ Slot.partialTask }.set .partialTask
        none).Queued := by
      refine hr.set (hr.live hcancel) (fun k hk => ?_) (fun c' h => absurd h (by simp))
        (fun c' p h => absurd h (by simp))
      obtain ⟨hold, hne⟩ := Option.filter_eq_some_iff.mp hk
      exact ⟨by simpa using hne, hold⟩
    exact ⟨hset.1, hset.2, hset.3, hset.4, fun h => absurd h (by simp), hset.6, hset.7⟩
  | cancels => exact hr.cancelPartial
  | socket present => exact ⟨hr.1, hr.2, hr.3, hr.4, hr.5, hr.6, hr.7⟩

/-- **Every step keeps the lock in order.** -/
theorem Sequel.queued (h : Sequel e r n r' n') (hr : r.Queued) : r'.Queued := by
  cases h with
  | same => exact hr
  | moved h => exact h.queued hr
  | @creates event hidle hindex =>
    obtain ⟨hw, hh⟩ := hr.outside .partialTask fun c hc => absurd (hidle.symm.trans hc) (by simp)
    have hset := hr.set (c := some ⟨event, false, .created⟩) hw (fun k hk => ⟨hh k hk, hk⟩)
      (fun c' hc' => by rw [← Option.some.inj hc']; simp)
      (fun c' p hc' => by rw [← Option.some.inj hc']; simp)
    exact ⟨hset.1, hset.2, hset.3, hset.4, fun h => absurd h (by simp [createTask]), hset.6, hset.7⟩
  | @begins slot event hslot hidle hindex =>
    have hc := hr.cancelPartial
    obtain ⟨hw, hh⟩ := hc.outside slot fun c hc' =>
      absurd (hidle.symm.trans (r.cancelPartial_calls ▸ hc')) (by simp)
    have hset := hc.set (c := some ⟨event, true, .asr⟩) hw (fun k hk => ⟨hh k hk, hk⟩)
      (fun c' hc' => by rw [← Option.some.inj hc']; simpa using hslot)
      (fun c' p hc' => by rw [← Option.some.inj hc']; simp)
    exact ⟨hset.1, hset.2, hset.3, hset.4, hset.5, hset.6, hset.7⟩

end Lock

/-! ## What a step does to the results -/

section Results

variable {e : SessionEvent} {n n' : ℕ} {r r' : Recognition}

theorem sentResults_append (log log' : List Entry) :
    sentResults (log ++ log') = sentResults log ++ sentResults log' := List.filterMap_append

/-- A slot outside the queue does not change what waits there. -/
theorem pending_congr {slot : Slot} (hw : slot ∉ r.waiting)
    (h : ∀ k, k ≠ slot → r'.calls k = r.calls k) :
    r.waiting.filterMap r'.pending = r.waiting.filterMap r.pending := by
  refine List.filterMap_congr fun k hk => ?_
  have hne : k ≠ slot := by
    rintro rfl
    exact hw hk
  rw [pending, h k hne, pending]

theorem results_set {slot : Slot} {c : Option Transcribe} {h : Option Holder} (hw : slot ∉ r.waiting) :
    ({ r with holder := h }.set slot c).results = r.results := by
  unfold results
  congr 1
  exact pending_congr hw fun k hne => (set_calls ..).trans (if_neg hne)

/-- The result a stage sends. -/
def Stage.sends : Stage → Option Result
  | .result p => some p
  | _ => none

/-- A slot outside the queue adds what it is going to send. -/
theorem results_emit {slot : Slot} {c : Transcribe} {stage : Stage} (hw : slot ∉ r.waiting) :
    (r.emit slot c stage).results = r.results ++ stage.sends.toList := by
  have hlast : [slot].filterMap (r.emit slot c stage).pending = stage.sends.toList := by
    rw [List.filterMap_cons, List.filterMap_nil, pending, emit_calls, if_pos rfl]
    cases stage <;> rfl
  change _ ++ (r.waiting ++ [slot]).filterMap _ = _
  rw [List.filterMap_append, hlast, pending_congr hw fun k hne => (emit_calls ..).trans (if_neg hne),
    ← List.append_assoc]
  rfl

/-- The message a call sends is the result the slot waits to send, or none. -/
theorem pending_message {slot : Slot} {c : Transcribe} {m : AsrMessage} (hc : r.calls slot = some c)
    (hm : c.message = some m) : r.pending slot = Entry.sentResult (.sent m) := by
  obtain ⟨event, final, stage⟩ := c
  cases stage with
  | created => exact absurd hm (by simp [Transcribe.message])
  | asr => exact absurd hm (by simp [Transcribe.message])
  | result p =>
    obtain rfl := Option.some.inj hm
    simp only [pending, hc]
    rfl
  | trace p seq ms =>
    obtain rfl := Option.some.inj hm
    simp only [pending, hc]
    rfl
  | error message =>
    obtain rfl := Option.some.inj hm
    simp only [pending, hc]
    rfl

/-- What a step does to the results, and to the counter. -/
inductive ResultsStep (e : SessionEvent) (r r' : Recognition) : Prop
  | kept (hsub : r'.results.Sublist r.results) (hseq : r'.sequence = r.sequence)
  | added {slot : Slot} {event : SegmentEvent} {final : Bool} {text : String} {metrics : Value}
      {ready : ℕ} (he : e = .transcribed slot (.text text metrics ready)) (htext : text ≠ "")
      (hc : r.calls slot = some ⟨event, final, .asr⟩) (hlive : r.live slot = true)
      (hres : r'.results = r.results ++
        [⟨final, event.utteranceIndex, r.sequence + 1, text, metrics, ready⟩])
      (hseq : r'.sequence = r.sequence + 1) (hdone : ∀ c, ¬ r'.Awaits slot c)

theorem Recognition.cancelPartial_results (r : Recognition) : r.cancelPartial.results.Sublist r.results := by
  have hpending : r.cancelPartial.pending = r.pending := by
    funext slot
    rw [pending, cancelPartial_calls, pending]
  rw [results, r.cancelPartial_frame.2.1, hpending, results]
  exact (List.Sublist.refl _).append (r.cancelPartial_waiting.filterMap _)

theorem Move.results (h : Move e r r') (hr : r.Queued) : ResultsStep e r r' := by
  cases h with
  | starts hc =>
    obtain ⟨hw, -⟩ := hr.outside .partialTask fun c' hc' => by
      obtain rfl := Option.some.inj (hc.symm.trans hc')
      rfl
    exact .kept (results_set (r := r) hw ▸ List.Sublist.refl _) rfl
  | returns hc hlive hrun =>
    exact .kept (results_set (hrun.free hr hc).1 ▸ List.Sublist.refl _) rfl
  | @emits slot c h stage hc hlive hrun hstage =>
    obtain ⟨hw, -⟩ := hrun.free hr hc
    have hnone : stage.sends = none := by
      rcases hstage with ⟨message, rfl⟩ | ⟨payload, ms, -, rfl⟩ <;> rfl
    have hsame : ({ r with holder := h }.emit slot c stage).results = r.results ++ stage.sends.toList :=
      results_emit (r := { r with holder := h }) hw
    rw [hnone, Option.toList_none, List.append_nil] at hsame
    exact .kept (hsame ▸ List.Sublist.refl _) rfl
  | @numbers slot event final text metrics ready he htext hc hlive =>
    obtain ⟨hw, -⟩ := (Runs.asr rfl).free hr hc
    refine .added he htext hc hlive (results_emit (r := { r with sequence := r.sequence + 1 }) hw) rfl
      fun c hawaits => ?_
    obtain ⟨hc', -, hstage⟩ := hawaits
    rw [emit_calls, if_pos rfl] at hc'
    rw [← Option.some.inj hc'] at hstage
    exact absurd hstage (by simp)
  | @acquires slot rest c m hh hw hc hm =>
    refine .kept ?_ rfl
    have hwait : r.waiting.filterMap r.pending =
        (Entry.sentResult (.sent m)).toList ++ rest.filterMap r.pending := by
      rw [hw, List.filterMap_cons, pending_message hc hm]
      cases Entry.sentResult (.sent m) <;> rfl
    change (sentResults (if r.websocket = true then r.log ++ [.sent m] else r.log) ++
      rest.filterMap r.pending).Sublist (sentResults r.log ++ r.waiting.filterMap r.pending)
    rw [hwait]
    split
    · have hone : sentResults [.sent m] = (Entry.sentResult (.sent m)).toList := by
        rw [sentResults, List.filterMap_cons]
        cases Entry.sentResult (.sent m) <;> rfl
      rw [sentResults_append, hone, List.append_assoc]
    · exact (List.Sublist.refl _).append (List.sublist_append_right _ _)
  | ends hcancel =>
    exact .kept (results_set (c := none) (hr.live hcancel) ▸ List.Sublist.refl _) rfl
  | cancels => exact .kept r.cancelPartial_results r.cancelPartial_frame.2.2
  | socket present => exact .kept (List.Sublist.refl _) rfl

/-- **What a step does to the results**: it drops some, or adds one with the next number. -/
theorem results_step (h : Sequel e r n r' n') (hr : r.Queued) : ResultsStep e r r' := by
  cases h with
  | same => exact .kept (List.Sublist.refl _) rfl
  | moved h => exact h.results hr
  | @creates event hidle hindex =>
    obtain ⟨hw, -⟩ := hr.outside .partialTask fun c hc => absurd (hidle.symm.trans hc) (by simp)
    exact .kept (results_set (r := r) hw ▸ List.Sublist.refl _) rfl
  | @begins slot event hslot hidle hindex =>
    obtain ⟨hw, -⟩ := hr.cancelPartial.outside slot fun c hc' =>
      absurd (hidle.symm.trans (r.cancelPartial_calls ▸ hc')) (by simp)
    refine .kept ?_ r.cancelPartial_frame.2.2
    have hlog : sentResults (r.cancelPartial.log ++ [.begins event.utteranceIndex]) =
        sentResults r.cancelPartial.log := by
      rw [sentResults_append]
      exact List.append_nil _
    have hsame : (r.cancelPartial.begin slot event).results = r.cancelPartial.results := by
      change sentResults (_ ++ _) ++ _ = _
      rw [hlog]
      exact results_set (r := r.cancelPartial) (c := some ⟨event, true, .asr⟩) hw
    exact hsame ▸ r.cancelPartial_results

end Results

/-! ## What a step does to the finals and to the log -/

section Finals

variable {e : SessionEvent} {n n' : ℕ} {r r' : Recognition}

/-- Numbers only grow. -/
theorem Sequel.le (h : Sequel e r n r' n') : n ≤ n' := by
  cases h with
  | begins => exact Nat.le_succ n
  | _ => exact Nat.le_refl n

/-- Where the slot's call comes from: it was there before, its coroutine has run on, or it is new. -/
inductive CallStep (r r' : Recognition) (n n' : ℕ) (slot : Slot) (c' : Transcribe) : Prop
  | kept (hc : r.calls slot = some c')
  | moved {c : Transcribe} (hc : r.calls slot = some c) (hevent : c'.event = c.event)
      (hfinal : c'.final = c.final) (hstage : c'.stage = .asr → slot = .partialTask)
  | new (hidle : r.calls slot = none) (hindex : c'.event.utteranceIndex = n)
      (hfinal : c'.final = true → n' = n + 1 ∧ .begins n ∈ r'.log ∧
        ∀ k, k ≠ slot → r'.calls k = r.calls k)

/-- Where a call comes from, by cases on what has run. -/
theorem Sequel.call (h : Sequel e r n r' n') {slot : Slot} {c' : Transcribe}
    (hc : r'.calls slot = some c') : CallStep r r' n n' slot c' := by
  cases h with
  | same => exact .kept hc
  | moved h =>
    cases h with
    | starts hcall =>
      rcases set_cases hc with ⟨-, hold⟩ | ⟨rfl, hnew⟩
      · exact .kept hold
      · rw [← Option.some.inj hnew]
        exact .moved hcall rfl rfl fun _ => rfl
    | @returns k c h hcall hlive hrun =>
      rcases set_cases (r := { r with holder := h }) hc with ⟨-, hold⟩ | ⟨-, hnew⟩
      · exact .kept hold
      · exact absurd hnew (by simp)
    | @emits k c h stage hcall hlive hrun hstage =>
      rcases set_cases (r := { r with holder := h }) hc with ⟨-, hold⟩ | ⟨rfl, hnew⟩
      · exact .kept hold
      · rw [← Option.some.inj hnew]
        refine .moved hcall rfl rfl fun hasr => ?_
        rcases hstage with ⟨message, rfl⟩ | ⟨payload, ms, -, rfl⟩
        · exact absurd hasr (by simp)
        · exact absurd hasr (by simp)
    | numbers he htext hcall hlive =>
      rcases set_cases (r := { r with sequence := r.sequence + 1 }) hc with ⟨-, hold⟩ | ⟨rfl, hnew⟩
      · exact .kept hold
      · rw [← Option.some.inj hnew]
        exact .moved hcall rfl rfl fun hasr => absurd hasr (by simp)
    | acquires hh hw hcall hm => exact .kept hc
    | ends hcancel =>
      rcases set_cases (r := r) hc with ⟨-, hold⟩ | ⟨-, hnew⟩
      · exact .kept hold
      · exact absurd hnew (by simp)
    | cancels => exact .kept (r.cancelPartial_calls ▸ hc)
    | socket present => exact .kept hc
  | creates hidle hindex =>
    rcases set_cases (r := r) hc with ⟨-, hold⟩ | ⟨rfl, hnew⟩
    · exact .kept hold
    · rw [← Option.some.inj hnew]
      exact .new hidle hindex fun hfinal => absurd hfinal (by simp)
  | @begins k event hslot hidle hindex =>
    rcases set_cases (r := r.cancelPartial) hc with ⟨-, hold⟩ | ⟨rfl, hnew⟩
    · exact .kept (r.cancelPartial_calls ▸ hold)
    · rw [← Option.some.inj hnew]
      refine .new hidle hindex fun _ => ⟨rfl, ?_, fun j hne => ?_⟩
      · rw [← hindex]
        exact List.mem_append_right _ List.mem_cons_self
      · exact (set_calls ..).trans (by rw [if_neg hne, cancelPartial_calls])

/-- A call that waits for the text of a final waited for it before, or has just begun, with the next
number. -/
theorem Sequel.awaits (h : Sequel e r n r' n') (hr : r.Queued) {slot : Slot} {c : Transcribe}
    (hc : r'.Awaits slot c) :
    r.Awaits slot c ∨ c.event.utteranceIndex = n ∧ n' = n + 1 ∧ r.calls slot = none ∧
      ∀ k c', k ≠ slot → r'.Awaits k c' → r.Awaits k c' := by
  obtain ⟨hcall, hfinal, hstage⟩ := hc
  cases h.call hcall with
  | kept hold => exact Or.inl ⟨hold, hfinal, hstage⟩
  | moved hold hevent hkind hasr =>
    -- only the partial task begins to wait for a text later, and its calls are no finals
    have hnotTask := (hr.kinds slot _ hold).mp (hkind ▸ hfinal)
    exact absurd (hasr hstage) hnotTask
  | new hidle hindex hnew =>
    obtain ⟨hn, -, hothers⟩ := hnew hfinal
    refine Or.inr ⟨hindex, hn, hidle, ?_⟩
    rintro k c' hne ⟨hk, hf, hst⟩
    rw [hothers k hne] at hk
    exact ⟨hk, hf, hst⟩

/-- A call has the event and the kind it began with, or is new. -/
theorem Sequel.calls (h : Sequel e r n r' n') {slot : Slot} {c' : Transcribe}
    (hc : r'.calls slot = some c') :
    (∃ c, r.calls slot = some c ∧ c'.event = c.event ∧ c'.final = c.final) ∨
      c'.event.utteranceIndex = n ∧ (c'.final = true → .begins n ∈ r'.log) := by
  cases h.call hc with
  | kept hold => exact Or.inl ⟨c', hold, rfl, rfl⟩
  | moved hold hevent hkind => exact Or.inl ⟨_, hold, hevent, hkind⟩
  | new hidle hindex hnew => exact Or.inr ⟨hindex, fun hfinal => (hnew hfinal).2.1⟩

/-- What a step does to the log. -/
inductive LogStep (r r' : Recognition) (n n' : ℕ) : Prop
  | same (h : r'.log = r.log)
  | sends {slot : Slot} {c : Transcribe} {m : AsrMessage} (hw : slot ∈ r.waiting)
      (hc : r.calls slot = some c) (hm : c.message = some m) (h : r'.log = r.log ++ [.sent m])
  | begins {slot : Slot} {c : Transcribe} (hc : r'.calls slot = some c) (hf : c.final = true)
      (hi : c.event.utteranceIndex = n) (hn : n' = n + 1) (h : r'.log = r.log ++ [.begins n])

theorem Sequel.log (h : Sequel e r n r' n') : LogStep r r' n n' := by
  cases h with
  | same => exact .same rfl
  | moved h =>
    cases h with
    | acquires hh hw hc hm =>
      by_cases hsocket : r.websocket = true
      · exact .sends (hw ▸ List.mem_cons_self) hc hm (if_pos hsocket)
      · exact .same (if_neg hsocket)
    | cancels => exact .same r.cancelPartial_frame.2.1
    | _ => exact .same rfl
  | creates hidle hindex => exact .same rfl
  | @begins slot event hslot hidle hindex =>
    have hcall : (r.cancelPartial.begin slot event).calls slot = some ⟨event, true, .asr⟩ :=
      (set_calls ..).trans (if_pos rfl)
    refine .begins hcall rfl hindex rfl ?_
    rw [← hindex, ← r.cancelPartial_frame.2.1]
    rfl

/-- No final begins beside a task that runs on, and the task was there before, not cancelled, or is
new. -/
theorem Sequel.task (h : Sequel e r n r' n') {c' : Transcribe}
    (hc : r'.calls .partialTask = some c') (hlive : r'.cancelling = false) :
    n' = n ∧ ((∃ c, r.calls .partialTask = some c ∧ c'.event = c.event ∧ r.cancelling = false) ∨
      c'.event.utteranceIndex = n) := by
  have hcancel : ∀ c, r.calls .partialTask = some c → r.cancelPartial.cancelling = true := by
    intro c hc
    unfold cancelPartial
    rw [hc]
    rfl
  have hn : n' = n := by
    cases h with
    | @begins slot event hslot hidle hindex =>
      have hold : (r.cancelPartial.begin slot event).calls .partialTask = r.calls .partialTask :=
        (set_calls ..).trans (by rw [if_neg hslot.symm, cancelPartial_calls])
      exact absurd hlive (by
        rw [show (r.cancelPartial.begin slot event).cancelling = r.cancelPartial.cancelling from rfl,
          hcancel _ (hold.symm.trans hc)]
        simp)
    | _ => rfl
  refine ⟨hn, ?_⟩
  rcases h.calls hc with ⟨c, hcall, hevent, -⟩ | ⟨hindex, -⟩
  · refine Or.inl ⟨c, hcall, hevent, ?_⟩
    cases h with
    | same => exact hlive
    | moved h =>
      cases h with
      | ends => exact absurd hc (by simp [Recognition.set])
      | cancels => exact absurd hlive (by simp [hcancel _ hcall])
      | _ => exact hlive
    | creates hidle => exact absurd (hidle.symm.trans hcall) (by simp)
    | begins => exact absurd hn (Nat.succ_ne_self n)
  · exact Or.inr hindex

end Finals

/-! ## The invariant of a session -/

section Stream

variable {e : SessionEvent} {n n' : ℕ} {r r' : Recognition}

/-- The stream of results so far: `n` is the number of the next final. -/
structure Streaming (n : ℕ) (r : Recognition) : Prop where
  queued : r.Queued
  increasing : (r.results.map Result.seq).Pairwise (· < ·)
  counted : ∀ p ∈ r.results, p.seq ≤ r.sequence
  once : r.finals.Nodup
  known : ∀ i ∈ r.finals, i < n
  awaited : ∀ slot c, r.Awaits slot c →
    c.event.utteranceIndex < n ∧ c.event.utteranceIndex ∉ r.finals
  distinct : ∀ slot slot' c c', r.Awaits slot c → r.Awaits slot' c' →
    c.event.utteranceIndex = c'.event.utteranceIndex → slot = slot'
  begun : ∀ i, .begins i ∈ r.log → i < n
  opened : ∀ slot c, r.calls slot = some c → c.final = true → .begins c.event.utteranceIndex ∈ r.log
  task : ∀ c, r.calls .partialTask = some c → r.cancelling = false →
    .begins c.event.utteranceIndex ∉ r.log
  ordered : ∀ pre p post, r.log = pre ++ .sent (.result p) :: post →
    (p.final = true ↔ .begins p.index ∈ pre)

theorem streaming_init : Streaming 1 {} where
  queued := ⟨List.nodup_nil, by simp, by simp, by simp, by simp, by simp, by simp⟩
  increasing := List.Pairwise.nil
  counted _ h := absurd h (by simp [Recognition.results, sentResults])
  once := List.nodup_nil
  known _ h := absurd h (by simp [Recognition.finals, Recognition.results, sentResults])
  awaited _ _ h := absurd h.1 (by simp)
  distinct _ _ _ _ h := absurd h.1 (by simp)
  begun _ h := absurd h (by simp)
  opened _ _ h := absurd h (by simp)
  task _ h := absurd h (by simp)
  ordered _ _ _ h := absurd h (by simp)

/-- The numbers that results get. -/
theorem Streaming.step_increasing (hs : Streaming n r) (h : ResultsStep e r r') :
    (r'.results.map Result.seq).Pairwise (· < ·) ∧ ∀ p ∈ r'.results, p.seq ≤ r'.sequence := by
  cases h with
  | kept hsub hseq =>
    refine ⟨hs.increasing.sublist (hsub.map _), fun p hp => ?_⟩
    rw [hseq]
    exact hs.counted p (hsub.mem hp)
  | added he htext hc hlive hres hseq hdone =>
    rw [hres, hseq]
    refine ⟨?_, fun p hp => ?_⟩
    · rw [List.map_append, List.pairwise_append]
      refine ⟨hs.increasing, List.pairwise_singleton _ _, fun a ha b hb => ?_⟩
      obtain ⟨p, hp, rfl⟩ := List.mem_map.mp ha
      rw [List.mem_singleton.mp hb]
      exact Nat.lt_succ_of_le (hs.counted p hp)
    · rcases List.mem_append.mp hp with hp | hp
      · exact Nat.le_succ_of_le (hs.counted p hp)
      · rw [List.mem_singleton.mp hp]

/-- The finals a step leaves: fewer, or one more, whose text was awaited. -/
theorem ResultsStep.finals (h : ResultsStep e r r') :
    r'.finals.Sublist r.finals ∨ ∃ slot c, r.Awaits slot c ∧ (∀ c', ¬ r'.Awaits slot c') ∧
      r'.finals = r.finals ++ [c.event.utteranceIndex] ∧
      ∃ text metrics ready, e = .transcribed slot (.text text metrics ready) ∧ text ≠ "" := by
  cases h with
  | kept hsub hseq => exact Or.inl ((hsub.filter _).map _)
  | @added slot event final text metrics ready he htext hc hlive hres hseq hdone =>
    cases final with
    | true =>
      refine Or.inr ⟨slot, _, ⟨hc, rfl, rfl⟩, hdone, ?_, text, metrics, ready, he, htext⟩
      rw [Recognition.finals, hres, List.filter_append, List.map_append]
      rfl
    | false =>
      refine Or.inl ?_
      rw [Recognition.finals, hres, List.filter_append, List.map_append]
      change (r.finals ++ []).Sublist r.finals
      rw [List.append_nil]

/-- Each utterance has one final at most. -/
theorem Streaming.step_finals (hs : Streaming n r) (h : Sequel e r n r' n') :
    r'.finals.Nodup ∧ (∀ i ∈ r'.finals, i < n') ∧
      (∀ slot c, r'.Awaits slot c →
        c.event.utteranceIndex < n' ∧ c.event.utteranceIndex ∉ r'.finals) ∧
      ∀ slot slot' c c', r'.Awaits slot c → r'.Awaits slot' c' →
        c.event.utteranceIndex = c'.event.utteranceIndex → slot = slot' := by
  have hle := h.le
  have hdistinct : ∀ slot slot' c c', r'.Awaits slot c → r'.Awaits slot' c' →
      c.event.utteranceIndex = c'.event.utteranceIndex → slot = slot' := by
    intro slot slot' c c' hc hc' hindex
    by_contra hne
    rcases h.awaits hs.queued hc with hold | ⟨hn, -, -, hothers⟩
    · rcases h.awaits hs.queued hc' with hold' | ⟨hn', -, -, -⟩
      · exact hne (hs.distinct slot slot' c c' hold hold' hindex)
      · have := (hs.awaited slot c hold).1
        omega
    · have := (hs.awaited slot' c' (hothers slot' c' (Ne.symm hne) hc')).1
      omega
  rcases (results_step h hs.queued).finals with hsub | ⟨slot, c, hawaits, hdone, hfinals, -⟩
  · refine ⟨hs.once.sublist hsub, fun i hi => ?_, fun slot c hc => ?_, hdistinct⟩
    · exact lt_of_lt_of_le (hs.known i (hsub.mem hi)) hle
    · rcases h.awaits hs.queued hc with hold | ⟨hn, hn', -, -⟩
      · obtain ⟨hlt, hnot⟩ := hs.awaited slot c hold
        exact ⟨lt_of_lt_of_le hlt hle, fun hmem => hnot (hsub.mem hmem)⟩
      · refine ⟨by omega, fun hmem => ?_⟩
        have := hs.known _ (hsub.mem hmem)
        omega
  · obtain ⟨hlt, hnot⟩ := hs.awaited slot c hawaits
    rw [hfinals]
    refine ⟨List.nodup_append.mpr ⟨hs.once, List.nodup_singleton _, fun a ha b hb heq => ?_⟩,
      fun i hi => ?_, fun slot' c' hc' => ?_, hdistinct⟩
    · rw [List.mem_singleton.mp hb] at heq
      exact hnot (heq ▸ ha)
    · rcases List.mem_append.mp hi with hi | hi
      · exact lt_of_lt_of_le (hs.known i hi) hle
      · rw [List.mem_singleton.mp hi]
        exact lt_of_lt_of_le hlt hle
    · have hne : slot' ≠ slot := by
        rintro rfl
        exact hdone c' hc'
      rcases h.awaits hs.queued hc' with hold | ⟨hn, hn', -, -⟩
      · obtain ⟨hlt', hnot'⟩ := hs.awaited slot' c' hold
        refine ⟨lt_of_lt_of_le hlt' hle, fun hmem => ?_⟩
        rcases List.mem_append.mp hmem with hmem | hmem
        · exact hnot' hmem
        · exact hne (hs.distinct slot' slot c' c hold hawaits (List.mem_singleton.mp hmem))
      · refine ⟨by omega, fun hmem => ?_⟩
        rcases List.mem_append.mp hmem with hmem | hmem
        · have := hs.known _ hmem
          omega
        · have := List.mem_singleton.mp hmem
          omega

/-- What a step adds to the log about finals that begin. -/
theorem LogStep.begins_mem (h : LogStep r r' n n') {i : ℕ} (hi : .begins i ∈ r'.log) :
    .begins i ∈ r.log ∨ i = n ∧ n' = n + 1 := by
  cases h with
  | same h => exact Or.inl (h ▸ hi)
  | sends hw hc hm h =>
    rw [h] at hi
    exact Or.inl (by simpa using hi)
  | begins hc hf hidx hn h =>
    rw [h] at hi
    rcases List.mem_append.mp hi with hi | hi
    · exact Or.inl hi
    · exact Or.inr ⟨by simpa using hi, hn⟩

theorem LogStep.grows (h : LogStep r r' n n') : r.log <+: r'.log := by
  cases h with
  | same h => exact h ▸ List.prefix_rfl
  | sends hw hc hm h => exact h ▸ List.prefix_append _ _
  | begins hc hf hidx hn h => exact h ▸ List.prefix_append _ _

/-- A payload about to be sent is a final exactly if its final segment has begun. -/
theorem Streaming.sends_ordered (hs : Streaming n r) {slot : Slot} {c : Transcribe} {p : Result}
    (hw : slot ∈ r.waiting) (hc : r.calls slot = some c) (hm : c.message = some (.result p)) :
    p.final = true ↔ .begins p.index ∈ r.log := by
  have hstage : c.stage = .result p := by
    unfold Transcribe.message at hm
    split at hm
    · rename_i payload hstage
      rw [hstage, AsrMessage.result.inj (Option.some.inj hm)]
    · exact absurd hm (by simp)
    · exact absurd hm (by simp)
    · exact absurd hm (by simp)
  obtain ⟨hfinal, hindex⟩ := hs.queued.payloads slot c p hc hstage
  rw [hfinal, hindex]
  refine ⟨hs.opened slot c hc, fun hmem => ?_⟩
  by_contra hnotFinal
  -- a partial that waits is that of the task, which is not cancelled
  obtain rfl : slot = .partialTask := by
    by_contra hne
    exact hnotFinal ((hs.queued.kinds slot c hc).mpr hne)
  have hlive : r.cancelling = false := by
    by_contra hcancel
    exact hs.queued.live (by simpa using hcancel) hw
  exact hs.task c hc hlive hmem

/-- The log of finals that begin and results that are sent. -/
theorem Streaming.step_log (hs : Streaming n r) (h : Sequel e r n r' n') :
    (∀ i, .begins i ∈ r'.log → i < n') ∧
      (∀ slot c, r'.calls slot = some c → c.final = true →
        .begins c.event.utteranceIndex ∈ r'.log) ∧
      (∀ c, r'.calls .partialTask = some c → r'.cancelling = false →
        .begins c.event.utteranceIndex ∉ r'.log) ∧
      ∀ pre p post, r'.log = pre ++ .sent (.result p) :: post →
        (p.final = true ↔ .begins p.index ∈ pre) := by
  have hle := h.le
  have hbegun : ∀ i, .begins i ∈ r'.log → i < n' := by
    intro i hi
    rcases h.log.begins_mem hi with hi | ⟨rfl, hn⟩
    · exact lt_of_lt_of_le (hs.begun i hi) hle
    · omega
  refine ⟨hbegun, fun slot c hc hf => ?_, fun c hc hlive hmem => ?_, fun pre p post hsplit => ?_⟩
  · rcases h.calls hc with ⟨c₀, hcall, hevent, hfinal⟩ | ⟨hindex, hnew⟩
    · rw [hevent]
      exact h.log.grows.mem (hs.opened slot c₀ hcall (hfinal ▸ hf))
    · rw [hindex]
      exact hnew hf
  · obtain ⟨hn, ⟨c₀, hcall, hevent, hold⟩ | hindex⟩ := h.task hc hlive
    · rcases h.log.begins_mem hmem with hmem | ⟨-, hn'⟩
      · exact hs.task c₀ hcall hold (hevent ▸ hmem)
      · omega
    · have := hbegun _ hmem
      omega
  · cases h.log with
    | same hlog => exact hs.ordered pre p post (hlog ▸ hsplit)
    | sends hw hc hm hlog =>
      rcases Run.split_concat (hlog ▸ hsplit) with ⟨rfl, hlast, -⟩ | ⟨post, -, hsplit⟩
      · exact hs.sends_ordered hw hc (by rw [hm, Entry.sent.inj hlast])
      · exact hs.ordered pre p post hsplit
    | begins hc hf hidx hn hlog =>
      rcases Run.split_concat (hlog ▸ hsplit) with ⟨-, hlast, -⟩ | ⟨post, -, hsplit⟩
      · exact absurd hlast (by simp)
      · exact hs.ordered pre p post hsplit

/-- **Every step keeps the stream.** -/
theorem Streaming.step (hs : Streaming n r) (h : Sequel e r n r' n') : Streaming n' r' := by
  obtain ⟨hincreasing, hcounted⟩ := hs.step_increasing (results_step h hs.queued)
  obtain ⟨honce, hknown, hawaited, hdistinct⟩ := hs.step_finals h
  obtain ⟨hbegun, hopened, htask, hordered⟩ := hs.step_log h
  exact ⟨h.queued hs.queued, hincreasing, hcounted, honce, hknown, hawaited, hdistinct, hbegun, hopened,
    htask, hordered⟩

end Stream

/-! ## Runs -/

section Runs

variable {cfg : SegmenterConfig} {s t : RealSession} {e : SessionEvent}

/-- The session in order: its segmenter's numbers and its stream. -/
structure Recognizing (s : RealSession) : Prop where
  numbered : s.segmenter.Numbered
  streaming : Streaming s.segmenter.upcoming s.asr

theorem recognizing_init : Recognizing {} := ⟨fun h => absurd h (by simp), streaming_init⟩

theorem Recognizing.step (hs : Recognizing s) (h : s.step cfg e = some t) : Recognizing t :=
  ⟨(step_sequel h hs.numbered).1, hs.streaming.step (step_sequel h hs.numbered).2⟩

/-- A started session after any events. -/
def session (cfg : SegmenterConfig) (es : List SessionEvent) : RealSession :=
  Run.final (RealSession.step cfg) {} es

theorem recognizing (cfg : SegmenterConfig) (es : List SessionEvent) :
    Recognizing (session cfg es) :=
  Run.final_of_step (fun _ _ _ hs h => hs.step h) recognizing_init es

/-- Utterances with one identifier are one. -/
theorem utteranceId_injective (sessionId : String) : (utteranceId sessionId).Injective := fun _ _ h =>
  Text.append_repr_injective h

/-- **The recognition stream.** After any events of a session, the results sent have increasing `seq`;
no two finals have one `utteranceId`; and no partial of an utterance was sent after its final segment had
begun its transcription, nor after its final. -/
theorem recognition_stream (cfg : SegmenterConfig) (sessionId : String) (es : List SessionEvent) :
    let log := (session cfg es).asr.log
    ((sentResults log).map Result.seq).Pairwise (· < ·) ∧
      (((sentResults log).filter Result.final).map
        fun p => utteranceId sessionId p.index).Nodup ∧
      ∀ pre p post, log = pre ++ .sent (.result p) :: post → p.final = false →
        .begins p.index ∉ pre ∧
          ∀ q, .sent (.result q) ∈ pre → q.final = true → q.index ≠ p.index := by
  intro log
  have hs := (recognizing cfg es).streaming
  have hsent : (sentResults log).Sublist (session cfg es).asr.results := List.sublist_append_left _ _
  refine ⟨hs.increasing.sublist (hsent.map _), ?_, fun pre p post hsplit hnotFinal => ?_⟩
  · have honce : (((sentResults log).filter Result.final).map Result.index).Nodup :=
      hs.once.sublist ((hsent.filter _).map _)
    have := honce.map (utteranceId_injective sessionId)
    rwa [List.map_map] at this
  · have hnot : .begins p.index ∉ pre := fun hmem =>
      absurd ((hs.ordered pre p post hsplit).mpr hmem) (by simp [hnotFinal])
    refine ⟨hnot, fun q hq hfinal hindex => hnot ?_⟩
    obtain ⟨before, between, rfl⟩ := List.append_of_mem hq
    have hsplit' : (session cfg es).asr.log =
        before ++ .sent (.result q) :: (between ++ .sent (.result p) :: post) := by
      rw [show (session cfg es).asr.log = log from rfl, hsplit, List.append_assoc, List.cons_append]
    exact List.mem_append_left _ (hindex ▸ (hs.ordered before q _ hsplit').mp hfinal)

end Runs

end SenseVoice.Bridge
