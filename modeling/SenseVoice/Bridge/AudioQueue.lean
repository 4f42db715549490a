import Mathlib.Logic.Relation
import SenseVoice.Bridge.Overlaps

/-!
# The audio queue and the life of its consumer

`_on_pcm` fills the queue, and `stop` waits for room in it to put its end marker. What makes room is the
worker. It ends when it takes the marker, or by an exception: `_transcribe` handles the exceptions of
the transcription and of its sends by one more `emit`, and that one is not guarded.

Results:
* `queue_step`: what a step does to the queue, its worker and `stop`;
* `worker_step`: what ends the worker;
* `drains_of_putting`, `drains_of_marker`: from where `stop` waits a running worker can drain the queue to
  the marker. The sends before its call come to an end, since each one that returns leaves fewer;
* **`full_queue_served`**: until the marker is consumed a full queue has a running worker, and where
  `stop` waits the queue can be drained, as long as no `emit` of the worker's `asr.error` raises;
* `full_queue_unserved`: else the queue may fill up for good.
-/

namespace SenseVoice.Bridge

open Lib Recognition

/-! ## The worker at the lock -/

section Lock

variable {e : SessionEvent} {n n' : ℕ} {r r' : Recognition}

/-- A worker that sends waits for the lock or holds it, and its call has begun. -/
structure Attended (r : Recognition) : Prop where
  served : ∀ c, r.calls .worker = some c → c.message.isSome = true →
    .worker ∈ r.waiting ∨ ∃ h, r.holder = some h ∧ h.slot = .worker
  begun : ∀ c, r.calls .worker = some c → c.stage ≠ .created

theorem attended_init : Attended {} := ⟨by simp, by simp⟩

/-- A change elsewhere that takes no place from the worker. -/
theorem Attended.of_other (ha : Attended r) (hcalls : r'.calls .worker = r.calls .worker)
    (hwaiting : .worker ∈ r.waiting → .worker ∈ r'.waiting)
    (hholder : ∀ h, r.holder = some h → h.slot = .worker → r'.holder = some h) : Attended r' := by
  constructor
  · intro c hc hm
    rw [hcalls] at hc
    rcases ha.served c hc hm with hw | ⟨h, hh, hslot⟩
    · exact Or.inl (hwaiting hw)
    · exact Or.inr ⟨h, hholder h hh hslot, hslot⟩
  · rw [hcalls]
    exact ha.begun

/-- The lock is taken from another slot only. -/
theorem Runs.keeps {slot : Slot} {c : Transcribe} {h : Option Holder} (hrun : Runs r slot c h)
    (hslot : slot ≠ .worker) : ∀ k, r.holder = some k → k.slot = .worker → h = some k := by
  intro k hk hworker
  cases hrun with
  | asr => exact hk
  | sender hh hs =>
    obtain rfl := Option.some.inj (hh.symm.trans hk)
    exact absurd (hs.symm.trans hworker) hslot

theorem Attended.cancelPartial (ha : Attended r) : Attended r.cancelPartial := by
  refine ha.of_other (by rw [cancelPartial_calls]) (fun hw => ?_) (fun h hh _ => ?_)
  · unfold Recognition.cancelPartial
    split
    · exact List.mem_filter.mpr ⟨hw, by decide⟩
    · exact hw
  · rw [r.cancelPartial_frame.1]
    exact hh

/-- What runs between two waits leaves the worker attended. -/
theorem Move.attended (h : Move e r r') (ha : Attended r) : Attended r' := by
  cases h with
  | starts hc => exact ha.of_other (set_calls ..) id fun _ hh _ => hh
  | @returns slot c h hc hlive hrun =>
    by_cases hslot : slot = .worker
    · subst hslot
      exact ⟨fun c' hc' => absurd hc' (by simp), fun c' hc' => absurd hc' (by simp)⟩
    · exact ha.of_other ((set_calls ..).trans (if_neg (Ne.symm hslot))) id (hrun.keeps hslot)
  | @emits slot c h stage hc hlive hrun hstage =>
    by_cases hslot : slot = .worker
    · subst hslot
      refine ⟨fun c' _ _ => Or.inl (List.mem_append_right _ List.mem_cons_self), fun c' hc' => ?_⟩
      rw [emit_calls, if_pos rfl] at hc'
      rw [← Option.some.inj hc']
      rcases hstage with ⟨message, rfl⟩ | ⟨payload, ms, -, rfl⟩ <;> simp
    · exact ha.of_other ((emit_calls ..).trans (if_neg (Ne.symm hslot)))
        (List.mem_append_left _) (hrun.keeps hslot)
  | @numbers slot event final text metrics ready he htext hc hlive =>
    by_cases hslot : slot = .worker
    · subst hslot
      refine ⟨fun c' _ _ => Or.inl (List.mem_append_right _ List.mem_cons_self), fun c' hc' => ?_⟩
      rw [emit_calls, if_pos rfl] at hc'
      rw [← Option.some.inj hc']
      simp
    · exact ha.of_other ((emit_calls ..).trans (if_neg (Ne.symm hslot)))
        (List.mem_append_left _) fun _ hh _ => hh
  | @acquires slot rest c m hh hw hc hm =>
    refine ⟨fun c' hc' hm' => ?_, ha.begun⟩
    rcases ha.served c' hc' hm' with hmem | ⟨h, hold, -⟩
    · rw [hw] at hmem
      rcases List.mem_cons.mp hmem with hslot | hmem
      · exact Or.inr ⟨_, rfl, hslot.symm⟩
      · exact Or.inl hmem
    · exact absurd (hh.symm.trans hold) (by simp)
  | ends hcancel =>
    refine ha.of_other (set_calls .partialTask .worker none r) id fun h hold hslot => ?_
    exact Option.filter_eq_some_iff.mpr ⟨hold, by simp [hslot]⟩
  | cancels => exact ha.cancelPartial
  | socket present => exact ha.of_other rfl id fun _ hh _ => hh

/-- **Every step leaves the worker attended.** -/
theorem Sequel.attended (h : Sequel e r n r' n') (ha : Attended r) : Attended r' := by
  cases h with
  | same => exact ha
  | moved h => exact h.attended ha
  | @creates event hidle hindex =>
    exact ha.of_other (set_calls .partialTask .worker (some ⟨event, false, .created⟩) r) id
      fun _ hh _ => hh
  | @begins slot event hslot hidle hindex =>
    have hcancel := ha.cancelPartial
    by_cases hworker : slot = .worker
    · subst hworker
      have hcall : (r.cancelPartial.begin .worker event).calls .worker = some ⟨event, true, .asr⟩ :=
        (set_calls .worker .worker _ r.cancelPartial).trans (if_pos rfl)
      constructor
      · intro c hc hm
        rw [hcall] at hc
        rw [← Option.some.inj hc] at hm
        exact absurd hm (by simp [Transcribe.message])
      · intro c hc
        rw [hcall] at hc
        rw [← Option.some.inj hc]
        simp
    · exact hcancel.of_other ((set_calls ..).trans (if_neg (Ne.symm hworker))) id fun _ hh _ => hh

/-- The sends a call has before it. -/
def Transcribe.sendsLeft (c : Transcribe) : ℕ :=
  match c.stage with
  | .result _ => 2
  | .trace _ _ _ | .error _ => 1
  | _ => 0

/-- The sends before the slot's coroutine. -/
def Recognition.left (slot : Slot) (r : Recognition) : ℕ := (r.calls slot).elim 0 Transcribe.sendsLeft

/-- The sends before all coroutines. -/
def Recognition.load (r : Recognition) : ℕ := r.left .worker + r.left .partialTask + r.left .commit

/-- One slot has fewer sends before it, and the others have as many. -/
theorem load_lt (slot : Slot) (hslot : r'.left slot < r.left slot)
    (hothers : ∀ k, k ≠ slot → r'.left k = r.left k) : r'.load < r.load := by
  unfold Recognition.load
  cases slot with
  | worker =>
    have hp := hothers .partialTask (by decide)
    have hc := hothers .commit (by decide)
    omega
  | partialTask =>
    have hw := hothers .worker (by decide)
    have hc := hothers .commit (by decide)
    omega
  | commit =>
    have hw := hothers .worker (by decide)
    have hp := hothers .partialTask (by decide)
    omega

theorem sendsLeft_pos {c : Transcribe} (h : c.message.isSome = true) : 0 < c.sendsLeft := by
  unfold Transcribe.message at h
  unfold Transcribe.sendsLeft
  cases hstage : c.stage <;> simp [hstage] at h ⊢

end Lock

section Queue

variable {cfg : SegmenterConfig} {s t : RealSession} {e : SessionEvent}

/-- The `emit` of the worker's `asr.error` raises. -/
def ErrorEmitRaises (x : Run.Taken RealSession SessionEvent) : Prop :=
  ∃ exc sendMs hold c message, x.event = .sent (some exc) sendMs ∧
    x.before.asr.holder = some hold ∧ hold.slot = .worker ∧
    x.before.asr.calls .worker = some c ∧ c.stage = .error message

/-- **What a step does** to the queue, its worker and `stop`. -/
inductive QueueStep (e : SessionEvent) (s t : RealSession) : Prop
  | same (hqueue : t.queue = s.queue) (hworker : t.worker = s.worker)
      (hstopping : t.stopping = s.stopping)
  | fed (frame : AudioFrame) (hqueue : t.queue = s.queue ++ [some frame])
      (hworker : t.worker = s.worker) (hstopping : t.stopping = s.stopping)
  | took (frame : AudioFrame) (hqueue : s.queue = some frame :: t.queue)
      (hworker : t.worker = s.worker) (hstopping : t.stopping = s.stopping)
  | ended (he : e = .work) (hqueue : s.queue = none :: t.queue) (hrunning : s.worker = .running)
      (hworker : t.worker = .returned)
  | raised (h : ErrorEmitRaises ⟨s, e, t⟩) (exc : String) (hworker : t.worker = .failed exc)
  | called (hworker : t.worker = s.worker) (hstopping : t.stopping = .putting)
  | put (hqueue : t.queue = s.queue ++ [none]) (hworker : t.worker = s.worker)
  | left (hworker : t.worker = s.worker) (hstopping : t.stopping ≠ .joining)

theorem queue_step (h : s.step cfg e = some t) : QueueStep e s t := by
  cases e with
  | pcm frame =>
    obtain rfl := Option.some.inj h
    unfold RealSession.onPcm
    split
    · exact .fed frame rfl rfl rfl
    · exact .same rfl rfl rfl
  | work =>
    simp only [RealSession.step, RealSession.work] at h
    split at h
    · rename_i hidle
      split at h
      · exact absurd h (by simp)
      · rename_i hqueue
        obtain rfl := Option.some.inj h
        exact .ended rfl hqueue hidle.1 rfl
      · rename_i frame _ hqueue
        obtain rfl := Option.some.inj h
        exact .took frame hqueue rfl rfl
    · exact absurd h (by simp)
  | sent raised sendMs =>
    obtain ⟨⟨slot, asr, exc⟩, hsent, rfl⟩ := Option.map_eq_some_iff.mp h
    have hraises := (sent_move (e := .sent raised sendMs) hsent).2
    cases exc with
    | none => cases slot <;> exact .same rfl rfl rfl
    | some exc =>
      obtain ⟨hold, c, message, hh, rfl, hc, hstage, rfl⟩ := hraises rfl
      cases hslot : hold.slot with
      | worker =>
        exact .raised ⟨exc, sendMs, hold, c, message, rfl, hh, hslot, hslot ▸ hc, hstage⟩ exc rfl
      | partialTask => exact .same rfl rfl rfl
      | commit => exact .same rfl rfl rfl
  | commit nowNs =>
    simp only [RealSession.step, RealSession.commit] at h
    split at h
    · obtain rfl := Option.some.inj h
      exact .same rfl rfl rfl
    · exact absurd h (by simp)
  | stop =>
    simp only [RealSession.step] at h
    split at h
    · obtain rfl := Option.some.inj h
      exact .called rfl rfl
    · exact absurd h (by simp)
  | putMarker =>
    simp only [RealSession.step, RealSession.putMarker] at h
    split at h
    · obtain rfl := Option.some.inj h
      exact .put rfl rfl
    · exact absurd h (by simp)
  | joined =>
    simp only [RealSession.step, RealSession.joined] at h
    split at h
    · obtain rfl := Option.some.inj h
      exact .left rfl (by simp)
    · obtain rfl := Option.some.inj h
      exact .left rfl (by simp)
    · exact absurd h (by simp)
  | websocket present =>
    obtain rfl := Option.some.inj h
    exact .same rfl rfl rfl
  | _ =>
    obtain ⟨asr, -, rfl⟩ := Option.map_eq_some_iff.mp h
    exact .same rfl rfl rfl

/-- **What ends the worker**: the marker, or the `emit` of its `asr.error`. -/
theorem worker_step (h : s.step cfg e = some t) :
    t.worker = s.worker ∨ (e = .work ∧ s.worker = .running ∧ t.worker = .returned ∧
      ∃ rest, s.queue = none :: rest) ∨ ErrorEmitRaises ⟨s, e, t⟩ := by
  cases queue_step h with
  | ended he hqueue hrunning hworker => exact Or.inr (Or.inl ⟨he, hrunning, hworker, _, hqueue⟩)
  | raised h => exact Or.inr (Or.inr h)
  | same _ hworker => exact Or.inl hworker
  | fed _ _ hworker => exact Or.inl hworker
  | took _ _ hworker => exact Or.inl hworker
  | called hworker => exact Or.inl hworker
  | put _ hworker => exact Or.inl hworker
  | left hworker => exact Or.inl hworker

end Queue

/-! ## The worker goes on -/

section Drain

variable {cfg : SegmenterConfig} {s t u : RealSession}

/-- The session goes on by a step in which no `emit` of the worker's `asr.error` raises. -/
def Goes (cfg : SegmenterConfig) (s t : RealSession) : Prop :=
  ∃ e, s.step cfg e = some t ∧ ¬ ErrorEmitRaises ⟨s, e, t⟩

theorem goes_of_quiet {e : SessionEvent} (h : s.step cfg e = some t)
    (hquiet : ∀ exc sendMs, e ≠ .sent (some exc) sendMs) : Goes cfg s t := by
  refine ⟨e, h, ?_⟩
  rintro ⟨exc, sendMs, -, -, -, he, -⟩
  exact hquiet exc sendMs he

/-- The session in order, with its worker attended. -/
structure Attending (s : RealSession) : Prop where
  recognizing : Recognizing s
  attended : Attended s.asr

theorem Attending.queued (hs : Attending s) : s.asr.Queued := hs.recognizing.streaming.queued

theorem attending_init : Attending {} := ⟨recognizing_init, attended_init⟩

theorem Attending.step {e : SessionEvent} (hs : Attending s) (h : s.step cfg e = some t) :
    Attending t :=
  ⟨hs.recognizing.step h, (step_sequel h hs.recognizing.numbered).2.attended hs.attended⟩

theorem Attending.goes (hs : Attending s) (h : Goes cfg s t) : Attending t := by
  obtain ⟨e, he, -⟩ := h
  exact hs.step he

/-- Only what the coroutines that transcribe do differs. -/
def SameElsewhere (s t : RealSession) : Prop :=
  t.queue = s.queue ∧ t.worker = s.worker ∧ t.stopping = s.stopping

theorem left_set (slot k : Slot) (c : Option Transcribe) (r : Recognition) :
    (r.set slot c).left k = if k = slot then c.elim 0 Transcribe.sendsLeft else r.left k := by
  unfold Recognition.left
  rw [set_calls]
  split <;> rfl

/-- A send that returns leaves its call with one send less before it. -/
theorem afterSend_left (r : Recognition) (slot : Slot) {c : Transcribe} (hm : c.message.isSome = true)
    (ms : Number) : ∃ asr, r.afterSend slot c none ms = (asr, none) ∧ asr.left slot < c.sendsLeft ∧
      ∀ k, k ≠ slot → asr.left k = r.left k := by
  have hpos := sendsLeft_pos hm
  have hdone : (r.set slot none).left slot < c.sendsLeft := by
    rw [left_set, if_pos rfl]
    exact hpos
  have hothers : ∀ (x : Option Transcribe) (k : Slot), k ≠ slot → (r.set slot x).left k = r.left k :=
    fun x k hk => (left_set slot k x r).trans (if_neg hk)
  unfold Recognition.afterSend
  cases hstage : c.stage with
  | result payload =>
    refine ⟨_, rfl, ?_, fun k hk => hothers _ k hk⟩
    have hleft : (r.emit slot c (.trace payload r.sequence ms)).left slot = 1 :=
      (left_set slot slot _ r).trans (if_pos rfl)
    rw [hleft]
    simp [Transcribe.sendsLeft, hstage]
  | _ => exact ⟨_, rfl, hdone, hothers none⟩

/-- The owner of the lock gives it up, with one send less before the coroutines. -/
theorem releases (cfg : SegmenterConfig) (hs : Attending s) {h : Holder} (hh : s.asr.holder = some h) :
    ∃ t, Goes cfg s t ∧ SameElsewhere s t ∧ t.asr.load < s.asr.load := by
  obtain ⟨c, hc, hm⟩ := hs.queued.sends h hh
  have hleft : s.asr.left h.slot = c.sendsLeft := by
    unfold Recognition.left
    rw [hc]
    rfl
  by_cases hlive : s.asr.live h.slot = true
  · -- its send returns
    obtain ⟨asr, hafter, hless, hothers⟩ :=
      afterSend_left { s.asr with holder := none } h.slot hm (.unsigned 0)
    have hsent : s.asr.sent none (.unsigned 0) = some (h.slot, asr, none) := by
      unfold Recognition.sent
      simp [hh, hlive, hc, hafter]
    have hstep : s.step cfg (.sent none (.unsigned 0)) = some { s with asr := asr } := by
      simp only [RealSession.step, RealSession.sent, hsent, Option.map_some]
      cases h.slot <;> rfl
    exact ⟨_, goes_of_quiet hstep (by simp), ⟨rfl, rfl, rfl⟩, load_lt h.slot (hleft ▸ hless) hothers⟩
  · -- it is the cancelled task, which ends
    have hcancelling : h.slot = .partialTask ∧ s.asr.cancelling = true := by
      unfold Recognition.live at hlive
      simpa using hlive
    have hstep : s.step cfg .cancelled = some { s with asr := { s.asr.set .partialTask none with
        cancelling := false
        holder := s.asr.holder.filter fun h => h.slot ≠ .partialTask } } := by
      simp only [RealSession.step, Recognition.cancelled, hcancelling.2, if_true, Option.map_some]
    refine ⟨_, goes_of_quiet hstep (by simp), ⟨rfl, rfl, rfl⟩, load_lt h.slot ?_ fun k hk => ?_⟩
    · rw [hleft, hcancelling.1]
      have hzero : (s.asr.set .partialTask none).left .partialTask = 0 :=
        (left_set ..).trans (if_pos rfl)
      exact lt_of_eq_of_lt hzero (sendsLeft_pos hm)
    · rw [hcancelling.1] at hk
      exact (left_set .partialTask k none s.asr).trans (if_neg hk)

/-- The first waiter takes the free lock. -/
theorem takes (cfg : SegmenterConfig) (hs : Attending s) (hh : s.asr.holder = none) {slot : Slot}
    {rest : List Slot} (hw : s.asr.waiting = slot :: rest) :
    ∃ t, Goes cfg s t ∧ SameElsewhere s t ∧ t.asr.load = s.asr.load ∧
      t.asr.calls = s.asr.calls ∧ t.asr.holder.isSome = true := by
  obtain ⟨c, hc, hm⟩ := hs.queued.emitting slot (hw ▸ List.mem_cons_self)
  obtain ⟨m, hm⟩ := Option.isSome_iff_exists.mp hm
  obtain ⟨asr, hasr, hcalls, hholder⟩ : ∃ asr, s.asr.acquire = some asr ∧
      asr.calls = s.asr.calls ∧ asr.holder.isSome = true := by
    unfold Recognition.acquire
    rw [hh, hw]
    simp only [hc, Option.bind_some, hm, Option.map_some]
    exact ⟨_, rfl, rfl, rfl⟩
  have hstep : s.step cfg .acquire = some { s with asr := asr } := by
    simp only [RealSession.step, hasr, Option.map_some]
  have hload : asr.load = s.asr.load := by
    unfold Recognition.load Recognition.left
    rw [hcalls]
  exact ⟨_, goes_of_quiet hstep (by simp), ⟨rfl, rfl, rfl⟩, hload, hcalls, hholder⟩

theorem SameElsewhere.trans (h : SameElsewhere s t) (h' : SameElsewhere t u) : SameElsewhere s u :=
  ⟨h'.1.trans h.1, h'.2.1.trans h.2.1, h'.2.2.trans h.2.2⟩

/-- The sends before the worker come to an end. By induction on their number. -/
theorem worker_outside (cfg : SegmenterConfig) (hs : Attending s) :
    ∃ t, Relation.ReflTransGen (Goes cfg) s t ∧ SameElsewhere s t ∧ Attending t ∧
      ∀ c, t.asr.calls .worker = some c → c.message = none := by
  induction hload : s.asr.load using Nat.strong_induction_on generalizing s with
  | _ load ih =>
    subst hload
    have hrelease : ∀ u, Relation.ReflTransGen (Goes cfg) s u → SameElsewhere s u → Attending u →
        u.asr.load ≤ s.asr.load → u.asr.holder.isSome = true →
        ∃ t, Relation.ReflTransGen (Goes cfg) s t ∧ SameElsewhere s t ∧ Attending t ∧
          ∀ c, t.asr.calls .worker = some c → c.message = none := by
      intro u hpath hsame hu hle hholder
      obtain ⟨h, hh⟩ := Option.isSome_iff_exists.mp hholder
      obtain ⟨v, hgo, hsame', hlt⟩ := releases cfg hu hh
      obtain ⟨t, hrest, hsame'', ht, hout⟩ := ih v.asr.load (lt_of_lt_of_le hlt hle) (hu.goes hgo) rfl
      exact ⟨t, (hpath.tail hgo).trans hrest, (hsame.trans hsame').trans hsame'', ht, hout⟩
    by_cases hsends : ∃ c, s.asr.calls .worker = some c ∧ c.message.isSome = true
    · obtain ⟨c, hc, hm⟩ := hsends
      cases hh : s.asr.holder with
      | some h => exact hrelease s .refl ⟨rfl, rfl, rfl⟩ hs le_rfl (by rw [hh]; rfl)
      | none =>
        have hw : .worker ∈ s.asr.waiting := by
          rcases hs.attended.served c hc hm with hw | ⟨h, hold, -⟩
          · exact hw
          · exact absurd (hh.symm.trans hold) (by simp)
        obtain ⟨slot, rest, hwaiting⟩ := List.exists_cons_of_ne_nil (List.ne_nil_of_mem hw)
        obtain ⟨u, hgo, hsame, hload, -, hholder⟩ := takes cfg hs hh hwaiting
        exact hrelease u (.single hgo) hsame (hs.goes hgo) hload.le hholder
    · refine ⟨s, .refl, ⟨rfl, rfl, rfl⟩, hs, fun c hc => ?_⟩
      cases hm : c.message with
      | none => rfl
      | some m => exact absurd ⟨c, hc, by rw [hm]; rfl⟩ hsends

/-- The worker's call comes to an end. -/
theorem worker_idle (cfg : SegmenterConfig) (hs : Attending s) :
    ∃ t, Relation.ReflTransGen (Goes cfg) s t ∧ SameElsewhere s t ∧ Attending t ∧
      t.asr.calls .worker = none := by
  obtain ⟨t, hpath, hsame, ht, hout⟩ := worker_outside cfg hs
  cases hc : t.asr.calls .worker with
  | none => exact ⟨t, hpath, hsame, ht, hc⟩
  | some c =>
    -- it waits for its text, and the text is empty
    obtain ⟨event, final, stage⟩ := c
    have hm := hout _ hc
    have hbegun := ht.attended.begun _ hc
    have hstage : stage = .asr := by
      cases stage with
      | asr => rfl
      | created => exact absurd rfl hbegun
      | result payload => exact absurd hm (by simp [Transcribe.message])
      | trace payload seq sendMs => exact absurd hm (by simp [Transcribe.message])
      | error message => exact absurd hm (by simp [Transcribe.message])
    subst hstage
    have hstep : t.step cfg (.transcribed .worker (.text "" .null 0)) =
        some { t with asr := t.asr.set .worker none } := by
      simp [RealSession.step, Recognition.transcribed, hc, Recognition.live]
    have hgo : Goes cfg t { t with asr := t.asr.set .worker none } :=
      goes_of_quiet hstep (by simp)
    exact ⟨_, hpath.tail hgo, hsame.trans ⟨rfl, rfl, rfl⟩, ht.goes hgo, (set_calls ..).trans (if_pos rfl)⟩

/-- The worker can go on until it takes the marker. -/
def Drains (cfg : SegmenterConfig) (s : RealSession) : Prop :=
  ∃ t, Relation.ReflTransGen (Goes cfg) s t ∧ t.worker = .returned

/-- A running worker takes the next item: it returns, or goes on with the rest of the queue. -/
theorem takes_item (cfg : SegmenterConfig) (hs : Attending s) (hrun : s.worker = .running)
    {item : Option AudioFrame} {rest : List (Option AudioFrame)} (hq : s.queue = item :: rest) :
    ∃ t, Relation.ReflTransGen (Goes cfg) s t ∧ Attending t ∧
      ((item = none ∧ t.worker = .returned) ∨
        (item ≠ none ∧ t.queue = rest ∧ t.worker = .running ∧ t.stopping = s.stopping)) := by
  obtain ⟨u, hpath, ⟨hqueue, hworker, hstopping⟩, hu, hidle⟩ := worker_idle cfg hs
  have hready : u.worker = .running ∧ (u.asr.calls .worker).isNone = true :=
    ⟨hworker.trans hrun, by rw [hidle]; rfl⟩
  have hitem : u.queue = item :: rest := hqueue.trans hq
  cases item with
  | none =>
    have hstep : u.step cfg .work = some { u with queue := rest, worker := .returned } := by
      simp only [RealSession.step, RealSession.work, if_pos hready, hitem]
    have hgo : Goes cfg u { u with queue := rest, worker := .returned } :=
      goes_of_quiet hstep (by simp)
    exact ⟨_, hpath.tail hgo, hu.goes hgo, Or.inl ⟨rfl, rfl⟩⟩
  | some frame =>
    obtain ⟨t, hstep, hrest⟩ : ∃ t, u.step cfg .work = some t ∧ t.queue = rest ∧
        t.worker = u.worker ∧ t.stopping = u.stopping := by
      simp only [RealSession.step, RealSession.work, if_pos hready, hitem]
      exact ⟨_, rfl, rfl, rfl, rfl⟩
    have hgo : Goes cfg u t :=
      goes_of_quiet hstep (by simp)
    exact ⟨t, hpath.tail hgo, hu.goes hgo, Or.inr ⟨by simp, hrest.1, hrest.2.1.trans hready.1,
      hrest.2.2.trans hstopping⟩⟩

/-- Once the marker is in the queue. By induction on the queue. -/
theorem drains_of_marker (cfg : SegmenterConfig) (hs : Attending s) (hrun : s.worker = .running)
    (hmarker : none ∈ s.queue) : Drains cfg s := by
  induction hq : s.queue generalizing s with
  | nil =>
    rw [hq] at hmarker
    exact absurd hmarker List.not_mem_nil
  | cons item rest ih =>
    obtain ⟨t, hpath, ht, ⟨-, hreturned⟩ | ⟨hitem, hqueue, hrunning, -⟩⟩ :=
      takes_item cfg hs hrun hq
    · exact ⟨t, hpath, hreturned⟩
    · rw [hq] at hmarker
      have hrest : none ∈ t.queue := by
        rw [hqueue]
        exact (List.mem_cons.mp hmarker).resolve_left (Ne.symm hitem)
      obtain ⟨u, hmore, hreturned⟩ := ih ht hrunning hrest hqueue
      exact ⟨u, hpath.trans hmore, hreturned⟩

/-- While `stop` waits for room. By induction on the queue: the worker makes room, and then the marker is
put. -/
theorem drains_of_putting (hs : Attending s) (hrun : s.worker = .running)
    (hputting : s.stopping = .putting) : Drains cfg s := by
  have hput : ∀ u, Attending u → u.worker = .running → u.stopping = .putting →
      u.queue.length < queueSize → Drains cfg u := by
    intro u hu hrunning hstopping hroom
    have hstep : u.step cfg .putMarker =
        some { u with queue := u.queue ++ [none], stopping := .joining } := by
      simp only [RealSession.step, RealSession.putMarker, if_pos (And.intro hstopping hroom)]
    have hgo : Goes cfg u { u with queue := u.queue ++ [none], stopping := .joining } :=
      goes_of_quiet hstep (by simp)
    obtain ⟨t, hpath, hreturned⟩ := drains_of_marker cfg (hu.goes hgo) hrunning
      (List.mem_append_right _ List.mem_cons_self)
    exact ⟨t, .head hgo hpath, hreturned⟩
  induction hq : s.queue generalizing s with
  | nil => exact hput s hs hrun hputting (by rw [hq]; decide)
  | cons item rest ih =>
    obtain ⟨t, hpath, ht, ⟨-, hreturned⟩ | ⟨-, hqueue, hrunning, hstopping⟩⟩ :=
      takes_item cfg hs hrun hq
    · exact ⟨t, hpath, hreturned⟩
    · obtain ⟨u, hmore, hreturned⟩ := ih ht hrunning (hstopping.trans hputting) hqueue
      exact ⟨u, hpath.trans hmore, hreturned⟩

end Drain

/-! ## Stop -/

section Stop

variable {cfg : SegmenterConfig} {s t : RealSession}

/-- While `stop` awaits a running worker, the marker is in the queue. -/
def Marked (s : RealSession) : Prop := s.stopping = .joining → s.worker = .running → none ∈ s.queue

theorem Marked.step {e : SessionEvent} (hs : Marked s) (h : s.step cfg e = some t) : Marked t := by
  intro hjoining hrunning
  cases queue_step h with
  | same hqueue hworker hstopping =>
    rw [hqueue]
    exact hs (hstopping ▸ hjoining) (hworker ▸ hrunning)
  | fed frame hqueue hworker hstopping =>
    rw [hqueue]
    exact List.mem_append_left _ (hs (hstopping ▸ hjoining) (hworker ▸ hrunning))
  | took frame hqueue hworker hstopping =>
    have hmarker := hs (hstopping ▸ hjoining) (hworker ▸ hrunning)
    rw [hqueue] at hmarker
    exact (List.mem_cons.mp hmarker).resolve_left (by simp)
  | ended he hqueue hrun hworker => exact absurd (hworker.symm.trans hrunning) (by simp)
  | raised hraises exc hworker => exact absurd (hworker.symm.trans hrunning) (by simp)
  | called hworker hstopping => exact absurd (hstopping.symm.trans hjoining) (by simp)
  | put hqueue =>
    rw [hqueue]
    exact List.mem_append_right _ List.mem_cons_self
  | left hworker hstopping => exact absurd hjoining hstopping

/-- A full queue has a consumer until the marker is consumed, and once `stop` is called the worker can
drain the queue to the marker. -/
structure QueueServed (cfg : SegmenterConfig) (s : RealSession) : Prop where
  consumer : s.worker ≠ .returned → s.queue.length = queueSize → s.worker = .running
  drains : s.stopping = .putting ∨ s.stopping = .joining → Drains cfg s

/-- What holds as long as no `emit` of the worker's `asr.error` raises. -/
structure Serving (s : RealSession) : Prop where
  attending : Attending s
  marked : Marked s
  unfailed : ∀ exc, s.worker ≠ .failed exc

theorem serving_init : Serving {} := ⟨attending_init, fun h => absurd h (by simp), by simp⟩

theorem Serving.step {e : SessionEvent} (hs : Serving s) (h : s.step cfg e = some t)
    (hno : ¬ ErrorEmitRaises ⟨s, e, t⟩) : Serving t := by
  refine ⟨hs.attending.step h, hs.marked.step h, fun exc => ?_⟩
  rcases worker_step h with hsame | ⟨-, -, hreturned, -⟩ | hraises
  · rw [hsame]
    exact hs.unfailed exc
  · rw [hreturned]
    simp
  · exact absurd hraises hno

theorem Serving.served (hs : Serving s) : QueueServed cfg s := by
  cases hworker : s.worker with
  | running =>
    refine ⟨fun _ _ => hworker, fun hstop => ?_⟩
    rcases hstop with hputting | hjoining
    · exact drains_of_putting hs.attending hworker hputting
    · exact drains_of_marker cfg hs.attending hworker (hs.marked hjoining hworker)
  | returned => exact ⟨fun hne => absurd hworker hne, fun _ => ⟨s, .refl, hworker⟩⟩
  | failed exc => exact absurd hworker (hs.unfailed exc)

/-- **Stop has a consumer.** In every run of a session in which no `emit` of the worker's `asr.error`
raises, a full queue has a running worker until the marker is consumed, and from every state in which
`stop` waits the worker can drain the queue to the marker. -/
theorem full_queue_served (es : List SessionEvent)
    (hno : ∀ x ∈ sessionSteps cfg es, ¬ ErrorEmitRaises x) :
    ∀ t ∈ sessionStates cfg es, QueueServed cfg t := by
  have hserving : ∀ t ∈ sessionStates cfg es, Serving t :=
    Run.forall_states serving_init fun x hx hs => hs.step (Run.mem_trace hx).2 (hno x hx)
  exact fun t ht => (hserving t ht).served

end Stop

/-- Utterances in turn, and a call of `stop`. -/
def inTurnStopped : List SessionEvent := inTurn ++ [.stop]

/-- `full_queue_served` where `stop` waits for room. -/
theorem full_queue_served_inTurn : QueueServed {} (session {} inTurnStopped) := by
  refine full_queue_served inTurnStopped ?_ _ (session_mem {} inTurnStopped)
  have hquiet : ∀ x ∈ sessionSteps {} inTurnStopped, (match x.event with
      | .sent raised _ => raised.isNone
      | _ => true) = true := by decide +kernel
  rintro x hx ⟨exc, sendMs, hold, c, message, he, -⟩
  have hnone := hquiet x hx
  rw [he] at hnone
  exact absurd hnone (by simp)

/-- The connection is lost while the worker has a final to send; then audio goes on for ten seconds. -/
def lostAmidFinal : List SessionEvent :=
  hear true 7 ++ hear false 33 ++ [.heard .worker, .acquire,
    .sent (some "ConnectionClosedError") (.unsigned 0), .acquire,
    .sent (some "ConnectionClosedError") (.unsigned 0)] ++
    List.replicate queueSize (.pcm ⟨List.replicate 640 0, 1, true⟩)

/-- Then the queue is full and its worker has ended. -/
theorem full_queue_unserved : ¬ ∀ t ∈ sessionStates {} lostAmidFinal, QueueServed {} t := by
  intro h
  have hfull : (session {} lostAmidFinal).queue.length = queueSize ∧
      (session {} lostAmidFinal).worker = .failed "ConnectionClosedError" := by decide +kernel
  have hserved := (h _ (session_mem {} lostAmidFinal)).consumer (by rw [hfull.2]; simp) hfull.1
  exact absurd (hfull.2.symm.trans hserved) (by simp)

end SenseVoice.Bridge
