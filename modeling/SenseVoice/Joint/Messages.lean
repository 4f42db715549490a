import SenseVoice.Joint.Model
import SenseVoice.ControlPlane.CommandLanguage

/-!
# What the two sides say to each other

The messages of the control plane as the bridge reads them, and the emissions of the bridge as the
control plane reads them.

Results:
* `step_sent`: what one step of the control plane puts on the links, and that only a new session is
  started;
* `closing_sends`: a step of the control plane on its own that closes a session stops it on the live
  link;
* `Ground`: what holds of the control plane alone in a run that draws no UUID twice, among it that the
  `session.start` of a session comes before every other message about it, on all links together;
* `marks_toValue`: the state each emission writes.
-/

namespace SenseVoice.Joint

open Lib ControlPlane Bridge

variable {cfg : Config} {digest : String → String} {s t : System} {e : Event}

/-! ## From the control plane to the bridge -/

theorem says_sessionMessage (type : String) (id : Uuid) : Says type (sessionMessage type id) id where
  type_eq := (sessionMessage_strFields type id).1
  names := (sessionMessage_strFields type id).2

theorem says_speak (id : Uuid) {body : Option SpeakRequest} {fields : List (String × Value)}
    (h : speakFields body = .ok fields) :
    Says "tts.speak" ((sessionMessage "tts.speak" id).extend (.object fields)) id where
  type_eq := (speak_strFields id h).1
  names := (speak_strFields id h).2

/-- Only `create_session` starts a session. -/
theorem sends_not_start {a : AppState} {p : Uuid × Value} (hp : p ∈ e.sends a) (id : Uuid) :
    ¬ Says "session.start" p.2 id := by
  have hsend : ∀ {m : Value} {type : String} {k : Uuid}, Says type m k → type ≠ "session.start" →
      p ∈ a.bridgeSends m → ¬ Says "session.start" p.2 id := by
    intro m type k hm hne hmem hstart
    obtain ⟨link, -, rfl⟩ := mem_bridgeSends.mp hmem
    exact hne (hm.type_unique hstart)
  unfold Event.sends at hp
  split at hp
  · split at hp
    · exact hsend (says_sessionMessage _ _) (by decide) hp
    · exact absurd hp List.not_mem_nil
  · split at hp
    · split at hp
      · exact hsend (says_speak _ ‹_›) (by decide) hp
      · exact absurd hp List.not_mem_nil
    · exact absurd hp List.not_mem_nil
  · split at hp
    · exact hsend (says_sessionMessage _ _) (by decide) hp
    · exact absurd hp List.not_mem_nil
  · split at hp
    · exact hsend (says_sessionMessage _ _) (by decide) hp
    · exact absurd hp List.not_mem_nil
  · obtain ⟨k, -, hm⟩ := List.mem_flatMap.mp hp
    exact hsend (says_sessionMessage _ _) (by decide) hm
  · exact absurd hp List.not_mem_nil

/-- What a step puts on the links: messages that start nothing, or the one that starts the session
just created. -/
inductive Sent (s : System) (e : Event) (t : System) : List (Uuid × Value) → Prop
  | other {out : List (Uuid × Value)}
      (hl : ∀ p ∈ out, ∃ link, s.app.liveBridge = some link ∧ p.1 = link.id)
      (hs : ∀ p ∈ out, ∀ id, ¬ Says "session.start" p.2 id) : Sent s e t out
  | start {i : CreateInput} {link : SocketLink} {m : Value} (he : e = .createSession i)
      (hl : s.app.liveBridge = some link) (hm : Says "session.start" m i.id)
      (ho : t.app.sessionOpen i.id = true) : Sent s e t [(link.id, m)]

/-- **What one step puts on the links.** -/
theorem step_sent (h : step cfg digest s e = some t) :
    ∃ out, t.app.bridgeOut = s.app.bridgeOut ++ out ∧ Sent s e t out := by
  by_cases hc : ∃ i, e = .createSession i
  · obtain ⟨i, rfl⟩ := hc
    have hnone : Sent s (.createSession i) t [] :=
      .other (fun _ hp => absurd hp List.not_mem_nil) fun _ hp => absurd hp List.not_mem_nil
    have happ := step_app h
    rw [Event.apply] at happ
    rcases createSession_states digest cfg i s.app with
      ⟨g, h1⟩ | ⟨-, g, h1⟩ | ⟨-, link, owner, g, creds, hl, hc, h1⟩
    · refine ⟨[], ?_, hnone⟩
      rw [happ, h1, List.append_nil]
      rfl
    · refine ⟨[], ?_, hnone⟩
      rw [happ, h1, List.append_nil]
      rfl
    · refine ⟨[(link.id, startEvent (newSession cfg i owner) creds.1)], by rw [happ, h1]; rfl, ?_⟩
      obtain ⟨htype, hid⟩ := startEvent_fields hc owner
      refine .start rfl hl ⟨htype, hid⟩ (sessionOpen_iff.mpr ⟨newSession cfg i owner, ?_, ?_⟩)
      · rw [happ, h1]
        exact AList.lookup_insert _
      · exact newSession_isOpen cfg i owner
  · exact ⟨_, step_bridgeOut h fun i hi => hc ⟨i, hi⟩, .other (fun p hp => link_of_mem_sends hp)
      fun p hp => sends_not_start hp⟩

/-- A session that has just been created has its `session.start` on the live link. -/
theorem created_sent {i : CreateInput} (h : step cfg digest s (.createSession i) = some t)
    (hnew : s.app.inner.sessions.lookup i.id = none) {r : Session}
    (hr : t.app.inner.sessions.lookup i.id = some r) :
    ∃ link m, s.app.liveBridge = some link ∧
      t.app.bridgeOut = s.app.bridgeOut ++ [(link.id, m)] ∧ Says "session.start" m i.id := by
  rw [step_app h, Event.apply] at hr ⊢
  rcases createSession_states digest cfg i s.app with
    ⟨g, h1⟩ | ⟨-, g, h1⟩ | ⟨-, link, owner, g, creds, hl, hc, h1⟩
  · rw [h1] at hr
    exact absurd (hnew.symm.trans hr) (by simp)
  · rw [h1] at hr
    exact absurd (hnew.symm.trans hr) (by simp)
  · obtain ⟨htype, hid⟩ := startEvent_fields hc owner
    exact ⟨link, _, hl, by rw [h1]; rfl, ⟨htype, hid⟩⟩

namespace Sent

variable {out : List (Uuid × Value)}

/-- All messages of a step go to the live link. -/
theorem live (h : Sent s e t out) {p : Uuid × Value} (hp : p ∈ out) :
    ∃ link, s.app.liveBridge = some link ∧ p.1 = link.id := by
  cases h with
  | other hl => exact hl p hp
  | start _ hl =>
    rw [List.mem_singleton.mp hp]
    exact ⟨_, hl, rfl⟩

/-- A session that is started is open, and its id has just been drawn. -/
theorem started (h : Sent s e t out) {p : Uuid × Value} (hp : p ∈ out) {id : Uuid}
    (hs : Says "session.start" p.2 id) : id ∈ e.uuids ∧ t.app.sessionOpen id = true := by
  cases h with
  | other _ hn => exact absurd hs (hn p hp id)
  | start he _ hm ho =>
    obtain rfl := List.mem_singleton.mp hp
    obtain rfl := hm.id_unique hs
    rw [he]
    exact ⟨List.mem_cons_self, ho⟩

end Sent

/-- **A session closed by the control plane is stopped.** -/
theorem closing_sends (h : step cfg digest s e = some t) (hl : isLocal e = true)
    (hk : KeyedById s.app) {id : Uuid} (ho : s.app.sessionOpen id = true)
    (hc : t.app.sessionOpen id = false) {link : SocketLink} (hlive : s.app.liveBridge = some link) :
    (link.id, sessionMessage "session.stop" id) ∈ e.sends s.app ∧ ∀ i, e ≠ .createSession i := by
  obtain ⟨r, hr, hro⟩ := sessionOpen_iff.mp ho
  have hstop : (link.id, sessionMessage "session.stop" id) ∈
      s.app.bridgeSends (sessionMessage "session.stop" id) := mem_bridgeSends.mpr ⟨link, hlive, rfl⟩
  have hreaper : ∀ now, r.expired now = true → (link.id, sessionMessage "session.stop" id) ∈
      (expiredIds now s.app).flatMap fun k => s.app.bridgeSends (sessionMessage "session.stop" k) :=
    fun now hx => List.mem_flatMap.mpr ⟨id, (mem_closeWhere_ids hk).mpr ⟨r, hr, hx⟩, hstop⟩
  have hs := step_session h id
  rw [hr] at hs
  generalize ht : t.app.inner.sessions.lookup id = o at hs
  have hclosed : ∀ r', o = some r' → r'.isOpen = false := by
    intro r' hr'
    by_contra hno
    rw [sessionOpen_iff.mpr ⟨r', ht.trans hr', by simpa using hno⟩] at hc
    exact absurd hc (by simp)
  cases hs with
  | same => exact absurd (hclosed r rfl) (by simp [hro])
  | @marked _ st hm =>
    cases e with
    | bridgeMessage socketId message times => exact absurd hl (by simp [isLocal])
    | _ => exact absurd hm (by simp [Event.marks])
  | closed _ hcl =>
    cases hcl with
    | deleted =>
      refine ⟨?_, fun i => by simp⟩
      simp only [Event.sends, hr, Option.isSome_some, if_true]
      exact hstop
    | bridgeLost => exact absurd hl (by simp [isLocal])
    | clientLost =>
      refine ⟨?_, fun i => by simp⟩
      simp only [Event.sends, ho, if_true]
      exact hstop
    | @expired now hx => exact ⟨hreaper now hx, fun i => by simp⟩
  | @removed _ now he hx =>
    subst he
    exact ⟨hreaper now (hx hro), fun i => by simp⟩
  | created => exact absurd (hclosed _ rfl) (by simp [newSession_isOpen])

/-! ## The control plane alone -/

/-- What holds of the control plane in a run that draws no UUID twice. -/
structure Ground (s : System) : Prop where
  keyed : KeyedById s.app
  recorded : ∀ id r, s.app.inner.sessions.lookup id = some r → id ∈ s.drawn
  linked : Linked s
  logged : Logged s
  startsFirst : Channel.OpensFirst (fun p id => Says "session.start" p.2 id)
    (fun p id => Names p.2 id) s.app.bridgeOut

theorem ground_init : Ground .init where
  keyed := keyedById_init
  recorded _ _ h := absurd h (by simp [System.init, AppState.new, Inner.empty])
  linked := linked_init
  logged := logged_init
  startsFirst := List.Pairwise.nil

/-- A session that is about to be created has no record. -/
theorem Ground.no_record (hg : Ground s) {i : CreateInput}
    (hf : FreshStep ⟨s, .createSession i, t⟩) : s.app.inner.sessions.lookup i.id = none := by
  by_contra hsome
  obtain ⟨r, hr⟩ := Option.ne_none_iff_exists'.mp hsome
  exact hf.2 i.id List.mem_cons_self (hg.recorded i.id r hr)

/-- A session named on a link has been drawn. -/
theorem Ground.named_drawn (hg : Ground s) {p : Uuid × Value} (hp : p ∈ s.app.bridgeOut) {id : Uuid}
    (hn : Names p.2 id) : id ∈ s.drawn := by
  refine hg.logged.drawn id (List.ne_nil_of_mem (a := p.2.strField "type") ?_)
  exact List.mem_filterMap.mpr ⟨p, hp, if_pos hn⟩

theorem Ground.step (hg : Ground s) (hf : FreshStep ⟨s, e, t⟩)
    (h : ControlPlane.step cfg digest s e = some t) : Ground t := by
  refine ⟨keyedById_step h hg.keyed, records_drawn_step h hg.recorded, hg.linked.step hf h,
    hg.logged.step h hg.keyed hg.recorded, ?_⟩
  obtain ⟨out, hout, hsent⟩ := step_sent h
  rw [hout]
  refine List.pairwise_append.mpr ⟨hg.startsFirst, ?_, fun p hp q hq id hs hn => ?_⟩
  · cases hsent with
    | other _ hn =>
      exact List.pairwise_of_forall_mem_list fun p _ q hq id hs => absurd hs (hn q hq id)
    | start => exact List.pairwise_singleton _ _
  · exact hf.2 id (hsent.started hq hs).1 (hg.named_drawn hp hn)

/-! ## From the bridge to the control plane -/

/-- The state that handling an emission writes to the record of its session. -/
def mark : Emission → Option SessionState
  | .ready _ => some .ready
  | .startFailed _ _ => some .error
  | .closed _ => some .closed
  | .running event => if event.type = "asr.error" then some .error else none

theorem marks_message {type : String} {m : Value} {k : Uuid} (h : Says type m k) (id : Uuid) :
    marks (some m) id = if k = id then (EventKind.ofType type).bind EventKind.state else none := by
  simp [marks, BridgeEvent.parse, h.type_eq, h.names]

/-- **The state an emission writes.** -/
theorem marks_toValue (m : Emission) (id : Uuid) :
    marks (some m.toValue) id = if m.id = id then mark m else none := by
  cases m with
  | ready k => exact marks_message (says_sessionMessage "session.ready" k) id
  | startFailed k message =>
    have hsay : Says "asr.error" (Emission.startFailed k message).toValue k := by
      constructor <;>
        simp [Emission.toValue, Value.json, Value.strField, Value.lookup_setField, Value.asStr]
    exact marks_message hsay id
  | closed k => exact marks_message (says_sessionMessage "session.closed" k) id
  | running event =>
    rw [Emission.toValue, marks_message event.names id]
    have hstate : ∀ type ∈ eventTypes, (EventKind.ofType type).bind EventKind.state =
        if type = "asr.error" then some .error else none := by decide
    exact if_congr Iff.rfl (hstate _ event.known) rfl

/-- Only the answer to a stop closes a session. -/
theorem mark_closed {m : Emission} (h : mark m = some .closed) : ∃ id, m = .closed id := by
  cases m with
  | closed id => exact ⟨id, rfl⟩
  | ready => exact absurd h (by simp [mark])
  | startFailed => exact absurd h (by simp [mark])
  | running event =>
    simp only [mark] at h
    split at h <;> exact absurd h (by simp)

end SenseVoice.Joint
