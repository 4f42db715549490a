import SenseVoice.ControlPlane.Links

/-!
# Bridge affinity

A session lives on the bridge link its `session.start` was sent on. `Affine` says that every open
session was started on the link registered now. The cleanup of `bridge_socket` closes the sessions of
a bridge that is lost, but only when its link is still the registered one; the `replace` at the start
of `bridge_socket` takes the place of a live link and closes nothing.

Result: **`affine_iff`**, in every run that draws no UUID twice all states are affine exactly if no bridge
connects while a session is open and no closed session is revived away from its link.
-/

namespace SenseVoice.ControlPlane

open Lib

variable {cfg : Config} {digest : String → String} {s t : System} {e : Event}

/-- A `session.start` for the session was put on the link. -/
def AppState.startedOn (a : AppState) (link : SocketLink) (id : Uuid) : Bool :=
  a.bridgeOut.any fun p => p.1 == link.id && p.2.strField "type" == some "session.start" &&
    p.2.strField "sessionId" == some id

/-- The session was started on the registered link. -/
def AppState.startedHere (a : AppState) (id : Uuid) : Bool :=
  a.inner.bridge.any fun link => a.startedOn link id

/-- Every open session was started on the registered link. -/
def Affine (a : AppState) : Prop := ∀ id, a.sessionOpen id = true → a.startedHere id = true

/-- An accepted bridge connection while a session is open. -/
def ConnectsOverOpen (cfg : Config) (x : Run.Taken System Event) : Prop :=
  ∃ req socketId id, x.event = .bridgeConnect req socketId ∧ bridgeAuthorized req cfg = true ∧
    x.before.app.sessionOpen id = true

/-- A revival of a session that was not started on the registered link. -/
def RevivesElsewhere (x : Run.Taken System Event) : Prop :=
  ∃ id, x.event.revives x.before.app id = true ∧ x.before.app.startedHere id = false

/-- What was sent on a link stays sent. -/
theorem startedOn_mono (h : step cfg digest s e = some t) {link : SocketLink} {id : Uuid}
    (hs : s.app.startedOn link id = true) : t.app.startedOn link id = true := by
  obtain ⟨out, hout, -⟩ := bridgeOut_grows h
  unfold AppState.startedOn at hs ⊢
  rw [hout, List.any_append, hs, Bool.true_or]

theorem startedHere_mono (h : step cfg digest s e = some t)
    (hb : t.app.inner.bridge = s.app.inner.bridge) {id : Uuid}
    (hs : s.app.startedHere id = true) : t.app.startedHere id = true := by
  unfold AppState.startedHere at hs ⊢
  rw [hb]
  cases hl : s.app.inner.bridge with
  | none => rw [hl] at hs; exact absurd hs (by simp)
  | some link => rw [hl] at hs; exact startedOn_mono h hs

/-- Nothing has been sent on the link of a new connection. -/
theorem not_startedOn_new (hl : Linked s) {link : SocketLink} (hd : link.id ∉ s.drawn) (id : Uuid) :
    s.app.startedOn link id = false := by
  by_contra hs
  obtain ⟨p, hp, hpl⟩ := List.any_eq_true.mp (Bool.of_not_eq_false hs)
  simp only [Bool.and_eq_true, beq_iff_eq] at hpl
  exact hd (hpl.1.1 ▸ hl.out_drawn p hp)

/-- Losing the registered bridge leaves no session open. -/
theorem closed_of_disconnect {socketId : Uuid}
    (h : step cfg digest s (.bridgeDisconnect socketId) = some t)
    (hb : s.app.inner.bridge = some ⟨socketId⟩) (id : Uuid) : t.app.sessionOpen id = false := by
  unfold AppState.sessionOpen
  rw [step_app h, Event.apply, (bridgeDisconnect_current hb).1 id]
  cases s.app.inner.sessions.lookup id with
  | none => rfl
  | some r =>
    rw [Option.map_some, Option.any_some]
    split
    · rfl
    · simpa using ‹¬ r.isOpen = true›

/-- A created session is started on the registered link. -/
theorem affine_create {i : CreateInput} (hl : Linked s)
    (h : step cfg digest s (.createSession i) = some t) (ha : Affine s.app) : Affine t.app := by
  intro id ho
  have happ := step_app h
  rw [Event.apply] at happ
  rcases createSession_states digest cfg i s.app with
    ⟨g, h1⟩ | ⟨⟨link, hb, hd⟩, -⟩ | ⟨-, link, owner, g, creds, hlive, hc, h1⟩
  · rw [happ, h1] at ho ⊢
    exact ha id ho
  · exact absurd hd (hl.alive link hb)
  · have hb : t.app.inner.bridge = some link := by
      rw [happ, h1]
      exact (AppState.liveBridge_eq_some.mp hlive).1
    by_cases hid : id = i.id
    · subst hid
      rw [AppState.startedHere, hb, Option.any_some, AppState.startedOn, happ, h1, createdState,
        List.any_append]
      simp [startEvent_fields hc owner]
    · have hsame : t.app.inner.sessions.lookup id = s.app.inner.sessions.lookup id := by
        rw [happ, h1, createdState, Table.lookup_insert_eq, if_neg hid]
      refine startedHere_mono h (hb.trans (AppState.liveBridge_eq_some.mp hlive).1.symm) (ha id ?_)
      unfold AppState.sessionOpen at ho ⊢
      rwa [← hsame]

/-- One step from an affine state ends in an affine state exactly if it does neither. -/
theorem affine_step {x : Run.Taken System Event}
    (h : step cfg digest x.before x.event = some x.after) (hf : FreshStep x) (hl : Linked x.before)
    (ha : Affine x.before.app) :
    Affine x.after.app ↔ ¬ ConnectsOverOpen cfg x ∧ ¬ RevivesElsewhere x := by
  obtain ⟨s, e, t⟩ := x
  simp only at h hl ha ⊢
  constructor
  · intro hat
    refine ⟨?_, ?_⟩
    · rintro ⟨req, socketId, id, rfl, hauth, ho⟩
      have happ : t.app = bridgeConnect socketId s.app := by
        rw [step_app h, Event.apply, if_pos hauth]
      have hot : t.app.sessionOpen id = true := by rw [happ]; exact ho
      have hst := hat id hot
      rw [happ] at hst
      have hnew : (SocketLink.mk socketId).id ∉ s.drawn := hf.2 socketId List.mem_cons_self
      have hno := not_startedOn_new hl hnew id
      exact absurd (hno.symm.trans hst) (by simp)
    · rintro ⟨id, hv, hno⟩
      have hst := hat id (open_of_revives h hv)
      obtain ⟨r, st, -, -, hm, -⟩ := revives_iff.mp hv
      cases e with
      | bridgeMessage socketId message times =>
        obtain ⟨-, -, hb, -, -, hout⟩ := handleBridgeEvent_frame message times s.app
        have hsame : t.app.startedHere id = s.app.startedHere id := by
          rw [step_app h, Event.apply]
          simp only [AppState.startedHere, AppState.startedOn, hb, hout]
        exact absurd (hno.symm.trans (hsame.symm.trans hst)) (by simp)
      | _ => exact absurd hm (by simp [Event.marks])
  · rintro ⟨hconn, hrev⟩ id ho
    by_cases hcr : ∃ i, e = .createSession i
    · obtain ⟨i, rfl⟩ := hcr
      exact affine_create hl h ha id ho
    · have hb : t.app.inner.bridge = s.app.inner.bridge ∨ ∃ req socketId,
          e = .bridgeConnect req socketId ∧ bridgeAuthorized req cfg = true := by
        rcases step_bridge h with hsame | ⟨-, link, hlk, hd⟩ | ⟨req, socketId, he, hauth, -⟩ |
          ⟨socketId, rfl, hcur, -⟩
        · exact Or.inl hsame
        · exact absurd hd (hl.alive link hlk)
        · exact Or.inr ⟨req, socketId, he, hauth⟩
        · exact absurd ho (by simp [closed_of_disconnect h hcur id])
      have hopen : s.app.startedHere id = true := by
        rcases open_before h ho with ho' | hv | ⟨i, he, -⟩
        · exact ha id ho'
        · by_contra hno
          exact hrev ⟨id, hv, by simpa using hno⟩
        · exact absurd ⟨i, he⟩ hcr
      rcases hb with hsame | ⟨req, socketId, rfl, hauth⟩
      · exact startedHere_mono h hsame hopen
      · rcases open_before h ho with ho' | hv | ⟨i, he, -⟩
        · exact absurd ⟨req, socketId, id, rfl, hauth, ho'⟩ hconn
        · exact absurd hv (by simp [Event.revives, Event.marks])
        · exact absurd he (by simp)

/-- **Bridge affinity, exactly.** In a run that draws no UUID twice, every open session is always one
that was started on the registered link exactly if no bridge connects while a session is open and no
bridge message revives a session that was started on another link. -/
theorem affine_iff {es : List Event} (hf : FreshRun cfg digest es) :
    (∀ t ∈ states cfg digest es, Affine t.app) ↔
      ∀ x ∈ trace cfg digest es, ¬ ConnectsOverOpen cfg x ∧ ¬ RevivesElsewhere x := by
  refine Run.states_iff_trace (fun id ho => absurd ho (by
    simp [AppState.sessionOpen, System.init, AppState.new, Inner.empty])) fun x hx ha => ?_
  exact affine_step (Run.mem_trace hx).2 (hf x hx) (linked_before hf x hx) ha

/-- `affine_iff` on a run with one session and a bridge that is lost before the next connects. -/
theorem affine_reconnect :
    (∀ t ∈ states livekitProductionConfig id
        [.connect "link", .create "first" 0, .bridgeDisconnect "link", .connect "next"],
        Affine t.app) ↔
      ∀ x ∈ trace livekitProductionConfig id
        [.connect "link", .create "first" 0, .bridgeDisconnect "link", .connect "next"],
        ¬ ConnectsOverOpen livekitProductionConfig x ∧ ¬ RevivesElsewhere x :=
  affine_iff (by decide +kernel)

/-- A bridge reconnects before its old socket is noticed dead: the session it held stays open, and
was started on the replaced link. -/
theorem replaced_bridge_leaves_open_session :
    livekitProductionConfig.validate.toBool = true ∧
      FreshRun livekitProductionConfig id [.connect "link", .create "first" 0, .connect "next"] ∧
      ¬ ∀ t ∈ states livekitProductionConfig id
          [.connect "link", .create "first" 0, .connect "next"], Affine t.app := by
  refine ⟨by decide +kernel, by decide +kernel, fun h => ?_⟩
  have hbad : ∃ t ∈ states livekitProductionConfig id
      [.connect "link", .create "first" 0, .connect "next"],
      t.app.sessionOpen "first" = true ∧ t.app.startedHere "first" = false := by decide +kernel
  obtain ⟨t, ht, ho, hno⟩ := hbad
  exact absurd (h t ht "first" ho) (by simp [hno])

end SenseVoice.ControlPlane
