import SenseVoice.ControlPlane.Links

/-!
# The client registry, and sockets that have been superseded

`inner.clients` maps a session to the link of its browser socket. Registering a newer socket drops the
older link, and the older `client_socket` then runs its teardown: it unregisters its own link only,
but it closes the session whatever link is registered. `handle_bridge_event` closes a session on
`session.closed` and leaves its link where it is.

Results:
* **`superseded_harmless_iff`**: the end of superseded sockets changes nothing exactly if their
  sessions are closed or gone by then;
* `clientsOpen_step`: what one event must not do for every client link to belong to an open session;
* **`clientsOpen_iff`**: in every run, every registered client belongs to an open session, and nothing
  is relayed for a closed one, exactly if no event does that.
-/

namespace SenseVoice.ControlPlane

open Lib

variable {cfg : Config} {digest : String → String} {s t : System} {e : Event}

/-! ## Superseded sockets -/

/-- The step is the end of a socket of the session `id` after a newer one has been registered. -/
def EndsSuperseded (x : Run.Taken System Event) (id : Uuid) : Prop :=
  ∃ socketId newer, x.event = .clientClose id socketId ∧
    x.before.registered.lookup id = some newer ∧ newer ≠ socketId

/-- The session, the clients and the messages to the bridge are as before. -/
def Unchanged (x : Run.Taken System Event) (id : Uuid) : Prop :=
  x.after.app.inner.sessions.lookup id = x.before.app.inner.sessions.lookup id ∧
    x.after.app.inner.clients = x.before.app.inner.clients ∧
    x.after.app.bridgeOut = x.before.app.bridgeOut

/-- A teardown that finds another link registered, or none, unregisters nothing. -/
theorem unregister_other {id socketId : Uuid} {a : AppState}
    (h : a.inner.clients.lookup id ≠ some ⟨socketId⟩) : unregister id socketId a = a := by
  unfold unregister
  rw [if_neg h]

/-- A teardown that finds the session closed or gone leaves it alone. -/
theorem clientClose_not_open {id socketId : Uuid} {a : AppState}
    (h : a.inner.clients.lookup id ≠ some ⟨socketId⟩) (ho : a.sessionOpen id = false) :
    clientClose id socketId a = { a with dropped := socketId :: a.dropped } := by
  unfold AppState.sessionOpen at ho
  unfold clientClose
  rw [unregister_other h]
  simp [ho]

/-- One end of a superseded socket is harmless exactly if the session is not open. -/
theorem superseded_step {x : Run.Taken System Event} {id : Uuid}
    (h : step cfg digest x.before x.event = some x.after) (hn : Newest x.before)
    (hs : EndsSuperseded x id) : Unchanged x id ↔ x.before.app.sessionOpen id = false := by
  obtain ⟨s, e, t⟩ := x
  obtain ⟨socketId, newer, rfl, hreg, hne⟩ := hs
  simp only at h hn hreg
  have hother : s.app.inner.clients.lookup id ≠ some ⟨socketId⟩ := by
    intro hl
    have := hn id _ hl
    rw [hreg] at this
    exact hne (Option.some.inj this)
  constructor
  · rintro ⟨hsess, -, -⟩
    simp only at hsess ⊢
    by_contra ho
    obtain ⟨r, hr, hro⟩ := sessionOpen_iff.mp (Bool.of_not_eq_false ho)
    rw [step_app h, Event.apply, (clientClose_frame id socketId s.app).1 id, hr, Option.map_some,
      if_pos ⟨rfl, hro⟩] at hsess
    have hclosed := congrArg Session.isOpen (Option.some.inj hsess)
    rw [isOpen_close, hro] at hclosed
    exact absurd hclosed (by simp)
  · intro ho
    simp only at ho
    have happ : t.app = { s.app with dropped := socketId :: s.app.dropped } := by
      rw [step_app h, Event.apply, clientClose_not_open hother ho]
    unfold Unchanged
    rw [happ]
    exact ⟨rfl, rfl, rfl⟩

/-- **Superseded sockets, exactly.** In a run, the end of a client socket after a newer one was
registered always leaves the session, the clients and the messages to the bridge unchanged exactly if
the session is closed or gone whenever that happens. -/
theorem superseded_harmless_iff (cfg : Config) (digest : String → String) (es : List Event) :
    (∀ x ∈ trace cfg digest es, ∀ id, EndsSuperseded x id → Unchanged x id) ↔
      ∀ x ∈ trace cfg digest es, ∀ id, EndsSuperseded x id →
        x.before.app.sessionOpen id = false := by
  have hstep : ∀ x ∈ trace cfg digest es, ∀ id, EndsSuperseded x id →
      (Unchanged x id ↔ x.before.app.sessionOpen id = false) :=
    fun x hx id hs => superseded_step (Run.mem_trace hx).2 (newest_before x hx) hs
  exact ⟨fun h x hx id hs => (hstep x hx id hs).mp (h x hx id hs),
    fun h x hx id hs => (hstep x hx id hs).mpr (h x hx id hs)⟩

/-- The browser's WebSocket request for a session created by `Event.create`. -/
def browserRequest (id : String) : Request :=
  ⟨none, some "https://asr.example.com", [("asr_session", id ++ "-ticket")], some id⟩

/-- A browser reconnects, and then its first socket's loop ends. -/
def reconnectRun : List Event :=
  [.connect "link", .create "first" 0,
    .clientWs (browserRequest "first"), .clientOpen "first" "old",
    .clientWs (browserRequest "first"), .clientOpen "first" "new",
    .clientClose "first" "old"]

/-- The reconnect ends the browser's own session. -/
theorem reconnect_ends_session :
    livekitProductionConfig.validate.toBool = true ∧
      FreshRun livekitProductionConfig id reconnectRun ∧
      ¬ ∀ x ∈ trace livekitProductionConfig id reconnectRun, ∀ k,
        EndsSuperseded x k → Unchanged x k := by
  refine ⟨by decide +kernel, by decide +kernel, fun h => ?_⟩
  have hx : _ ∈ trace livekitProductionConfig id reconnectRun :=
    Run.mem_trace_of_step reconnectRun.dropLast (.clientClose "first" "old") []
      (if_pos (by decide +kernel))
  have hsame := (h _ hx "first" ⟨"old", "new", rfl, by decide +kernel, by decide⟩).1
  exact absurd hsame (by decide +kernel)

/-! ## The registry -/

/-- Every registered client belongs to an open session. -/
def ClientsOpen (a : AppState) : Prop := ∀ id, id ∈ a.inner.clients → a.sessionOpen id = true

/-- A bridge message for a session that is not open reaches no client. -/
def NothingRelayed (a : AppState) : Prop :=
  ∀ message b times, BridgeEvent.parse message = some b → a.sessionOpen b.id = false →
    (handleBridgeEvent message times a).clientOut = a.clientOut

/-- Without a registered client nothing is relayed. -/
theorem relay_none {id : Uuid} {a : AppState} (h : a.inner.clients.lookup id = none) (event : Value)
    (times : RelayTimes) : relay id event times a = a := by
  unfold relay
  rw [h]

theorem nothingRelayed {a : AppState} (h : ClientsOpen a) : NothingRelayed a := by
  intro message b times hb ho
  have hnone : a.inner.clients.lookup b.id = none := by
    cases hl : a.inner.clients.lookup b.id with
    | none => rfl
    | some link =>
      have := h b.id (Table.mem_iff_lookup.mpr ⟨link, hl⟩)
      exact absurd (ho.symm.trans this) (by simp)
  unfold handleBridgeEvent
  rw [hb]
  unfold applyBridgeEvent
  simp only
  split
  · rw [relay_none]
    · split <;> rfl
    · split <;> exact hnone
  · rfl

/-- A `session.closed` for a session with a registered client. -/
def ClosesUnderClient (x : Run.Taken System Event) : Prop :=
  ∃ id, x.event.marks id = some .closed ∧ id ∈ x.before.app.inner.clients

/-- The end of a client socket while another link is registered for its session. -/
def ClosesUnderNewer (x : Run.Taken System Event) : Prop :=
  ∃ id socketId link, x.event = .clientClose id socketId ∧
    x.before.app.inner.clients.lookup id = some link ∧ link ≠ ⟨socketId⟩

/-- The paths that close a session unregister its client, except the end of a superseded socket. -/
theorem client_gone (h : step cfg digest s e = some t) (hk : KeyedById s.app) {id : Uuid}
    {r : Session} (hr : s.app.inner.sessions.lookup id = some r) (ho : r.isOpen = true)
    (hc : Closes s.app id r e) :
    t.app.inner.clients.lookup id = none ∨ ClosesUnderNewer ⟨s, e, t⟩ := by
  have happ := step_app h
  cases hc with
  | deleted =>
    left
    rw [happ, Event.apply, runCommand, (deleteSession_some hr).2.1 id, if_pos rfl]
  | bridgeLost hb =>
    left
    rw [happ, Event.apply, (bridgeDisconnect_current hb).2.1 hk id, hr, Option.any_some, if_pos ho]
  | @clientLost socketId =>
    have hcl := (clientClose_frame id socketId s.app).2.1 id
    rw [happ, Event.apply, hcl]
    cases hl : s.app.inner.clients.lookup id with
    | none => exact Or.inl (by simp)
    | some link =>
      by_cases hlink : link = ⟨socketId⟩
      · exact Or.inl (by simp [hlink])
      · exact Or.inr ⟨id, socketId, link, rfl, hl, hlink⟩
  | expired hx =>
    left
    rw [happ, Event.apply, (reaperPass_frame _ s.app).2.1 id, if_pos]
    exact (mem_closeWhere_ids hk).mpr ⟨r, hr, hx⟩

/-- One step from a good registry ends in a good one exactly if it does neither. -/
theorem clientsOpen_step {x : Run.Taken System Event}
    (h : step cfg digest x.before x.event = some x.after) (hk : KeyedById x.before.app)
    (hc : ClientsOpen x.before.app) :
    ClientsOpen x.after.app ↔ ¬ ClosesUnderClient x ∧ ¬ ClosesUnderNewer x := by
  obtain ⟨s, e, t⟩ := x
  simp only at h hk hc ⊢
  constructor
  · intro hct
    refine ⟨?_, ?_⟩
    · rintro ⟨id, hm, hid⟩
      simp only at hm hid
      obtain ⟨r, hr, -⟩ := sessionOpen_iff.mp (hc id hid)
      cases e with
      | bridgeMessage socketId message times =>
        obtain ⟨hsess, hcl, -⟩ := handleBridgeEvent_frame message times s.app
        have hid' : id ∈ t.app.inner.clients := by rwa [step_app h, Event.apply, hcl]
        obtain ⟨r', hr', hro'⟩ := sessionOpen_iff.mp (hct id hid')
        have hm' : marks message id = some .closed := hm
        rw [step_app h, Event.apply, hsess id, hr, Option.map_some, markSession, hm'] at hr'
        obtain rfl := Option.some.inj hr'
        exact absurd hro' (by simp [Session.isOpen])
      | _ => exact absurd hm (by simp [Event.marks])
    · rintro ⟨id, socketId, link, rfl, hl, hne⟩
      simp only at h hl
      have hkept : t.app.inner.clients.lookup id = some link := by
        rw [step_app h, Event.apply, (clientClose_frame id socketId s.app).2.1 id, if_neg, hl]
        rintro ⟨-, hs⟩
        rw [hl] at hs
        exact hne (Option.some.inj hs)
      obtain ⟨r', hr', hro'⟩ := sessionOpen_iff.mp (hct id (Table.mem_iff_lookup.mpr ⟨link, hkept⟩))
      rw [step_app h, Event.apply, (clientClose_frame id socketId s.app).1 id] at hr'
      obtain ⟨r, -, hr⟩ := Option.map_eq_some_iff.mp hr'
      by_cases hro : r.isOpen = true
      · rw [if_pos ⟨rfl, hro⟩] at hr
        rw [← hr] at hro'
        exact absurd hro' (by simp)
      · rw [if_neg fun hh => hro hh.2] at hr
        exact hro (hr ▸ hro')
  · rintro ⟨hmark, hnewer⟩ id hid
    obtain ⟨link, hl⟩ := Table.mem_iff_lookup.mp hid
    have hbefore : s.app.sessionOpen id = true := by
      rcases step_clients h hk id with ⟨socketId, -, ho, -⟩ | ⟨hsame | hnone, -⟩
      · exact ho
      · exact hc id (Table.mem_iff_lookup.mpr ⟨link, hsame ▸ hl⟩)
      · exact absurd hl (by simp [hnone])
    obtain ⟨r, hr, hro⟩ := sessionOpen_iff.mp hbefore
    have hs := step_session h id
    rw [hr] at hs
    generalize ht : t.app.inner.sessions.lookup id = o at hs
    have hgone : ¬ Closes s.app id r e := fun hcl => by
      rcases client_gone h hk hr hro hcl with hnone | hbad
      · exact absurd hl (by simp [hnone])
      · exact hnewer hbad
    cases hs with
    | same => exact sessionOpen_iff.mpr ⟨r, ht, hro⟩
    | @marked _ st hm =>
      refine sessionOpen_iff.mpr ⟨_, ht, ?_⟩
      by_contra hst
      obtain rfl : st = .closed := by simpa [Session.isOpen] using hst
      refine hmark ⟨id, hm, ?_⟩
      cases e with
      | bridgeMessage socketId message times =>
        rw [step_app h, Event.apply, (handleBridgeEvent_frame message times s.app).2.1] at hid
        exact hid
      | _ => exact absurd hm (by simp [Event.marks])
    | closed _ hcl => exact absurd hcl hgone
    | removed he hx => exact absurd (he ▸ Closes.expired (hx hro)) hgone
    | created he hid' => exact sessionOpen_iff.mpr ⟨_, ht, newSession_isOpen cfg _ _⟩

/-- **The client registry, exactly.** In every run, every registered client belongs to an open session
and nothing is relayed for a closed one exactly if no `session.closed` arrives for a session with a
registered client and no client socket ends while another link is registered for its session. -/
theorem clientsOpen_iff (cfg : Config) (digest : String → String) (es : List Event) :
    (∀ t ∈ states cfg digest es, ClientsOpen t.app ∧ NothingRelayed t.app) ↔
      ∀ x ∈ trace cfg digest es, ¬ ClosesUnderClient x ∧ ¬ ClosesUnderNewer x := by
  have hboth : ∀ a : AppState, ClientsOpen a ∧ NothingRelayed a ↔ ClientsOpen a :=
    fun a => and_iff_left_of_imp nothingRelayed
  simp only [hboth]
  refine Run.states_iff_trace (fun id hid => absurd hid (by
    simp [System.init, AppState.new, Inner.empty])) fun x hx hc => ?_
  exact clientsOpen_step (Run.mem_trace hx).2 (keyedById_before x hx) hc

/-- A browser is connected when the bridge reports its session closed. -/
def bridgeClosesRun : List Event :=
  [.connect "link", .create "first" 0, .clientWs (browserRequest "first"),
    .clientOpen "first" "browser", .bridgeSays "link" (sessionMessage "session.closed" "first")]

/-- The client link survives its session. -/
theorem client_survives_session :
    livekitProductionConfig.validate.toBool = true ∧
      FreshRun livekitProductionConfig id bridgeClosesRun ∧
      ¬ ∀ t ∈ states livekitProductionConfig id bridgeClosesRun,
        ClientsOpen t.app ∧ NothingRelayed t.app := by
  refine ⟨by decide +kernel, by decide +kernel, fun h => ?_⟩
  have hbad : ∃ t ∈ states livekitProductionConfig id bridgeClosesRun,
      "first" ∈ t.app.inner.clients ∧ t.app.sessionOpen "first" = false := by decide +kernel
  obtain ⟨t, ht, hm, hno⟩ := hbad
  exact absurd ((h t ht).1 "first" hm) (by simp [hno])

end SenseVoice.ControlPlane
