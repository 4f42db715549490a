import SenseVoice.ControlPlane.Registry

/-!
# What a client link carries

A client link of the session `id` is opened by `client_socket` with one `session.snapshot`, gets the
bridge's messages for `id` from `handle_bridge_event` while it is the registered one, and may get the
control plane's own notices when it leaves the registry. `clientLog` is everything it has accepted.

`handle_bridge_event` looks for the record before it looks for the client, and a client link can
outlive its record: a message for it is then passed over (`relayed` against `addressed`).

Results:
* `step_clientLog`: what one event adds to the log of a link;
* `clientLinked_before`: a registered client link belongs to a running socket and has a receiver;
* `link_step`: a registered link stays registered and gets the relayed message, or leaves the registry
  with at most its notices;
* **`faithful_relay`**: the log of a link is its snapshot, the relayed messages in the order they were
  handled, and at most the notices, all of them about its session.
-/

namespace SenseVoice.ControlPlane

open Lib

/-- The messages the client link `u` has accepted, oldest first. -/
def AppState.clientLog (a : AppState) (u : Uuid) : List Value :=
  (a.clientOut.filter fun p => p.1 = u).map Prod.snd

/-! ## Sends on client links -/

namespace AppState

variable {a b : AppState} {u : Uuid}

theorem clientLog_congr (h : b.clientOut = a.clientOut) : b.clientLog u = a.clientLog u := by
  unfold clientLog
  rw [h]

theorem clientLog_sendClient (a : AppState) (link : SocketLink) (m : Value) (u : Uuid) :
    (a.sendClient link m).1.clientLog u =
      a.clientLog u ++ if link = ⟨u⟩ ∧ u ∉ a.dropped then [m] else [] := by
  obtain ⟨v⟩ := link
  unfold sendClient clientLog
  by_cases hv : v = u
  · subst hv
    by_cases hd : v ∈ a.dropped <;> simp [hd]
  · split <;> simp [hv]

theorem clientLog_sendClients (client : SocketLink) (ms : List Value) (a : AppState) (u : Uuid) :
    (ms.foldl (fun a m => (a.sendClient client m).1) a).clientLog u =
      a.clientLog u ++ if client = ⟨u⟩ ∧ u ∉ a.dropped then ms else [] := by
  induction ms generalizing a with
  | nil => simp
  | cons m ms ih =>
    rw [List.foldl_cons, ih, clientLog_sendClient, sendClient_dropped]
    split <;> simp

theorem clientLog_dismissClient (a : AppState) (id : Uuid) (ms : List Value) (u : Uuid) :
    (a.dismissClient id ms).clientLog u =
      a.clientLog u ++
        if a.inner.clients.lookup id = some ⟨u⟩ ∧ u ∉ a.dropped then ms else [] := by
  unfold dismissClient
  cases h : a.inner.clients.lookup id with
  | none => simp
  | some client =>
    simp only [clientLog_sendClients, Option.some.injEq]
    rfl

theorem toBridge_clientOut (a : AppState) (m : Value) :
    (a.toBridge m).1.clientOut = a.clientOut := by
  unfold toBridge
  split
  · rfl
  · exact a.sendBridge_clientOut _ m

end AppState

/-- A loop whose body dismisses the client of one session and tells it `f id`, seen from a link that at most the
session `id` has registered. -/
theorem clientLog_dismissals {body : AppState → Uuid → AppState} {f : Uuid → List Value}
    (hlog : ∀ a k u, (body a k).clientLog u =
      a.clientLog u ++ if a.inner.clients.lookup k = some ⟨u⟩ ∧ u ∉ a.dropped then f k else [])
    (hclients : ∀ a k j, (body a k).inner.clients.lookup j = if j = k then none else a.inner.clients.lookup j)
    (hdropped : ∀ a k, (body a k).dropped = a.dropped) (ids : List Uuid) {a : AppState} {id u : Uuid}
    (hown : ∀ k, a.inner.clients.lookup k = some ⟨u⟩ → k = id) :
    (ids.foldl body a).clientLog u =
      a.clientLog u ++
        if (a.inner.clients.lookup id = some ⟨u⟩ ∧ u ∉ a.dropped) ∧ id ∈ ids then f id else [] := by
  induction ids generalizing a with
  | nil => simp
  | cons k ids ih =>
    have hown' : ∀ j, (body a k).inner.clients.lookup j = some ⟨u⟩ → j = id := by
      intro j hj
      rw [hclients] at hj
      split at hj
      · exact absurd hj (by simp)
      · exact hown j hj
    rw [List.foldl_cons, ih hown', hlog, hclients, hdropped]
    by_cases hk : k = id
    · subst hk
      by_cases hr : a.inner.clients.lookup k = some ⟨u⟩ ∧ u ∉ a.dropped <;> simp [hr]
    · have hno : a.inner.clients.lookup k ≠ some ⟨u⟩ := fun h => hk (hown k h)
      simp [hno, Ne.symm hk]

/-- The loop of a cleanup. -/
theorem clientLog_dismissAll (f : Uuid → List Value) (ids : List Uuid) {a : AppState} {id u : Uuid}
    (hown : ∀ k, a.inner.clients.lookup k = some ⟨u⟩ → k = id) :
    (ids.foldl (fun a k => a.dismissClient k (f k)) a).clientLog u =
      a.clientLog u ++
        if (a.inner.clients.lookup id = some ⟨u⟩ ∧ u ∉ a.dropped) ∧ id ∈ ids then f id else [] := by
  refine clientLog_dismissals (fun a k => a.clientLog_dismissClient k (f k)) ?_ ?_ ids hown
  · intro a k j
    rw [AppState.dismissClient_clients]
  · intro a k
    rw [AppState.dismissClient_dropped]

/-- The loop of a reaper pass. -/
theorem clientLog_expireAll (ids : List Uuid) {a : AppState} {id u : Uuid}
    (hown : ∀ k, a.inner.clients.lookup k = some ⟨u⟩ → k = id) :
    (ids.foldl expireSession a).clientLog u =
      a.clientLog u ++
        if (a.inner.clients.lookup id = some ⟨u⟩ ∧ u ∉ a.dropped) ∧ id ∈ ids then
          [sessionMessage "session.expired" id] else [] := by
  refine clientLog_dismissals (f := fun k => [sessionMessage "session.expired" k]) ?_ ?_ ?_ ids hown
  · intro a k u
    rw [expireSession, AppState.clientLog_dismissClient, AppState.toBridge_inner,
      AppState.toBridge_dropped, AppState.clientLog_congr (a.toBridge_clientOut _)]
  · intro a k j
    rw [expireSession, AppState.dismissClient_clients, AppState.toBridge_inner]
  · intro a k
    simp [expireSession]

/-! ## What one event adds to a log -/

/-- The message an accepted bridge event for the session `id` becomes. -/
def addressed (e : Event) (id : Uuid) : Option Value :=
  match e with
  | .bridgeMessage _ message times =>
    (BridgeEvent.parse message).bind fun b =>
      if b.id = id ∧ b.kind.isSome then some (stamp b.message times) else none
  | _ => none

/-- The message `handle_bridge_event` relays for the session `id`: there is a record of it. -/
def relayed (e : Event) (a : AppState) (id : Uuid) : Option Value :=
  if (a.inner.sessions.lookup id).isSome then addressed e id else none

/-- What the control plane itself says to the client of the session `id`. -/
def Event.notices (e : Event) (a : AppState) (id : Uuid) : List Value :=
  match e with
  | .command (.delete k) =>
    if k = id ∧ (a.inner.sessions.lookup id).isSome then [sessionMessage "session.closed" id] else []
  | .bridgeDisconnect v =>
    if a.inner.bridge = some ⟨v⟩ ∧ a.sessionOpen id then bridgeLostMessages id else []
  | .reaper now => if id ∈ expiredIds now a then [sessionMessage "session.expired" id] else []
  | _ => []

variable {cfg : Config} {digest : String → String} {s t : System} {e : Event}

theorem clientLog_forward (id : Uuid) (m : Value) (a : AppState) :
    (forward id m a).1.clientOut = a.clientOut := by
  rcases forward_cases id m a with ⟨h, -⟩ | ⟨r, link, -, -, h⟩ <;> rw [h]

theorem clientLog_createSession (digest : String → String) (cfg : Config) (i : CreateInput)
    (a : AppState) : (createSession digest cfg i a).1.clientOut = a.clientOut := by
  rcases createSession_states digest cfg i a with ⟨g, h⟩ | ⟨-, g, h⟩ | ⟨-, _, _, _, _, -, -, h⟩
  all_goals
    rw [h]
    rfl

theorem clientLog_relay (k : Uuid) (m : Value) (times : RelayTimes) (a : AppState) (u : Uuid) :
    (relay k m times a).clientLog u = a.clientLog u ++
      if a.inner.clients.lookup k = some ⟨u⟩ ∧ u ∉ a.dropped then [stamp m times] else [] := by
  unfold relay
  cases a.inner.clients.lookup k with
  | none => simp
  | some client => simp only [AppState.clientLog_sendClient, Option.some.injEq]

/-- An accepted bridge event for a session with a record goes to the session's client. -/
theorem clientLog_applyBridgeEvent (b : BridgeEvent) (times : RelayTimes) (a : AppState) (u : Uuid) :
    (applyBridgeEvent b times a).clientLog u = a.clientLog u ++
      if a.inner.clients.lookup b.id = some ⟨u⟩ ∧ u ∉ a.dropped ∧
          (a.inner.sessions.lookup b.id).isSome ∧ b.kind.isSome then
        [stamp b.message times] else [] := by
  unfold applyBridgeEvent
  cases hs : a.inner.sessions.lookup b.id with
  | none => simp
  | some r =>
    cases hkind : b.kind with
    | none => simp
    | some kind =>
      simp only [clientLog_relay]
      -- the write of the state touches neither the clients nor the logs
      cases kind.state with
      | none => simp
      | some st =>
        have hlog : (a.setState b.id st).clientLog u = a.clientLog u := rfl
        by_cases hr : a.inner.clients.lookup b.id = some ⟨u⟩ ∧ u ∉ a.dropped <;> simp [hr, hlog]

/-- What a bridge message adds to the log of a link. -/
theorem clientLog_handleBridgeEvent (socketId : Uuid) (message : Option Value) (times : RelayTimes)
    {a : AppState} {id u : Uuid} (hown : ∀ k, a.inner.clients.lookup k = some ⟨u⟩ → k = id) :
    (handleBridgeEvent message times a).clientLog u =
      a.clientLog u ++
        if a.inner.clients.lookup id = some ⟨u⟩ ∧ u ∉ a.dropped then
          (relayed (.bridgeMessage socketId message times) a id).toList else [] := by
  simp only [handleBridgeEvent, relayed, addressed]
  cases BridgeEvent.parse message with
  | none => simp
  | some b =>
    simp only [Option.bind_some, clientLog_applyBridgeEvent]
    by_cases hid : b.id = id
    · subst hid
      by_cases hr : a.inner.clients.lookup b.id = some ⟨u⟩ ∧ u ∉ a.dropped
      · by_cases hs : (a.inner.sessions.lookup b.id).isSome = true <;>
          by_cases hb : b.kind.isSome = true <;> simp [hr, hs, hb]
      · have hno : ¬ (a.inner.clients.lookup b.id = some ⟨u⟩ ∧ u ∉ a.dropped ∧
            (a.inner.sessions.lookup b.id).isSome = true ∧ b.kind.isSome = true) :=
          fun h => hr ⟨h.1, h.2.1⟩
        rw [if_neg hr, if_neg hno]
    · have hno : a.inner.clients.lookup b.id ≠ some ⟨u⟩ := fun h => hid (hown b.id h)
      simp [hno, hid]

/-- **What one event adds to the log of a link** that at most the session `id` has registered. -/
theorem step_clientLog (h : step cfg digest s e = some t) (hk : KeyedById s.app) (id : Uuid) {u : Uuid}
    (hown : ∀ k, s.app.inner.clients.lookup k = some ⟨u⟩ → k = id)
    (hne : ∀ k, e ≠ .clientOpen k u) :
    t.app.clientLog u = s.app.clientLog u ++
      if s.app.inner.clients.lookup id = some ⟨u⟩ ∧ u ∉ s.app.dropped then
        (relayed e s.app id).toList ++ e.notices s.app id else [] := by
  have hquiet : t.app.clientOut = s.app.clientOut → relayed e s.app id = none →
      e.notices s.app id = [] → t.app.clientLog u = s.app.clientLog u ++
        if s.app.inner.clients.lookup id = some ⟨u⟩ ∧ u ∉ s.app.dropped then
          (relayed e s.app id).toList ++ e.notices s.app id else [] := by
    intro hout hr hn
    rw [AppState.clientLog_congr hout, hr, hn]
    simp
  have hnone : (∀ v m times, e ≠ .bridgeMessage v m times) → relayed e s.app id = none := by
    intro hm
    unfold relayed addressed
    split
    · split
      · exact absurd rfl (hm _ _ _)
      · rfl
    · rfl
  have happ := step_app h
  cases e with
  | createBrowserGrant req body now token =>
    obtain ⟨g, hg⟩ := createBrowserGrant_frame digest cfg req body now token s.app
    exact hquiet (by rw [happ, Event.apply, hg]; rfl) (hnone (by simp)) rfl
  | createSession i =>
    exact hquiet (by rw [happ, Event.apply, clientLog_createSession]) (hnone (by simp)) rfl
  | access req c => exact hquiet (by rw [happ]; rfl) (hnone (by simp)) rfl
  | command c =>
    cases c with
    | commit k =>
      refine hquiet ?_ (hnone (by simp)) rfl
      rw [happ, Event.apply, runCommand, commitUtterance, clientLog_forward]
    | speak k body =>
      refine hquiet ?_ (hnone (by simp)) rfl
      rw [happ, Event.apply, runCommand, speakText]
      cases speakFields body with
      | error reply => rfl
      | ok fields => exact clientLog_forward k _ _
    | delete k =>
      rw [happ, Event.apply, runCommand, hnone (by simp)]
      simp only [Event.notices, Option.toList_none, List.nil_append]
      cases hr : s.app.inner.sessions.lookup k with
      | none =>
        rw [deleteSession_none hr]
        by_cases hid : k = id
        · subst hid
          simp [hr]
        · simp [hid]
      | some r =>
        simp only [deleteSession, hr]
        rw [AppState.clientLog_dismissClient, AppState.toBridge_inner, AppState.setState_clients,
          AppState.toBridge_dropped, AppState.setState_dropped,
          AppState.clientLog_congr (AppState.toBridge_clientOut _ _),
          show (s.app.setState k .closed).clientLog u = s.app.clientLog u from rfl]
        by_cases hid : k = id
        · subst hid
          simp [hr]
        · have hno : s.app.inner.clients.lookup k ≠ some ⟨u⟩ := fun h => hid (hown k h)
          simp [hno, hid]
  | bridgeConnect req v =>
    refine hquiet ?_ (hnone (by simp)) rfl
    rw [happ, Event.apply]
    split <;> rfl
  | bridgeMessage v message times =>
    rw [happ, Event.apply, clientLog_handleBridgeEvent v message times hown]
    simp [Event.notices]
  | bridgeDisconnect v =>
    rw [happ, Event.apply, hnone (by simp)]
    simp only [Event.notices, Option.toList_none, List.nil_append]
    by_cases hb : s.app.inner.bridge = some ⟨v⟩
    · have hmem := mem_closeWhere_ids (p := Session.isOpen)
        (a := { s.app with inner := { s.app.inner with bridge := none } }) hk (k := id)
      have hopen : id ∈ (closeWhere Session.isOpen
          { s.app with inner := { s.app.inner with bridge := none } }).2 ↔
            s.app.sessionOpen id = true := by
        rw [hmem, sessionOpen_iff]
      have hlog := clientLog_dismissAll bridgeLostMessages
        (closeWhere Session.isOpen { s.app with inner := { s.app.inner with bridge := none } }).2
        (a := (closeWhere Session.isOpen
          { s.app with inner := { s.app.inner with bridge := none } }).1) (u := u) hown
      simp only [bridgeDisconnect, hb, if_true, true_and]
      refine Eq.trans hlog ?_
      simp only [hopen]
      by_cases ho : s.app.sessionOpen id = true <;> simp [ho] <;> rfl
    · rw [bridgeDisconnect_stale hb]
      simp only [hb, false_and, if_false, ite_self, List.append_nil]
      rfl
  | clientWs req => exact hquiet (by rw [happ]; rfl) (hnone (by simp)) rfl
  | clientOpen k v =>
    have hv : ¬ (⟨v⟩ : SocketLink) = ⟨u⟩ := fun hvu =>
      hne k (by rw [SocketLink.mk.inj hvu])
    rw [happ, Event.apply, hnone (by simp)]
    simp only [Event.notices, Option.toList_none, List.append_nil, ite_self]
    unfold clientOpen
    split
    · rfl
    · rw [Option.getD_some]
      exact (AppState.clientLog_sendClient s.app ⟨v⟩ _ u).trans (by simp [hv])
  | clientClose k v =>
    refine hquiet ?_ (hnone (by simp)) rfl
    rw [happ, Event.apply]
    unfold clientClose
    have hun : (unregister k v s.app).clientOut = s.app.clientOut := by
      unfold unregister
      split <;> rfl
    simp only
    split
    · rw [AppState.toBridge_clientOut]
      exact hun
    · exact hun
  | reaper now =>
    rw [happ, Event.apply, hnone (by simp)]
    simp only [Event.notices, Option.toList_none, List.nil_append]
    have hlog := clientLog_expireAll (expiredIds now s.app)
      (a := (closeWhere (Session.expired now) s.app).1) (u := u) hown
    refine Eq.trans hlog ?_
    by_cases hx : id ∈ expiredIds now s.app <;> simp [hx] <;> rfl
  | rehash sessions => exact hquiet (by rw [happ]; rfl) (hnone (by simp)) rfl

/-! ## Registered links -/

/-- A running client socket runs on unless its loop ends. -/
theorem clientSockets_kept (h : step cfg digest s e = some t) {p : Uuid × Uuid}
    (hp : p ∈ s.clientSockets) : p ∈ t.clientSockets ∨ e = .clientClose p.1 p.2 := by
  rw [step_eq h]
  cases e with
  | clientOpen k v =>
    simp only [Event.advance]
    split
    · exact Or.inl (List.mem_cons_of_mem _ hp)
    · exact Or.inl hp
  | clientClose k v =>
    by_cases hkv : p = (k, v)
    · exact Or.inr (by rw [hkv])
    · exact Or.inl ((List.mem_erase_of_ne hkv).mpr hp)
  | access req c => simp only [Event.advance]; split <;> exact Or.inl hp
  | clientWs req => simp only [Event.advance]; split <;> exact Or.inl hp
  | bridgeConnect req v => simp only [Event.advance]; split <;> exact Or.inl hp
  | _ => exact Or.inl hp

/-- A registered client link belongs to a running socket of its session and has a receiver; a socket
belongs to one session, and a link that has not been drawn has carried nothing. -/
structure ClientLinked (s : System) : Prop where
  running : ∀ k link, s.app.inner.clients.lookup k = some link → (k, link.id) ∈ s.clientSockets
  alive : ∀ k link, s.app.inner.clients.lookup k = some link → link.id ∉ s.app.dropped
  single : ∀ k k' u, (k, u) ∈ s.clientSockets → (k', u) ∈ s.clientSockets → k = k'
  silent : ∀ u, u ∉ s.drawn → s.app.clientLog u = []

theorem clientLinked_init : ClientLinked System.init where
  running _ _ h := absurd h (by simp [System.init, AppState.new, Inner.empty])
  alive _ _ h := absurd h (by simp [System.init, AppState.new, Inner.empty])
  single _ _ _ h := absurd h List.not_mem_nil
  silent _ _ := rfl

namespace ClientLinked

/-- At most one session has the link registered. -/
theorem owner (hc : ClientLinked s) {k k' : Uuid} {link : SocketLink}
    (h : s.app.inner.clients.lookup k = some link)
    (h' : s.app.inner.clients.lookup k' = some link) : k = k' :=
  hc.single k k' link.id (hc.running k link h) (hc.running k' link h')

/-- A link registered after a step was registered before, or is that of the socket the step opens. -/
theorem before (hk : KeyedById s.app) (h : step cfg digest s e = some t) {k : Uuid}
    {link : SocketLink} (hl : t.app.inner.clients.lookup k = some link) :
    (s.app.inner.clients.lookup k = some link ∧ e ≠ .clientClose k link.id) ∨
      e = .clientOpen k link.id ∧ s.app.sessionOpen k = true := by
  rcases step_clients h hk k with ⟨v, rfl, ho, hv, -⟩ | ⟨hsame | hnone, -⟩
  · rw [hv] at hl
    obtain rfl := Option.some.inj hl
    exact Or.inr ⟨rfl, ho⟩
  · refine Or.inl ⟨hsame ▸ hl, ?_⟩
    rintro rfl
    have hgone := (clientClose_frame k link.id s.app).2.1 k
    rw [if_pos ⟨rfl, hsame ▸ hl⟩] at hgone
    rw [step_app h, Event.apply, hgone] at hl
    exact absurd hl (by simp)
  · exact absurd hl (by simp [hnone])

/-- A step that draws new UUIDs keeps `ClientLinked`. -/
theorem step (hc : ClientLinked s) (hl : Linked s) (hk : KeyedById s.app)
    (hf : FreshStep ⟨s, e, t⟩) (h : ControlPlane.step cfg digest s e = some t) :
    ClientLinked t := by
  refine ⟨fun k link hr => ?_, fun k link hr hd => ?_, fun k k' u hu hu' => ?_, fun u hu => ?_⟩
  · rcases before hk h hr with ⟨hold, hne⟩ | ⟨rfl, ho⟩
    · exact (clientSockets_kept h (hc.running k link hold)).resolve_right hne
    · have hsome : (clientOpen k link.id s.app).isSome = true := by
        obtain ⟨r, hrec, hro⟩ := sessionOpen_iff.mp ho
        simp [clientOpen, hrec, Option.filter, hro]
      rw [step_eq h]
      simp only [Event.advance, hsome, if_true]
      exact List.mem_cons_self
  · rw [step_dropped h] at hd
    rcases before hk h hr with ⟨hold, hne⟩ | ⟨rfl, -⟩
    · rcases List.mem_append.mp hd with hd | hd
      · have hen := step_enabled h
        cases e with
        | bridgeDisconnect v =>
          have hrun : v ∈ s.bridgeSockets := by simpa [Event.enabled] using hen
          exact hl.separate v hrun _ (hc.running k link hold) (List.mem_singleton.mp hd)
        | clientClose k' v =>
          have hrun : (k', v) ∈ s.clientSockets := by simpa [Event.enabled] using hen
          obtain rfl := List.mem_singleton.mp hd
          exact hne (by rw [hc.single k k' _ (hc.running k link hold) hrun])
        | _ => exact absurd hd List.not_mem_nil
      · exact hc.alive k link hold hd
    · exact hf.2 link.id List.mem_cons_self (hl.dropped_drawn _ (by simpa [Event.drops] using hd))
  · rcases clientSockets_step h hu with hold | rfl
    · rcases clientSockets_step h hu' with hold' | rfl
      · exact hc.single k k' u hold hold'
      · exact absurd (hl.clients_drawn _ hold) (hf.2 u List.mem_cons_self)
    · rcases clientSockets_step h hu' with hold' | he
      · exact absurd (hl.clients_drawn _ hold') (hf.2 u List.mem_cons_self)
      · exact (Event.clientOpen.inj he).1
  · have hu' : u ∉ s.drawn := fun hm => hu (drawn_mono h hm)
    have hno : ∀ k, s.app.inner.clients.lookup k ≠ some ⟨u⟩ := fun k hr =>
      hu' (hl.clients_drawn _ (hc.running k _ hr))
    rw [step_clientLog h hk u (fun k hr => absurd hr (hno k)), hc.silent u hu',
      if_neg fun hr => hno u hr.1]
    · rfl
    · rintro k rfl
      refine hu ?_
      rw [step_drawn h]
      exact List.mem_append_left _ List.mem_cons_self

end ClientLinked

/-- **A registered client link is alive** before every step of a run that draws no UUID twice. -/
theorem clientLinked_before {es : List Event} (hf : FreshRun cfg digest es) :
    ∀ x ∈ trace cfg digest es, ClientLinked x.before :=
  Run.before_of_trace clientLinked_init fun x hx hc =>
    hc.step (linked_before hf x hx) (keyedById_before x hx) (hf x hx) (Run.mem_trace hx).2

/-- What the control plane may say last to the client of the session `id`. -/
def closingNotices (id : Uuid) : List (List Value) :=
  [[], [sessionMessage "session.closed" id], bridgeLostMessages id,
    [sessionMessage "session.expired" id]]

/-- What a step does to the link `u` that the session `id` has registered. -/
inductive LinkStep (s : System) (e : Event) (t : System) (id u : Uuid) : Prop
  | stays (hr : t.app.inner.clients.lookup id = some ⟨u⟩)
      (hl : t.app.clientLog u = s.app.clientLog u ++ (relayed e s.app id).toList)
  | leaves {c : List Value} (hr : ∀ k, t.app.inner.clients.lookup k ≠ some ⟨u⟩)
      (hn : relayed e s.app id = none) (hc : c ∈ closingNotices id)
      (hl : t.app.clientLog u = s.app.clientLog u ++ c)

/-- A step that relays a message for a session keeps its client. -/
theorem registered_of_relayed (h : step cfg digest s e = some t) {id : Uuid} {m : Value}
    (hm : relayed e s.app id = some m) : t.app.inner.clients = s.app.inner.clients := by
  rw [step_app h]
  cases e with
  | bridgeMessage v message times => exact (handleBridgeEvent_frame message times s.app).2.1
  | _ => simp [relayed, addressed] at hm

/-- The notices of a step are closing notices, and end the registration. -/
theorem notices_close (h : step cfg digest s e = some t) (hk : KeyedById s.app) (id : Uuid) :
    e.notices s.app id ∈ closingNotices id ∧
      (e.notices s.app id ≠ [] → t.app.inner.clients.lookup id = none) := by
  rw [step_app h]
  unfold Event.notices
  split
  · rename_i k
    split
    · rename_i hid
      obtain ⟨rfl, hr⟩ := hid
      obtain ⟨r, hr⟩ := Option.isSome_iff_exists.mp hr
      refine ⟨by simp [closingNotices], fun _ => ?_⟩
      rw [Event.apply, runCommand, (deleteSession_some hr).2.1 k, if_pos rfl]
    · exact ⟨by simp [closingNotices], fun hne => absurd rfl hne⟩
  · rename_i v
    split
    · rename_i hb
      refine ⟨by simp [closingNotices], fun _ => ?_⟩
      rw [Event.apply, (bridgeDisconnect_current hb.1).2.1 hk id]
      exact if_pos hb.2
    · exact ⟨by simp [closingNotices], fun hne => absurd rfl hne⟩
  · rename_i now
    split
    · rename_i hx
      refine ⟨by simp [closingNotices], fun _ => ?_⟩
      rw [Event.apply, (reaperPass_frame now s.app).2.1 id, if_pos hx]
    · exact ⟨by simp [closingNotices], fun hne => absurd rfl hne⟩
  · exact ⟨by simp [closingNotices], fun hne => absurd rfl hne⟩

/-- **What a step does to a registered link.** -/
theorem link_step (h : step cfg digest s e = some t) (hl : Linked s) (hc : ClientLinked s)
    (hk : KeyedById s.app) (hf : FreshStep ⟨s, e, t⟩) {id u : Uuid}
    (hr : s.app.inner.clients.lookup id = some ⟨u⟩) : LinkStep s e t id u := by
  have hown : ∀ k, s.app.inner.clients.lookup k = some ⟨u⟩ → k = id := fun k hk' => hc.owner hk' hr
  have hne : ∀ k, e ≠ .clientOpen k u := by
    rintro k rfl
    exact hf.2 u List.mem_cons_self (hl.clients_drawn _ (hc.running id _ hr))
  have hlog := step_clientLog h hk id hown hne
  rw [if_pos ⟨hr, hc.alive id _ hr⟩] at hlog
  obtain ⟨hclose, hgone⟩ := notices_close h hk id
  have hother : ∀ k, t.app.inner.clients.lookup k = some ⟨u⟩ → k = id := by
    intro k hkt
    rcases ClientLinked.before hk h hkt with ⟨hold, -⟩ | ⟨he, -⟩
    · exact hown k hold
    · exact absurd he (hne k)
  by_cases hstay : t.app.inner.clients.lookup id = some ⟨u⟩
  · have hnil : e.notices s.app id = [] := by
      by_contra hn
      exact absurd hstay (by simp [hgone hn])
    refine .stays hstay ?_
    rw [hlog, hnil, List.append_nil]
  · have hnone : relayed e s.app id = none := by
      by_contra hm
      obtain ⟨m, hm⟩ := Option.ne_none_iff_exists'.mp hm
      exact hstay (by rw [registered_of_relayed h hm, hr])
    refine .leaves (fun k hkt => hstay (hother k hkt ▸ hkt)) hnone hclose ?_
    rw [hlog, hnone]
    rfl

/-- A link that no session has registered and that is not being opened carries nothing more. -/
theorem link_over (h : step cfg digest s e = some t) (hk : KeyedById s.app)
    (hd : ∀ k, e ≠ .clientOpen k u) (hr : ∀ k, s.app.inner.clients.lookup k ≠ some ⟨u⟩) :
    (∀ k, t.app.inner.clients.lookup k ≠ some ⟨u⟩) ∧ t.app.clientLog u = s.app.clientLog u := by
  refine ⟨fun k hkt => ?_, ?_⟩
  · rcases ClientLinked.before hk h hkt with ⟨hold, -⟩ | ⟨he, -⟩
    · exact hr k hold
    · exact hd k he
  · rw [step_clientLog h hk u (fun k hk' => absurd hk' (hr k)) hd,
      if_neg fun hh => hr u hh.1, List.append_nil]

/-! ## What the messages name -/

/-- A metric is written under `metrics` and nowhere else. -/
theorem insertMetric_get (event : Value) (group name : String) (value : Value) {k : String}
    (hk : k ≠ "metrics") : (insertMetric event group name value).get k = event.get k := by
  unfold insertMetric
  split
  · split
    · split
      · rw [Value.get_object, Value.lookup_setField, if_neg hk, Value.get_object]
      · rfl
    · rfl
  · rfl

/-- Stamping a message changes its metrics only. -/
theorem stamp_strField (event : Value) (times : RelayTimes) {k : String} (hk : k ≠ "metrics") :
    (stamp event times).strField k = event.strField k := by
  unfold stamp Value.strField
  rw [insertMetric_get _ _ _ _ hk, insertMetric_get _ _ _ _ hk, insertMetric_get _ _ _ _ hk]

theorem snapshot_fields (id : Uuid) (st : SessionState) (online : Bool) :
    snapshot id st online = .object [("bridgeOnline", .bool online), ("sessionId", .string id),
      ("state", .string st.toText), ("type", .string "session.snapshot")] := by
  simp [snapshot, Value.json, Value.setField, show ("sessionId" : String) < "type" by decide,
    show ("state" : String) < "type" by decide, show ("bridgeOnline" : String) < "sessionId" by decide,
    show ¬ ("state" : String) < "sessionId" by decide]

theorem parse_some {message : Option Value} {b : BridgeEvent} (h : BridgeEvent.parse message = some b) :
    message = some b.message ∧ b.message.strField "sessionId" = some b.id ∧
      ∃ type, b.message.strField "type" = some type ∧ b.kind = EventKind.ofType type := by
  simp only [BridgeEvent.parse, Option.bind_eq_bind, Option.bind_eq_some_iff, Option.pure_def,
    Option.some.injEq] at h
  obtain ⟨m, rfl, type, htype, id, hid, rfl⟩ := h
  exact ⟨rfl, hid, type, htype, rfl⟩

/-- A relayed message names its session. -/
theorem addressed_names {id : Uuid} {m : Value} (h : addressed e id = some m) :
    m.strField "sessionId" = some id := by
  cases e with
  | bridgeMessage v message times =>
    simp only [addressed, Option.bind_eq_some_iff] at h
    obtain ⟨b, hb, h⟩ := h
    split at h
    · rename_i hid
      obtain rfl := Option.some.inj h
      rw [stamp_strField _ _ (by decide), (parse_some hb).2.1, hid.1]
    · exact absurd h (by simp)
  | _ => exact absurd h (by simp [addressed])

theorem relayed_eq_some {a : AppState} {id : Uuid} {m : Value} :
    relayed e a id = some m ↔ (a.inner.sessions.lookup id).isSome = true ∧ addressed e id = some m := by
  unfold relayed
  split
  · simp [*]
  · simp [*]

/-- The closing notices name their session. -/
theorem closingNotices_name {id : Uuid} {c : List Value} (h : c ∈ closingNotices id) :
    ∀ m ∈ c, m.strField "sessionId" = some id := by
  have hlost : ∀ m ∈ bridgeLostMessages id, m.strField "sessionId" = some id := by
    intro m hm
    simp only [bridgeLostMessages, List.mem_cons, List.not_mem_nil, or_false] at hm
    rcases hm with rfl | rfl
    · exact sessionId_extend _ _ (by simp [Value.setField])
    · exact (sessionMessage_strFields _ id).2
  simp only [closingNotices, List.mem_cons, List.not_mem_nil, or_false] at h
  rcases h with rfl | rfl | rfl | rfl
  · exact fun m hm => absurd hm List.not_mem_nil
  · intro m hm
    rw [List.mem_singleton.mp hm]
    exact (sessionMessage_strFields _ id).2
  · exact hlost
  · intro m hm
    rw [List.mem_singleton.mp hm]
    exact (sessionMessage_strFields _ id).2

/-! ## The log of a link along a run -/

/-- The message a step relays to the link `u` while the session `id` has it registered. -/
def relayedTo (id u : Uuid) (x : Run.Taken System Event) : Option Value :=
  if x.before.app.inner.clients.lookup id = some ⟨u⟩ then relayed x.event x.before.app id else none

/-- The step opens the link `u` for the session `id`, whose record is `r`. -/
def OpensLink (x : Run.Taken System Event) (id u : Uuid) (r : Session) : Prop :=
  x.event = .clientOpen id u ∧ x.before.app.inner.sessions.lookup id = some r ∧ r.isOpen = true

/-- The first message of a link. -/
def firstMessage (x : Run.Taken System Event) (id : Uuid) (r : Session) : Value :=
  snapshot id r.state x.before.app.inner.bridge.isSome

/-- The opening of a link registers it and sends the snapshot. -/
theorem opensLink_step {x : Run.Taken System Event} {id u : Uuid} {r : Session}
    (h : step cfg digest x.before x.event = some x.after) (hl : Linked x.before)
    (hc : ClientLinked x.before) (hf : FreshStep x) (ho : OpensLink x id u r) :
    x.after.app.inner.clients.lookup id = some ⟨u⟩ ∧
      x.after.app.clientLog u = [firstMessage x id r] := by
  obtain ⟨s, e, t⟩ := x
  obtain ⟨rfl, hr, hopen⟩ := ho
  simp only at h hl hc hf hr ⊢
  have hnew : u ∉ s.drawn := hf.2 u List.mem_cons_self
  have hlive : u ∉ s.app.dropped := fun hd => hnew (hl.dropped_drawn u hd)
  have hopen' : (s.app.inner.sessions.lookup id).filter Session.isOpen = some r := by
    rw [hr, Option.filter, if_pos hopen]
  have happ : t.app = { (s.app.sendClient ⟨u⟩ (snapshot id r.state s.app.inner.bridge.isSome)).1 with
      inner := { (s.app.sendClient ⟨u⟩ (snapshot id r.state s.app.inner.bridge.isSome)).1.inner with
        clients := (s.app.sendClient ⟨u⟩
          (snapshot id r.state s.app.inner.bridge.isSome)).1.inner.clients.insert id ⟨u⟩ } } := by
    rw [step_app h, Event.apply, clientOpen, hopen']
    rfl
  refine ⟨?_, ?_⟩
  · rw [happ]
    exact AList.lookup_insert _
  · have hlog := AppState.clientLog_sendClient s.app ⟨u⟩
      (snapshot id r.state s.app.inner.bridge.isSome) u
    rw [hc.silent u hnew, if_pos ⟨rfl, hlive⟩] at hlog
    rw [happ]
    exact hlog

/-- Where the link `u` of the session `id` is, and what it has carried since it was opened. -/
structure Carried (s : System) (id u : Uuid) (first : Value) (rest : List Value) : Prop where
  drawn : u ∈ s.drawn
  log : ∃ c ∈ closingNotices id, s.app.clientLog u = first :: rest ++ c ∧
    (s.app.inner.clients.lookup id = some ⟨u⟩ ∧ c = [] ∨
      ∀ k, s.app.inner.clients.lookup k ≠ some ⟨u⟩)

/-- A step adds its relayed message to what a link has carried. -/
theorem Carried.step {id u : Uuid} {first : Value} {rest : List Value}
    (hcar : Carried s id u first rest) (h : ControlPlane.step cfg digest s e = some t)
    (hl : Linked s) (hc : ClientLinked s) (hk : KeyedById s.app) (hf : FreshStep ⟨s, e, t⟩) :
    Carried t id u first (rest ++ (relayedTo id u ⟨s, e, t⟩).toList) := by
  obtain ⟨hdrawn, c, hmem, hlog, hreg⟩ := hcar
  refine ⟨drawn_mono h hdrawn, ?_⟩
  unfold relayedTo
  rcases hreg with ⟨hr, rfl⟩ | hgone
  · rw [if_pos hr]
    rw [List.append_nil] at hlog
    cases link_step h hl hc hk hf hr with
    | stays hstay hl' => exact ⟨[], hmem, by rw [hl', hlog]; simp, Or.inl ⟨hstay, rfl⟩⟩
    | leaves hout hn hc' hl' => exact ⟨_, hc', by rw [hl', hlog, hn]; simp, Or.inr hout⟩
  · rw [if_neg (hgone id)]
    have hne : ∀ k, e ≠ .clientOpen k u := by
      rintro k rfl
      exact hf.2 u List.mem_cons_self hdrawn
    obtain ⟨hout, hl'⟩ := link_over h hk hne hgone
    exact ⟨c, hmem, by rw [hl', hlog]; simp, Or.inr hout⟩

/-- What a link opened by an earlier step has carried. -/
theorem carried {es : List Event} (hf : FreshRun cfg digest es)
    {pre post : List (Run.Taken System Event)} {x : Run.Taken System Event}
    (h : trace cfg digest es = pre ++ x :: post) {id u : Uuid} {r : Session} (ho : OpensLink x id u r) :
    Carried (final cfg digest es) id u (firstMessage x id r) (post.filterMap (relayedTo id u)) := by
  -- along the run, for every link opened so far
  suffices hI : (∀ y ∈ trace cfg digest es, FreshStep y) →
      (Linked (final cfg digest es) ∧ ClientLinked (final cfg digest es) ∧
        KeyedById (final cfg digest es).app) ∧
      ∀ pre x post id u r, trace cfg digest es = pre ++ x :: post → OpensLink x id u r →
        Carried (final cfg digest es) id u (firstMessage x id r) (post.filterMap (relayedTo id u)) from
    (hI hf).2 pre x post id u r h ho
  refine Run.history_final (I := fun past s => (∀ y ∈ past, FreshStep y) →
    (Linked s ∧ ClientLinked s ∧ KeyedById s.app) ∧
    ∀ pre x post id u r, past = pre ++ x :: post → OpensLink x id u r →
      Carried s id u (firstMessage x id r) (post.filterMap (relayedTo id u))) ?_ ?_ es
  · intro _
    exact ⟨⟨linked_init, clientLinked_init, keyedById_init⟩, fun pre x post _ _ _ h => by simp at h⟩
  · intro past s e t hI hstep hfresh
    have hf' : FreshStep ⟨s, e, t⟩ := hfresh _ (by simp)
    obtain ⟨⟨hl, hc, hk⟩, hold⟩ := hI fun y hy => hfresh y (List.mem_append_left _ hy)
    refine ⟨⟨hl.step hf' hstep, hc.step hl hk hf' hstep, keyedById_step hstep hk⟩, ?_⟩
    intro pre x post id u r hsplit ho
    rcases Run.split_concat hsplit with ⟨rfl, rfl, rfl⟩ | ⟨post, rfl, rfl⟩
    · -- the step opens the link
      obtain ⟨hr, hlog⟩ := opensLink_step hstep hl hc hf' ho
      refine ⟨?_, [], by simp [closingNotices], by rw [hlog]; rfl, Or.inl ⟨hr, rfl⟩⟩
      rw [step_drawn hstep, show e = .clientOpen id u from ho.1]
      exact List.mem_append_left _ List.mem_cons_self
    · -- the link was opened before
      have hcar := (hold pre x post id u r rfl ho).step hstep hl hc hk hf'
      rw [List.filterMap_append]
      cases hy : relayedTo id u ⟨s, e, t⟩ <;> simpa [hy] using hcar

/-- **Faithful relay.** In a run that draws no UUID twice, the messages a client link of the session
`id` has accepted are the snapshot with the session's state when the link was opened, then the bridge
messages that were handled for `id` while the link was the registered one and the record was there,
each once and in the order they were handled, then at most the control plane's notices. All of them
name `id`. -/
theorem faithful_relay {es : List Event} (hf : FreshRun cfg digest es)
    {pre post : List (Run.Taken System Event)} {x : Run.Taken System Event}
    (h : trace cfg digest es = pre ++ x :: post) {id u : Uuid} {r : Session} (ho : OpensLink x id u r) :
    (∃ c ∈ closingNotices id, (final cfg digest es).app.clientLog u =
      snapshot id r.state x.before.app.inner.bridge.isSome :: post.filterMap (relayedTo id u) ++ c) ∧
    ∀ m ∈ (final cfg digest es).app.clientLog u, m.strField "sessionId" = some id := by
  obtain ⟨-, c, hmem, hlog, -⟩ := carried hf h ho
  refine ⟨⟨c, hmem, hlog⟩, fun m hm => ?_⟩
  rw [hlog] at hm
  rcases List.mem_append.mp hm with hm | hm
  · rcases List.mem_cons.mp hm with rfl | hm
    · rw [firstMessage, snapshot_fields]
      rfl
    · obtain ⟨y, -, hy⟩ := List.mem_filterMap.mp hm
      unfold relayedTo at hy
      split at hy
      · exact addressed_names (relayed_eq_some.mp hy).2
      · exact absurd hy (by simp)
  · exact closingNotices_name hmem m hm

/-- The browser of the session `first` is about to open its socket. -/
def beforeOpen : List Event :=
  [.connect "link", .create "first" 0, .clientWs (browserRequest "first")]

/-- `faithful_relay` on a run in which the session becomes ready after its browser has connected. -/
theorem faithful_relay_ready :
    let es := beforeOpen ++ .clientOpen "first" "browser" ::
      [.bridgeSays "link" (sessionMessage "session.ready" "first")]
    ((final livekitProductionConfig id es).app.clientLog "browser").length = 2 ∧
      ∀ m ∈ (final livekitProductionConfig id es).app.clientLog "browser",
        m.strField "sessionId" = some "first" := by
  refine ⟨by decide +kernel, (faithful_relay (by decide +kernel)
    (Run.trace_split beforeOpen (.clientOpen "first" "browser") _ (if_pos (by decide +kernel)))
    (⟨rfl, by decide +kernel, rfl⟩ : OpensLink _ "first" "browser"
      ⟨"first", "first-ticket", .starting, 900000, none, none⟩)).2⟩

/-- An accepted bridge message for `id` that is handled while `u` is its registered link. -/
def addressedTo (id u : Uuid) (x : Run.Taken System Event) : Option Value :=
  if x.before.app.inner.clients.lookup id = some ⟨u⟩ then addressed x.event id else none

/-- The bridge closes a session whose browser stays connected, a reaper pass drops the record, and one
more event of the session arrives. -/
def afterOpen : List Event :=
  [.bridgeSays "link" (sessionMessage "session.closed" "first"), .reaper 960000,
    .bridgeSays "link" (sessionMessage "asr.partial" "first")]

/-- That event is passed over, although its session's link is registered. -/
theorem late_event_passed_over :
    livekitProductionConfig.validate.toBool = true ∧
      FreshRun livekitProductionConfig id
        (beforeOpen ++ .clientOpen "first" "browser" :: afterOpen) ∧
      ¬ ∀ pre x post k u r,
        trace livekitProductionConfig id
          (beforeOpen ++ .clientOpen "first" "browser" :: afterOpen) = pre ++ x :: post →
        OpensLink x k u r →
        ∃ c ∈ closingNotices k, (final livekitProductionConfig id
            (beforeOpen ++ .clientOpen "first" "browser" :: afterOpen)).app.clientLog u =
          firstMessage x k r :: post.filterMap (addressedTo k u) ++ c := by
  refine ⟨by decide +kernel, by decide +kernel, fun h => ?_⟩
  obtain ⟨c, -, hlog⟩ := h _ _ _ "first" "browser"
    ⟨"first", "first-ticket", .starting, 900000, none, none⟩
    (Run.trace_split beforeOpen (.clientOpen "first" "browser") afterOpen
      (if_pos (by decide +kernel)))
    ⟨rfl, by decide +kernel, rfl⟩
  have hcarried : ((final livekitProductionConfig id
      (beforeOpen ++ .clientOpen "first" "browser" :: afterOpen)).app.clientLog "browser").length =
        2 := by decide +kernel
  rw [hlog, List.length_append, List.length_cons] at hcarried
  have haddressed : ∀ n, n + 1 + c.length = 2 → n ≤ 1 := by omega
  exact absurd (haddressed _ hcarried) (by decide +kernel)

end SenseVoice.ControlPlane
