import SenseVoice.ControlPlane.System

/-!
# What each operation changes

Frame and effect lemmas of the handlers, stated field by field: the sessions, the clients, the
registered bridge, the grants, and the messages the bridge links accept. The results about runs use
these lemmas and do not unfold the handlers.
-/

namespace SenseVoice.ControlPlane

open Lib

namespace AppState

variable (a : AppState)

@[simp] theorem sendBridge_inner (link : SocketLink) (m : Value) :
    (a.sendBridge link m).1.inner = a.inner := by
  unfold sendBridge
  split <;> rfl

@[simp] theorem sendBridge_dropped (link : SocketLink) (m : Value) :
    (a.sendBridge link m).1.dropped = a.dropped := by
  unfold sendBridge
  split <;> rfl

@[simp] theorem sendBridge_clientOut (link : SocketLink) (m : Value) :
    (a.sendBridge link m).1.clientOut = a.clientOut := by
  unfold sendBridge
  split <;> rfl

@[simp] theorem sendClient_inner (link : SocketLink) (m : Value) :
    (a.sendClient link m).1.inner = a.inner := by
  unfold sendClient
  split <;> rfl

@[simp] theorem sendClient_dropped (link : SocketLink) (m : Value) :
    (a.sendClient link m).1.dropped = a.dropped := by
  unfold sendClient
  split <;> rfl

@[simp] theorem sendClient_bridgeOut (link : SocketLink) (m : Value) :
    (a.sendClient link m).1.bridgeOut = a.bridgeOut := by
  unfold sendClient
  split <;> rfl

/-- A message to a client link is accepted where the receiver is there. -/
theorem sendClient_clientOut (link : SocketLink) (m : Value) :
    (a.sendClient link m).1.clientOut = a.clientOut ++ if link.id ∉ a.dropped then [(link.id, m)] else [] := by
  unfold sendClient
  by_cases h : link.id ∈ a.dropped <;> simp [h]

@[simp] theorem toBridge_inner (m : Value) : (a.toBridge m).1.inner = a.inner := by
  unfold toBridge
  split
  · rfl
  · exact a.sendBridge_inner _ m

@[simp] theorem toBridge_dropped (m : Value) : (a.toBridge m).1.dropped = a.dropped := by
  unfold toBridge
  split
  · rfl
  · exact a.sendBridge_dropped _ m

/-- The registered bridge link, when its receiver is there to accept a message. -/
def liveBridge : Option SocketLink := a.inner.bridge.filter fun link => link.id ∉ a.dropped

theorem liveBridge_eq_some {a : AppState} {link : SocketLink} :
    a.liveBridge = some link ↔ a.inner.bridge = some link ∧ link.id ∉ a.dropped := by
  unfold liveBridge
  rw [Option.filter_eq_some_iff, decide_eq_true_eq]

/-- A message to the bridge is accepted exactly by the live link. -/
theorem toBridge_eq (m : Value) :
    a.toBridge m = match a.liveBridge with
      | some link => ({ a with bridgeOut := a.bridgeOut ++ [(link.id, m)] }, true)
      | none => (a, false) := by
  unfold toBridge liveBridge
  cases a.inner.bridge with
  | none => rfl
  | some link =>
    unfold sendBridge
    by_cases h : link.id ∈ a.dropped <;> simp [Option.filter, h]

/-- The messages one send adds to the links' record. -/
def bridgeSends (m : Value) : List (Uuid × Value) := (a.liveBridge.map fun l => (l.id, m)).toList

theorem toBridge_bridgeOut (m : Value) :
    (a.toBridge m).1.bridgeOut = a.bridgeOut ++ a.bridgeSends m := by
  rw [toBridge_eq]
  unfold bridgeSends
  cases a.liveBridge with
  | none => simp
  | some link => rfl

/-! ### `dismissClient` -/

theorem foldl_sendClient (client : SocketLink) (ms : List Value) (a : AppState) :
    (ms.foldl (fun a m => (a.sendClient client m).1) a).inner = a.inner ∧
    (ms.foldl (fun a m => (a.sendClient client m).1) a).dropped = a.dropped ∧
    (ms.foldl (fun a m => (a.sendClient client m).1) a).bridgeOut = a.bridgeOut := by
  induction ms generalizing a with
  | nil => exact ⟨rfl, rfl, rfl⟩
  | cons m ms ih =>
    obtain ⟨h1, h2, h3⟩ := ih (a.sendClient client m).1
    refine ⟨?_, ?_, ?_⟩
    · rw [List.foldl_cons, h1, sendClient_inner]
    · rw [List.foldl_cons, h2, sendClient_dropped]
    · rw [List.foldl_cons, h3, sendClient_bridgeOut]

theorem dismissClient_inner (id : Uuid) (ms : List Value) :
    (a.dismissClient id ms).inner = { a.inner with clients := a.inner.clients.erase id } ∨
    (a.dismissClient id ms).inner = a.inner ∧ a.inner.clients.lookup id = none := by
  unfold dismissClient
  cases h : a.inner.clients.lookup id with
  | none => exact Or.inr ⟨rfl, rfl⟩
  | some client => exact Or.inl (foldl_sendClient client ms _).1

@[simp] theorem dismissClient_sessions (id : Uuid) (ms : List Value) :
    (a.dismissClient id ms).inner.sessions = a.inner.sessions := by
  rcases a.dismissClient_inner id ms with h | ⟨h, -⟩ <;> rw [h]

@[simp] theorem dismissClient_bridge (id : Uuid) (ms : List Value) :
    (a.dismissClient id ms).inner.bridge = a.inner.bridge := by
  rcases a.dismissClient_inner id ms with h | ⟨h, -⟩ <;> rw [h]

@[simp] theorem dismissClient_browserGrants (id : Uuid) (ms : List Value) :
    (a.dismissClient id ms).inner.browserGrants = a.inner.browserGrants := by
  rcases a.dismissClient_inner id ms with h | ⟨h, -⟩ <;> rw [h]

theorem dismissClient_clients (id : Uuid) (ms : List Value) (k : Uuid) :
    (a.dismissClient id ms).inner.clients.lookup k =
      if k = id then none else a.inner.clients.lookup k := by
  rcases a.dismissClient_inner id ms with h | ⟨h, hn⟩
  · rw [h]
    exact Table.lookup_erase_eq id a.inner.clients k
  · rw [h]
    split
    · rename_i hk
      rw [hk, hn]
    · rfl

@[simp] theorem dismissClient_dropped (id : Uuid) (ms : List Value) :
    (a.dismissClient id ms).dropped = a.dropped := by
  unfold dismissClient
  cases a.inner.clients.lookup id with
  | none => rfl
  | some client => exact (foldl_sendClient client ms _).2.1

@[simp] theorem dismissClient_bridgeOut (id : Uuid) (ms : List Value) :
    (a.dismissClient id ms).bridgeOut = a.bridgeOut := by
  unfold dismissClient
  cases a.inner.clients.lookup id with
  | none => rfl
  | some client => exact (foldl_sendClient client ms _).2.2

/-! ### `setState` -/

theorem setState_sessions (id : Uuid) (st : SessionState) (k : Uuid) :
    (a.setState id st).inner.sessions.lookup k =
      if k = id then (a.inner.sessions.lookup k).map fun s => { s with state := st }
      else a.inner.sessions.lookup k :=
  Table.lookup_modify id _ a.inner.sessions k

@[simp] theorem setState_bridge (id : Uuid) (st : SessionState) :
    (a.setState id st).inner.bridge = a.inner.bridge := rfl

@[simp] theorem setState_clients (id : Uuid) (st : SessionState) :
    (a.setState id st).inner.clients = a.inner.clients := rfl

@[simp] theorem setState_browserGrants (id : Uuid) (st : SessionState) :
    (a.setState id st).inner.browserGrants = a.inner.browserGrants := rfl

@[simp] theorem setState_dropped (id : Uuid) (st : SessionState) :
    (a.setState id st).dropped = a.dropped := rfl

@[simp] theorem setState_bridgeOut (id : Uuid) (st : SessionState) :
    (a.setState id st).bridgeOut = a.bridgeOut := rfl

end AppState

/-! ## `closeWhere` and the loops over the closed ids -/

theorem closeWhere_sessions (p : Session → Bool) (a : AppState) (k : Uuid) :
    (closeWhere p a).1.inner.sessions.lookup k =
      (a.inner.sessions.lookup k).map fun s => if p s then s.close else s :=
  Table.lookup_mapVal (fun _ s => if p s then s.close else s) a.inner.sessions k

/-- Every entry of the sessions table is filed under its own id. -/
def KeyedById (a : AppState) : Prop := ∀ k s, a.inner.sessions.lookup k = some s → s.id = k

theorem mem_closeWhere_ids {p : Session → Bool} {a : AppState} (hk : KeyedById a) {k : Uuid} :
    k ∈ (closeWhere p a).2 ↔ ∃ s, a.inner.sessions.lookup k = some s ∧ p s = true := by
  simp only [closeWhere, List.mem_map, List.mem_filter]
  constructor
  · rintro ⟨⟨k', s⟩, ⟨hm, hp⟩, rfl⟩
    have hl := Table.lookup_eq_some.mpr hm
    have : s.id = k' := hk k' s hl
    exact ⟨s, by rw [this]; exact hl, hp⟩
  · rintro ⟨s, hl, hp⟩
    exact ⟨⟨k, s⟩, ⟨Table.lookup_eq_some.mp hl, hp⟩, hk k s hl⟩

/-- What a loop that dismisses the clients of `ids` changes. -/
theorem foldl_dismissClient (f : Uuid → List Value) (ids : List Uuid) (a : AppState) :
    let b := ids.foldl (fun a id => a.dismissClient id (f id)) a
    b.inner.sessions = a.inner.sessions ∧ b.inner.bridge = a.inner.bridge ∧
      b.inner.browserGrants = a.inner.browserGrants ∧ b.dropped = a.dropped ∧
      b.bridgeOut = a.bridgeOut ∧
      ∀ k, b.inner.clients.lookup k = if k ∈ ids then none else a.inner.clients.lookup k := by
  induction ids generalizing a with
  | nil => exact ⟨rfl, rfl, rfl, rfl, rfl, fun k => by simp⟩
  | cons id ids ih =>
    obtain ⟨h1, h2, h3, h4, h5, h6⟩ := ih (a.dismissClient id (f id))
    refine ⟨h1.trans ?_, h2.trans ?_, h3.trans ?_, h4.trans ?_, h5.trans ?_, fun k => ?_⟩
    · exact a.dismissClient_sessions id _
    · exact a.dismissClient_bridge id _
    · exact a.dismissClient_browserGrants id _
    · exact a.dismissClient_dropped id _
    · exact a.dismissClient_bridgeOut id _
    · rw [List.foldl_cons, h6 k, a.dismissClient_clients]
      by_cases hk : k ∈ ids <;> by_cases he : k = id <;> simp [hk, he]

theorem bridgeSends_congr {a b : AppState} (hb : b.inner.bridge = a.inner.bridge)
    (hd : b.dropped = a.dropped) (m : Value) : b.bridgeSends m = a.bridgeSends m := by
  unfold AppState.bridgeSends AppState.liveBridge
  rw [hb, hd]

/-- What the loop of a reaper pass over the expired ids changes. -/
theorem foldl_expireSession (ids : List Uuid) (a : AppState) :
    let b := ids.foldl expireSession a
    b.inner.sessions = a.inner.sessions ∧ b.inner.bridge = a.inner.bridge ∧
      b.inner.browserGrants = a.inner.browserGrants ∧ b.dropped = a.dropped ∧
      b.bridgeOut = a.bridgeOut ++
        ids.flatMap (fun id => a.bridgeSends (sessionMessage "session.stop" id)) ∧
      ∀ k, b.inner.clients.lookup k = if k ∈ ids then none else a.inner.clients.lookup k := by
  induction ids generalizing a with
  | nil => exact ⟨rfl, rfl, rfl, rfl, by simp, fun k => by simp⟩
  | cons id ids ih =>
    obtain ⟨h1, h2, h3, h4, h5, h6⟩ := ih (expireSession a id)
    have hb : (expireSession a id).inner.bridge = a.inner.bridge := by simp [expireSession]
    have hd : (expireSession a id).dropped = a.dropped := by simp [expireSession]
    refine ⟨h1.trans ?_, h2.trans hb, h3.trans ?_, h4.trans hd, h5.trans ?_, fun k => ?_⟩
    · simp [expireSession]
    · simp [expireSession]
    · have hfirst : (expireSession a id).bridgeOut =
          a.bridgeOut ++ a.bridgeSends (sessionMessage "session.stop" id) := by
        rw [expireSession, AppState.dismissClient_bridgeOut, AppState.toBridge_bridgeOut]
      rw [hfirst, List.flatMap_cons, List.append_assoc]
      simp only [bridgeSends_congr hb hd]
    · rw [List.foldl_cons, h6 k, expireSession, AppState.dismissClient_clients,
        AppState.toBridge_inner]
      by_cases hk : k ∈ ids <;> by_cases he : k = id <;> simp [hk, he]

/-! ## The handlers, field by field -/

theorem createBrowserGrant_cases (digest : String → String) (cfg : Config) (req : Request)
    (body : Option BrowserGrantRequest) (now : Nat) (token : String) (a : AppState) :
    (createBrowserGrant digest cfg req body now token a).1 = a ∧
      (createBrowserGrant digest cfg req body now token a).2.status ≠ 201 ∨
    ∃ request, grantIdentity cfg req body = .ok request ∧
      (createBrowserGrant digest cfg req body now token a).2.status = 201 ∧
      (createBrowserGrant digest cfg req body now token a).1 =
        { a with
          inner := issueBrowserGrant digest a.inner (Text.trim request.subject)
            (Text.trim request.profileId) now cfg.browserGrantTtlSeconds token } := by
  unfold createBrowserGrant
  cases h : grantIdentity cfg req body with
  | ok request => exact Or.inr ⟨request, rfl, rfl, rfl⟩
  | error reply =>
    refine Or.inl ⟨rfl, ?_⟩
    unfold grantIdentity at h
    split at h
    · rename_i r hr
      obtain rfl := Except.error.inj h
      unfold requireOctosServiceAccess at hr
      split at hr
      · obtain rfl := Option.some.inj hr
        simp [renderError]
      · split at hr
        · exact absurd hr (by simp)
        · obtain rfl := Option.some.inj hr
          simp [renderError]
    · split at h
      · obtain rfl := Except.error.inj h
        simp [renderError]
      · split at h
        · obtain rfl := Except.error.inj h
          simp [renderError]
        · exact absurd h (by simp)

/-- The state with another grant table. -/
def AppState.withGrants (a : AppState) (g : Table String BrowserGrant) : AppState :=
  { a with inner := { a.inner with browserGrants := g } }

/-- Issuing a grant touches nothing but the grants. -/
theorem createBrowserGrant_frame (digest : String → String) (cfg : Config) (req : Request)
    (body : Option BrowserGrantRequest) (now : Nat) (token : String) (a : AppState) :
    ∃ g, (createBrowserGrant digest cfg req body now token a).1 = a.withGrants g := by
  rcases createBrowserGrant_cases digest cfg req body now token a with ⟨h, -⟩ | ⟨r, -, -, h⟩
  · exact ⟨a.inner.browserGrants, h⟩
  · exact ⟨_, h⟩

/-- A forwarded command changes nothing unless it is accepted, and then only adds its message. -/
theorem forward_cases (id : Uuid) (event : Value) (a : AppState) :
    (forward id event a).1 = a ∧ (forward id event a).2.status ≠ 202 ∧
      (a.inner.sessions.lookup id = none ∨ a.liveBridge = none) ∨
    ∃ s link, a.inner.sessions.lookup id = some s ∧ a.liveBridge = some link ∧
      forward id event a = ({ a with bridgeOut := a.bridgeOut ++ [(link.id, event)] }, accepted) := by
  unfold forward
  rw [AppState.toBridge_eq]
  cases hs : a.inner.sessions.lookup id with
  | none => exact Or.inl ⟨rfl, by simp [sessionNotFound, renderError], Or.inl rfl⟩
  | some s =>
    cases hl : a.liveBridge with
    | none => exact Or.inl ⟨rfl, by simp [renderError], Or.inr rfl⟩
    | some link => exact Or.inr ⟨s, link, rfl, rfl, rfl⟩

/-- Forwarding touches nothing but the messages. -/
theorem forward_frame (id : Uuid) (event : Value) (a : AppState) :
    (forward id event a).1.inner = a.inner ∧ (forward id event a).1.dropped = a.dropped := by
  rcases forward_cases id event a with ⟨h, -⟩ | ⟨s, link, -, -, h⟩
  · rw [h]
    exact ⟨rfl, rfl⟩
  · rw [h]
    exact ⟨rfl, rfl⟩

theorem speakText_frame (id : Uuid) (body : Option SpeakRequest) (a : AppState) :
    (speakText id body a).1.inner = a.inner ∧ (speakText id body a).1.dropped = a.dropped := by
  unfold speakText
  cases speakFields body with
  | error reply => exact ⟨rfl, rfl⟩
  | ok fields => exact forward_frame id _ a

theorem deleteSession_none {id : Uuid} {a : AppState} (h : a.inner.sessions.lookup id = none) :
    deleteSession id a = (a, sessionNotFound) := by
  simp only [deleteSession, h]

/-- What deleting an existing session changes. -/
theorem deleteSession_some {id : Uuid} {a : AppState} {s : Session}
    (h : a.inner.sessions.lookup id = some s) :
    let b := (deleteSession id a).1
    (∀ k, b.inner.sessions.lookup k =
      if k = id then (a.inner.sessions.lookup k).map Session.close
      else a.inner.sessions.lookup k) ∧
    (∀ k, b.inner.clients.lookup k = if k = id then none else a.inner.clients.lookup k) ∧
    b.inner.bridge = a.inner.bridge ∧ b.inner.browserGrants = a.inner.browserGrants ∧
    b.dropped = a.dropped ∧
    b.bridgeOut = a.bridgeOut ++ a.bridgeSends (sessionMessage "session.stop" id) := by
  simp only [deleteSession, h]
  refine ⟨fun k => ?_, fun k => ?_, by simp, by simp, by simp, ?_⟩
  · rw [AppState.dismissClient_sessions, AppState.toBridge_inner, AppState.setState_sessions]
    rfl
  · rw [AppState.dismissClient_clients, AppState.toBridge_inner, AppState.setState_clients]
  · rw [AppState.dismissClient_bridgeOut, AppState.toBridge_bridgeOut]
    rfl

/-- The relay at the end of `handle_bridge_event` only writes to a client link. -/
@[simp] theorem relay_inner (id : Uuid) (event : Value) (times : RelayTimes) (a : AppState) :
    (relay id event times a).inner = a.inner := by
  unfold relay
  split
  · rfl
  · exact a.sendClient_inner _ _

@[simp] theorem relay_dropped (id : Uuid) (event : Value) (times : RelayTimes) (a : AppState) :
    (relay id event times a).dropped = a.dropped := by
  unfold relay
  split
  · rfl
  · exact a.sendClient_dropped _ _

@[simp] theorem relay_bridgeOut (id : Uuid) (event : Value) (times : RelayTimes) (a : AppState) :
    (relay id event times a).bridgeOut = a.bridgeOut := by
  unfold relay
  split
  · rfl
  · exact a.sendClient_bridgeOut _ _

/-- The state a bridge message writes to the session `id`. -/
def marks (message : Option Value) (id : Uuid) : Option SessionState :=
  (BridgeEvent.parse message).bind fun e => if e.id = id then e.kind.bind EventKind.state else none

/-- What a bridge message does to one record. -/
def markSession (message : Option Value) (id : Uuid) (s : Session) : Session :=
  match marks message id with
  | some st => { s with state := st }
  | none => s

theorem applyBridgeEvent_sessions (e : BridgeEvent) (times : RelayTimes) (a : AppState) (k : Uuid) :
    (applyBridgeEvent e times a).inner.sessions.lookup k =
      (a.inner.sessions.lookup k).map fun s =>
        match (if e.id = k then e.kind.bind EventKind.state else none) with
        | some st => { s with state := st }
        | none => s := by
  unfold applyBridgeEvent
  cases hs : a.inner.sessions.lookup e.id with
  | none =>
    by_cases hk : e.id = k
    · subst hk
      simp only [hs, Option.map_none]
    · simp only [if_neg hk, Option.map_id']
  | some s =>
    cases hkind : e.kind with
    | none => simp
    | some kind =>
      simp only [relay_inner, Option.bind_some]
      cases kind.state with
      | none => simp
      | some st =>
        simp only [AppState.setState_sessions]
        by_cases hk : e.id = k
        · subst hk
          simp only [if_true]
        · simp only [if_neg hk, if_neg (Ne.symm hk), Option.map_id']

theorem applyBridgeEvent_frame (e : BridgeEvent) (times : RelayTimes) (a : AppState) :
    let b := applyBridgeEvent e times a
    b.inner.clients = a.inner.clients ∧ b.inner.bridge = a.inner.bridge ∧
      b.inner.browserGrants = a.inner.browserGrants ∧ b.dropped = a.dropped ∧
      b.bridgeOut = a.bridgeOut := by
  unfold applyBridgeEvent
  split
  · simp only [relay_inner, relay_dropped, relay_bridgeOut]
    split <;> exact ⟨rfl, rfl, rfl, rfl, rfl⟩
  · exact ⟨rfl, rfl, rfl, rfl, rfl⟩

/-- What a bridge message changes. -/
theorem handleBridgeEvent_frame (message : Option Value) (times : RelayTimes) (a : AppState) :
    let b := handleBridgeEvent message times a
    (∀ k, b.inner.sessions.lookup k =
      (a.inner.sessions.lookup k).map (markSession message k)) ∧
    b.inner.clients = a.inner.clients ∧ b.inner.bridge = a.inner.bridge ∧
    b.inner.browserGrants = a.inner.browserGrants ∧ b.dropped = a.dropped ∧
    b.bridgeOut = a.bridgeOut := by
  unfold handleBridgeEvent markSession marks
  cases BridgeEvent.parse message with
  | none => exact ⟨fun _ => by simp, rfl, rfl, rfl, rfl, rfl⟩
  | some e =>
    exact ⟨fun k => applyBridgeEvent_sessions e times a k, applyBridgeEvent_frame e times a⟩

/-- What the cleanup of the registered bridge changes. -/
theorem bridgeDisconnect_current {socketId : Uuid} {a : AppState}
    (h : a.inner.bridge = some ⟨socketId⟩) :
    let b := bridgeDisconnect socketId a
    (∀ k, b.inner.sessions.lookup k =
      (a.inner.sessions.lookup k).map fun s => if s.isOpen then s.close else s) ∧
    (KeyedById a → ∀ k, b.inner.clients.lookup k =
      if (a.inner.sessions.lookup k).any Session.isOpen then none
      else a.inner.clients.lookup k) ∧
    b.inner.bridge = none ∧ b.inner.browserGrants = a.inner.browserGrants ∧
    b.dropped = socketId :: a.dropped ∧ b.bridgeOut = a.bridgeOut := by
  have hd : bridgeDisconnect socketId a =
      { ((closeWhere Session.isOpen { a with inner := { a.inner with bridge := none } }).2.foldl
          (fun a id => a.dismissClient id (bridgeLostMessages id))
          (closeWhere Session.isOpen { a with inner := { a.inner with bridge := none } }).1) with
        dropped := socketId ::
          ((closeWhere Session.isOpen { a with inner := { a.inner with bridge := none } }).2.foldl
            (fun a id => a.dismissClient id (bridgeLostMessages id))
            (closeWhere Session.isOpen
              { a with inner := { a.inner with bridge := none } }).1).dropped } := by
    simp only [bridgeDisconnect, h, if_true]
  rw [hd]
  obtain ⟨h1, h2, h3, h4, h5, h6⟩ := foldl_dismissClient bridgeLostMessages
    (closeWhere Session.isOpen { a with inner := { a.inner with bridge := none } }).2
    (closeWhere Session.isOpen { a with inner := { a.inner with bridge := none } }).1
  refine ⟨fun k => ?_, fun hk k => ?_, h2, h3, congrArg (socketId :: ·) h4, h5⟩
  · simp only [h1]
    exact closeWhere_sessions _ _ k
  · simp only [h6 k]
    have hmem := mem_closeWhere_ids (p := Session.isOpen)
      (a := { a with inner := { a.inner with bridge := none } }) hk (k := k)
    by_cases hany : (a.inner.sessions.lookup k).any Session.isOpen = true
    · rw [if_pos hany, if_pos]
      cases hl : a.inner.sessions.lookup k with
      | none => rw [hl] at hany; exact absurd hany (by simp)
      | some s => rw [hl] at hany; exact hmem.mpr ⟨s, hl, hany⟩
    · rw [if_neg hany, if_neg]
      · rfl
      · intro hm
        obtain ⟨s, hl, hp⟩ := hmem.mp hm
        exact hany (by rw [show a.inner.sessions.lookup k = some s from hl]; exact hp)

theorem bridgeDisconnect_stale {socketId : Uuid} {a : AppState}
    (h : a.inner.bridge ≠ some ⟨socketId⟩) :
    bridgeDisconnect socketId a = { a with dropped := socketId :: a.dropped } := by
  simp only [bridgeDisconnect, h, if_false]

/-- What registering a client socket changes. -/
theorem clientOpen_some {id socketId : Uuid} {a b : AppState} (h : clientOpen id socketId a = some b) :
    (∃ s, a.inner.sessions.lookup id = some s ∧ s.isOpen = true) ∧
    b.inner = { a.inner with clients := a.inner.clients.insert id ⟨socketId⟩ } ∧
    b.dropped = a.dropped ∧ b.bridgeOut = a.bridgeOut := by
  unfold clientOpen at h
  split at h
  · exact absurd h (by simp)
  · rename_i s hs
    obtain rfl := Option.some.inj h
    obtain ⟨hl, ho⟩ := Option.filter_eq_some_iff.mp hs
    refine ⟨⟨s, hl, ho⟩, ?_, by simp, by simp⟩
    simp only [AppState.sendClient_inner]

theorem unregister_frame (id socketId : Uuid) (a : AppState) :
    let b := unregister id socketId a
    b.inner.sessions = a.inner.sessions ∧ b.inner.bridge = a.inner.bridge ∧
      b.inner.browserGrants = a.inner.browserGrants ∧ b.dropped = a.dropped ∧
      b.bridgeOut = a.bridgeOut ∧
      ∀ k, b.inner.clients.lookup k =
        if k = id ∧ a.inner.clients.lookup id = some ⟨socketId⟩ then none
        else a.inner.clients.lookup k := by
  unfold unregister
  split
  · rename_i h
    refine ⟨rfl, rfl, rfl, rfl, rfl, fun k => ?_⟩
    rw [Table.lookup_erase_eq]
    simp [h]
  · rename_i h
    refine ⟨rfl, rfl, rfl, rfl, rfl, fun k => ?_⟩
    simp [h]

/-- What the teardown of a client socket changes. -/
theorem clientClose_frame (id socketId : Uuid) (a : AppState) :
    let b := clientClose id socketId a
    (∀ k, b.inner.sessions.lookup k =
      (a.inner.sessions.lookup k).map fun s => if k = id ∧ s.isOpen then s.close else s) ∧
    (∀ k, b.inner.clients.lookup k =
      if k = id ∧ a.inner.clients.lookup id = some ⟨socketId⟩ then none
      else a.inner.clients.lookup k) ∧
    b.inner.bridge = a.inner.bridge ∧ b.inner.browserGrants = a.inner.browserGrants ∧
    b.dropped = socketId :: a.dropped ∧
    b.bridgeOut = a.bridgeOut ++
      (if (a.inner.sessions.lookup id).any Session.isOpen then
        a.bridgeSends (sessionMessage "session.stop" id) else []) := by
  obtain ⟨h1, h2, h3, h4, h5, h6⟩ := unregister_frame id socketId a
  unfold clientClose
  simp only [h1]
  by_cases ho : (a.inner.sessions.lookup id).any Session.isOpen = true
  · rw [if_pos ho, if_pos ho]
    refine ⟨fun k => ?_, fun k => ?_, by simp [h2], by simp [h3], by simp [h4], ?_⟩
    · simp only [AppState.toBridge_inner, AppState.setState_sessions, h1]
      by_cases hk : k = id
      · subst hk
        obtain ⟨s, hs⟩ : ∃ s, a.inner.sessions.lookup k = some s := by
          cases hl : a.inner.sessions.lookup k with
          | none => rw [hl] at ho; exact absurd ho (by simp)
          | some s => exact ⟨s, rfl⟩
        rw [hs] at ho ⊢
        have hso : s.isOpen = true := ho
        simp [Session.close, hso]
      · simp [hk]
    · simp only [AppState.toBridge_inner, AppState.setState_clients]
      exact h6 k
    · rw [AppState.toBridge_bridgeOut, AppState.setState_bridgeOut, h5,
        bridgeSends_congr (a := a) (b := (unregister id socketId a).setState id .closed) h2 h4]
  · rw [if_neg ho, if_neg ho]
    refine ⟨fun k => ?_, h6, h2, h3, by simp [h4], by simp [h5]⟩
    rw [h1]
    cases hl : a.inner.sessions.lookup k with
    | none => rfl
    | some s =>
      by_cases hk : k = id
      · have hso : ¬ s.isOpen = true := by
          rw [← hk, hl] at ho
          exact ho
        simp [hso]
      · simp [hk]

/-- The ids a reaper pass expires. -/
def expiredIds (now : Nat) (a : AppState) : List Uuid := (closeWhere (Session.expired now) a).2

/-- What a reaper pass changes. -/
theorem reaperPass_frame (now : Nat) (a : AppState) :
    let b := reaperPass now a
    (∀ k, b.inner.sessions.lookup k =
      ((a.inner.sessions.lookup k).map fun s =>
        if s.expired now then s.close else s).filter fun s =>
          s.isOpen || decide (saturatingAdd s.expiresAtMs 60000 > now)) ∧
    (∀ k, b.inner.clients.lookup k =
      if k ∈ expiredIds now a then none else a.inner.clients.lookup k) ∧
    b.inner.bridge = a.inner.bridge ∧
    (∀ d, b.inner.browserGrants.lookup d =
      (a.inner.browserGrants.lookup d).filter fun g => decide (g.expiresAtMs > now)) ∧
    b.dropped = a.dropped ∧
    b.bridgeOut = a.bridgeOut ++ (expiredIds now a).flatMap fun id =>
      a.bridgeSends (sessionMessage "session.stop" id) := by
  have hr : reaperPass now a = collectGarbage now
      ((expiredIds now a).foldl expireSession (closeWhere (Session.expired now) a).1) := rfl
  rw [hr]
  obtain ⟨h1, h2, h3, h4, h5, h6⟩ :=
    foldl_expireSession (expiredIds now a) (closeWhere (Session.expired now) a).1
  refine ⟨fun k => ?_, h6, h2, fun d => ?_, h4, h5⟩
  · simp only [collectGarbage, Table.lookup_retain, h1, closeWhere_sessions]
  · simp only [collectGarbage, Table.lookup_retain, h3]
    rfl

end SenseVoice.ControlPlane
