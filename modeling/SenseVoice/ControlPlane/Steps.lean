import SenseVoice.ControlPlane.Effects

/-!
# What one step does to one session

`SessionStep e id` relates the record filed under `id` before an event `e` and after it: unchanged,
closed, removed, given the state of a bridge message, or inserted. `step_session` proves it for every
event, so the results about sessions never look into a handler. `step_bridge` does the same for the
registered bridge link.

Results:
* `createSession_cases`: the exits of `create_session`, with the state each leaves;
* **`step_session`**: what one event does to one session;
* `step_bridge`: what one event does to the registered bridge;
* `step_bridgeOut`: the record of sent messages only grows;
* `keyedById_step`: a record stays filed under its own id.
-/

namespace SenseVoice.ControlPlane

open Lib

/-! ## `create_session` -/

section Create

variable (digest : String → String) (cfg : Config) (i : CreateInput) (a : AppState)

/-- The grant decision: an operator needs none; a bearer is looked up, and a grant found leaves the
table, to be accepted only while it is valid. -/
theorem takeOwner_cases :
    (clientAuthorized i.req cfg = true ∧ takeOwner digest cfg i a = (a, some none)) ∨
    (clientAuthorized i.req cfg = false ∧ takeOwner digest cfg i a = (a, none) ∧
      ∀ token, bearerToken i.req = some token →
        a.inner.browserGrants.lookup (digest token) = none) ∨
    (clientAuthorized i.req cfg = false ∧ ∃ token g, bearerToken i.req = some token ∧
      a.inner.browserGrants.lookup (digest token) = some g ∧
      takeOwner digest cfg i a =
        (a.withGrants (a.inner.browserGrants.erase (digest token)),
          if g.expiresAtMs ≥ i.grantNow then some (some g) else none)) := by
  unfold takeOwner
  cases hop : clientAuthorized i.req cfg with
  | true => exact Or.inl ⟨rfl, rfl⟩
  | false =>
    refine Or.inr ?_
    cases hb : bearerToken i.req with
    | none => exact Or.inl ⟨rfl, rfl, fun _ h => absurd h (by simp)⟩
    | some token =>
      unfold consumeBrowserGrant
      cases hg : a.inner.browserGrants.lookup (digest token) with
      | none =>
        refine Or.inl ⟨rfl, by simp only [hg]; rfl, fun t ht => ?_⟩
        rw [← Option.some.inj ht, hg]
      | some g =>
        refine Or.inr ⟨rfl, token, g, rfl, hg, ?_⟩
        simp only [hg, Bool.false_eq_true, if_false, AppState.withGrants]
        split <;> rfl

/-- Only the grant table can have changed when the owner is settled. -/
theorem takeOwner_state : ∃ g, (takeOwner digest cfg i a).1 = a.withGrants g := by
  rcases takeOwner_cases digest cfg i a with
    ⟨-, h⟩ | ⟨-, h, -⟩ | ⟨-, token, g, -, -, h⟩
  · exact ⟨a.inner.browserGrants, by rw [h]; rfl⟩
  · exact ⟨a.inner.browserGrants, by rw [h]; rfl⟩
  · exact ⟨_, by rw [h]⟩

/-- Every failed token builder answers the same error. -/
theorem credentials_error {cfg : Config} {i : CreateInput} {r : Reply} (h : credentials cfg i = .error r) :
    r = tokenGenerationFailed := by
  unfold credentials at h
  split at h
  · exact absurd h (by simp)
  · split at h
    all_goals
      simp only at h
      split at h
      · exact (Except.error.inj h).symm
      · split at h
        · exact (Except.error.inj h).symm
        · exact absurd h (by simp)

/-- The state `create_session` leaves on success. -/
def createdState (cfg : Config) (i : CreateInput) (owner : Option BrowserGrant) (bridgeCred : Value)
    (link : SocketLink) (g : Table String BrowserGrant) (a : AppState) : AppState :=
  { a with
    inner := { a.inner with
      sessions := a.inner.sessions.insert i.id (newSession cfg i owner)
      browserGrants := g }
    bridgeOut := a.bridgeOut ++ [(link.id, startEvent (newSession cfg i owner) bridgeCred)] }

/-- **The exits of `create_session`.** The early refusals leave the state alone; a refused grant and
failed credentials leave the grants as the grant check left them; a failed send also unregisters the
bridge; success is the state `createdState`. -/
theorem createSession_cases :
    (400 ≤ (createSession digest cfg i a).2.status ∧ (createSession digest cfg i a).1 = a ∧
      (bearerToken i.req = none ∨ a.inner.bridge = none ∨
        cfg.sessionCapacity ≤ a.activeSessions)) ∨
    (400 ≤ (createSession digest cfg i a).2.status ∧
      (createSession digest cfg i a).1 = (takeOwner digest cfg i a).1 ∧
      a.inner.bridge.isSome = true ∧ a.activeSessions < cfg.sessionCapacity ∧
      ((takeOwner digest cfg i a).2 = none ∨ ∃ r, credentials cfg i = .error r)) ∨
    (400 ≤ (createSession digest cfg i a).2.status ∧ a.activeSessions < cfg.sessionCapacity ∧
      (∃ link, a.inner.bridge = some link ∧ link.id ∈ a.dropped) ∧
      ∃ g owner, takeOwner digest cfg i a = (a.withGrants g, some owner) ∧
        (createSession digest cfg i a).1 =
          { a.withGrants g with inner := { (a.withGrants g).inner with bridge := none } }) ∨
    ((createSession digest cfg i a).2.status = 201 ∧
      (clientAuthorized i.req cfg = true ∨ ∃ token, bearerToken i.req = some token) ∧
      a.activeSessions < cfg.sessionCapacity ∧
      ∃ link owner g creds, a.liveBridge = some link ∧
        takeOwner digest cfg i a = (a.withGrants g, some owner) ∧ credentials cfg i = .ok creds ∧
        (createSession digest cfg i a).1 = createdState cfg i owner creds.1 link g a) := by
  unfold createSession
  split
  · rename_i hauth
    simp only [Bool.and_eq_true, Option.isNone_iff_eq_none] at hauth
    exact Or.inl ⟨by simp [renderError], rfl, Or.inl hauth.2⟩
  rename_i hauth
  split
  · rename_i hnone
    exact Or.inl ⟨by simp [renderError], rfl, Or.inr (Or.inl (by simpa using hnone))⟩
  rename_i hsome
  have hbridge : a.inner.bridge.isSome = true := by
    cases hb : a.inner.bridge with
    | none => rw [hb] at hsome; exact absurd rfl hsome
    | some link => rfl
  split
  · exact Or.inl ⟨by simp [renderError], rfl, Or.inr (Or.inr ‹_›)⟩
  rename_i hcap
  have hbearer : clientAuthorized i.req cfg = true ∨ ∃ token, bearerToken i.req = some token := by
    cases hop : clientAuthorized i.req cfg with
    | true => exact Or.inl rfl
    | false =>
      rw [hop] at hauth
      cases hb : bearerToken i.req with
      | none => rw [hb] at hauth; exact absurd rfl hauth
      | some token => exact Or.inr ⟨token, rfl⟩
  have hlt : a.activeSessions < cfg.sessionCapacity := Nat.lt_of_not_le hcap
  obtain ⟨g, hg⟩ := takeOwner_state digest cfg i a
  rcases ht : takeOwner digest cfg i a with ⟨a', owner⟩
  rw [ht] at hg
  simp only at hg
  subst hg
  cases owner with
  | none => exact Or.inr (Or.inl ⟨by simp [renderError], rfl, hbridge, hlt, Or.inl rfl⟩)
  | some owner =>
    simp only
    unfold startSession
    cases hc : credentials cfg i with
    | error r =>
      refine Or.inr (Or.inl ⟨?_, rfl, hbridge, hlt, Or.inr ⟨r, rfl⟩⟩)
      simp only [credentials_error hc, tokenGenerationFailed, renderError]
      decide
    | ok creds =>
      obtain ⟨bridgeCred, clientCred⟩ := creds
      have hlive : (a.withGrants g).liveBridge = a.liveBridge := rfl
      simp only [AppState.toBridge_eq, hlive]
      cases hl : a.liveBridge with
      | none =>
        refine Or.inr (Or.inr (Or.inl ⟨by simp [renderError], hlt, ?_, g, owner, rfl, rfl⟩))
        obtain ⟨link, hb⟩ := Option.isSome_iff_exists.mp hbridge
        refine ⟨link, hb, ?_⟩
        by_contra hd
        rw [AppState.liveBridge_eq_some.mpr ⟨hb, hd⟩] at hl
        exact absurd hl (by simp)
      | some link =>
        exact Or.inr (Or.inr (Or.inr ⟨rfl, hbearer, hlt, link, owner, g,
          (bridgeCred, clientCred), rfl, rfl, rfl, rfl⟩))

/-- The state `create_session` leaves: it touches nothing but the grants, or its send has failed and
the bridge is unregistered, or the session has been started. -/
theorem createSession_states :
    (∃ g, (createSession digest cfg i a).1 = a.withGrants g) ∨
    ((∃ link, a.inner.bridge = some link ∧ link.id ∈ a.dropped) ∧
      ∃ g, (createSession digest cfg i a).1 =
        { a.withGrants g with inner := { (a.withGrants g).inner with bridge := none } }) ∨
    (a.activeSessions < cfg.sessionCapacity ∧
      ∃ link owner g creds, a.liveBridge = some link ∧ credentials cfg i = .ok creds ∧
        (createSession digest cfg i a).1 = createdState cfg i owner creds.1 link g a) := by
  rcases createSession_cases digest cfg i a with ⟨-, h, -⟩ | ⟨-, h, -⟩ | ⟨-, -, hlink, g, _, -, h⟩ |
    ⟨-, -, hcap, link, owner, g, creds, hlive, -, hc, h⟩
  · exact Or.inl ⟨a.inner.browserGrants, h⟩
  · obtain ⟨g, hg⟩ := takeOwner_state digest cfg i a
    exact Or.inl ⟨g, h.trans hg⟩
  · exact Or.inr (Or.inl ⟨hlink, g, h⟩)
  · exact Or.inr (Or.inr ⟨hcap, link, owner, g, creds, hlive, hc, h⟩)

/-- `create_session` leaves the clients and the receivers alone. -/
theorem createSession_frame :
    (createSession digest cfg i a).1.inner.clients = a.inner.clients ∧
      (createSession digest cfg i a).1.dropped = a.dropped := by
  rcases createSession_states digest cfg i a with ⟨g, h⟩ | ⟨-, g, h⟩ | ⟨-, _, _, _, _, -, -, h⟩
  all_goals
    rw [h]
    exact ⟨rfl, rfl⟩

end Create

/-! ## The messages to the bridge -/

theorem sessionMessage_fields (type : String) (id : Uuid) :
    sessionMessage type id = .object [("sessionId", .string id), ("type", .string type)] := by
  unfold sessionMessage Value.json
  rw [Value.setFields_cons, Value.setFields_cons, Value.setFields_nil, Value.setField,
    Value.setField, if_neg (by decide), if_pos (by decide)]

/-- The type of a message built from `sessionMessage` with other fields. -/
theorem type_extend (type : String) (id : Uuid) {fields : List (String × Value)}
    (h : ∀ f ∈ fields, f.1 ≠ "type") :
    ((sessionMessage type id).extend (.object fields)).strField "type" = some type := by
  simp [sessionMessage_fields, Value.strField, Value.extend,
    Value.lookup_setFields_of_ne _ fields "type" h, Value.lookup_cons_eq, Value.asStr]

/-- The session named by a message built from `sessionMessage` with other fields. -/
theorem sessionId_extend (type : String) (id : Uuid) {fields : List (String × Value)}
    (h : ∀ f ∈ fields, f.1 ≠ "sessionId") :
    ((sessionMessage type id).extend (.object fields)).strField "sessionId" = some id := by
  simp [sessionMessage_fields, Value.strField, Value.extend,
    Value.lookup_setFields_of_ne _ fields "sessionId" h, Value.asStr]

/-- The type and the session of `sessionMessage`. -/
theorem sessionMessage_strFields (type : String) (id : Uuid) :
    (sessionMessage type id).strField "type" = some type ∧
      (sessionMessage type id).strField "sessionId" = some id := by
  have hnil : ∀ (name : String), ∀ f ∈ ([] : List (String × Value)), f.1 ≠ name :=
    fun _ _ h => absurd h List.not_mem_nil
  constructor
  · simpa [Value.extend, sessionMessage_fields] using type_extend type id (hnil "type")
  · simpa [Value.extend, sessionMessage_fields] using sessionId_extend type id (hnil "sessionId")

/-- The bridge's credentials are one field, for Agora or for LiveKit. -/
theorem credentials_ok {cfg : Config} {i : CreateInput} {creds : Value × Value}
    (h : credentials cfg i = .ok creds) :
    ∃ k v, creds.1 = .object [(k, v)] ∧ (k = "agora" ∨ k = "livekit") := by
  unfold credentials at h
  split at h
  · obtain rfl := Except.ok.inj h
    exact ⟨"agora", _, rfl, Or.inl rfl⟩
  · split at h
    · simp only at h
      split at h
      · exact absurd h (by simp)
      · split at h
        · exact absurd h (by simp)
        · obtain rfl := Except.ok.inj h
          exact ⟨"livekit", _, rfl, Or.inr rfl⟩
    · simp only at h
      split at h
      · exact absurd h (by simp)
      · split at h
        · exact absurd h (by simp)
        · obtain rfl := Except.ok.inj h
          exact ⟨"agora", _, rfl, Or.inl rfl⟩

/-- The first message of a session is a `session.start` that names it. -/
theorem startEvent_fields {cfg : Config} {i : CreateInput} {creds : Value × Value}
    (h : credentials cfg i = .ok creds) (owner : Option BrowserGrant) :
    (startEvent (newSession cfg i owner) creds.1).strField "type" = some "session.start" ∧
      (startEvent (newSession cfg i owner) creds.1).strField "sessionId" = some i.id := by
  obtain ⟨k, v, hc, hk⟩ := credentials_ok h
  unfold startEvent
  rw [hc]
  refine ⟨type_extend _ _ fun f hf => ?_, sessionId_extend _ _ fun f hf => ?_⟩
  all_goals
    rw [List.mem_singleton.mp hf]
    rcases hk with rfl | rfl <;> simp

/-! ## One session -/

/-- Whether the session `id` exists and its state is not `"closed"`. -/
def AppState.sessionOpen (a : AppState) (id : Uuid) : Bool :=
  (a.inner.sessions.lookup id).any Session.isOpen

theorem sessionOpen_iff {a : AppState} {id : Uuid} :
    a.sessionOpen id = true ↔ ∃ s, a.inner.sessions.lookup id = some s ∧ s.isOpen = true := by
  unfold AppState.sessionOpen
  cases a.inner.sessions.lookup id with
  | none => simp
  | some s => simp

@[simp] theorem isOpen_close (s : Session) : s.close.isOpen = false := rfl

theorem newSession_isOpen (cfg : Config) (i : CreateInput) (owner : Option BrowserGrant) :
    (newSession cfg i owner).isOpen = true := rfl

/-- The state an event writes to the session `id` on behalf of the bridge. -/
def Event.marks (e : Event) (id : Uuid) : Option SessionState :=
  match e with
  | .bridgeMessage _ message _ => ControlPlane.marks message id
  | _ => none

/-- The four ways the control plane itself closes the open record `r` of the session `id`. -/
inductive Closes (a : AppState) (id : Uuid) (r : Session) : Event → Prop
  | deleted : Closes a id r (.command (.delete id))
  | bridgeLost {socketId : Uuid} (h : a.inner.bridge = some ⟨socketId⟩) :
      Closes a id r (.bridgeDisconnect socketId)
  | clientLost {socketId : Uuid} : Closes a id r (.clientClose id socketId)
  | expired {now : Nat} (h : r.expired now = true) : Closes a id r (.reaper now)

/-- What an event does to the record filed under `id`. -/
inductive SessionStep (cfg : Config) (a : AppState) (e : Event) (id : Uuid) :
    Option Session → Option Session → Prop
  | same {o : Option Session} (h : o = none ∨ e.marks id = none) : SessionStep cfg a e id o o
  | marked {r : Session} {st : SessionState} (h : e.marks id = some st) :
      SessionStep cfg a e id (some r) (some { r with state := st })
  | closed {r : Session} (ho : r.isOpen = true) (h : Closes a id r e) :
      SessionStep cfg a e id (some r) (some r.close)
  | removed {r : Session} {now : Nat} (he : e = .reaper now)
      (h : r.isOpen = true → r.expired now = true) : SessionStep cfg a e id (some r) none
  | created {i : CreateInput} {o : Option Session} {owner : Option BrowserGrant}
      (he : e = .createSession i) (hid : i.id = id)
      (hcap : a.activeSessions < cfg.sessionCapacity) :
      SessionStep cfg a e id o (some (newSession cfg i owner))

section Step

variable {cfg : Config} {digest : String → String} {s t : System} {e : Event}

/-- An event that may close the session `id` and does nothing else to it. -/
theorem SessionStep.of_close {a : AppState} {id : Uuid} (h : e.marks id = none)
    (o : Option Session) (p : Session → Prop) [DecidablePred p]
    (hp : ∀ r, p r → r.isOpen = true ∧ Closes a id r e) :
    SessionStep cfg a e id o (o.map fun r => if p r then r.close else r) := by
  cases o with
  | none => exact .same (Or.inl rfl)
  | some r =>
    rw [Option.map_some]
    split
    · exact .closed (hp r ‹_›).1 (hp r ‹_›).2
    · exact .same (Or.inr h)

/-- Closing a closed session changes nothing. -/
theorem close_of_not_isOpen {s : Session} (h : s.isOpen = false) : s.close = s := by
  obtain ⟨id, ticket, state, exp, sub, prof⟩ := s
  cases state <;> simp_all [Session.isOpen, Session.close]

theorem lookup_perm {α : Type} {t u : Table Uuid α} (h : t.entries.Perm u.entries) (k : Uuid) :
    t.lookup k = u.lookup k := AList.perm_lookup h

/-- **What one event does to one session.** -/
theorem step_session (h : step cfg digest s e = some t) (id : Uuid) :
    SessionStep cfg s.app e id (s.app.inner.sessions.lookup id)
      (t.app.inner.sessions.lookup id) := by
  have hen := step_enabled h
  rw [step_app h]
  cases e with
  | createBrowserGrant req body now token =>
    obtain ⟨g, hg⟩ := createBrowserGrant_frame digest cfg req body now token s.app
    rw [Event.apply, hg]
    exact .same (Or.inr rfl)
  | createSession i =>
    rw [Event.apply]
    rcases createSession_states digest cfg i s.app with
      ⟨g, h1⟩ | ⟨-, g, h1⟩ | ⟨hcap, link, owner, g, creds, -, -, h1⟩
    · rw [h1]
      exact .same (Or.inr rfl)
    · rw [h1]
      exact .same (Or.inr rfl)
    · rw [h1]
      simp only [createdState, Table.lookup_insert_eq]
      split
      · exact .created rfl (Eq.symm ‹_›) hcap
      · exact .same (Or.inr rfl)
  | access req c => exact .same (Or.inr rfl)
  | command c =>
    rw [Event.apply]
    cases c with
    | commit k =>
      rw [runCommand, commitUtterance, (forward_frame k _ s.app).1]
      exact .same (Or.inr rfl)
    | speak k body =>
      rw [runCommand, (speakText_frame k body s.app).1]
      exact .same (Or.inr rfl)
    | delete k =>
      rw [runCommand]
      cases hk : s.app.inner.sessions.lookup k with
      | none =>
        rw [deleteSession_none hk]
        exact .same (Or.inr rfl)
      | some r =>
        rw [(deleteSession_some hk).1 id]
        split
        · -- deleting a closed session writes the state it has
          rename_i hid
          cases ho : s.app.inner.sessions.lookup id with
          | none => exact .same (Or.inl rfl)
          | some r =>
            by_cases hr : r.isOpen = true
            · subst hid
              exact .closed hr .deleted
            · rw [Option.map_some, close_of_not_isOpen (by simpa using hr)]
              exact .same (Or.inr rfl)
        · exact .same (Or.inr rfl)
  | bridgeConnect req socketId =>
    simp only [Event.apply]
    split <;> exact .same (Or.inr rfl)
  | bridgeMessage socketId message times =>
    simp only [Event.apply]
    rw [(handleBridgeEvent_frame message times s.app).1 id]
    cases hl : s.app.inner.sessions.lookup id with
    | none => exact .same (Or.inl rfl)
    | some r =>
      simp only [Option.map_some, markSession]
      cases hm : marks message id with
      | none => exact .same (Or.inr hm)
      | some st => exact .marked hm
  | bridgeDisconnect socketId =>
    simp only [Event.apply]
    by_cases hb : s.app.inner.bridge = some ⟨socketId⟩
    · rw [(bridgeDisconnect_current hb).1 id]
      exact .of_close rfl _ (fun r => r.isOpen = true) fun _ hr => ⟨hr, .bridgeLost hb⟩
    · rw [bridgeDisconnect_stale hb]
      exact .same (Or.inr rfl)
  | clientWs req => exact .same (Or.inr rfl)
  | clientOpen k socketId =>
    simp only [Event.apply]
    cases ho : clientOpen k socketId s.app with
    | none => exact .same (Or.inr rfl)
    | some b =>
      rw [Option.getD_some, (clientOpen_some ho).2.1]
      exact .same (Or.inr rfl)
  | clientClose k socketId =>
    simp only [Event.apply]
    rw [(clientClose_frame k socketId s.app).1 id]
    refine .of_close rfl _ (fun r => id = k ∧ r.isOpen = true) fun _ hr => ⟨hr.2, ?_⟩
    obtain ⟨rfl, -⟩ := hr
    exact .clientLost
  | reaper now =>
    simp only [Event.apply]
    rw [(reaperPass_frame now s.app).1 id]
    cases s.app.inner.sessions.lookup id with
    | none => exact .same (Or.inl rfl)
    | some r =>
      by_cases hx : r.expired now = true
      · rw [Option.map_some, if_pos hx, Option.filter_some]
        have hro : r.isOpen = true := by
          simp only [Session.expired, Bool.and_eq_true] at hx
          exact hx.1
        split
        · exact .closed hro (.expired hx)
        · exact .removed rfl fun _ => hx
      · rw [Option.map_some, if_neg hx, Option.filter_some]
        split
        · exact .same (Or.inr rfl)
        · rename_i hgone
          refine .removed rfl fun hro => ?_
          simp only [Bool.or_eq_true, not_or] at hgone
          exact absurd hro hgone.1
  | rehash sessions =>
    simp only [Event.apply]
    simp only [Event.enabled, List.isPerm_iff] at hen
    rw [lookup_perm hen id]
    exact .same (Or.inr rfl)

/-! ### The open sessions -/

/-- The event is a bridge message that writes another state than `"closed"` to a closed session. -/
def Event.revives (e : Event) (a : AppState) (id : Uuid) : Bool :=
  (e.marks id).any (· != .closed) && (a.inner.sessions.lookup id).any fun s => !s.isOpen

theorem revives_iff {a : AppState} {id : Uuid} :
    e.revives a id = true ↔ ∃ s st, a.inner.sessions.lookup id = some s ∧ s.isOpen = false ∧
      e.marks id = some st ∧ st ≠ .closed := by
  unfold Event.revives
  cases e.marks id with
  | none => simp
  | some st =>
    cases a.inner.sessions.lookup id with
    | none => simp
    | some s => simp [and_comm]

/-- A bridge message names one session. -/
theorem marks_unique {id k : Uuid} {st st' : SessionState} (h : e.marks id = some st)
    (h' : e.marks k = some st') : id = k := by
  cases e with
  | bridgeMessage socketId message times =>
    simp only [Event.marks, ControlPlane.marks, Option.bind_eq_some_iff] at h h'
    obtain ⟨b, hb, h⟩ := h
    obtain ⟨b', hb', h'⟩ := h'
    obtain rfl : b = b' := by rw [hb] at hb'; exact Option.some.inj hb'
    split at h
    · split at h'
      · rw [← ‹b.id = id›, ← ‹b.id = k›]
      · exact absurd h' (by simp)
    · exact absurd h (by simp)
  | _ => exact absurd h (by simp [Event.marks])

/-- An open session was open before, was revived, or has just been created. -/
theorem open_before (h : step cfg digest s e = some t) {id : Uuid}
    (ho : t.app.sessionOpen id = true) :
    s.app.sessionOpen id = true ∨ e.revives s.app id = true ∨
      ∃ i, e = .createSession i ∧ i.id = id ∧ s.app.activeSessions < cfg.sessionCapacity := by
  obtain ⟨r', hr', hro⟩ := sessionOpen_iff.mp ho
  have hs := step_session h id
  rw [hr'] at hs
  generalize hb : s.app.inner.sessions.lookup id = o at hs
  cases hs with
  | same => exact Or.inl (sessionOpen_iff.mpr ⟨r', hb, hro⟩)
  | marked hm =>
    rename_i r st
    by_cases hr : r.isOpen = true
    · exact Or.inl (sessionOpen_iff.mpr ⟨r, hb, hr⟩)
    · refine Or.inr (Or.inl (revives_iff.mpr ⟨r, st, hb, by simpa using hr, hm, ?_⟩))
      rintro rfl
      exact absurd hro (by simp [Session.isOpen])
  | closed => exact absurd hro (by simp)
  | created he hid hcap => exact Or.inr (Or.inr ⟨_, he, hid, hcap⟩)

/-- A revived session is open. -/
theorem open_of_revives (h : step cfg digest s e = some t) {id : Uuid}
    (hr : e.revives s.app id = true) : t.app.sessionOpen id = true := by
  obtain ⟨r, st, hl, -, hm, hst⟩ := revives_iff.mp hr
  cases e with
  | bridgeMessage socketId message times =>
    refine sessionOpen_iff.mpr ⟨{ r with state := st }, ?_, by simpa [Session.isOpen] using hst⟩
    rw [step_app h]
    simp only [Event.apply, (handleBridgeEvent_frame message times s.app).1 id, hl, Option.map_some,
      markSession]
    rw [show marks message id = some st from hm]
  | _ => exact absurd hm (by simp [Event.marks])

/-! ### The registered bridge and its messages -/

/-- What one event does to the registered bridge link. -/
theorem step_bridge (h : step cfg digest s e = some t) :
    t.app.inner.bridge = s.app.inner.bridge ∨
    (t.app.inner.bridge = none ∧
      ∃ link, s.app.inner.bridge = some link ∧ link.id ∈ s.app.dropped) ∨
    (∃ req socketId, e = .bridgeConnect req socketId ∧ bridgeAuthorized req cfg = true ∧
      t.app.inner.bridge = some ⟨socketId⟩) ∨
    (∃ socketId, e = .bridgeDisconnect socketId ∧ s.app.inner.bridge = some ⟨socketId⟩ ∧
      t.app.inner.bridge = none) := by
  rw [step_app h]
  cases e with
  | createBrowserGrant req body now token =>
    obtain ⟨g, hg⟩ := createBrowserGrant_frame digest cfg req body now token s.app
    rw [Event.apply, hg]
    exact Or.inl rfl
  | createSession i =>
    rw [Event.apply]
    rcases createSession_states digest cfg i s.app with
      ⟨g, h1⟩ | ⟨hlink, g, h1⟩ | ⟨-, link, owner, g, creds, -, -, h1⟩
    · rw [h1]
      exact Or.inl rfl
    · rw [h1]
      exact Or.inr (Or.inl ⟨rfl, hlink⟩)
    · rw [h1]
      exact Or.inl rfl
  | access req c => exact Or.inl rfl
  | command c =>
    rw [Event.apply]
    left
    cases c with
    | commit k => rw [runCommand, commitUtterance, (forward_frame k _ s.app).1]
    | speak k body => rw [runCommand, (speakText_frame k body s.app).1]
    | delete k =>
      rw [runCommand]
      cases hk : s.app.inner.sessions.lookup k with
      | none => rw [deleteSession_none hk]
      | some r => exact (deleteSession_some hk).2.2.1
  | bridgeConnect req socketId =>
    simp only [Event.apply]
    split
    · exact Or.inr (Or.inr (Or.inl ⟨req, socketId, rfl, ‹_›, rfl⟩))
    · exact Or.inl rfl
  | bridgeMessage socketId message times =>
    exact Or.inl (handleBridgeEvent_frame message times s.app).2.2.1
  | bridgeDisconnect socketId =>
    simp only [Event.apply]
    by_cases hb : s.app.inner.bridge = some ⟨socketId⟩
    · exact Or.inr (Or.inr (Or.inr ⟨socketId, rfl, hb, (bridgeDisconnect_current hb).2.2.1⟩))
    · rw [bridgeDisconnect_stale hb]
      exact Or.inl rfl
  | clientWs req => exact Or.inl rfl
  | clientOpen k socketId =>
    simp only [Event.apply]
    cases ho : clientOpen k socketId s.app with
    | none => exact Or.inl rfl
    | some b =>
      rw [Option.getD_some, (clientOpen_some ho).2.1]
      exact Or.inl rfl
  | clientClose k socketId => exact Or.inl (clientClose_frame k socketId s.app).2.2.1
  | reaper now => exact Or.inl (reaperPass_frame now s.app).2.2.1
  | rehash sessions => exact Or.inl rfl

/-- The messages an event other than `createSession` puts on the bridge links. -/
def Event.sends (e : Event) (a : AppState) : List (Uuid × Value) :=
  match e with
  | .command (.commit id) =>
    if (a.inner.sessions.lookup id).isSome then a.bridgeSends (sessionMessage "utterance.commit" id)
    else []
  | .command (.speak id body) =>
    match speakFields body with
    | .ok fields =>
      if (a.inner.sessions.lookup id).isSome then
        a.bridgeSends ((sessionMessage "tts.speak" id).extend (.object fields))
      else []
    | .error _ => []
  | .command (.delete id) =>
    if (a.inner.sessions.lookup id).isSome then a.bridgeSends (sessionMessage "session.stop" id)
    else []
  | .clientClose id _ =>
    if a.sessionOpen id then a.bridgeSends (sessionMessage "session.stop" id) else []
  | .reaper now =>
    (expiredIds now a).flatMap fun id => a.bridgeSends (sessionMessage "session.stop" id)
  | _ => []

/-- What forwarding puts on the bridge links. -/
theorem forward_bridgeOut (id : Uuid) (m : Value) (a : AppState) :
    (forward id m a).1.bridgeOut =
      a.bridgeOut ++ if (a.inner.sessions.lookup id).isSome then a.bridgeSends m else [] := by
  unfold AppState.bridgeSends
  rcases forward_cases id m a with ⟨h1, -, hn | hn⟩ | ⟨r, link, hr, hl, h1⟩
  · rw [h1, hn]
    simp
  · rw [h1, hn]
    simp
  · rw [h1, hr, hl]
    rfl

/-- **What one event puts on the bridge links.** -/
theorem step_bridgeOut (h : step cfg digest s e = some t) (hne : ∀ i, e ≠ .createSession i) :
    t.app.bridgeOut = s.app.bridgeOut ++ e.sends s.app := by
  rw [step_app h]
  cases e with
  | createBrowserGrant req body now token =>
    obtain ⟨g, hg⟩ := createBrowserGrant_frame digest cfg req body now token s.app
    rw [Event.apply, hg]
    exact (List.append_nil _).symm
  | createSession i => exact absurd rfl (hne i)
  | access req c => exact (List.append_nil _).symm
  | command c =>
    cases c with
    | commit k => exact forward_bridgeOut k _ s.app
    | speak k body =>
      simp only [Event.apply, Event.sends, runCommand, speakText]
      cases speakFields body with
      | error reply => exact (List.append_nil _).symm
      | ok fields => exact forward_bridgeOut k _ s.app
    | delete k =>
      simp only [Event.apply, Event.sends, runCommand]
      cases hk : s.app.inner.sessions.lookup k with
      | none => rw [deleteSession_none hk]; simp
      | some r => exact (deleteSession_some hk).2.2.2.2.2
  | bridgeConnect req socketId =>
    simp only [Event.apply, Event.sends, List.append_nil]
    split <;> rfl
  | bridgeMessage socketId message times =>
    simp only [Event.apply, Event.sends, List.append_nil]
    exact (handleBridgeEvent_frame message times s.app).2.2.2.2.2
  | bridgeDisconnect socketId =>
    simp only [Event.apply, Event.sends, List.append_nil]
    by_cases hb : s.app.inner.bridge = some ⟨socketId⟩
    · exact (bridgeDisconnect_current hb).2.2.2.2.2
    · rw [bridgeDisconnect_stale hb]
  | clientWs req => exact (List.append_nil _).symm
  | clientOpen k socketId =>
    simp only [Event.apply, Event.sends, List.append_nil]
    cases ho : clientOpen k socketId s.app with
    | none => rfl
    | some b => exact (clientOpen_some ho).2.2.2
  | clientClose k socketId => exact (clientClose_frame k socketId s.app).2.2.2.2.2
  | reaper now => exact (reaperPass_frame now s.app).2.2.2.2.2
  | rehash sessions => exact (List.append_nil _).symm

/-- The messages of one send all go to the live link. -/
theorem mem_bridgeSends {a : AppState} {m : Value} {p : Uuid × Value} :
    p ∈ a.bridgeSends m ↔ ∃ link, a.liveBridge = some link ∧ p = (link.id, m) := by
  unfold AppState.bridgeSends
  cases a.liveBridge with
  | none => simp
  | some link => simp

theorem link_of_mem_sends {a : AppState} {p : Uuid × Value} (hp : p ∈ e.sends a) :
    ∃ link, a.liveBridge = some link ∧ p.1 = link.id := by
  have hsend : ∀ {m : Value}, p ∈ a.bridgeSends m → ∃ link, a.liveBridge = some link ∧
      p.1 = link.id := by
    intro m hm
    obtain ⟨link, hl, rfl⟩ := mem_bridgeSends.mp hm
    exact ⟨link, hl, rfl⟩
  unfold Event.sends at hp
  split at hp
  · split at hp
    · exact hsend hp
    · exact absurd hp List.not_mem_nil
  · split at hp
    · split at hp
      · exact hsend hp
      · exact absurd hp List.not_mem_nil
    · exact absurd hp List.not_mem_nil
  · split at hp
    · exact hsend hp
    · exact absurd hp List.not_mem_nil
  · split at hp
    · exact hsend hp
    · exact absurd hp List.not_mem_nil
  · obtain ⟨id, -, hm⟩ := List.mem_flatMap.mp hp
    exact hsend hm
  · exact absurd hp List.not_mem_nil

/-- The record of sent messages only grows, and only by messages on the live link. -/
theorem bridgeOut_grows (h : step cfg digest s e = some t) :
    ∃ out, t.app.bridgeOut = s.app.bridgeOut ++ out ∧
      ∀ p ∈ out, ∃ link, s.app.liveBridge = some link ∧ p.1 = link.id := by
  by_cases hc : ∃ i, e = .createSession i
  · obtain ⟨i, rfl⟩ := hc
    rw [step_app h]
    simp only [Event.apply]
    rcases createSession_states digest cfg i s.app with
      ⟨g, h1⟩ | ⟨-, g, h1⟩ | ⟨-, link, owner, g, creds, hl, -, h1⟩
    · exact ⟨[], by rw [h1, List.append_nil]; rfl, fun _ hp => absurd hp List.not_mem_nil⟩
    · exact ⟨[], by rw [h1, List.append_nil]; rfl, fun _ hp => absurd hp List.not_mem_nil⟩
    · refine ⟨_, by rw [h1, createdState], fun p hp => ⟨link, hl, ?_⟩⟩
      rw [List.mem_singleton.mp hp]
  · exact ⟨_, step_bridgeOut h fun i hi => hc ⟨i, hi⟩, fun p hp => link_of_mem_sends hp⟩

/-! ### Records are filed under their own id -/

theorem keyedById_init : KeyedById System.init.app := fun _ _ h => absurd h (by simp [System.init,
  AppState.new, Inner.empty])

theorem keyedById_step (h : step cfg digest s e = some t) (hk : KeyedById s.app) :
    KeyedById t.app := by
  intro k r hr
  have hs := step_session h k
  rw [hr] at hs
  generalize hb : s.app.inner.sessions.lookup k = o at hs
  cases hs with
  | same => exact hk k r hb
  | @marked r₀ => exact (hk k r₀ hb : r₀.id = k)
  | @closed r₀ => exact (hk k r₀ hb : r₀.id = k)
  | created he hid => exact hid

/-- A record's id has been drawn. -/
theorem records_drawn_step (h : step cfg digest s e = some t)
    (hd : ∀ id r, s.app.inner.sessions.lookup id = some r → id ∈ s.drawn) :
    ∀ id r, t.app.inner.sessions.lookup id = some r → id ∈ t.drawn := by
  intro id r hr
  have hs := step_session h id
  rw [hr] at hs
  generalize hb : s.app.inner.sessions.lookup id = o at hs
  cases hs with
  | same => exact drawn_mono h (hd id r hb)
  | @marked r₀ => exact drawn_mono h (hd id r₀ hb)
  | @closed r₀ => exact drawn_mono h (hd id r₀ hb)
  | created he hid =>
    rw [step_drawn h, he, ← hid]
    exact List.mem_append_left _ List.mem_cons_self

end Step

/-- In every state of every run, a record's id has been drawn. -/
theorem records_drawn {cfg : Config} {digest : String → String} {es : List Event} {t : System}
    (ht : t ∈ states cfg digest es) :
    ∀ id r, t.app.inner.sessions.lookup id = some r → id ∈ t.drawn :=
  Run.forall_states
    (P := fun t => ∀ id r, t.app.inner.sessions.lookup id = some r → id ∈ t.drawn)
    (fun _ _ h => absurd h (by simp [System.init, AppState.new, Inner.empty]))
    (fun _ hx h => records_drawn_step (Run.mem_trace hx).2 h) t ht

end SenseVoice.ControlPlane
