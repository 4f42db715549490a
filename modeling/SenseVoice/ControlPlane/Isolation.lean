import SenseVoice.ControlPlane.ClientLoop
import SenseVoice.ControlPlane.CommandLanguage

/-!
# Session isolation

A request with the ticket of one session can do nothing to another one. The handlers decide access by
the ticket of the record that the path names, and act later, under another lock or on a socket, on the
id they have checked. Tickets are unlike, so the id checked is the ticket's own (`granted_own`); and
whatever a handler does to one session spares every other (`Spares`).

Results:
* `Spares`: what the handlers do to one session, seen from another;
* `recorded_before`: every record is one of a session created in the run, with its ticket;
* **`session_isolation`**: what is done for a holder of one ticket leaves the record and the client link
  of every other session alone and sends no message that names it.
-/

namespace SenseVoice.ControlPlane

open Lib

/-! ## What spares a session -/

/-- The message names the session. -/
def Names (id : Uuid) (m : Value) : Prop := m.strField "sessionId" = some id

theorem not_names {id b : Uuid} {m : Value} (hm : m.strField "sessionId" = some id) (h : b ≠ id) :
    ¬ Names b m := by
  intro hb
  unfold Names at hb
  exact h (Option.some.inj (hb.symm.trans hm))

theorem not_names_message {id b : Uuid} (type : String) (h : b ≠ id) :
    ¬ Names b (sessionMessage type id) :=
  not_names (sessionMessage_strFields type id).2 h

/-- The log has grown by messages that do not name the session. -/
def GrowsWithout (b : Uuid) (l l' : List (Uuid × Value)) : Prop :=
  ∃ new, l' = l ++ new ∧ ∀ p ∈ new, ¬ Names b p.2

theorem growsWithout_refl (b : Uuid) (l : List (Uuid × Value)) : GrowsWithout b l l :=
  ⟨[], (List.append_nil l).symm, fun _ h => absurd h List.not_mem_nil⟩

theorem growsWithout_concat {b : Uuid} (l : List (Uuid × Value)) (u : Uuid) {m : Value}
    (h : ¬ Names b m) : GrowsWithout b l (l ++ [(u, m)]) := by
  refine ⟨[(u, m)], rfl, fun p hp => ?_⟩
  rw [List.mem_singleton.mp hp]
  exact h

theorem GrowsWithout.trans {b : Uuid} {l l' l'' : List (Uuid × Value)} (h : GrowsWithout b l l')
    (h' : GrowsWithout b l' l'') : GrowsWithout b l l'' := by
  obtain ⟨new, rfl, hnew⟩ := h
  obtain ⟨new', rfl, hnew'⟩ := h'
  refine ⟨new ++ new', List.append_assoc _ _ _, fun p hp => ?_⟩
  rcases List.mem_append.mp hp with hp | hp
  · exact hnew p hp
  · exact hnew' p hp

/-- The record and the client link of the session `b` are as before, and no message that names it was
sent. -/
structure Spares (b : Uuid) (s t : AppState) : Prop where
  session : t.inner.sessions.lookup b = s.inner.sessions.lookup b
  client : t.inner.clients.lookup b = s.inner.clients.lookup b
  bridge : GrowsWithout b s.bridgeOut t.bridgeOut
  clients : GrowsWithout b s.clientOut t.clientOut

section Spares

variable {b id : Uuid} {s t u : AppState}

theorem spares_refl (b : Uuid) (s : AppState) : Spares b s s :=
  ⟨rfl, rfl, growsWithout_refl b _, growsWithout_refl b _⟩

theorem Spares.trans (h : Spares b s t) (h' : Spares b t u) : Spares b s u :=
  ⟨h'.session.trans h.session, h'.client.trans h.client, h.bridge.trans h'.bridge,
    h.clients.trans h'.clients⟩

theorem spares_setState (h : b ≠ id) (s : AppState) (st : SessionState) :
    Spares b s (s.setState id st) := by
  refine ⟨?_, rfl, growsWithout_refl b _, growsWithout_refl b _⟩
  rw [AppState.setState_sessions, if_neg h]

theorem spares_sendClient (s : AppState) (link : SocketLink) {m : Value} (h : ¬ Names b m) :
    Spares b s (s.sendClient link m).1 := by
  unfold AppState.sendClient
  split
  · exact spares_refl b s
  · exact ⟨rfl, rfl, growsWithout_refl b _, growsWithout_concat _ _ h⟩

theorem spares_toBridge (s : AppState) {m : Value} (h : ¬ Names b m) :
    Spares b s (s.toBridge m).1 := by
  rw [AppState.toBridge_eq]
  split
  · exact ⟨rfl, rfl, growsWithout_concat _ _ h, growsWithout_refl b _⟩
  · exact spares_refl b s

theorem spares_sendClients (client : SocketLink) {ms : List Value} (h : ∀ m ∈ ms, ¬ Names b m)
    (s : AppState) : Spares b s (ms.foldl (fun a m => (a.sendClient client m).1) s) := by
  induction ms generalizing s with
  | nil => exact spares_refl b s
  | cons m ms ih =>
    exact (spares_sendClient s client (h m List.mem_cons_self)).trans
      (ih (fun m' hm' => h m' (List.mem_cons_of_mem _ hm')) _)

theorem spares_dismissClient (h : b ≠ id) {ms : List Value} (hm : ∀ m ∈ ms, ¬ Names b m)
    (s : AppState) : Spares b s (s.dismissClient id ms) := by
  unfold AppState.dismissClient
  split
  · exact spares_refl b s
  · have herase : Spares b s
        { s with inner := { s.inner with clients := s.inner.clients.erase id } } :=
      ⟨rfl, (Table.lookup_erase_eq id _ b).trans (if_neg h), growsWithout_refl b _,
        growsWithout_refl b _⟩
    exact herase.trans (spares_sendClients _ hm _)

/-! ## The handlers -/

theorem spares_forward (s : AppState) {m : Value} (h : ¬ Names b m) :
    Spares b s (forward id m s).1 := by
  have hsent := spares_toBridge s h
  unfold forward
  split
  · exact spares_refl b s
  · split
    · rename_i hout
      rw [hout] at hsent
      exact hsent
    · rename_i hout
      rw [hout] at hsent
      exact hsent

theorem spares_deleteSession (h : b ≠ id) (s : AppState) : Spares b s (deleteSession id s).1 := by
  unfold deleteSession
  split
  · exact spares_refl b s
  · refine ((spares_setState h s .closed).trans (spares_toBridge _ (not_names_message _ h))).trans
      (spares_dismissClient h (fun m hm => ?_) _)
    rw [List.mem_singleton.mp hm]
    exact not_names_message _ h

/-- A command spares every session but its own. -/
theorem spares_command {c : Command} (h : b ≠ c.id) (s : AppState) : Spares b s (runCommand c s).1 := by
  cases c with
  | commit id => exact spares_forward s (not_names_message _ h)
  | speak id body =>
    change Spares b s (speakText id body s).1
    unfold speakText
    cases hbody : speakFields body with
    | error reply => exact spares_refl b s
    | ok fields => exact spares_forward s (not_names (speak_strFields id hbody).2 h)
  | delete id => exact spares_deleteSession h s

theorem spares_clientOpen (h : b ≠ id) {socketId : Uuid} (s : AppState) :
    Spares b s ((clientOpen id socketId s).getD s) := by
  unfold clientOpen
  split
  · exact spares_refl b s
  · rename_i r _
    have hsnap : ¬ Names b (snapshot id r.state s.inner.bridge.isSome) := by
      refine not_names ?_ h
      rw [snapshot_fields]
      rfl
    refine (spares_sendClient s ⟨socketId⟩ hsnap).trans
      ⟨rfl, ?_, growsWithout_refl b _, growsWithout_refl b _⟩
    exact (Table.lookup_insert_eq id _ _ b).trans (if_neg h)

theorem spares_clientClose (h : b ≠ id) {socketId : Uuid} (s : AppState) :
    Spares b s (clientClose id socketId s) := by
  have hun : Spares b s (unregister id socketId s) := by
    unfold unregister
    split
    · refine ⟨rfl, ?_, growsWithout_refl b _, growsWithout_refl b _⟩
      rw [Table.lookup_erase_eq, if_neg h]
    · exact spares_refl b s
  unfold clientClose
  dsimp only
  split
  · have hstop := (spares_setState h (unregister id socketId s) .closed).trans
      (spares_toBridge _ (not_names_message "session.stop" h))
    have hall := hun.trans hstop
    exact ⟨hall.session, hall.client, hall.bridge, hall.clients⟩
  · exact ⟨hun.session, hun.client, hun.bridge, hun.clients⟩

theorem spares_createBrowserGrant (b : Uuid) (digest : String → String) (cfg : Config) (req : Request)
    (body : Option BrowserGrantRequest) (now : Nat) (token : String) (s : AppState) :
    Spares b s (createBrowserGrant digest cfg req body now token s).1 := by
  obtain ⟨g, hg⟩ := createBrowserGrant_frame digest cfg req body now token s
  rw [hg]
  exact ⟨rfl, rfl, growsWithout_refl b _, growsWithout_refl b _⟩

/-- A creation spares every session but the one it creates. -/
theorem spares_createSession {digest : String → String} {cfg : Config} {i : CreateInput}
    (h : (createSession digest cfg i s).2.status = 201 → b ≠ i.id) :
    Spares b s (createSession digest cfg i s).1 := by
  rcases createSession_cases digest cfg i s with ⟨-, hs, -⟩ | ⟨-, hs, -⟩ | ⟨-, -, -, g, _, -, hs⟩ |
    ⟨hstatus, -, -, link, owner, g, creds, -, -, hcreds, hs⟩
  · rw [hs]
    exact spares_refl b s
  · obtain ⟨g, hg⟩ := takeOwner_state digest cfg i s
    rw [hs, hg]
    exact ⟨rfl, rfl, growsWithout_refl b _, growsWithout_refl b _⟩
  · rw [hs]
    exact ⟨rfl, rfl, growsWithout_refl b _, growsWithout_refl b _⟩
  · have hne := h hstatus
    rw [hs]
    refine ⟨?_, rfl, growsWithout_concat _ _ ?_, growsWithout_refl b _⟩
    · exact (Table.lookup_insert_eq i.id _ _ b).trans (if_neg hne)
    · exact not_names (startEvent_fields hcreds owner).2 hne

end Spares

/-! ## The sessions of a run -/

section Sessions

variable (cfg : Config) (digest : String → String)

/-- The id and the ticket of the session that the step creates. -/
def born (x : Run.Taken Served ServedEvent) : Option (Uuid × Uuid) :=
  match x.event with
  | .control (.createSession i) =>
    if (createSession digest cfg i x.before.sys.app).2.status = 201 then some (i.id, i.ticket) else none
  | _ => none

/-- The ids and tickets of the sessions created by the steps. -/
def created (steps : List (Run.Taken Served ServedEvent)) : List (Uuid × Uuid) :=
  steps.filterMap (born cfg digest)

/-- The ids are distinct, and the tickets are distinct and not empty. -/
structure DistinctSessions (steps : List (Run.Taken Served ServedEvent)) : Prop where
  ids : ((created cfg digest steps).map Prod.fst).Nodup
  tickets : ((created cfg digest steps).map Prod.snd).Nodup
  nonempty : "" ∉ (created cfg digest steps).map Prod.snd

/-- Every record is of a created session, and has its ticket. -/
def Recorded (past : List (Run.Taken Served ServedEvent)) (s : Served) : Prop :=
  ∀ id r, s.sys.app.inner.sessions.lookup id = some r → (id, r.ticket) ∈ created cfg digest past

end Sessions

section Runs

variable {cfg : Config} {digest : String → String}

theorem created_concat (past : List (Run.Taken Served ServedEvent)) (x : Run.Taken Served ServedEvent) :
    created cfg digest (past ++ [x]) =
      created cfg digest past ++ (born cfg digest x).toList := by
  unfold created
  rw [List.filterMap_append]
  cases hx : born cfg digest x with
  | none => simp [hx]
  | some p => simp [hx]

/-- A creation that succeeds files the new record, with its ticket; one that fails files none. -/
theorem lookup_createSession {i : CreateInput} {a : AppState} {id : Uuid} {r : Session}
    (h : (createSession digest cfg i a).1.inner.sessions.lookup id = some r) :
    a.inner.sessions.lookup id = some r ∨
      ((createSession digest cfg i a).2.status = 201 ∧ id = i.id ∧ r.ticket = i.ticket) := by
  rcases createSession_cases digest cfg i a with ⟨-, hs, -⟩ | ⟨-, hs, -⟩ | ⟨-, -, -, g, _, -, hs⟩ |
    ⟨hstatus, -, -, link, owner, g, creds, -, -, -, hs⟩
  · rw [hs] at h
    exact Or.inl h
  · obtain ⟨g, hg⟩ := takeOwner_state digest cfg i a
    rw [hs, hg] at h
    exact Or.inl h
  · rw [hs] at h
    exact Or.inl h
  · rw [hs] at h
    simp only [createdState, Table.lookup_insert_eq] at h
    split at h
    · rename_i hid
      obtain rfl := Option.some.inj h
      exact Or.inr ⟨hstatus, hid, rfl⟩
    · exact Or.inl h

theorem recorded_step (past : List (Run.Taken Served ServedEvent)) (s : Served) (e : ServedEvent)
    (t : Served) (h : Recorded cfg digest past s) (ht : Served.step cfg digest s e = some t) :
    Recorded cfg digest (past ++ [⟨s, e, t⟩]) t := by
  intro id r hr
  rw [created_concat]
  refine List.mem_append.mpr ?_
  rcases Served.sys_step ht with hsame | ⟨c, rfl, hc⟩
  · rw [hsame] at hr
    exact Or.inl (h id r hr)
  · by_cases hcreate : ∃ i, c = .createSession i
    · obtain ⟨i, rfl⟩ := hcreate
      rw [step_app hc, Event.apply] at hr
      rcases lookup_createSession hr with hold | ⟨hstatus, rfl, hticket⟩
      · exact Or.inl (h id r hold)
      · refine Or.inr ?_
        have hborn : born cfg digest ⟨s, .control (.createSession i), t⟩ = some (i.id, i.ticket) :=
          if_pos hstatus
        rw [hborn, hticket]
        exact List.mem_singleton.mpr rfl
    · have hstep := step_session hc id
      rw [hr] at hstep
      generalize hold : s.sys.app.inner.sessions.lookup id = o at hstep
      cases hstep with
      | same _ => exact Or.inl (h id r hold)
      | marked _ =>
        have hmem := h id _ hold
        exact Or.inl hmem
      | closed _ _ =>
        have hmem := h id _ hold
        exact Or.inl hmem
      | created he _ _ => exact absurd ⟨_, he⟩ hcreate

theorem recorded_init : Recorded cfg digest [] {} := by
  intro id r h
  simp [System.init, AppState.new, Inner.empty] at h

/-- Before every step of a run. -/
theorem recorded_before {es : List ServedEvent} {pre post : List (Run.Taken Served ServedEvent)}
    {x : Run.Taken Served ServedEvent} (h : Served.trace cfg digest es = pre ++ x :: post) :
    Recorded cfg digest pre x.before :=
  Run.forall_history recorded_init recorded_step h

theorem mem_created_of_prefix {pre post : List (Run.Taken Served ServedEvent)} {p : Uuid × Uuid}
    (h : p ∈ created cfg digest pre) : p ∈ created cfg digest (pre ++ post) := by
  unfold created at h ⊢
  rw [List.filterMap_append]
  exact List.mem_append_left _ h

/-! ## The holder of one ticket -/

/-- The request carries no ticket but this one, and its bearer is not the client's. -/
def ByTicket (cfg : Config) (ticket : Uuid) (req : Request) : Prop :=
  clientAuthorized req cfg = false ∧ ∀ name value,
    name = "asr_session" ∨ name = "asr_session_api" → req.cookie name = some value → value = ticket

/-- `require_session_access` goes by the record's ticket. -/
theorem ticket_of_access {ticket : Uuid} {req : Request} (hreq : ByTicket cfg ticket req)
    {a : AppState} {id : Uuid} (h : requireSessionAccess cfg a req id = none) :
    ∃ r, a.inner.sessions.lookup id = some r ∧ (r.ticket = ticket ∨ r.ticket = "") := by
  have hauth : sessionAuthorized cfg a req id = true := by
    unfold requireSessionAccess at h
    split at h
    · assumption
    · exact absurd h (by simp)
  unfold sessionAuthorized ticketAuthorized at hauth
  rw [hreq.1, Bool.false_or, Option.any_eq_true] at hauth
  obtain ⟨r, hr, hmatch⟩ := hauth
  rw [Bool.and_eq_true, secretMatches_iff] at hmatch
  refine ⟨r, hr, ?_⟩
  rw [hmatch.2]
  cases hsession : req.cookie "asr_session" with
  | some value => exact Or.inl (hreq.2 _ value (Or.inl rfl) hsession)
  | none =>
    cases hapi : req.cookie "asr_session_api" with
    | some value => exact Or.inl (hreq.2 _ value (Or.inr rfl) hapi)
    | none => exact Or.inr rfl

/-- So does `client_ws`. -/
theorem ticket_of_clientWs {ticket : Uuid} {req : Request} (hreq : ByTicket cfg ticket req)
    {a : AppState} {id : Uuid} (h : clientWs cfg a req = .ok id) :
    ∃ r, a.inner.sessions.lookup id = some r ∧ (r.ticket = ticket ∨ r.ticket = "") := by
  unfold clientWs at h
  split at h
  · exact absurd h (by simp)
  · split at h
    · exact absurd h (by simp)
    · split at h
      · rename_i hvalid
        obtain rfl := Except.ok.inj h
        unfold socketTicketValid at hvalid
        obtain ⟨r, hr, hmatch⟩ := (Option.any_eq_true _ _).mp hvalid
        rw [Bool.and_eq_true, beq_iff_eq] at hmatch
        refine ⟨r, hr, ?_⟩
        rw [hmatch.1]
        cases hsession : req.cookie "asr_session" with
        | some value => exact Or.inl (hreq.2 _ value (Or.inl rfl) hsession)
        | none => exact Or.inr rfl
      · exact absurd h (by simp)

/-- A past request with the ticket only was granted the command. -/
def CommandGranted (cfg : Config) (ticket : Uuid) (past : List (Run.Taken Served ServedEvent))
    (c : Command) : Prop :=
  ∃ y ∈ past, ∃ req, y.event = .control (.access req c) ∧ ByTicket cfg ticket req ∧
    requireSessionAccess cfg y.before.sys.app req c.id = none

/-- A past request with the ticket only was granted a client socket for the session. -/
def SocketGranted (cfg : Config) (ticket : Uuid) (past : List (Run.Taken Served ServedEvent))
    (id : Uuid) : Prop :=
  ∃ y ∈ past, ∃ req, y.event = .control (.clientWs req) ∧ ByTicket cfg ticket req ∧
    clientWs cfg y.before.sys.app req = .ok id

/-- **The step is done for a holder of the ticket**: it handles a request with this ticket only, or
carries out what such a request was granted: a command, or a client socket with its registration, its
inbound frames and its teardown. -/
def ActsFor (cfg : Config) (ticket : Uuid) (past : List (Run.Taken Served ServedEvent))
    (e : ServedEvent) : Prop :=
  match e with
  | .control (.access req _) | .control (.clientWs req) | .control (.bridgeConnect req _) =>
    ByTicket cfg ticket req
  | .control (.createBrowserGrant req _ _ _) => ByTicket cfg ticket req
  | .control (.createSession i) => ByTicket cfg ticket i.req
  | .control (.command c) => CommandGranted cfg ticket past c
  | .control (.clientOpen id _) | .control (.clientClose id _) => SocketGranted cfg ticket past id
  | .inbound id _ _ _ _ => SocketGranted cfg ticket past id
  | _ => False

/-- The session is left alone, and no message that names it is sent, on a channel or on a socket. -/
structure Untouched (b : Uuid) (x : Run.Taken Served ServedEvent) : Prop where
  spared : Spares b x.before.sys.app x.after.sys.app
  written : GrowsWithout b x.before.written x.after.written

/-- A step that creates a session creates none that has a record. -/
theorem born_other {es : List ServedEvent} {pre post : List (Run.Taken Served ServedEvent)}
    {x : Run.Taken Served ServedEvent} (hsplit : Served.trace cfg digest es = pre ++ x :: post)
    (hd : DistinctSessions cfg digest (Served.trace cfg digest es)) {b : Uuid}
    (hb : b ∈ x.before.sys.app.inner.sessions) {id ticket : Uuid}
    (hborn : born cfg digest x = some (id, ticket)) : b ≠ id := by
  obtain ⟨r, hr⟩ := Table.mem_iff_lookup.mp hb
  have hpast : b ∈ (created cfg digest pre).map Prod.fst :=
    List.mem_map.mpr ⟨_, recorded_before hsplit b r hr, rfl⟩
  have hids := hd.ids
  rw [hsplit] at hids
  unfold created at hids hpast
  rw [List.filterMap_append, List.filterMap_cons, hborn, List.map_append, List.map_cons] at hids
  exact (List.nodup_append.mp hids).2.2 b hpast id List.mem_cons_self

/-- What the ticket opens is its own session. -/
theorem granted_own {es : List ServedEvent} {pre post : List (Run.Taken Served ServedEvent)}
    {y : Run.Taken Served ServedEvent} (hsplit : Served.trace cfg digest es = pre ++ y :: post)
    (hd : DistinctSessions cfg digest (Served.trace cfg digest es)) {a ticket : Uuid}
    (ha : (a, ticket) ∈ created cfg digest (Served.trace cfg digest es)) {id : Uuid}
    (h : ∃ r, y.before.sys.app.inner.sessions.lookup id = some r ∧
      (r.ticket = ticket ∨ r.ticket = "")) : id = a := by
  obtain ⟨r, hr, hticket⟩ := h
  have hmem : (id, r.ticket) ∈ created cfg digest (Served.trace cfg digest es) := by
    rw [hsplit]
    exact mem_created_of_prefix (recorded_before hsplit id r hr)
  have hne : r.ticket ≠ "" := fun hempty =>
    hd.nonempty (hempty ▸ List.mem_map_of_mem hmem)
  have hsame : (id, r.ticket) = (a, ticket) :=
    List.inj_on_of_nodup_map hd.tickets hmem ha (hticket.resolve_right hne)
  exact congrArg Prod.fst hsame

theorem ackUpdate_names (id : Uuid) (d : Delivery) (ackRttMs : Rat) :
    (ackUpdate id d ackRttMs).strField "sessionId" = some id := by
  simp [ackUpdate, Value.json, Value.strField, Value.lookup_setField, Value.asStr]

/-- An acknowledgement is answered on the socket it came from, with an update that names the socket's
own session. -/
theorem written_inbound {b id socketId : Uuid} (h : b ≠ id) (frame : ClientFrame) (sent : Bool)
    (now : Nat) (s : Served) :
    GrowsWithout b s.written (s.inbound id socketId frame sent now).written := by
  unfold Served.inbound
  cases frame with
  | text parsed =>
    dsimp only
    split
    · exact growsWithout_refl b _
    · rename_i l update hack
      have hupdate : update.strField "sessionId" = some id := by
        unfold ClientLoop.acknowledge at hack
        split at hack
        · exact absurd hack (by simp)
        · split at hack
          · exact absurd hack (by simp)
          · obtain rfl := Option.some.inj (Prod.mk.inj hack).2
            exact ackUpdate_names _ _ _
      unfold Served.send
      split
      · exact growsWithout_concat _ _ (not_names hupdate h)
      · exact growsWithout_refl b _
  | ended => exact growsWithout_refl b _
  | other => exact growsWithout_refl b _

/-- **Session isolation.** In a run whose sessions have distinct ids and distinct tickets, let `a` be
one of them. A step done for a holder of the ticket of `a` only, whose bearer the client check rejects,
leaves every other session alone. -/
theorem session_isolation {es : List ServedEvent}
    (hd : DistinctSessions cfg digest (Served.trace cfg digest es)) {a ticket : Uuid}
    (ha : (a, ticket) ∈ created cfg digest (Served.trace cfg digest es))
    {pre post : List (Run.Taken Served ServedEvent)} {x : Run.Taken Served ServedEvent}
    (hsplit : Served.trace cfg digest es = pre ++ x :: post) (hacts : ActsFor cfg ticket pre x.event)
    {b : Uuid} (hb : b ∈ x.before.sys.app.inner.sessions) (hne : b ≠ a) : Untouched b x := by
  have hstep : Served.step cfg digest x.before x.event = some x.after :=
    (Run.mem_trace (hsplit ▸ List.mem_append_right _ List.mem_cons_self)).2
  -- the ids a past request was granted are the ticket's own
  have hown : ∀ y ∈ pre, ∀ id, (∃ r, y.before.sys.app.inner.sessions.lookup id = some r ∧
      (r.ticket = ticket ∨ r.ticket = "")) → b ≠ id := by
    intro y hy id hr
    obtain ⟨pre', post', rfl⟩ := List.append_of_mem hy
    rw [List.append_assoc, List.cons_append] at hsplit
    rw [granted_own hsplit hd ha hr]
    exact hne
  obtain ⟨s, e, t⟩ := x
  cases e with
  | outbound id socketId sent now => exact absurd hacts (by simp [ActsFor])
  | inbound id socketId frame sent now =>
    obtain ⟨y, hy, req, -, hreq, hok⟩ := hacts
    have hid : b ≠ id := hown y hy id (ticket_of_clientWs hreq hok)
    simp only [Served.step] at hstep
    split at hstep
    · obtain rfl := Option.some.inj hstep
      refine ⟨?_, written_inbound hid frame sent now s⟩
      rw [Served.sys_inbound]
      exact spares_refl b _
    · exact absurd hstep (by simp)
  | control c =>
    simp only [Served.step] at hstep
    split at hstep
    · obtain ⟨sys, hsys, rfl⟩ := Option.map_eq_some_iff.mp hstep
      refine ⟨?_, growsWithout_refl b _⟩
      simp only
      rw [step_app hsys]
      cases c with
      | createBrowserGrant req body now token => exact spares_createBrowserGrant b _ _ _ _ _ _ _
      | createSession i =>
        exact spares_createSession fun hstatus => born_other hsplit hd hb (if_pos hstatus)
      | access req c => exact spares_refl b _
      | command c =>
        obtain ⟨y, hy, req, -, hreq, hok⟩ := hacts
        exact spares_command (hown y hy _ (ticket_of_access hreq hok)) _
      | bridgeConnect req socketId =>
        simp only [Event.apply]
        split
        · exact ⟨rfl, rfl, growsWithout_refl b _, growsWithout_refl b _⟩
        · exact spares_refl b _
      | clientWs req => exact spares_refl b _
      | clientOpen id socketId =>
        obtain ⟨y, hy, req, -, hreq, hok⟩ := hacts
        exact spares_clientOpen (hown y hy id (ticket_of_clientWs hreq hok)) _
      | clientClose id socketId =>
        obtain ⟨y, hy, req, -, hreq, hok⟩ := hacts
        exact spares_clientClose (hown y hy id (ticket_of_clientWs hreq hok)) _
      | bridgeMessage socketId message times => exact absurd hacts (by simp [ActsFor])
      | bridgeDisconnect socketId => exact absurd hacts (by simp [ActsFor])
      | reaper now => exact absurd hacts (by simp [ActsFor])
      | rehash sessions => exact absurd hacts (by simp [ActsFor])
    · exact absurd hstep (by simp)

end Runs

/-- The production configuration with room for two sessions. -/
def pairConfig : Config := { livekitProductionConfig with sessionCapacity := 2 }

/-- The first session's browser, with the ticket of its API cookie. -/
def ownRequest : Request := ⟨none, none, [("asr_session_api", "one-ticket")], some "one"⟩

/-- Two sessions are created. -/
def pairRun : List ServedEvent :=
  [.control (.connect "link"), .control (.create "one" 0), .control (.create "two" 0)]

/-- The first session's browser is granted the deletion of its session. -/
def grantedRun : List ServedEvent := pairRun ++ [.control (.access ownRequest (.delete "one"))]

/-- `session_isolation` on the deletion of the first session. -/
theorem session_isolation_delete :
    ∃ t, Served.step pairConfig id (Served.final pairConfig id grantedRun)
        (.control (.command (.delete "one"))) = some t ∧
      Untouched "two" ⟨Served.final pairConfig id grantedRun, .control (.command (.delete "one")), t⟩ := by
  obtain ⟨t, ht⟩ : ∃ t, Served.step pairConfig id (Served.final pairConfig id grantedRun)
      (.control (.command (.delete "one"))) = some t :=
    Option.isSome_iff_exists.mp (by decide +kernel)
  obtain ⟨u, hu⟩ : ∃ u, Served.step pairConfig id (Served.final pairConfig id pairRun)
      (.control (.access ownRequest (.delete "one"))) = some u :=
    Option.isSome_iff_exists.mp (by decide +kernel)
  have hcreated : created pairConfig id
      (Served.trace pairConfig id (grantedRun ++ [.control (.command (.delete "one"))])) =
        [("one", "one-ticket"), ("two", "two-ticket")] := by decide +kernel
  have hmem : ("one", "one-ticket") ∈ created pairConfig id
      (Served.trace pairConfig id (grantedRun ++ [.control (.command (.delete "one"))])) := by
    rw [hcreated]
    exact List.mem_cons_self
  have hreq : ByTicket pairConfig "one-ticket" ownRequest := by
    refine ⟨by decide +kernel, ?_⟩
    rintro name value (rfl | rfl) h
    · have hnone : ownRequest.cookie "asr_session" = none := by decide
      exact absurd (hnone.symm.trans h) (by simp)
    · exact (Option.some.inj h).symm
  have hgranted : (requireSessionAccess pairConfig (Served.final pairConfig id pairRun).sys.app
      ownRequest "one").isNone = true := by decide +kernel
  have hother : ((Served.final pairConfig id grantedRun).sys.app.inner.sessions.lookup "two").isSome =
      true := by decide +kernel
  refine ⟨t, ht, session_isolation ⟨?_, ?_, ?_⟩ hmem (Run.trace_split grantedRun _ [] ht) ?_
    (Table.mem_iff_lookup.mpr (Option.isSome_iff_exists.mp hother)) (by decide)⟩
  · rw [hcreated]
    decide
  · rw [hcreated]
    decide
  · rw [hcreated]
    decide
  · exact ⟨_, Run.mem_trace_of_step pairRun _ [] hu, ownRequest, rfl, hreq,
      Option.isNone_iff_eq_none.mp hgranted⟩

end SenseVoice.ControlPlane
