import SenseVoice.ControlPlane.Auth

/-!
# The two sockets and the reaper

Model of `bridge_socket` (registration, and the cleanup when its loop ends), `handle_bridge_event`,
`client_socket` (registration, and the teardown when its loop ends) and one pass of `session_reaper`.

* `handle_bridge_event` gets the parsed message, `none` when `serde_json::from_str` fails, and the
  three times it stamps. `EventKind` is the outcome of its match on the message type.
* `insertMetric` is `insert_metric`: it creates the missing levels and gives up on a level that is
  present and no object.
* The loops of the two sockets move messages and are not here: a bridge message that arrives is one
  call of `handleBridgeEvent`, and the end of a loop is one call of the cleanup. The receiver `rx` of
  a socket lives until its cleanup has run, so the cleanup is what adds the link to `dropped`.
-/

namespace SenseVoice.ControlPlane

open Lib

/-! ## `handle_bridge_event` -/

/-- `insert_metric`. -/
def insertMetric (event : Value) (group name : String) (value : Value) : Value :=
  match event with
  | .object fields =>
    match (fields.lookup "metrics").getD (.object []) with
    | .object metrics =>
      match (metrics.lookup group).getD (.object []) with
      | .object names =>
        .object (Value.setField "metrics"
          (.object (Value.setField group (.object (Value.setField name value names)) metrics)) fields)
      | _ => event
    | _ => event
  | _ => event

/-- The accepted message types: the three that write `session.state`, and the others. -/
inductive EventKind where
  | ready
  | error
  | closed
  | relayed
deriving DecidableEq

/-- The match on the message type; `none` is an unknown type. -/
def EventKind.ofType (type : String) : Option EventKind :=
  if type = "session.ready" then some .ready
  else if type = "asr.error" then some .error
  else if type = "session.closed" then some .closed
  else if type ∈ ["asr.partial", "asr.final", "trace.update", "tts.started", "tts.finished",
      "tts.error"] then some .relayed
  else none

/-- The state a message of this kind writes. -/
def EventKind.state : EventKind → Option SessionState
  | .ready => some .ready
  | .error => some .error
  | .closed => some .closed
  | .relayed => none

/-- A bridge message that parses, with a type and a session id. -/
structure BridgeEvent where
  kind : Option EventKind
  id : Uuid
  message : Value

/-- The checks of `handle_bridge_event` before it takes the lock. -/
def BridgeEvent.parse (message : Option Value) : Option BridgeEvent := do
  let event ← message
  let type ← event.strField "type"
  let id ← event.strField "sessionId"
  return ⟨EventKind.ofType type, id, event⟩

/-- The times one call of `handle_bridge_event` reads. -/
structure RelayTimes where
  receivedAt : Nat
  relayMs : Number
  enqueuedAt : Nat

/-- The three metrics the relayed message is stamped with. -/
def stamp (event : Value) (times : RelayTimes) : Value :=
  insertMetric
    (insertMetric
      (insertMetric event "vps" "bridgeEventReceivedAtUnixMs" (.number (.unsigned times.receivedAt)))
      "vps" "relayQueueMs" (.number times.relayMs))
    "vps" "clientEnqueuedAtUnixMs" (.number (.unsigned times.enqueuedAt))

/-- The end of `handle_bridge_event`: the message goes to the session's client. -/
def relay (id : Uuid) (event : Value) (times : RelayTimes) (a : AppState) : AppState :=
  match a.inner.clients.lookup id with
  | none => a
  | some client => (a.sendClient client (stamp event times)).1

/-- `handle_bridge_event` under the lock. -/
def applyBridgeEvent (e : BridgeEvent) (times : RelayTimes) (a : AppState) : AppState :=
  match a.inner.sessions.lookup e.id, e.kind with
  | some _, some kind =>
    relay e.id e.message times
      (match kind.state with
      | some state => a.setState e.id state
      | none => a)
  | _, _ => a

/-- `handle_bridge_event`. -/
def handleBridgeEvent (message : Option Value) (times : RelayTimes) (a : AppState) : AppState :=
  match BridgeEvent.parse message with
  | none => a
  | some e => applyBridgeEvent e times a

/-! ## `bridge_socket` -/

/-- `bridge_socket` on entry: the new link replaces the registered one. -/
def bridgeConnect (socketId : Uuid) (a : AppState) : AppState :=
  { a with inner := { a.inner with bridge := some ⟨socketId⟩ } }

/-- The two messages a client gets when the bridge is lost. -/
def bridgeLostMessages (id : Uuid) : List Value :=
  [(sessionMessage "asr.error" id).extend (.json [("message", .string "内网 Bridge 连接中断")]),
    sessionMessage "session.closed" id]

/-- `values_mut().filter(p).map(|session| { session.state = "closed"; session.id.clone() })`: the
sessions closed and the collected ids. -/
def closeWhere (p : Session → Bool) (a : AppState) : AppState × List Uuid :=
  ({ a with inner := { a.inner with
      sessions := a.inner.sessions.mapVal fun _ s => if p s then s.close else s } },
    (a.inner.sessions.entries.filter fun e => p e.2).map fun e => e.2.id)

/-- `bridge_socket` after its loop: the cleanup, guarded by the link's id. -/
def bridgeDisconnect (socketId : Uuid) (a : AppState) : AppState :=
  if a.inner.bridge = some ⟨socketId⟩ then
    let (a, activeIds) := closeWhere Session.isOpen
      { a with inner := { a.inner with bridge := none } }
    let a := activeIds.foldl (fun a id => a.dismissClient id (bridgeLostMessages id)) a
    { a with dropped := socketId :: a.dropped }
  else { a with dropped := socketId :: a.dropped }

/-! ## `client_socket` -/

/-- The first message of a client link. -/
def snapshot (id : Uuid) (state : SessionState) (bridgeOnline : Bool) : Value :=
  .json [("type", .string "session.snapshot"), ("sessionId", .string id),
    ("state", .string state.toText), ("bridgeOnline", .bool bridgeOnline)]

/-- `client_socket` on entry: `none` when it returns at once, because the session is gone or
closed. -/
def clientOpen (id socketId : Uuid) (a : AppState) : Option AppState :=
  match (a.inner.sessions.lookup id).filter Session.isOpen with
  | none => none
  | some s =>
    let a := (a.sendClient ⟨socketId⟩ (snapshot id s.state a.inner.bridge.isSome)).1
    some { a with inner := { a.inner with clients := a.inner.clients.insert id ⟨socketId⟩ } }

/-- The first half of the teardown: the link leaves the registry if it is still the registered one. -/
def unregister (id socketId : Uuid) (a : AppState) : AppState :=
  if a.inner.clients.lookup id = some ⟨socketId⟩ then
    { a with inner := { a.inner with clients := a.inner.clients.erase id } }
  else a

/-- `client_socket` after its loop. -/
def clientClose (id socketId : Uuid) (a : AppState) : AppState :=
  let a := unregister id socketId a
  let a :=
    if (a.inner.sessions.lookup id).any Session.isOpen then
      ((a.setState id .closed).toBridge (sessionMessage "session.stop" id)).1
    else a
  { a with dropped := socketId :: a.dropped }

/-! ## `session_reaper` -/

/-- `session.state != "closed" && session.expires_at_ms <= now`. -/
def Session.expired (now : Nat) (s : Session) : Bool := s.isOpen && s.expiresAtMs ≤ now

/-- What a pass does for one expired session. -/
def expireSession (a : AppState) (id : Uuid) : AppState :=
  ((a.toBridge (sessionMessage "session.stop" id)).1).dismissClient id
    [sessionMessage "session.expired" id]

/-- The two `retain`s at the end of a pass. -/
def collectGarbage (now : Nat) (a : AppState) : AppState :=
  { a with inner := { a.inner with
      sessions := a.inner.sessions.retain fun _ s =>
        s.isOpen || saturatingAdd s.expiresAtMs 60000 > now
      browserGrants := a.inner.browserGrants.retain fun _ g => g.expiresAtMs > now } }

/-- One pass of `session_reaper`. -/
def reaperPass (now : Nat) (a : AppState) : AppState :=
  let (a, expiredIds) := closeWhere (Session.expired now) a
  collectGarbage now (expiredIds.foldl expireSession a)

end SenseVoice.ControlPlane
