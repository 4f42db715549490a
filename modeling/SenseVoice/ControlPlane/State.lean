import SenseVoice.Lib.Table
import SenseVoice.Json
import SenseVoice.ControlPlane.Config

/-!
# The control plane's state (`Inner`, `AppState`) and its HTTP requests and replies

Model of the data in `control-plane/src/main.rs`:

* `Session`, `BrowserGrant`, `SocketLink`, `Inner` are the structs of the same names. The state of a
  session, a string in the source, takes four values and is `SessionState`. The three `HashMap`s are
  `Table`s; the iteration order of a `HashMap` is arbitrary, see `Event.rehash` in `System.lean`.
* An `mpsc` sender is named by the link it belongs to. `AppState.dropped` holds the links whose
  receiver is gone: `send_json` on such a link returns `false`. `bridgeOut` and `clientOut` record,
  oldest first, every message a bridge link or a client link accepted, with the link's id.
* A `Uuid` is its text. `Uuid::new_v4` is an input of the operation that calls it, as is the clock.
* `u64` values are naturals; `saturatingAdd` and `wrappingAdd` are the source's two additions.

`AppState::config` never changes and is an argument of the handlers.
-/

namespace SenseVoice.ControlPlane

open Lib

/-- A `Uuid`, as its text. -/
abbrev Uuid := String

/-- `u64::MAX`. -/
def u64Max : Nat := UInt64.size - 1

/-- `u64::saturating_add`. -/
def saturatingAdd (a b : Nat) : Nat := min (a + b) u64Max

/-- `u64::saturating_mul`. -/
def saturatingMul (a b : Nat) : Nat := min (a * b) u64Max

/-- `+` on `u64` in a release build. -/
def wrappingAdd (a b : Nat) : Nat := (a + b) % UInt64.size

/-- The values of `Session::state`. -/
inductive SessionState where
  | starting
  | ready
  | error
  | closed
deriving DecidableEq

/-- The text of a state. -/
def SessionState.toText : SessionState → String
  | .starting => "starting"
  | .ready => "ready"
  | .error => "error"
  | .closed => "closed"

/-- `Session`. -/
structure Session where
  id : Uuid
  ticket : Uuid
  state : SessionState
  expiresAtMs : Nat
  ownerSubject : Option String
  ownerProfileId : Option String
deriving DecidableEq

/-- `session.state != "closed"`. -/
def Session.isOpen (s : Session) : Bool := s.state != .closed

/-- `session.state = "closed".into()`. -/
def Session.close (s : Session) : Session := { s with state := .closed }

/-- `BrowserGrant`. -/
structure BrowserGrant where
  subject : String
  profileId : String
  expiresAtMs : Nat
deriving DecidableEq

/-- `SocketLink`: `tx` is the channel named by `id`. -/
structure SocketLink where
  id : Uuid
deriving DecidableEq

/-- `Inner`. -/
structure Inner where
  sessions : Table Uuid Session
  browserGrants : Table String BrowserGrant
  bridge : Option SocketLink
  clients : Table Uuid SocketLink

/-- `Inner::default`. -/
def Inner.empty : Inner := ⟨∅, ∅, none, ∅⟩

/-- `AppState::inner` and the channels its links send on. -/
structure AppState where
  inner : Inner
  dropped : List Uuid
  bridgeOut : List (Uuid × Value)
  clientOut : List (Uuid × Value)

/-- `AppState::new`. -/
def AppState.new : AppState := ⟨.empty, [], [], []⟩

namespace AppState

/-- `send_json(&bridge.tx, message)`. -/
def sendBridge (a : AppState) (link : SocketLink) (message : Value) : AppState × Bool :=
  if link.id ∈ a.dropped then (a, false)
  else ({ a with bridgeOut := a.bridgeOut ++ [(link.id, message)] }, true)

/-- `send_json(&client.tx, message)`. -/
def sendClient (a : AppState) (link : SocketLink) (message : Value) : AppState × Bool :=
  if link.id ∈ a.dropped then (a, false)
  else ({ a with clientOut := a.clientOut ++ [(link.id, message)] }, true)

/-- `inner.bridge.as_ref().is_some_and(|bridge| send_json(&bridge.tx, message))`. -/
def toBridge (a : AppState) (message : Value) : AppState × Bool :=
  match a.inner.bridge with
  | none => (a, false)
  | some link => a.sendBridge link message

/-- `if let Some(client) = inner.clients.remove(&id) { send_json(&client.tx, m); .. }` for the
messages `m` in order. -/
def dismissClient (a : AppState) (id : Uuid) (messages : List Value) : AppState :=
  match a.inner.clients.lookup id with
  | none => a
  | some client =>
    messages.foldl (fun a m => (a.sendClient client m).1)
      { a with inner := { a.inner with clients := a.inner.clients.erase id } }

/-- `session.state = state` on the session under `id`. -/
def setState (a : AppState) (id : Uuid) (state : SessionState) : AppState :=
  { a with inner :=
    { a.inner with sessions := a.inner.sessions.modify id fun s => { s with state := state } } }

/-- `inner.sessions.values().filter(|session| session.state != "closed").count()`. -/
def activeSessions (a : AppState) : Nat :=
  a.inner.sessions.countWhere fun _ s => s.isOpen

end AppState

/-! ## Requests and replies -/

/-- What the handlers read of an HTTP request: the `Authorization` and `Origin` headers when they
are readable text, the cookies by name, and the path parameter `id`. -/
structure Request where
  authorization : Option String
  origin : Option String
  cookies : List (String × String)
  param : Option String

/-- `req.cookie(name)`. -/
def Request.cookie (req : Request) (name : String) : Option String := req.cookies.lookup name

/-- A cookie of `session_cookie` or `session_api_cookie`. -/
structure Cookie where
  name : String
  value : String
  path : String
  httpOnly : Bool
  secure : Bool
  sameSiteStrict : Bool
  maxAgeSeconds : Nat

/-- What a handler writes to the response. -/
structure Reply where
  status : Nat
  body : Value
  cookies : List Cookie

/-- `render_error`. -/
def renderError (status : Nat) (code message : String) : Reply :=
  ⟨status, .json [("error", .json [("code", .string code), ("message", .string message)])], []⟩

/-- The reply of `forward_session_command` and `speak_text` on success. -/
def accepted : Reply := ⟨202, .json [("accepted", .bool true)], []⟩

/-! ## Messages -/

/-- `{"type": type, "sessionId": id}`. -/
def sessionMessage (type : String) (id : Uuid) : Value :=
  .json [("type", .string type), ("sessionId", .string id)]

end SenseVoice.ControlPlane
