import SenseVoice.Lib.Run
import SenseVoice.ControlPlane.CreateSession
import SenseVoice.ControlPlane.Commands
import SenseVoice.ControlPlane.Sockets

/-!
# The control plane as a transition system

One step per acquisition of `inner`: an `Event` is one critical section with everything it reads from
outside (the request, the clock, the UUIDs drawn, the bridge message), and `step` runs it when it can
happen. Every interleaving of handlers, sockets and reaper passes is a schedule of events.

* A commit, speak or delete request is two events: `access` decides access, and if it is granted
  leaves the command in `pending`; `command` carries it out. A client WebSocket is three: `clientWs`
  checks the ticket and leaves an upgrade, `clientOpen` registers the socket, `clientClose` is the end
  of its loop.
* `bridgeMessage` is any text the bridge of a running socket sends: it may parse to any value.
* A `HashMap` is iterated in no particular order, and inserting may reorder it: `rehash` puts the
  sessions in any other order between two steps.

`drawn` and `registered` are history: the UUIDs of all events so far, and the client sockets
registered so far, newest first. `FreshRun` says that no UUID is drawn twice, which is what
`Uuid::new_v4` provides.
-/

namespace SenseVoice.ControlPlane

open Lib

/-- One critical section, with its inputs. -/
inductive Event where
  | createBrowserGrant (req : Request) (body : Option BrowserGrantRequest) (now : Nat)
      (token : String)
  | createSession (i : CreateInput)
  | access (req : Request) (c : Command)
  | command (c : Command)
  | bridgeConnect (req : Request) (socketId : Uuid)
  | bridgeMessage (socketId : Uuid) (message : Option Value) (times : RelayTimes)
  | bridgeDisconnect (socketId : Uuid)
  | clientWs (req : Request)
  | clientOpen (id socketId : Uuid)
  | clientClose (id socketId : Uuid)
  | reaper (now : Nat)
  | rehash (sessions : Table Uuid Session)

/-- The UUIDs an event draws. -/
def Event.uuids : Event → List Uuid
  | .createSession i => [i.id, i.channel, i.ticket]
  | .bridgeConnect _ socketId => [socketId]
  | .clientOpen _ socketId => [socketId]
  | _ => []

/-- `bridge_ws`: the bearer is the bridge secret. -/
def bridgeAuthorized (req : Request) (cfg : Config) : Bool :=
  (bearerToken req).any (secretMatches cfg.bridgeSharedSecret)

/-- The process: the state, the handlers between two critical sections (`pending`, `upgrades`), the
running socket loops, and the history. -/
structure System where
  app : AppState
  pending : List Command
  upgrades : List Uuid
  bridgeSockets : List Uuid
  clientSockets : List (Uuid × Uuid)
  drawn : List Uuid
  registered : List (Uuid × Uuid)

/-- The process at start. -/
def System.init : System := ⟨.new, [], [], [], [], [], []⟩

section Step

variable (cfg : Config) (digest : String → String)

/-- What an event does to the state, once it happens. -/
def Event.apply (e : Event) (a : AppState) : AppState :=
  match e with
  | .createBrowserGrant req body now token =>
    (ControlPlane.createBrowserGrant digest cfg req body now token a).1
  | .createSession i => (ControlPlane.createSession digest cfg i a).1
  | .access _ _ => a
  | .command c => (runCommand c a).1
  | .bridgeConnect req socketId =>
    if bridgeAuthorized req cfg then ControlPlane.bridgeConnect socketId a else a
  | .bridgeMessage _ message times => handleBridgeEvent message times a
  | .bridgeDisconnect socketId => ControlPlane.bridgeDisconnect socketId a
  | .clientWs _ => a
  | .clientOpen id socketId => (ControlPlane.clientOpen id socketId a).getD a
  | .clientClose id socketId => ControlPlane.clientClose id socketId a
  | .reaper now => reaperPass now a
  | .rehash sessions => { a with inner := { a.inner with sessions := sessions } }

/-- Whether an event can happen: its handler or socket loop is at that point. -/
def Event.enabled (e : Event) (s : System) : Bool :=
  match e with
  | .access req c => req.param == some c.id
  | .command c => c ∈ s.pending
  | .bridgeMessage socketId _ _ => socketId ∈ s.bridgeSockets
  | .bridgeDisconnect socketId => socketId ∈ s.bridgeSockets
  | .clientOpen id _ => id ∈ s.upgrades
  | .clientClose id socketId => (id, socketId) ∈ s.clientSockets
  | .rehash sessions => sessions.entries.isPerm s.app.inner.sessions.entries
  | _ => true

/-- The handlers and sockets after an event that happens. -/
def Event.advance (e : Event) (s : System) : System :=
  match e with
  | .access req c =>
    if (requireSessionAccess cfg s.app req c.id).isNone then { s with pending := c :: s.pending }
    else s
  | .command c => { s with pending := s.pending.erase c }
  | .bridgeConnect req socketId =>
    if bridgeAuthorized req cfg then { s with bridgeSockets := socketId :: s.bridgeSockets } else s
  | .bridgeDisconnect socketId => { s with bridgeSockets := s.bridgeSockets.erase socketId }
  | .clientWs req =>
    match ControlPlane.clientWs cfg s.app req with
    | .ok id => { s with upgrades := id :: s.upgrades }
    | .error _ => s
  | .clientOpen id socketId =>
    if (ControlPlane.clientOpen id socketId s.app).isSome then
      { s with
        upgrades := s.upgrades.erase id
        clientSockets := (id, socketId) :: s.clientSockets
        registered := (id, socketId) :: s.registered }
    else { s with upgrades := s.upgrades.erase id }
  | .clientClose id socketId => { s with clientSockets := s.clientSockets.erase (id, socketId) }
  | _ => s

/-- **One step of the control plane.** -/
def step (s : System) (e : Event) : Option System :=
  if e.enabled s then
    some { e.advance cfg s with app := e.apply cfg digest s.app, drawn := e.uuids ++ s.drawn }
  else none

/-- The steps of the run with the given schedule. -/
abbrev trace (es : List Event) : List (Run.Taken System Event) :=
  Run.trace (step cfg digest) System.init es

/-- The states of that run. -/
abbrev states (es : List Event) : List System := Run.states (step cfg digest) System.init es

/-- The state that run ends in. -/
abbrev final (es : List Event) : System := Run.final (step cfg digest) System.init es

/-- A step draws UUIDs that are new, and different from each other. -/
def FreshStep (x : Run.Taken System Event) : Prop :=
  x.event.uuids.Nodup ∧ ∀ u ∈ x.event.uuids, u ∉ x.before.drawn

instance (x : Run.Taken System Event) : Decidable (FreshStep x) :=
  inferInstanceAs (Decidable (_ ∧ _))

/-- `Uuid::new_v4` never returns a value twice in the run. -/
def FreshRun (es : List Event) : Prop := ∀ x ∈ trace cfg digest es, FreshStep x

instance (es : List Event) : Decidable (FreshRun cfg digest es) :=
  inferInstanceAs (Decidable (∀ _ ∈ _, _))

end Step

section StepFacts

variable {cfg : Config} {digest : String → String} {s t : System} {e : Event}

theorem step_enabled (h : step cfg digest s e = some t) : e.enabled s = true := by
  unfold step at h
  split at h
  · assumption
  · exact absurd h (by simp)

theorem step_eq (h : step cfg digest s e = some t) :
    t = { e.advance cfg s with app := e.apply cfg digest s.app, drawn := e.uuids ++ s.drawn } := by
  unfold step at h
  rw [if_pos (step_enabled (by unfold step; exact h))] at h
  exact (Option.some.inj h).symm

theorem step_app (h : step cfg digest s e = some t) : t.app = e.apply cfg digest s.app := by
  rw [step_eq h]

theorem step_drawn (h : step cfg digest s e = some t) : t.drawn = e.uuids ++ s.drawn := by
  rw [step_eq h]

/-- The UUIDs drawn are never forgotten. -/
theorem drawn_mono (h : step cfg digest s e = some t) {u : Uuid} (hu : u ∈ s.drawn) :
    u ∈ t.drawn := by
  rw [step_drawn h]
  exact List.mem_append_right _ hu

end StepFacts

/-! ## Requests of the runs that refute a property -/

/-- A request with a bearer token, for the session `id`. -/
def bearerRequest (token id : String) : Request := ⟨some ("Bearer " ++ token), none, [], some id⟩

/-- The operator's request, under `livekitProductionConfig`. -/
def operatorRequest (id : String) : Request :=
  bearerRequest livekitProductionConfig.clientAccessToken id

/-- The bridge connects, on a link of the given id. -/
def Event.connect (socketId : Uuid) : Event :=
  .bridgeConnect (bearerRequest livekitProductionConfig.bridgeSharedSecret "") socketId

/-- The operator creates the session `id`; its other UUIDs are made from the id, and the token
builders succeed. -/
def Event.create (id : Uuid) (now : Nat) : Event :=
  .createSession
    { req := operatorRequest id
      grantNow := now
      now := now
      id := id
      channel := id ++ "-channel"
      ticket := id ++ "-ticket"
      rtc := fun _ _ _ _ _ _ => .ok "token"
      livekit := fun _ _ _ _ _ _ => .ok "token" }

/-- The two halves of an operator's command. -/
def Event.operate (c : Command) : List Event := [.access (operatorRequest c.id) c, .command c]

/-- A message of the bridge on the given link. -/
def Event.bridgeSays (socketId : Uuid) (message : Value) : Event :=
  .bridgeMessage socketId (some message) ⟨0, .unsigned 0, 0⟩

/-- The production configuration with browser grants enabled. -/
def octosConfig : Config :=
  { livekitProductionConfig with octosServiceToken := "octos-service-token-at-least-24" }

/-- Octos obtains a grant, with the given token, for its user. -/
def Event.grant (token : String) (now : Nat) : Event :=
  .createBrowserGrant (bearerRequest octosConfig.octosServiceToken "")
    (some ⟨"user-1", "profile-1"⟩) now token

/-- A browser presents a grant; `livekit` is the outcome of the token builder. -/
def browserCreate (token id : String) (now : Nat) (livekit : Except String String) : CreateInput where
  req := bearerRequest token ""
  grantNow := now
  now := now
  id := id
  channel := id ++ "-channel"
  ticket := id ++ "-ticket"
  rtc := fun _ _ _ _ _ _ => livekit
  livekit := fun _ _ _ _ _ _ => livekit

end SenseVoice.ControlPlane
