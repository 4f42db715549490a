import SenseVoice.Lib.Channel
import SenseVoice.Bridge.App
import SenseVoice.ControlPlane.Links

/-!
# The control plane joined with its bridges

A `Link` is one connection of a `BridgeApp` to the control plane, with the two FIFO directions of its
WebSocket. Towards the bridge the log is what the control plane has put on the link (`sentOn`), of
which `delivered` messages have been handled; towards the control plane `toControl` are the messages
on the way. An `Act` is one step of the control plane, of one bridge, or of the network.

* A link may be lost at any moment (`LinkEvent.lose`): of each direction a prefix still arrives
  (`arriving`, `returning`), and what is sent from then on is lost, whether the sender knows or not.
* After that each end closes on its own: the control plane ends the socket's loop (`Act.disconnect`),
  the bridge stops all its sessions (`LinkEvent.close`), once its handler has returned.
* A link that has been replaced is lost the same way: its `rx` has no sender any more, so the control
  plane closes the socket.
* A `BridgeApp` begins each connection with an empty table, since `run` stops all sessions at the end
  of the one before; so every connection has an application of its own here, and several may run at a
  time.
* A connection whose secret `bridge_ws` refuses makes no link and is left out.

Results: `link_cases` and `act_cases` (everything a link and the deployment can do), `FreshAct.control`
(an act leaves the control plane alone or is one of its steps, so it keeps what those keep).
-/

namespace SenseVoice.Joint

open Lib ControlPlane Bridge

/-! ## One link -/

/-- The messages of `out` for the link `socketId`. -/
def onLink (socketId : Uuid) (out : List (Uuid × Value)) : List Value :=
  (out.filter fun p => p.1 = socketId).map Prod.snd

/-- The messages the control plane has put on the link `socketId`. -/
def sentOn (a : AppState) (socketId : Uuid) : List Value := onLink socketId a.bridgeOut

/-- One connection. `arriving` is `none` while it is up, then the number of messages that reach the
bridge in the end; `running` says whether the bridge is still in the connection. -/
structure Link where
  app : BridgeApp
  delivered : Nat
  arriving : Option Nat
  toControl : List Emission
  running : Bool

namespace Link

/-- A connection that has just been made. -/
def new (maxSessions : Int) : Link := ⟨.new maxSessions, 0, none, [], true⟩

/-- The connection has not been lost. -/
def up (l : Link) : Bool := l.arriving.isNone

/-- The application has gone on to `r`; what it emits on a lost connection is lost. -/
def put (l : Link) (r : BridgeApp × List Emission) : Link :=
  { l with app := r.1, toControl := if l.up then l.toControl ++ r.2 else l.toControl }

end Link

/-- A step of the bridge or of the network on one link. -/
inductive LinkEvent where
  /-- The next message reaches `handle`. -/
  | deliver
  /-- What the handler waits for comes back. -/
  | resume (o : BridgeApp.Outcome)
  /-- A running session emits an event. -/
  | emit (event : RunningEvent)
  /-- The connection is lost. -/
  | lose (arriving returning : Nat)
  /-- The bridge leaves the connection: the end of the `async with` in `run`. -/
  | close

/-- One step of a link, where `sent` is what the control plane has put on it. -/
def Link.step (sent : List Value) (l : Link) (e : LinkEvent) : Option Link :=
  match e with
  | .deliver =>
    if l.running ∧ l.app.handler = .idle ∧ l.arriving.all (l.delivered < ·) then
      (sent[l.delivered]?).map fun m =>
        { l with delivered := l.delivered + 1 }.put (l.app.handle m)
    else none
  | .resume o =>
    -- `emit` raises only when the connection is lost
    if l.running ∧ ¬ (l.up ∧ o.linkLost) then some (l.put (l.app.resume o)) else none
  | .emit event =>
    if l.running ∧ l.up ∧ l.app.emitting event.id then some (l.put (l.app, [.running event]))
    else none
  | .lose arriving returning =>
    if l.up then
      some { l with arriving := some arriving, toControl := l.toControl.take returning }
    else none
  | .close =>
    if l.running ∧ ¬ l.up ∧ l.app.handler = .idle then
      some { l with app := l.app.stopAllSessions, running := false }
    else none

/-- What a step of a link does. -/
inductive Stepped (sent : List Value) (l : Link) : LinkEvent → Link → Prop
  | delivered {m : Value} {r : BridgeApp × List Emission} (hr : l.running = true)
      (hidle : l.app.handler = .idle) (hm : sent[l.delivered]? = some m)
      (h : BridgeApp.Handled m l.app r) :
      Stepped sent l .deliver (Link.put { l with delivered := l.delivered + 1 } r)
  | resumed {o : BridgeApp.Outcome} {r : BridgeApp × List Emission} (hr : l.running = true)
      (h : BridgeApp.Resumed l.app r) : Stepped sent l (.resume o) (l.put r)
  | emitted {event : RunningEvent} (hr : l.running = true)
      (he : l.app.emitting event.id = true) :
      Stepped sent l (.emit event) (l.put (l.app, [.running event]))
  | lost {arriving returning : Nat} (hu : l.up = true) :
      Stepped sent l (.lose arriving returning)
        { l with arriving := some arriving, toControl := l.toControl.take returning }
  | closed (hu : l.up = false) (hidle : l.app.handler = .idle) :
      Stepped sent l .close { l with app := l.app.stopAllSessions, running := false }

/-- **What a step of a link does.** -/
theorem link_cases {sent : List Value} {l l' : Link} {e : LinkEvent} (h : l.step sent e = some l') :
    Stepped sent l e l' := by
  unfold Link.step at h
  split at h
  · split at h
    · rename_i hen
      obtain ⟨m, hm, rfl⟩ := Option.map_eq_some_iff.mp h
      exact .delivered hen.1 hen.2.1 hm (BridgeApp.handle_cases m l.app)
    · exact absurd h (by simp)
  · split at h
    · rename_i o hen
      obtain rfl := Option.some.inj h
      exact .resumed hen.1 (BridgeApp.resume_cases o l.app)
    · exact absurd h (by simp)
  · split at h
    · rename_i hen
      obtain rfl := Option.some.inj h
      exact .emitted hen.1 hen.2.2
    · exact absurd h (by simp)
  · split at h
    · rename_i hu
      obtain rfl := Option.some.inj h
      exact .lost hu
    · exact absurd h (by simp)
  · split at h
    · rename_i hen
      obtain rfl := Option.some.inj h
      exact .closed (by simpa using hen.2.1) hen.2.2
    · exact absurd h (by simp)

/-! ## The deployment -/

/-- The control plane and every connection there has been, by the id of its socket. -/
structure Deployment where
  control : System
  links : Table Uuid Link

/-- At start nothing is connected. -/
def Deployment.init : Deployment := ⟨.init, ∅⟩

/-- The events of the control plane that involve no bridge socket. -/
def isLocal : Event → Bool
  | .bridgeConnect _ _ => false
  | .bridgeMessage _ _ _ => false
  | .bridgeDisconnect _ => false
  | _ => true

/-- A step of the deployment. -/
inductive Act where
  /-- A step of the control plane on its own: a request, a client socket, a reaper pass. -/
  | control (e : Event)
  /-- A bridge with the given `max_sessions` connects. -/
  | connect (req : Request) (socketId : Uuid) (maxSessions : Int)
  /-- A step of a bridge, or of the network. -/
  | link (socketId : Uuid) (e : LinkEvent)
  /-- The next message of a bridge reaches `handle_bridge_event`. -/
  | relay (socketId : Uuid) (times : RelayTimes)
  /-- The control plane ends the loop of a lost socket. -/
  | disconnect (socketId : Uuid)

section Act

variable (cfg : Config) (digest : String → String)

/-- **One step of the deployment.** -/
def act (d : Deployment) (x : Act) : Option Deployment :=
  match x with
  | .control e =>
    if isLocal e then (step cfg digest d.control e).map fun s => { d with control := s } else none
  | .connect req socketId maxSessions =>
    if bridgeAuthorized req cfg then
      (step cfg digest d.control (.bridgeConnect req socketId)).map fun s =>
        ⟨s, d.links.insert socketId (.new maxSessions)⟩
    else none
  | .link socketId e =>
    (d.links.lookup socketId).bind fun l =>
      (l.step (sentOn d.control.app socketId) e).map fun l' =>
        { d with links := d.links.insert socketId l' }
  | .relay socketId times =>
    (d.links.lookup socketId).bind fun l =>
      match l.toControl with
      | [] => none
      | m :: rest =>
        (step cfg digest d.control (.bridgeMessage socketId (some m.toValue) times)).map fun s =>
          ⟨s, d.links.insert socketId { l with toControl := rest }⟩
  | .disconnect socketId =>
    (d.links.lookup socketId).bind fun l =>
      if l.up then none
      else (step cfg digest d.control (.bridgeDisconnect socketId)).map fun s =>
        { d with control := s }

/-- The steps of the run with the given schedule. -/
abbrev trace (xs : List Act) : List (Run.Taken Deployment Act) :=
  Run.trace (act cfg digest) Deployment.init xs

/-- The states of that run. -/
abbrev states (xs : List Act) : List Deployment := Run.states (act cfg digest) Deployment.init xs

/-- The state that run ends in. -/
abbrev final (xs : List Act) : Deployment := Run.final (act cfg digest) Deployment.init xs

/-- The UUIDs an act draws. -/
def Act.uuids : Act → List Uuid
  | .control e => e.uuids
  | .connect _ socketId _ => [socketId]
  | _ => []

/-- A step draws UUIDs that are new, and different from each other. -/
def FreshAct (x : Run.Taken Deployment Act) : Prop :=
  x.event.uuids.Nodup ∧ ∀ u ∈ x.event.uuids, u ∉ x.before.control.drawn

instance (x : Run.Taken Deployment Act) : Decidable (FreshAct x) :=
  inferInstanceAs (Decidable (_ ∧ _))

/-- `Uuid::new_v4` never returns a value twice in the run. -/
def FreshRun (xs : List Act) : Prop := ∀ x ∈ trace cfg digest xs, FreshAct x

instance (xs : List Act) : Decidable (FreshRun cfg digest xs) :=
  inferInstanceAs (Decidable (∀ _ ∈ _, _))

end Act

/-! ## States with nothing on the way -/

/-- On an open connection with the sent messages `sent`, no message is on the way in either direction
and the bridge's handler has returned. -/
structure Link.Quiet (l : Link) (sent : List Value) : Prop where
  idle : l.app.handler = .idle
  received : Channel.pending sent l.delivered = []
  relayed : l.toControl = []

/-- Every connection is closed at both ends, or is registered, up and quiet. -/
def Quiescent (d : Deployment) : Prop :=
  ∀ socketId l, d.links.lookup socketId = some l →
    (socketId ∉ d.control.bridgeSockets ∧ l.running = false) ∨
      (d.control.app.inner.bridge = some ⟨socketId⟩ ∧ l.up = true ∧
        l.Quiet (sentOn d.control.app socketId))

instance (l : Link) (sent : List Value) : Decidable (l.Quiet sent) :=
  decidable_of_iff
    (l.app.handler = .idle ∧ Channel.pending sent l.delivered = [] ∧ l.toControl = [])
    ⟨fun h => ⟨h.1, h.2.1, h.2.2⟩, fun h => ⟨h.idle, h.received, h.relayed⟩⟩

instance (d : Deployment) : Decidable (Quiescent d) :=
  decidable_of_iff' _ Table.forall_lookup

/-! ## Acts of the runs on fixed inputs -/

/-- A bridge connects, under `livekitProductionConfig`. -/
def Act.join (socketId : Uuid) (maxSessions : Int) : Act :=
  .connect (bearerRequest livekitProductionConfig.bridgeSharedSecret "") socketId maxSessions

/-- The next control message is handled, and what its handler waits for comes back. -/
def Act.serve (socketId : Uuid) (failure : Option String) : List Act :=
  [.link socketId .deliver, .link socketId (.resume ⟨failure, false⟩)]

/-- The next message of the bridge is handled. -/
def Act.report (socketId : Uuid) : Act := .relay socketId ⟨0, .unsigned 0, 0⟩

/-! ## The shape of an act -/

/-- What an act does. -/
inductive Moved (cfg : Config) (digest : String → String) (d : Deployment) :
    Act → Deployment → Prop
  | control {e : Event} {s : System} (hl : isLocal e = true)
      (h : step cfg digest d.control e = some s) : Moved cfg digest d (.control e) ⟨s, d.links⟩
  | connect {req : Request} {socketId : Uuid} {maxSessions : Int} {s : System}
      (ha : bridgeAuthorized req cfg = true)
      (h : step cfg digest d.control (.bridgeConnect req socketId) = some s) :
      Moved cfg digest d (.connect req socketId maxSessions)
        ⟨s, d.links.insert socketId (.new maxSessions)⟩
  | link {socketId : Uuid} {e : LinkEvent} {l l' : Link} (hl : d.links.lookup socketId = some l)
      (h : l.step (sentOn d.control.app socketId) e = some l') :
      Moved cfg digest d (.link socketId e) ⟨d.control, d.links.insert socketId l'⟩
  | relay {socketId : Uuid} {times : RelayTimes} {l : Link} {m : Emission} {rest : List Emission}
      {s : System} (hl : d.links.lookup socketId = some l) (hm : l.toControl = m :: rest)
      (h : step cfg digest d.control (.bridgeMessage socketId (some m.toValue) times) = some s) :
      Moved cfg digest d (.relay socketId times)
        ⟨s, d.links.insert socketId { l with toControl := rest }⟩
  | disconnect {socketId : Uuid} {l : Link} {s : System} (hl : d.links.lookup socketId = some l)
      (hu : l.up = false) (h : step cfg digest d.control (.bridgeDisconnect socketId) = some s) :
      Moved cfg digest d (.disconnect socketId) ⟨s, d.links⟩

variable {cfg : Config} {digest : String → String} {d t : Deployment} {x : Act}

/-- **What an act does.** -/
theorem act_cases (h : act cfg digest d x = some t) : Moved cfg digest d x t := by
  unfold act at h
  cases x with
  | control e =>
    simp only at h
    split at h
    · obtain ⟨s, hs, rfl⟩ := Option.map_eq_some_iff.mp h
      exact .control ‹_› hs
    · exact absurd h (by simp)
  | connect req socketId maxSessions =>
    simp only at h
    split at h
    · obtain ⟨s, hs, rfl⟩ := Option.map_eq_some_iff.mp h
      exact .connect ‹_› hs
    · exact absurd h (by simp)
  | link socketId e =>
    obtain ⟨l, hl, h⟩ := Option.bind_eq_some_iff.mp h
    obtain ⟨l', hl', rfl⟩ := Option.map_eq_some_iff.mp h
    exact .link hl hl'
  | relay socketId times =>
    obtain ⟨l, hl, h⟩ := Option.bind_eq_some_iff.mp h
    split at h
    · exact absurd h (by simp)
    · obtain ⟨s, hs, rfl⟩ := Option.map_eq_some_iff.mp h
      exact .relay hl ‹_› hs
  | disconnect socketId =>
    obtain ⟨l, hl, h⟩ := Option.bind_eq_some_iff.mp h
    split at h
    · exact absurd h (by simp)
    · rename_i hu
      obtain ⟨s, hs, rfl⟩ := Option.map_eq_some_iff.mp h
      exact .disconnect hl (by simpa using hu) hs

/-- An act leaves the control plane alone or is one of its steps, drawing the same UUIDs. -/
theorem act_control (h : act cfg digest d x = some t) :
    t.control = d.control ∨
      ∃ e, step cfg digest d.control e = some t.control ∧ e.uuids = x.uuids := by
  cases act_cases h with
  | control _ hs => exact Or.inr ⟨_, hs, rfl⟩
  | connect _ hs => exact Or.inr ⟨_, hs, rfl⟩
  | link => exact Or.inl rfl
  | relay _ _ hs => exact Or.inr ⟨_, hs, rfl⟩
  | disconnect _ _ hs => exact Or.inr ⟨_, hs, rfl⟩

/-- **From the control plane to the deployment.** What the steps of the control plane that draw new
UUIDs keep, an act that draws new UUIDs keeps. -/
theorem FreshAct.control {P : System → Prop} (hf : FreshAct ⟨d, x, t⟩)
    (h : act cfg digest d x = some t) (hp : P d.control)
    (hstep : ∀ e s, FreshStep ⟨d.control, e, s⟩ → step cfg digest d.control e = some s → P s) :
    P t.control := by
  rcases act_control h with hsame | ⟨e, he, hu⟩
  · rwa [hsame]
  · refine hstep e _ ?_ he
    unfold FreshStep
    rwa [hu]

end SenseVoice.Joint
