import SenseVoice.ControlPlane.Relay

/-!
# The loop of a client socket (`client_socket` in `control-plane/src/main.rs`)

Model of the loop between the registration and the teardown, with `result_delivery`, `delivery_key` and
`client_delivery_ack`, and of the control plane together with the loops of its client sockets: `Served`
adds them to the system of `System.lean`, whose steps are the `control` events.

* A loop takes the messages of its channel in order: the next one is the entry of the link's log that
  the cursor `taken` points at. The channel ends when it is empty and the link is not registered.
* An `Instant` is a number of nanoseconds; the two durations of an acknowledgement are exact rationals.
  The source has `f64`: the seconds, their product with `100_000.0` and `ack_rtt_ms * 50.0` are rounded
  there, which may move a value next to the middle between two hundredths to the other one. Where a result
  names one of the two durations, it is the exact one.
* Whether a send on the socket succeeds is an input. A loop that has ended runs its teardown next
  (`clientClose`), and nothing else.

Results: `sys_reachable` (with the loops the control plane reaches no other states).
-/

namespace SenseVoice.ControlPlane

open Lib

/-! ## Results and their acknowledgement -/

/-- What identifies a delivered result: `(event_type, utterance_id, sequence)`. -/
structure Delivery where
  eventType : String
  utteranceId : String
  sequence : Nat
deriving DecidableEq

/-- `matches!(event_type, "asr.partial" | "asr.final")`. -/
def isResult (eventType : String) : Bool := eventType == "asr.partial" || eventType == "asr.final"

/-- `result_delivery`. -/
def resultDelivery (value : Value) : Option Delivery := do
  let eventType ← value.strField "type"
  if isResult eventType then
    let utteranceId ← value.strField "utteranceId"
    let sequence ← (value.get "seq").bind Value.asU64
    return ⟨eventType, utteranceId, sequence⟩
  else none

/-- `delivery_key`. -/
def deliveryKey (d : Delivery) : String :=
  d.eventType ++ ":" ++ d.utteranceId ++ ":" ++ Nat.repr d.sequence

/-- `client_delivery_ack`. -/
def clientDeliveryAck (value : Value) (expectedSessionId : Uuid) : Option Delivery := do
  let type ← value.strField "type"
  let sessionId ← value.strField "sessionId"
  if type ≠ "client.result_ack" ∨ sessionId ≠ expectedSessionId then none
  else
    let eventType ← value.strField "eventType"
    if isResult eventType then
      let utteranceId ← value.strField "utteranceId"
      let sequence ← (value.get "seq").bind Value.asU64
      return ⟨eventType, utteranceId, sequence⟩
    else none

/-- `f64::round` of a number that is not negative. -/
def roundHalfUp (q : Rat) : Rat := (q + 1 / 2).floor

/-- `elapsed_ms`, at the time `now`. -/
def elapsedMs (started now : Nat) : Rat := roundHalfUp (((now - started : Nat) : Rat) / 10000) / 100

/-- The update an acknowledged result is answered with. -/
def ackUpdate (id : Uuid) (d : Delivery) (ackRttMs : Rat) : Value :=
  .json [("type", .string "trace.update"), ("sessionId", .string id),
    ("utteranceId", .string d.utteranceId), ("seq", .number (.unsigned d.sequence)),
    ("eventType", .string d.eventType),
    ("metrics", .json [("delivery", .json [("vpsBrowserAckRttMs", .number (.float ackRttMs)),
      ("estimatedVpsToBrowserMs", .number (.float (roundHalfUp (ackRttMs * 50) / 100)))])])]

/-! ## One loop -/

/-- The most entries `pending_deliveries` may have before it is cleared. -/
def maxPendingDeliveries : Nat := 2048

/-- The locals of a loop: the messages taken from its channel so far, and `pending_deliveries`. -/
structure ClientLoop where
  taken : Nat := 0
  pendingDeliveries : Table String Nat := ∅
  running : Bool := true

namespace ClientLoop

/-- The message has been sent on the socket. -/
def track (message : Value) (now : Nat) (l : ClientLoop) : ClientLoop :=
  match resultDelivery message with
  | none => l
  | some d =>
    let pending :=
      if maxPendingDeliveries ≤ l.pendingDeliveries.entries.length then ∅ else l.pendingDeliveries
    { l with pendingDeliveries := pending.insert (deliveryKey d) now }

/-- The answer to an inbound text, with the loop after it. -/
def acknowledge (id : Uuid) (parsed : Option Value) (now : Nat) (l : ClientLoop) :
    ClientLoop × Option Value :=
  match parsed.bind fun value => clientDeliveryAck value id with
  | none => (l, none)
  | some d =>
    match l.pendingDeliveries.lookup (deliveryKey d) with
    | none => (l, none)
    | some sentAt =>
      ({ l with pendingDeliveries := l.pendingDeliveries.erase (deliveryKey d) },
        some (ackUpdate id d (elapsedMs sentAt now)))

end ClientLoop

/-- What a client sends on its socket: a text, parsed; the end of the connection; anything else. -/
inductive ClientFrame where
  | text (parsed : Option Value)
  | ended
  | other

/-! ## The control plane and the loops -/

/-- The control plane, its loops by session and socket, and what was written to the sockets. -/
structure Served where
  sys : System := .init
  loops : Uuid × Uuid → ClientLoop := fun _ => {}
  written : List (Uuid × Value) := []

/-- A critical section of the control plane, or an iteration of a loop. -/
inductive ServedEvent where
  | control (e : Event)
  | outbound (id socketId : Uuid) (sent : Bool) (now : Nat)
  | inbound (id socketId : Uuid) (frame : ClientFrame) (sent : Bool) (now : Nat)

namespace Served

variable (cfg : Config) (digest : String → String)

/-- The socket's loop is running. -/
def serves (id socketId : Uuid) (s : Served) : Bool :=
  s.sys.clientSockets.contains (id, socketId) && (s.loops (id, socketId)).running

def setLoop (id socketId : Uuid) (l : ClientLoop) (s : Served) : Served :=
  { s with loops := Function.update s.loops (id, socketId) l }

/-- `socket.send(message)`, from a loop that leaves if it fails. -/
def send (id socketId : Uuid) (message : Value) (sent : Bool) (l : ClientLoop) (s : Served) : Served :=
  if sent then { s.setLoop id socketId l with written := s.written ++ [(socketId, message)] }
  else s.setLoop id socketId { l with running := false }

/-- `rx.recv()`: the next message, or the end of the channel. -/
def outbound (id socketId : Uuid) (sent : Bool) (now : Nat) (s : Served) : Option Served :=
  let l := s.loops (id, socketId)
  match (s.sys.app.clientLog socketId)[l.taken]? with
  | some message =>
    some (s.send id socketId message sent ({ l with taken := l.taken + 1 }.track message now))
  | none =>
    if s.sys.app.inner.clients.lookup id = some ⟨socketId⟩ then none
    else some (s.setLoop id socketId { l with running := false })

/-- `socket.recv()`. -/
def inbound (id socketId : Uuid) (frame : ClientFrame) (sent : Bool) (now : Nat) (s : Served) : Served :=
  match frame with
  | .text parsed =>
    match (s.loops (id, socketId)).acknowledge id parsed now with
    | (l, none) => s.setLoop id socketId l
    | (l, some update) => s.send id socketId update sent l
  | .ended => s.setLoop id socketId { s.loops (id, socketId) with running := false }
  | .other => s

/-- The teardown of a socket waits for the end of its loop. -/
def ready (e : Event) (s : Served) : Bool :=
  match e with
  | .clientClose id socketId => !(s.loops (id, socketId)).running
  | _ => true

/-- The loops after an event: a socket that is opened begins its loop. -/
def beginLoop (e : Event) (loops : Uuid × Uuid → ClientLoop) : Uuid × Uuid → ClientLoop :=
  match e with
  | .clientOpen id socketId => Function.update loops (id, socketId) {}
  | _ => loops

/-- **One step** of the control plane with its loops. -/
def step (s : Served) (e : ServedEvent) : Option Served :=
  match e with
  | .control e =>
    if s.ready e then
      (ControlPlane.step cfg digest s.sys e).map fun sys =>
        { s with sys := sys, loops := beginLoop e s.loops }
    else none
  | .outbound id socketId sent now =>
    if s.serves id socketId then s.outbound id socketId sent now else none
  | .inbound id socketId frame sent now =>
    if s.serves id socketId then some (s.inbound id socketId frame sent now) else none

/-- The steps of the run with the given schedule. -/
abbrev trace (es : List ServedEvent) : List (Run.Taken Served ServedEvent) :=
  Run.trace (step cfg digest) {} es

/-- The state that run ends in. -/
abbrev final (es : List ServedEvent) : Served := Run.final (step cfg digest) {} es

variable {cfg digest} {s t : Served}

/-- A loop changes nothing of the control plane. -/
theorem sys_outbound {id socketId : Uuid} {sent : Bool} {now : Nat}
    (h : s.outbound id socketId sent now = some t) : t.sys = s.sys := by
  unfold outbound at h
  dsimp only at h
  split at h
  · obtain rfl := Option.some.inj h
    unfold send
    split <;> rfl
  · split at h
    · exact absurd h (by simp)
    · obtain rfl := Option.some.inj h
      rfl

theorem sys_inbound (id socketId : Uuid) (frame : ClientFrame) (sent : Bool) (now : Nat) (s : Served) :
    (s.inbound id socketId frame sent now).sys = s.sys := by
  unfold inbound
  cases frame with
  | text parsed =>
    dsimp only
    split
    · rfl
    · unfold send
      split <;> rfl
  | ended => rfl
  | other => rfl

/-- Every step is a step of the control plane, or leaves it alone. -/
theorem sys_step {e : ServedEvent} (h : step cfg digest s e = some t) :
    t.sys = s.sys ∨ ∃ c, e = .control c ∧ ControlPlane.step cfg digest s.sys c = some t.sys := by
  cases e with
  | control c =>
    simp only [step] at h
    split at h
    · obtain ⟨sys, hsys, rfl⟩ := Option.map_eq_some_iff.mp h
      exact Or.inr ⟨c, rfl, hsys⟩
    · exact absurd h (by simp)
  | outbound id socketId sent now =>
    simp only [step] at h
    split at h
    · exact Or.inl (sys_outbound h)
    · exact absurd h (by simp)
  | inbound id socketId frame sent now =>
    simp only [step] at h
    split at h
    · obtain rfl := Option.some.inj h
      exact Or.inl (sys_inbound id socketId frame sent now s)
    · exact absurd h (by simp)

/-- **The loops run under the control plane**: its state in a run with them is one it reaches. -/
theorem sys_reachable (cfg : Config) (digest : String → String) (es : List ServedEvent) :
    ∃ cs, (final cfg digest es).sys = ControlPlane.final cfg digest cs := by
  refine Run.final_of_step (P := fun s : Served => ∃ cs, s.sys = ControlPlane.final cfg digest cs)
    (fun s e t => ?_) ⟨[], rfl⟩ es
  rintro ⟨cs, hcs⟩ h
  rcases sys_step h with hsame | ⟨c, -, hc⟩
  · exact ⟨cs, hsame.trans hcs⟩
  · rw [hcs] at hc
    exact ⟨cs ++ [c], (Run.final_concat hc).symm⟩

end Served

end SenseVoice.ControlPlane
