import SenseVoice.Lib.Run
import SenseVoice.Lib.Table

/-!
# The service loop and its end (`BridgeApp.run`, `handle` and `stop` in `bridge/bridge/main.py`)

Model of the coroutines that share `self.sessions` and `self.websocket`: `run`, with the `handle` it awaits
for a message, and any number of calls of `stop`, one for each signal and the one in the `finally` block of
`async_main`. A step runs one of them from where it waits to its next `await`; any may come next, and every
call that is awaited may raise.

* A session in the table is the number of its object: `stopped` are the objects `stop()` was called on.
* `websocket` is the number of the connection in `self.websocket`.
* A wait after which a handler only returns is `finishing`; the notice of a `session.stop` is one. What is
  sent, and what sessions do, is left out, and so is the random part of a sleep.
* A cancellation of `run` reaches it at any wait. `handle` is guarded against `Exception`, not against it.
* Ghosts: `attempts`, `waits` since the last connection, and of a call of `stop` whether `run` had ended when
  it came and what it found in `self.websocket`.

`Handling` has one call of `handle` and `Cleanup` one round of `run`, each with all that is raised in it; here
the rounds of `run`, its handlers and the calls of `stop` are interleaved. `ServiceAgreement` compares them.
-/

namespace SenseVoice.Bridge.Loop

open Lib

variable {κ : Type}

/-! ## The coroutines -/

/-- Where the handler of a message waits. -/
inductive HandlerAt (κ : Type) where
  /-- There is none: `run` waits for the next message. -/
  | idle
  /-- For the old session of its id to stop. -/
  | replacing (id : κ)
  /-- For `session.start()`. -/
  | starting (id : κ)
  /-- For the `session.ready` to be sent. -/
  | readying (id : κ)
  /-- For the `asr.error` of a failed start to be sent. -/
  | failing (id : κ)
  /-- For something it only returns from. -/
  | finishing

/-- Where `run` is. -/
inductive RunAt (κ : Type) where
  /-- Before its first test of `stopping`. -/
  | head
  /-- It waits for the connection. -/
  | connecting
  /-- In the loop over the messages. -/
  | serving (handler : HandlerAt κ)
  /-- At the end of `async with`: it waits for the connection to close. -/
  | leaving (cancelled : Bool)
  /-- In the `finally` block, in `stop_all_sessions`: it waits for a session to stop. -/
  | sweeping (cancelled : Bool) (todo : List κ)
  | sleeping
  | returned
  | raised

/-- `run` has returned or raised. -/
def RunAt.hasEnded : RunAt κ → Bool
  | .returned => true
  | .raised => true
  | _ => false

/-- `run` waits for a connection. -/
def RunAt.isConnecting : RunAt κ → Bool
  | .connecting => true
  | _ => false

/-- What a call of `stop` found in `self.websocket`: a connection, or nothing, and then whether `run` was
waiting for one. -/
inductive Found where
  | connection (number : ℕ)
  | nothing (connecting : Bool)

/-- Where a call of `stop` is. -/
inductive StopAt (κ : Type) where
  /-- In `stop_all_sessions`: it waits for a session to stop. -/
  | sweeping (todo : List κ)
  /-- It waits for the connection to close. -/
  | closing (number : ℕ)
  | returned (found : Found)
  | raised

/-- A call of `stop`. -/
structure StopCall (κ : Type) where
  place : StopAt κ
  afterRun : Bool

/-- The state of `BridgeApp` and of its coroutines. -/
structure Service (κ : Type) where
  stopping : Bool := false
  websocket : Option ℕ := none
  sessions : Table κ ℕ := ∅
  entered : ℕ := 0
  stopped : List ℕ := []
  run : RunAt κ := .head
  calls : List (StopCall κ) := []
  backoff : ℕ := 1
  attempts : ℕ := 0
  connections : ℕ := 0
  waits : List ℕ := []

/-- A control message, with the session it names and whether the constructor of a session raises. -/
inductive Message (κ : Type) where
  | start (id : κ) (constructs : Bool)
  | stop (id : κ)
  | serve (id : κ)
  | other

/-- What happens next. -/
inductive Event (κ : Type) where
  /-- `run` comes to the head of its loop, for the first time or from a sleep. -/
  | loop
  /-- The attempt to connect ends. -/
  | connected (made : Bool)
  | message (m : Message κ)
  /-- What the handler waits for returns or raises. -/
  | resumed (raised constructs : Bool)
  /-- The loop over the messages ends, or raises. -/
  | ended
  /-- The end of `async with` returns or raises. -/
  | left (raised : Bool)
  /-- The session that `run` waits for has stopped, or raised. -/
  | swept (raised : Bool)
  | cancelled
  /-- A call of `stop`. -/
  | stop
  /-- What the call of `stop` with this number waits for returns or raises. -/
  | stopResumed (i : ℕ) (raised : Bool)

namespace Service

/-! ## The table -/

/-- `list(self.sessions)`. -/
def keys (s : Service κ) : List κ := s.sessions.keys.reverse

theorem mem_keys (s : Service κ) : ∀ k ∈ s.sessions, k ∈ s.keys := fun _ hk => List.mem_reverse.mpr hk

section Sweeps

variable [DecidableEq κ]

/-- `self.sessions.pop(session_id, None)`, and the call of `stop()`; `none` if there is no such session. -/
def pop (id : κ) (s : Service κ) : Option (Service κ) :=
  (s.sessions.lookup id).map fun object =>
    { s with sessions := s.sessions.erase id, stopped := s.stopped ++ [object] }

/-- `self.sessions[session_id] = session`, for a new session. -/
def enter (id : κ) (s : Service κ) : Service κ :=
  { s with sessions := s.sessions.insert id s.entered, entered := s.entered + 1 }

/-- The loop of `stop_all_sessions` up to its next wait: `none` if there is none. -/
def sweep : List κ → Service κ → Service κ × Option (List κ)
  | [], s => (s, none)
  | id :: todo, s =>
    match s.pop id with
    | some t => (t, some todo)
    | none => s.sweep todo

/-! ## `run` -/

/-- The head of the loop. -/
def loopHead (s : Service κ) : Service κ :=
  if s.stopping then { s with run := .returned }
  else { s with run := .connecting, attempts := s.attempts + 1 }

/-- Behind the `finally` block: `break`, the end of the loop, or the sleep. -/
def afterFinally (cancelled : Bool) (s : Service κ) : Service κ :=
  if cancelled ∨ s.stopping then { s with run := .returned }
  else { s with run := .sleeping, waits := s.waits ++ [s.backoff] }

/-- `stop_all_sessions` in the `finally` block, from the sessions that are left. -/
def sweepOn (cancelled : Bool) (todo : List κ) (s : Service κ) : Service κ :=
  match s.sweep todo with
  | (t, some rest) => { t with run := .sweeping cancelled rest }
  | (t, none) => t.afterFinally cancelled

/-- The `finally` block. -/
def finalize (cancelled : Bool) (s : Service κ) : Service κ :=
  { s with websocket := none }.sweepOn cancelled s.keys

/-- The handler waits, or has returned. -/
def handlerAt (handler : HandlerAt κ) (s : Service κ) : Service κ := { s with run := .serving handler }

/-- `stop_session` in a handler that returns after it. -/
def popLast (id : κ) (s : Service κ) : Service κ :=
  match s.pop id with
  | some t => t.handlerAt .finishing
  | none => s.handlerAt .idle

/-- A `session.start` from the capacity check on. -/
def startNew (maxSessions : ℤ) (id : κ) (constructs : Bool) (s : Service κ) : Service κ :=
  if maxSessions ≤ s.sessions.entries.length then s.handlerAt .finishing
  else if constructs then (s.enter id).handlerAt (.starting id)
  else s.handlerAt .idle

/-- `handle`, up to its first wait. -/
def handle (maxSessions : ℤ) (m : Message κ) (s : Service κ) : Service κ :=
  match m with
  | .start id constructs =>
    match s.pop id with
    | some t => t.handlerAt (.replacing id)
    | none => s.startNew maxSessions id constructs
  | .stop id => s.popLast id
  | .serve id => if id ∈ s.sessions then s.handlerAt .finishing else s
  | .other => s

/-- `handle`, from one wait to the next. -/
def resume (maxSessions : ℤ) (raised constructs : Bool) (handler : HandlerAt κ) (s : Service κ) :
    Option (Service κ) :=
  match handler with
  | .idle => none
  | .replacing id => some (if raised then s.handlerAt .idle else s.startNew maxSessions id constructs)
  | .starting id => some (s.handlerAt (if raised then .failing id else .readying id))
  | .readying id => some (s.handlerAt (if raised then .failing id else .idle))
  | .failing id => some (if raised then s.handlerAt .idle else s.popLast id)
  | .finishing => some (s.handlerAt .idle)

/-- A cancellation. -/
def cancel (s : Service κ) : Option (Service κ) :=
  match s.run with
  | .connecting => some (s.finalize true)
  | .serving _ => some { s with run := .leaving true }
  | .leaving _ => some (s.finalize true)
  | .sweeping _ _ => some { s with run := .raised }
  | .sleeping => some { s with run := .raised }
  | _ => none

/-! ## `stop` -/

/-- `run` has ended. -/
def runEnded (s : Service κ) : Bool := s.run.hasEnded

/-- `run` waits for a connection. -/
def runConnecting (s : Service κ) : Bool := s.run.isConnecting

/-- `stop` behind `stop_all_sessions`: the place it comes to. -/
def stopPlace (s : Service κ) : StopAt κ :=
  match s.websocket with
  | some number => .closing number
  | none => .returned (.nothing s.runConnecting)

/-- `stop_all_sessions` in a call of `stop`: the state, and the place the call comes to. -/
def stopOn (todo : List κ) (s : Service κ) : Service κ × StopAt κ :=
  match s.sweep todo with
  | (t, some rest) => (t, .sweeping rest)
  | (t, none) => (t, t.stopPlace)

/-- `stop`, up to its first wait. -/
def stop (s : Service κ) : Service κ :=
  let (t, place) := { s with stopping := true }.stopOn s.keys
  { t with calls := t.calls ++ [⟨place, s.runEnded⟩] }

/-- `stop`, from one wait to the next. -/
def resumeStop (raised : Bool) (c : StopCall κ) (s : Service κ) : Option (Service κ × StopAt κ) :=
  match c.place with
  | .sweeping todo => some (if raised then (s, .raised) else s.stopOn todo)
  | .closing number => some (s, if raised then .raised else .returned (.connection number))
  | _ => none

/-! ## Steps -/

/-- **One step.** -/
def step (maxSessions : ℤ) (s : Service κ) (e : Event κ) : Option (Service κ) :=
  match e, s.run with
  | .loop, .head => some s.loopHead
  | .loop, .sleeping => some { s with backoff := min (s.backoff * 2) 20 }.loopHead
  | .connected true, .connecting =>
    some { s with
      run := .serving .idle, websocket := some s.connections, connections := s.connections + 1
      backoff := 1, waits := [] }
  | .connected false, .connecting => some (s.finalize false)
  | .message m, .serving .idle => some (s.handle maxSessions m)
  | .resumed raised constructs, .serving handler => s.resume maxSessions raised constructs handler
  | .ended, .serving .idle => some { s with run := .leaving false }
  -- what it raises takes the place of a cancellation
  | .left raised, .leaving cancelled => some (s.finalize (cancelled && !raised))
  | .swept raised, .sweeping cancelled todo =>
    some (if raised then { s with run := .raised } else s.sweepOn cancelled todo)
  | .cancelled, _ => s.cancel
  | .stop, _ => some s.stop
  | .stopResumed i raised, _ =>
    (s.calls[i]?).bind fun c => (s.resumeStop raised c).map fun (t, place) =>
      { t with calls := t.calls.set i { c with place := place } }
  | _, _ => none

end Sweeps

/-- The state after some events. -/
def after [DecidableEq κ] (maxSessions : ℤ) (es : List (Event κ)) : Service κ :=
  Run.final (step maxSessions) {} es

end Service

end SenseVoice.Bridge.Loop
