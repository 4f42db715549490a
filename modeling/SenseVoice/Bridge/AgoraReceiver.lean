import SenseVoice.Bridge.Handling
import SenseVoice.Bridge.Tts
import SenseVoice.Lib.Run
import SenseVoice.Lib.Triple

/-!
# The Agora receivers of a bridge process (`bridge/bridge/agora_receiver.py`)

Model of `AgoraReceiver`: `start`, `push_ready`, `push_pcm`, `clear_audio_buffer`, `stop` and
`shutdown_service`. All receivers share the class attributes `_service` and `_appid`, so the state is that
of the process (`Process`), with the calls made on the SDK in order.

* What the SDK does with a call is an input (`Sdk`): it raises, or gives back a value. The services and
  connections it makes are new objects, numbered in the order of their making.
* `start` has no `await`, and its one caller is `RealSession.start`, which `handle` awaits right after the
  constructors. So a receiver is constructed and started in one event (`begin`); every other method of any
  receiver may come at any later time, in any order and any number of times.
* The seven calls after `create_rtc_connection` whose result ends `start`, and `get_local_user`, are one
  list (`setUp`), in the order of the source.
* The observers' callbacks, the log lines and the import of the SDK are left out.

`Orderly` says what the SDK asks of the calls; `Process.Coherent` is the invariant that gives it. Results: each
call, with what is stored after it, keeps `Coherent` (`Coherent.made`, `Coherent.dropped`, `Coherent.created`,
`Coherent.initialized`, `Coherent.shutDown`).
-/

namespace SenseVoice.Bridge

open Lib

/-! ## The SDK -/

/-- What a call of the SDK gives back. -/
inductive Reply where
  | none
  | bool (b : Bool)
  | int (n : ℤ)
  | object
  deriving DecidableEq

/-- `isinstance(result, int) and result < 0`. -/
def Reply.negative : Reply → Bool
  | .int n => n < 0
  | _ => false

/-- `str(result)` of a number. -/
def Reply.str : Reply → String
  | .int n => toString n
  | _ => ""

/-- A call on a connection, its local user or its audio track. -/
inductive Operation where
  | registerObserver
  | getLocalUser
  | registerLocalUserObserver
  | setPlaybackAudioFrameBeforeMixingParameters (channels sampleRate : ℕ)
  | registerAudioFrameObserver
  | subscribeAllAudio
  | connect (token channel uid : String)
  | publishAudio
  | isPushToRtcCompleted
  | pushAudioPcmData (pcm : Pcm) (sampleRate channels : ℕ)
  | clearSenderBuffer
  | disconnect
  | release
  deriving DecidableEq

/-- A call of the SDK. -/
inductive SdkCall where
  | initializeService (service : ℕ) (appid : String)
  | createRtcConnection (service : ℕ)
  | releaseService (service : ℕ)
  | onConnection (connection : ℕ) (operation : Operation)
  deriving DecidableEq

/-- What the SDK does with each call. -/
abbrev Sdk := SdkCall → Except Raised Reply

/-- A call that was made, and what came of it. -/
structure MadeCall where
  call : SdkCall
  answer : Except Raised Reply

/-! ## The process -/

/-- `AgoraReceiver`. -/
structure AgoraReceiver where
  appid : String
  channel : String
  token : String
  uid : ℤ
  connection : Option ℕ := none

/-- The class attributes, the receivers in the order of their making, and what the SDK was asked. -/
structure Process where
  service : Option ℕ := none
  appid : Option String := none
  services : ℕ := 0
  connections : ℕ := 0
  receivers : List AgoraReceiver := []
  calls : List MadeCall := []

namespace Process

/-- A call is made. -/
def made (call : SdkCall) (answer : Except Raised Reply) (p : Process) : Process :=
  { p with calls := p.calls ++ [⟨call, answer⟩] }

/-- `self.connection = connection`. -/
def setConnection (i : ℕ) (connection : Option ℕ) (p : Process) : Process :=
  { p with receivers := p.receivers.modify i fun r => { r with connection := connection } }

/-- `self.connection`. -/
def connectionOf (i : ℕ) (p : Process) : Option ℕ := p.receivers[i]?.bind AgoraReceiver.connection

/-- `AgoraService()`. -/
def newService (p : Process) : Process := { p with services := p.services + 1 }

/-- The connection that `create_rtc_connection` gives back becomes that of the receiver. -/
def newConnection (i : ℕ) (p : Process) : Process :=
  { p.setConnection i (some p.connections) with connections := p.connections + 1 }

/-- `AgoraReceiver._service` and `AgoraReceiver._appid`. -/
def setService (service : Option ℕ) (appid : Option String) (p : Process) : Process :=
  { p with service := service, appid := appid }

end Process

/-- A method of a receiver: an exception leaves what was done before. -/
abbrev Receiving := ExceptT Raised (StateM Process)

namespace AgoraReceiver

variable (sdk : Sdk)

/-- A call of the SDK. -/
def ask (call : SdkCall) : Receiving Reply := do
  modify (Process.made call (sdk call))
  match sdk call with
  | .ok reply => return reply
  | .error e => throw e

/-- `stop`. -/
def stop (i : ℕ) : Receiving Unit := do
  match (← get).connectionOf i with
  | none => return
  | some connection =>
    try discard (ask sdk (.onConnection connection .disconnect))
    finally
      discard (ask sdk (.onConnection connection .release))
      modify (Process.setConnection i none)

/-- `start`, up to the service. -/
def startService (appid : String) : Receiving ℕ := do
  let p ← get
  match p.service with
  | none =>
    modify Process.newService
    let result ← ask sdk (.initializeService p.services appid)
    if result.negative then throw (.runtimeError ("AgoraService.initialize failed: " ++ result.str))
    modify (Process.setService (some p.services) (some appid))
    return p.services
  | some service =>
    if p.appid ≠ some appid then throw (.runtimeError "One bridge process cannot switch Agora App IDs")
    return service

/-- `start`, from the service to the connection. -/
def createConnection (i service : ℕ) : Receiving ℕ := do
  let connection ← ask sdk (.createRtcConnection service)
  if connection = .none then
    throw (.runtimeError "AgoraService.create_rtc_connection returned no connection")
  let p ← get
  set (p.newConnection i)
  return p.connections

/-- A call of `start` on the connection, the values that end `start`, and the text of its exception. -/
structure SetUp where
  operation : Operation
  refuses : Reply → Bool := Reply.negative
  message : Reply → String

/-- The calls of `start` on the connection. -/
def setUp (r : AgoraReceiver) : List SetUp :=
  [{ operation := .registerObserver
     message := fun result => "Agora connection observer registration failed: " ++ result.str },
   { operation := .getLocalUser
     refuses := fun user => user = .none
     message := fun _ => "Agora connection did not provide a local user" },
   { operation := .registerLocalUserObserver
     message := fun result => "Agora local user observer registration failed: " ++ result.str },
   { operation := .setPlaybackAudioFrameBeforeMixingParameters 1 16000
     message := fun result => "Agora PCM format setup failed: " ++ result.str },
   { operation := .registerAudioFrameObserver
     message := fun result => "Agora audio observer registration failed: " ++ result.str },
   { operation := .subscribeAllAudio
     message := fun result => "Agora subscribe_all_audio failed: " ++ result.str },
   { operation := .connect r.token r.channel (toString r.uid)
     message := fun result => "Agora connection failed: " ++ result.str },
   { operation := .publishAudio
     message := fun result => "Agora publish_audio failed: " ++ result.str }]

/-- One of these calls: a value that ends `start` stops the receiver first. -/
def require (i connection : ℕ) (s : SetUp) : Receiving Unit := do
  let result ← ask sdk (.onConnection connection s.operation)
  if s.refuses result then
    stop sdk i
    throw (.runtimeError (s.message result))

/-- `start`. -/
def start (i : ℕ) (r : AgoraReceiver) : Receiving Unit := do
  let service ← startService sdk r.appid
  let connection ← createConnection sdk i service
  (setUp r).forM (require sdk i connection)

/-- `push_ready`. -/
def pushReady (i : ℕ) : Receiving Bool := do
  match (← get).connectionOf i with
  | none => return false
  | some connection =>
    let completed ← ask sdk (.onConnection connection .isPushToRtcCompleted)
    return completed ≠ .bool false

/-- `push_pcm`. -/
def pushPcm (i : ℕ) (pcm : Pcm) (sampleRate channels : ℕ) : Receiving Bool := do
  match (← get).connectionOf i with
  | none => return false
  | some connection =>
    if pcm = [] then return false
    let result ← ask sdk (.onConnection connection (.pushAudioPcmData pcm sampleRate channels))
    return !result.negative

/-- `clear_audio_buffer`; `track` says whether the connection has a track with `clear_sender_buffer`. -/
def clearAudioBuffer (i : ℕ) (track : Bool) : Receiving Unit := do
  match (← get).connectionOf i with
  | none => return
  | some connection =>
    if track then
      try discard (ask sdk (.onConnection connection .clearSenderBuffer))
      catch _ => pure ()

/-- `shutdown_service`. -/
def shutdownService : Receiving Unit := do
  match (← get).service with
  | none => return
  | some service =>
    discard (ask sdk (.releaseService service))
    modify (Process.setService none none)

end AgoraReceiver

/-! ## Runs -/

/-- What happens to the receivers. -/
inductive AgoraEvent where
  | begin (appid channel token : String) (uid : ℤ)
  | stop (i : ℕ)
  | pushReady (i : ℕ)
  | pushPcm (i : ℕ) (pcm : Pcm) (sampleRate channels : ℕ)
  | clearAudioBuffer (i : ℕ) (track : Bool)
  | shutdownService

namespace Process

/-- A receiver is constructed. -/
def construct (r : AgoraReceiver) (p : Process) : Process := { p with receivers := p.receivers ++ [r] }

end Process

/-- `AgoraReceiver.__init__`. -/
def AgoraReceiver.new (appid channel token : String) (uid : ℤ) : AgoraReceiver :=
  { appid := appid, channel := channel, token := token, uid := uid }

/-- The construction and the start of a receiver. -/
def AgoraReceiver.begin (sdk : Sdk) (appid channel token : String) (uid : ℤ) : Receiving Unit := do
  let p ← get
  set (p.construct (new appid channel token uid))
  start sdk p.receivers.length (new appid channel token uid)

/-- The method an event calls. -/
def AgoraEvent.method (sdk : Sdk) : AgoraEvent → Receiving Unit
  | .begin appid channel token uid => AgoraReceiver.begin sdk appid channel token uid
  | .stop i => AgoraReceiver.stop sdk i
  | .pushReady i => discard (AgoraReceiver.pushReady sdk i)
  | .pushPcm i pcm sampleRate channels => discard (AgoraReceiver.pushPcm sdk i pcm sampleRate channels)
  | .clearAudioBuffer i track => AgoraReceiver.clearAudioBuffer sdk i track
  | .shutdownService => AgoraReceiver.shutdownService sdk

/-- One event, with what the SDK does meanwhile. -/
def Process.step (p : Process) (e : AgoraEvent × Sdk) : Option Process :=
  some (outcome (e.1.method e.2) p).2

/-- The state after these events. -/
def Process.after (events : List (AgoraEvent × Sdk)) : Process := Run.final Process.step {} events

/-! ## What the calls tell -/

/-- The call makes a connection. -/
def MadeCall.makes (m : MadeCall) : Bool :=
  match m.call, m.answer with
  | .createRtcConnection _, .ok reply => reply ≠ .none
  | _, _ => false

/-- The number of connections made. -/
def connectionsMade (calls : List MadeCall) : ℕ := calls.countP MadeCall.makes

/-- The connection has been released. -/
def Released (connection : ℕ) (calls : List MadeCall) : Prop :=
  ∃ reply, ⟨.onConnection connection .release, .ok reply⟩ ∈ calls

/-- The service has been initialized. -/
def Initialized (service : ℕ) (appid : String) (calls : List MadeCall) : Prop :=
  ∃ reply, ⟨.initializeService service appid, .ok reply⟩ ∈ calls ∧ reply.negative = false

/-- The service has been released. -/
def ServiceReleased (service : ℕ) (calls : List MadeCall) : Prop :=
  ∃ reply, ⟨.releaseService service, .ok reply⟩ ∈ calls

/-- The service is there to be used. -/
def ServiceAlive (service : ℕ) (calls : List MadeCall) : Prop :=
  (∃ appid, Initialized service appid calls) ∧ ¬ ServiceReleased service calls

/-- What an SDK asks of a call: one service at a time, and no use of an object before its making or after its
release. -/
def Allowed (past : List MadeCall) : SdkCall → Prop
  | .initializeService _ _ => ∀ service, ¬ ServiceAlive service past
  | .createRtcConnection service => ServiceAlive service past
  | .releaseService service => ServiceAlive service past
  | .onConnection connection _ => connection < connectionsMade past ∧ ¬ Released connection past

/-- Every call was allowed when it was made. -/
def Orderly (calls : List MadeCall) : Prop :=
  ∀ past m later, calls = past ++ m :: later → Allowed past m.call

variable {calls : List MadeCall} {m : MadeCall} {c service : ℕ} {appid : String}

theorem orderly_concat (h : Orderly calls) (hm : Allowed calls m.call) : Orderly (calls ++ [m]) := by
  intro past m' later heq
  rcases Run.split_concat heq with ⟨rfl, rfl, -⟩ | ⟨later', -, hcalls⟩
  · exact hm
  · exact h past m' later' hcalls

theorem connectionsMade_concat :
    connectionsMade (calls ++ [m]) = connectionsMade calls + if m.makes then 1 else 0 := by
  unfold connectionsMade
  rw [List.countP_append, List.countP_singleton]

theorem released_concat :
    Released c (calls ++ [m]) ↔ Released c calls ∨ ∃ reply, m = ⟨.onConnection c .release, .ok reply⟩ := by
  unfold Released
  simp only [List.mem_append, List.mem_singleton, exists_or, eq_comm]

theorem initialized_concat :
    Initialized service appid (calls ++ [m]) ↔ Initialized service appid calls ∨
      ∃ reply, m = ⟨.initializeService service appid, .ok reply⟩ ∧ reply.negative = false := by
  unfold Initialized
  simp only [List.mem_append, List.mem_singleton, or_and_right, exists_or, eq_comm]

theorem serviceReleased_concat :
    ServiceReleased service (calls ++ [m]) ↔
      ServiceReleased service calls ∨ ∃ reply, m = ⟨.releaseService service, .ok reply⟩ := by
  unfold ServiceReleased
  simp only [List.mem_append, List.mem_singleton, exists_or, eq_comm]

theorem released_other (h : ∀ d op, m.call ≠ .onConnection d op) :
    Released c (calls ++ [m]) ↔ Released c calls := by
  refine released_concat.trans (or_iff_left ?_)
  rintro ⟨reply, rfl⟩
  exact h _ _ rfl

theorem initialized_other (h : ∀ s a, m.call ≠ .initializeService s a) :
    Initialized service appid (calls ++ [m]) ↔ Initialized service appid calls := by
  refine initialized_concat.trans (or_iff_left ?_)
  rintro ⟨reply, rfl, -⟩
  exact h _ _ rfl

theorem serviceReleased_other (h : ∀ s, m.call ≠ .releaseService s) :
    ServiceReleased service (calls ++ [m]) ↔ ServiceReleased service calls := by
  refine serviceReleased_concat.trans (or_iff_left ?_)
  rintro ⟨reply, rfl⟩
  exact h _ rfl

/-- A connection that has been released was made. -/
theorem Orderly.made_of_released (h : Orderly calls) (hc : Released c calls) : c < connectionsMade calls := by
  obtain ⟨reply, hmem⟩ := hc
  obtain ⟨past, later, rfl⟩ := List.append_of_mem hmem
  refine Nat.lt_of_lt_of_le (h past _ later rfl).1 ?_
  unfold connectionsMade
  rw [List.countP_append]
  exact Nat.le_add_right _ _

/-! ## The invariant -/

namespace Process

/-- The connections of the receivers are those that were made and not released. -/
structure ConnectionsSound (p : Process) : Prop where
  count : p.connections = connectionsMade p.calls
  held : ∀ i c, p.connectionOf i = some c → c < p.connections ∧ ¬ Released c p.calls
  once : ∀ i j c, p.connectionOf i = some c → p.connectionOf j = some c → i = j
  found : ∀ c < p.connections, ¬ Released c p.calls → ∃ i, p.connectionOf i = some c

/-- The service is the one that is alive. -/
structure ServicesSound (p : Process) : Prop where
  alive : ∀ s, p.service = some s ↔ ServiceAlive s p.calls
  known : ∀ s, p.service = some s → ∃ a, p.appid = some a ∧ Initialized s a p.calls
  fresh : ∀ s, (∃ a, Initialized s a p.calls) ∨ ServiceReleased s p.calls → s < p.services

/-- What holds between two calls of a method. -/
structure Coherent (p : Process) : Prop where
  orderly : Orderly p.calls
  connections : ConnectionsSound p
  services : ServicesSound p

variable {p q : Process} {i : ℕ} {call : SdkCall} {answer : Except Raised Reply} {reply : Reply}

theorem coherent_start : Coherent {} where
  orderly := fun past m later h => absurd h (by simp)
  connections :=
    { count := rfl
      held := fun i c h => absurd h (by simp [connectionOf])
      once := fun i j c h => absurd h (by simp [connectionOf])
      found := fun c h => absurd h (Nat.not_lt_zero c) }
  services :=
    { alive := fun s => by simp [ServiceAlive, Initialized]
      known := fun s h => absurd h (by simp)
      fresh := fun s h => by simp [Initialized, ServiceReleased] at h }

@[simp] theorem connectionOf_made (call : SdkCall) (answer : Except Raised Reply) :
    (p.made call answer).connectionOf i = p.connectionOf i := rfl

theorem connectionOf_setConnection_self {connection : Option ℕ} (h : i < p.receivers.length) :
    (p.setConnection i connection).connectionOf i = connection := by
  simp [connectionOf, setConnection, h]

theorem connectionOf_setConnection_ne {connection : Option ℕ} {j : ℕ} (h : j ≠ i) :
    (p.setConnection i connection).connectionOf j = p.connectionOf j := by
  simp [connectionOf, setConnection, h.symm]

theorem lt_of_connectionOf {c : ℕ} (h : p.connectionOf i = some c) : i < p.receivers.length := by
  obtain ⟨r, hr, -⟩ := Option.bind_eq_some_iff.mp h
  exact (List.getElem?_eq_some_iff.mp hr).1

/-- Calls on services, and calls that make and release nothing, leave the connections. -/
theorem ConnectionsSound.same (h : ConnectionsSound p) (hreceivers : q.receivers = p.receivers)
    (hconnections : q.connections = p.connections) (hmade : connectionsMade q.calls = connectionsMade p.calls)
    (hreleased : ∀ c, Released c q.calls ↔ Released c p.calls) : ConnectionsSound q := by
  have hof : ∀ i, q.connectionOf i = p.connectionOf i := fun i => by
    unfold connectionOf
    rw [hreceivers]
  refine ⟨?_, ?_, ?_, ?_⟩
  · rw [hconnections, hmade, h.count]
  · intro i c
    rw [hof, hreleased, hconnections]
    exact h.held i c
  · intro i j c
    rw [hof, hof]
    exact h.once i j c
  · intro c
    rw [hreleased, hconnections]
    simp only [hof]
    exact h.found c

/-- Calls on connections leave the services. -/
theorem ServicesSound.same (h : ServicesSound p) (hservice : q.service = p.service) (happid : q.appid = p.appid)
    (hservices : q.services = p.services)
    (hinitialized : ∀ s a, Initialized s a q.calls ↔ Initialized s a p.calls)
    (hreleased : ∀ s, ServiceReleased s q.calls ↔ ServiceReleased s p.calls) : ServicesSound q := by
  refine ⟨?_, ?_, ?_⟩
  · intro s
    unfold ServiceAlive
    simp only [hinitialized, hreleased]
    rw [hservice]
    exact h.alive s
  · intro s
    simp only [hinitialized]
    rw [hservice, happid]
    exact h.known s
  · intro s
    simp only [hinitialized, hreleased]
    rw [hservices]
    exact h.fresh s

/-! ### Calls on connections -/

/-- The call is on a connection, or makes one. -/
def AboutConnections : SdkCall → Prop
  | .createRtcConnection _ => True
  | .onConnection _ _ => True
  | _ => False

/-- What such a call, and what is stored after it, makes of the services. -/
theorem ServicesSound.made (h : ServicesSound p) (call : SdkCall) (answer : Except Raised Reply)
    (hcall : AboutConnections call)
    (hservice : q.service = p.service) (happid : q.appid = p.appid) (hservices : q.services = p.services)
    (hcalls : q.calls = p.calls ++ [⟨call, answer⟩]) : ServicesSound q := by
  have hinit : ∀ s a, call ≠ .initializeService s a := by
    rintro s a rfl
    exact hcall
  have hrelease : ∀ s, call ≠ .releaseService s := by
    rintro s rfl
    exact hcall
  refine h.same hservice happid hservices (fun s a => ?_) fun s => ?_ <;> rw [hcalls]
  · exact initialized_other hinit
  · exact serviceReleased_other hrelease

/-- A call that makes no connection and releases none. -/
def Keeping (call : SdkCall) (answer : Except Raised Reply) : Prop :=
  MadeCall.makes ⟨call, answer⟩ = false ∧ ∀ c reply, MadeCall.mk call answer ≠ ⟨.onConnection c .release, .ok reply⟩

theorem ConnectionsSound.made (h : ConnectionsSound p) (call : SdkCall) (answer : Except Raised Reply)
    (hkeeping : Keeping call answer)
    (hreceivers : q.receivers = p.receivers) (hconnections : q.connections = p.connections)
    (hcalls : q.calls = p.calls ++ [⟨call, answer⟩]) : ConnectionsSound q := by
  obtain ⟨hmakes, hrelease⟩ := hkeeping
  refine h.same hreceivers hconnections ?_ fun c => ?_
  · rw [hcalls, connectionsMade_concat, hmakes]
    rfl
  · rw [hcalls]
    refine released_concat.trans (or_iff_left ?_)
    rintro ⟨reply, hm⟩
    exact hrelease c reply hm

/-- A call on the connection of a receiver is allowed. -/
theorem Coherent.allowed (h : Coherent p) {c : ℕ} (hc : p.connectionOf i = some c) (op : Operation) :
    Allowed p.calls (.onConnection c op) := by
  obtain ⟨hlt, hno⟩ := h.connections.held i c hc
  exact ⟨h.connections.count ▸ hlt, hno⟩

/-- It changes nothing else, unless it releases the connection. -/
theorem Coherent.made (h : Coherent p) {c : ℕ} (hc : p.connectionOf i = some c) (op : Operation)
    (answer : Except Raised Reply) (hop : op ≠ .release ∨ ∃ e, answer = .error e) :
    Coherent (p.made (.onConnection c op) answer) := by
  refine ⟨orderly_concat h.orderly (h.allowed hc op), h.connections.made _ _ ⟨rfl, ?_⟩ rfl rfl rfl,
    h.services.made (.onConnection c op) answer trivial rfl rfl rfl rfl⟩
  intro c' reply hm
  obtain ⟨hcall, hanswer⟩ := MadeCall.mk.inj hm
  rcases hop with hop | ⟨e, rfl⟩
  · exact hop (SdkCall.onConnection.inj hcall).2
  · exact absurd hanswer (by simp)

/-- The connection of a receiver is released. -/
def dropped (i c : ℕ) (reply : Reply) (p : Process) : Process :=
  (p.made (.onConnection c .release) (.ok reply)).setConnection i none

theorem connectionOf_dropped {c j d : ℕ} (hc : p.connectionOf i = some c) :
    (p.dropped i c reply).connectionOf j = some d ↔ j ≠ i ∧ p.connectionOf j = some d := by
  by_cases hj : j = i
  · subst hj
    have hself : (p.dropped j c reply).connectionOf j = none :=
      connectionOf_setConnection_self (lt_of_connectionOf hc)
    simp [hself]
  · have hother : (p.dropped i c reply).connectionOf j = p.connectionOf j := connectionOf_setConnection_ne hj
    simp [hother, hj]

theorem released_dropped {c d : ℕ} : Released d (p.dropped i c reply).calls ↔ Released d p.calls ∨ d = c := by
  refine released_concat.trans (or_congr Iff.rfl ⟨?_, ?_⟩)
  · rintro ⟨reply', hm⟩
    exact (SdkCall.onConnection.inj (MadeCall.mk.inj hm).1).1.symm
  · rintro rfl
    exact ⟨reply, rfl⟩

theorem ConnectionsSound.dropped (h : ConnectionsSound p) {c : ℕ} (hc : p.connectionOf i = some c) :
    ConnectionsSound (p.dropped i c reply) := by
  have hcount : connectionsMade (p.dropped i c reply).calls = connectionsMade p.calls := connectionsMade_concat
  refine ⟨h.count.trans hcount.symm, fun j d hd => ?_, fun j k d hj hk => ?_, fun d hlt hno => ?_⟩
  · obtain ⟨hj, hold⟩ := (connectionOf_dropped hc).mp hd
    obtain ⟨hlt, hno⟩ := h.held j d hold
    refine ⟨hlt, fun hrel => ?_⟩
    rcases released_dropped.mp hrel with hrel | rfl
    · exact hno hrel
    · exact hj (h.once j i d hold hc)
  · exact h.once j k d ((connectionOf_dropped hc).mp hj).2 ((connectionOf_dropped hc).mp hk).2
  · rw [released_dropped, not_or] at hno
    obtain ⟨j, hj⟩ := h.found d hlt hno.1
    have hne : j ≠ i := by
      rintro rfl
      exact hno.2 (Option.some.inj (hj.symm.trans hc))
    exact ⟨j, (connectionOf_dropped hc).mpr ⟨hne, hj⟩⟩

theorem Coherent.dropped (h : Coherent p) {c : ℕ} (hc : p.connectionOf i = some c) (reply : Reply) :
    Coherent (p.dropped i c reply) :=
  ⟨orderly_concat h.orderly (h.allowed hc .release), h.connections.dropped hc,
    h.services.made (.onConnection c .release) (.ok reply) trivial rfl rfl rfl rfl⟩

/-- The receiver has no connection yet. -/
def Fresh (i : ℕ) (p : Process) : Prop := i < p.receivers.length ∧ p.connectionOf i = none

/-- A connection is made for a receiver. -/
def created (i service : ℕ) (reply : Reply) (p : Process) : Process :=
  (p.made (.createRtcConnection service) (.ok reply)).newConnection i

theorem connectionOf_created {service j d : ℕ} (hi : Fresh i p) :
    (p.created i service reply).connectionOf j = some d ↔
      j = i ∧ d = p.connections ∨ p.connectionOf j = some d := by
  by_cases hj : j = i
  · subst hj
    have hself : (p.created j service reply).connectionOf j = some p.connections :=
      connectionOf_setConnection_self hi.1
    rw [hself, hi.2]
    simp [eq_comm]
  · have hother : (p.created i service reply).connectionOf j = p.connectionOf j := connectionOf_setConnection_ne hj
    simp [hother, hj]

theorem ConnectionsSound.created (h : ConnectionsSound p) (hcalls : Orderly p.calls) {service : ℕ}
    (hi : Fresh i p) (hreply : reply ≠ .none) : ConnectionsSound (p.created i service reply) := by
  have hnew : ¬ Released p.connections p.calls := fun hrel =>
    Nat.lt_irrefl _ (h.count ▸ hcalls.made_of_released hrel)
  have hreleased : ∀ c, Released c (p.created i service reply).calls ↔ Released c p.calls :=
    fun c => released_other (by simp)
  refine ⟨?_, fun j d hd => ?_, fun j k d hj hk => ?_, fun d hlt hno => ?_⟩
  · refine (congrArg (· + 1) h.count).trans (connectionsMade_concat.trans ?_).symm
    simp [MadeCall.makes, hreply]
  · rw [hreleased]
    rcases (connectionOf_created hi).mp hd with ⟨-, rfl⟩ | hd
    · exact ⟨Nat.lt_succ_self _, hnew⟩
    · obtain ⟨hlt, hno⟩ := h.held j d hd
      exact ⟨Nat.lt_succ_of_lt hlt, hno⟩
  · rcases (connectionOf_created hi).mp hj with ⟨rfl, rfl⟩ | hjold <;>
      rcases (connectionOf_created hi).mp hk with ⟨rfl, hd⟩ | hkold
    · rfl
    · exact absurd (h.held k _ hkold).1 (Nat.lt_irrefl _)
    · exact absurd (hd ▸ (h.held j _ hjold).1) (Nat.lt_irrefl _)
    · exact h.once j k d hjold hkold
  · rw [hreleased] at hno
    rcases Nat.lt_succ_iff_lt_or_eq.mp hlt with hlt | rfl
    · obtain ⟨j, hj⟩ := h.found d hlt hno
      exact ⟨j, (connectionOf_created hi).mpr (Or.inr hj)⟩
    · exact ⟨i, (connectionOf_created hi).mpr (Or.inl ⟨rfl, rfl⟩)⟩

theorem Coherent.created (h : Coherent p) {service : ℕ} (hs : p.service = some service) (hi : Fresh i p)
    (hreply : reply ≠ .none) : Coherent (p.created i service reply) :=
  ⟨orderly_concat h.orderly ((h.services.alive service).mp hs), h.connections.created h.orderly hi hreply,
    h.services.made (.createRtcConnection service) (.ok reply) trivial rfl rfl rfl rfl⟩

/-- No connection is made. -/
theorem Coherent.uncreated (h : Coherent p) {service : ℕ} (hs : p.service = some service)
    (hanswer : answer = .ok .none ∨ ∃ e, answer = .error e) :
    Coherent (p.made (.createRtcConnection service) answer) := by
  refine ⟨orderly_concat h.orderly ((h.services.alive service).mp hs), h.connections.made _ _ ⟨?_, ?_⟩ rfl rfl rfl,
    h.services.made (.createRtcConnection service) answer trivial rfl rfl rfl rfl⟩
  · rcases hanswer with rfl | ⟨e, rfl⟩ <;> rfl
  · exact fun c reply hm => absurd (MadeCall.mk.inj hm).1 (by simp)

/-! ### Calls on services -/

/-- A call on services makes and releases no connection. -/
theorem keeping_service (hcall : ¬ AboutConnections call) : Keeping call answer := by
  refine ⟨?_, fun c reply hm => ?_⟩
  · cases call with
    | createRtcConnection service => exact absurd trivial hcall
    | _ => rfl
  · obtain ⟨rfl, -⟩ := MadeCall.mk.inj hm
    exact hcall trivial

/-- The service is not initialized. -/
theorem Coherent.uninitialized (h : Coherent p) (hs : p.service = none) (appid : String)
    (hanswer : ∀ reply, answer = .ok reply → reply.negative = true) :
    Coherent (p.newService.made (.initializeService p.services appid) answer) := by
  have hnone : ∀ s, ¬ ServiceAlive s p.calls := fun s hs' =>
    absurd (hs.symm.trans ((h.services.alive s).mpr hs')) (by simp)
  refine ⟨orderly_concat h.orderly hnone, h.connections.made _ _ (keeping_service id) rfl rfl rfl, ?_⟩
  have hinitialized : ∀ s a, Initialized s a (p.newService.made (.initializeService p.services appid) answer).calls ↔
      Initialized s a p.calls := by
    intro s a
    refine initialized_concat.trans (or_iff_left ?_)
    rintro ⟨reply, hm, hok⟩
    exact absurd ((hanswer reply (MadeCall.mk.inj hm).2).symm.trans hok) (by simp)
  have hreleased : ∀ s, ServiceReleased s (p.newService.made (.initializeService p.services appid) answer).calls ↔
      ServiceReleased s p.calls := fun s => serviceReleased_other (by simp)
  refine ⟨fun s => ?_, fun s hs' => ?_, fun s => ?_⟩
  · unfold ServiceAlive
    simp only [hinitialized, hreleased]
    exact h.services.alive s
  · simp only [hinitialized]
    exact h.services.known s hs'
  · simp only [hinitialized, hreleased]
    exact fun hs' => Nat.lt_succ_of_lt (h.services.fresh s hs')

/-- A service is initialized. -/
def initialized (appid : String) (reply : Reply) (p : Process) : Process :=
  (p.newService.made (.initializeService p.services appid) (.ok reply)).setService (some p.services) (some appid)

theorem Coherent.initialized (h : Coherent p) (hs : p.service = none) (appid : String)
    (hreply : reply.negative = false) : Coherent (p.initialized appid reply) := by
  have hnone : ∀ s, ¬ ServiceAlive s p.calls := fun s hs' =>
    absurd (hs.symm.trans ((h.services.alive s).mpr hs')) (by simp)
  refine ⟨orderly_concat h.orderly hnone, h.connections.made _ (.ok reply) (keeping_service id) rfl rfl rfl, ?_⟩
  have hinitialized : ∀ s a, Initialized s a (p.initialized appid reply).calls ↔
      Initialized s a p.calls ∨ s = p.services ∧ a = appid := by
    intro s a
    refine initialized_concat.trans (or_congr Iff.rfl ⟨?_, ?_⟩)
    · rintro ⟨reply', hm, -⟩
      exact (SdkCall.initializeService.inj (MadeCall.mk.inj hm).1).imp Eq.symm Eq.symm
    · rintro ⟨rfl, rfl⟩
      exact ⟨reply, rfl, hreply⟩
  have hreleased : ∀ s, ServiceReleased s (p.initialized appid reply).calls ↔ ServiceReleased s p.calls :=
    fun s => serviceReleased_other (by simp)
  have hnew : ¬ ServiceReleased p.services p.calls := fun hrel =>
    Nat.lt_irrefl _ (h.services.fresh _ (Or.inr hrel))
  refine ⟨fun s => ?_, fun s hs' => ?_, fun s => ?_⟩
  · unfold ServiceAlive
    simp only [hinitialized, hreleased]
    constructor
    · intro hs'
      obtain rfl := Option.some.inj hs'
      exact ⟨⟨appid, Or.inr ⟨rfl, rfl⟩⟩, hnew⟩
    · rintro ⟨⟨a, hin | ⟨rfl, -⟩⟩, hno⟩
      · exact absurd ⟨⟨a, hin⟩, hno⟩ (hnone s)
      · rfl
  · obtain rfl := Option.some.inj hs'
    exact ⟨appid, rfl, (hinitialized _ _).mpr (Or.inr ⟨rfl, rfl⟩)⟩
  · simp only [hinitialized, hreleased]
    rintro (⟨a, hin | ⟨rfl, -⟩⟩ | hrel)
    · exact Nat.lt_succ_of_lt (h.services.fresh s (Or.inl ⟨a, hin⟩))
    · exact Nat.lt_succ_self _
    · exact Nat.lt_succ_of_lt (h.services.fresh s (Or.inr hrel))

/-- The call that is to release the service raises. -/
theorem Coherent.unreleased (h : Coherent p) {service : ℕ} (hs : p.service = some service) (e : Raised) :
    Coherent (p.made (.releaseService service) (.error e)) := by
  refine ⟨orderly_concat h.orderly ((h.services.alive service).mp hs),
    h.connections.made _ _ (keeping_service id) rfl rfl rfl, h.services.same rfl rfl rfl
      (fun s a => initialized_other (by simp)) fun s => serviceReleased_concat.trans (or_iff_left ?_)⟩
  rintro ⟨reply, hm⟩
  exact absurd (MadeCall.mk.inj hm).2 (by simp)

/-- The service is released. -/
def shutDown (service : ℕ) (reply : Reply) (p : Process) : Process :=
  (p.made (.releaseService service) (.ok reply)).setService none none

theorem Coherent.shutDown (h : Coherent p) {service : ℕ} (hs : p.service = some service) :
    Coherent (p.shutDown service reply) := by
  refine ⟨orderly_concat h.orderly ((h.services.alive service).mp hs),
    h.connections.made _ (.ok reply) (keeping_service id) rfl rfl rfl, ?_⟩
  have hinitialized : ∀ s a, Initialized s a (p.shutDown service reply).calls ↔ Initialized s a p.calls :=
    fun s a => initialized_other (by simp)
  have hreleased : ∀ s, ServiceReleased s (p.shutDown service reply).calls ↔
      ServiceReleased s p.calls ∨ s = service := by
    intro s
    refine serviceReleased_concat.trans (or_congr Iff.rfl ⟨?_, ?_⟩)
    · rintro ⟨reply', hm⟩
      exact (SdkCall.releaseService.inj (MadeCall.mk.inj hm).1).symm
    · rintro rfl
      exact ⟨reply, rfl⟩
  refine ⟨fun s => ?_, fun s hs' => absurd hs' (by simp [Process.shutDown, setService]), fun s => ?_⟩
  · unfold ServiceAlive
    simp only [hinitialized, hreleased, not_or]
    constructor
    · exact fun hs' => absurd hs' (by simp [Process.shutDown, setService])
    · rintro ⟨hin, hno, hne⟩
      exact absurd (Option.some.inj (((h.services.alive s).mpr ⟨hin, hno⟩).symm.trans hs)) hne
  · simp only [hinitialized, hreleased]
    rintro (hin | hrel | rfl)
    · exact h.services.fresh s (Or.inl hin)
    · exact h.services.fresh s (Or.inr hrel)
    · exact h.services.fresh s (Or.inl ((h.services.alive s).mp hs).1)

end Process

end SenseVoice.Bridge
