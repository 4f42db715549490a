import Mathlib.Data.Rat.Defs
import SenseVoice.Bridge.App
import SenseVoice.Lib.Raising
import SenseVoice.Lib.Table

/-!
# One message to the bridge, with every exception (`BridgeApp.handle`)

`App.lean` follows a handler from one wait to the next, along the messages of the control plane. Here one
call of `handle` runs from the message to its return or to the exception that leaves it, for any payload:
`Handling` is the language of such calls, a state that survives an exception, with Python's `try`.

* The keys of `self.sessions` are the hashable values of JSON up to Python's equality, `True == 1.0`. A
  list or an object is no key: to look it up raises.
* A session object is the number of objects that entered the table before it. `started` holds those whose
  `start()` has returned.
* What the calls of a session, its constructor and the socket do is an input (`Calls`): each may raise. An
  answer counts as emitted when it is passed to `emit`.
* The log lines, the session's own events and the end of the process (`stop`) are left out.
-/

namespace SenseVoice.Bridge

open Lib

/-! ## Payloads -/

/-- A key of `self.sessions`. -/
inductive Key where
  | null
  | number (q : ℚ)
  | string (s : String)
  deriving DecidableEq

/-- The key a value is, if it is hashable. -/
def Key.ofValue : Value → Option Key
  | .null => some .null
  | .bool b => some (.number (if b then 1 else 0))
  | .number n => some (.number n.toRat)
  | .string s => some (.string s)
  | .array _ => none
  | .object _ => none

/-- Python's truth of a value. -/
def truthy : Value → Bool
  | .null => false
  | .bool b => b
  | .number n => n.toRat ≠ 0
  | .string s => s ≠ ""
  | .array items => !items.isEmpty
  | .object fields => !fields.isEmpty

/-- `payload.get("sessionId")`. -/
def sessionIdOf (payload : Value) : Value := (payload.get "sessionId").getD .null

/-- The key that a message names. -/
def keyOf (payload : Value) : Option Key :=
  match payload with
  | .object _ => Key.ofValue (sessionIdOf payload)
  | _ => none

/-- `payload.get("livekit") or payload["agora"]`; `none` where `payload["agora"]` raises. -/
def rtcConfigOf (payload : Value) : Option Value :=
  match payload.get "livekit" with
  | some v => if truthy v then some v else payload.get "agora"
  | none => payload.get "agora"

/-- `"livekit" if "livekit" in payload else "agora"`. -/
def providerOf (payload : Value) : String := if (payload.get "livekit").isSome then "livekit" else "agora"

/-! ## The application -/

/-- An exception. -/
inductive Raised where
  | attributeError (text : String)
  | typeError (text : String)
  | keyError (key : String)
  | runtimeError (text : String)
  | other (text : String)
  deriving DecidableEq

/-- `str(exc)`. -/
def Raised.str : Raised → String
  | .attributeError text => text
  | .typeError text => text
  | .keyError key => "'" ++ key ++ "'"
  | .runtimeError text => text
  | .other text => text

/-- What `handle` emits; `object` is the session that `stop_session` has taken from the table. -/
inductive Answer where
  | ready (id : Value)
  | startFailed (id : Value) (message : String)
  | closed (id : Value) (object : ℕ)

/-- The payload of `emit`. -/
def Answer.toValue : Answer → Value
  | .ready id => .json [("type", .string "session.ready"), ("sessionId", id)]
  | .startFailed id message =>
    .json [("type", .string "asr.error"), ("sessionId", id), ("message", .string message)]
  | .closed id _ => .json [("type", .string "session.closed"), ("sessionId", id)]

/-- `self.mode`. -/
inductive Mode where
  | mock
  | real
  deriving DecidableEq

/-- The fields of `BridgeApp` that do not change. -/
structure BridgeConfig where
  mode : Mode
  asrUrls : List String
  maxSessions : ℤ
  ttsUrl : Option String

/-- `BridgeApp`: its table, and what happened so far. -/
structure BridgeState where
  sessions : Table Key ℕ
  asrRrIndex : ℕ
  entered : ℕ
  started : List ℕ
  sent : List Answer

namespace BridgeState

/-- The application when the process begins. -/
def new : BridgeState := ⟨∅, 0, 0, [], []⟩

/-- The answer is passed to `emit`. -/
def answer (a : Answer) (app : BridgeState) : BridgeState := { app with sent := app.sent ++ [a] }

/-- `self.sessions.pop(session_id)`. -/
def pop (key : Key) (app : BridgeState) : BridgeState :=
  { app with sessions := app.sessions.erase key }

/-- `self.sessions[session_id] = session`, for a new session. -/
def enter (key : Key) (app : BridgeState) : BridgeState :=
  { app with sessions := app.sessions.insert key app.entered, entered := app.entered + 1 }

/-- `session.start()` has returned. -/
def begun (object : ℕ) (app : BridgeState) : BridgeState :=
  { app with started := app.started ++ [object] }

end BridgeState

/-- The arguments of `RealSession`. -/
structure RealArguments where
  sessionId : Value
  rtcConfig : Value
  asrUrl : String
  ttsUrl : Option String
  provider : String

/-- What the calls that a handler makes raise. -/
structure Calls where
  construct : RealArguments → Option Raised
  start : Option Raised
  commit : Option Raised
  speak : Option Raised
  stop : ℕ → Option Raised
  send : Answer → Option Raised

/-- A computation of a handler: an exception leaves the state as it is. -/
abbrev Handling := ExceptT Raised (StateM BridgeState)

namespace Handling

/-- What a call raises. -/
def call (raised : Option Raised) : Handling Unit :=
  match raised with
  | none => pure ()
  | some e => throw e

variable (cfg : BridgeConfig) (env : Calls)

/-- `emit`. -/
def emit (answer : Answer) : Handling Unit := do
  modify (BridgeState.answer answer)
  call (env.send answer)

/-- `stop_session`, for the session id `id` with the key `key`. -/
def stopSession (key : Key) (id : Value) (notify : Bool) : Handling Unit := do
  match (← get).sessions.lookup key with
  | none => return
  | some session =>
    modify (BridgeState.pop key)
    try call (env.stop session)
    finally if notify then emit env (.closed id session)

/-- `_next_asr_url`, for a pool that is not empty. -/
def nextAsrUrl : Handling String := do
  let app ← get
  set { app with asrRrIndex := app.asrRrIndex + 1 }
  return cfg.asrUrls.getD (app.asrRrIndex % cfg.asrUrls.length) ""

/-- The constructors: `MockSession` or `RealSession`. -/
def construct (payload : Value) : Handling Unit := do
  if cfg.mode = .mock then return
  if cfg.asrUrls = [] then throw (.runtimeError "ASR_URLS or ASR_URL is required in real mode")
  match rtcConfigOf payload with
  | none => throw (.keyError "agora")
  | some rtcConfig =>
    let asrUrl ← nextAsrUrl cfg
    call (env.construct ⟨sessionIdOf payload, rtcConfig, asrUrl, cfg.ttsUrl, providerOf payload⟩)

/-- `session.start()`. -/
def start (object : ℕ) : Handling Unit := do
  call env.start
  modify (BridgeState.begun object)

/-- The session enters the table, and is started. -/
def launch (key : Key) (id : Value) : Handling Unit := do
  let object := (← get).entered
  modify (BridgeState.enter key)
  try
    start env object
    emit env (.ready id)
  catch exc =>
    emit env (.startFailed id exc.str)
    stopSession env key id false

/-- `handle` for a `session.start`, once its key is known. -/
def startMessage (key : Key) (payload : Value) : Handling Unit := do
  let id := sessionIdOf payload
  if ((← get).sessions.lookup key).isSome then stopSession env key id false
  if cfg.maxSessions ≤ (← get).sessions.entries.length then
    emit env (.startFailed id BridgeApp.capacityMessage)
  else
    construct cfg env payload
    launch env key id

/-- `await session.commit()` or `await session.speak(..)`, if the session is in the table. -/
def serve (key : Key) (raised : Option Raised) : Handling Unit := do
  match (← get).sessions.lookup key with
  | none => return
  | some _ => call raised

/-- `handle`. -/
def handle (payload : Value) : Handling Unit := do
  match payload with
  | .object _ =>
    let type := payload.strField "type"
    let hashed : Handling Key := match keyOf payload with
      | none => throw (.typeError "unhashable type")
      | some key => pure key
    if type = some "session.start" then startMessage cfg env (← hashed) payload
    else if type = some "utterance.commit" then serve (← hashed) env.commit
    else if type = some "tts.speak" then serve (← hashed) env.speak
    else if type = some "session.stop" then stopSession env (← hashed) (sessionIdOf payload) true
  | _ => throw (.attributeError "object has no attribute 'get'")

end Handling

/-! ## How the parts of a handler end -/

namespace Handling

/-- How a call ends. -/
def ended (raised : Option Raised) : Except Raised Unit :=
  match raised with
  | none => .ok ()
  | some e => .error e

variable {cfg : BridgeConfig} {env : Calls} {key : Key} {id payload : Value} {app : BridgeState}

@[simp] theorem outcome_call (raised : Option Raised) : outcome (call raised) app = (ended raised, app) := by
  cases raised <;> rfl

@[simp] theorem outcome_emit (a : Answer) :
    outcome (emit env a) app = (ended (env.send a), app.answer a) := by
  simp [emit]

theorem outcome_stopSession_none (h : app.sessions.lookup key = none) (notify : Bool) :
    outcome (stopSession env key id notify) app = (.ok (), app) := by
  simp [stopSession, h]

/-- Without a notice the session leaves the table, whether its `stop()` raises or not. -/
theorem outcome_stopSession_quiet (env : Calls) (id : Value) {object : ℕ}
    (h : app.sessions.lookup key = some object) :
    outcome (stopSession env key id false) app = (ended (env.stop object), app.pop key) := by
  simp [stopSession, h, Ended.anyway]

/-- With a notice, which is emitted whether `stop()` raises or not. -/
theorem outcome_stopSession_notify (env : Calls) (id : Value) {object : ℕ}
    (h : app.sessions.lookup key = some object) :
    ∃ r, outcome (stopSession env key id true) app = (r, (app.pop key).answer (.closed id object)) := by
  simp only [stopSession, outcome_bind, outcome_get, next_ok, h, outcome_modify, if_true,
    outcome_tryFinally, outcome_call, Ended.anyway, outcome_emit]
  cases env.send (.closed id object) with
  | none => exact ⟨_, rfl⟩
  | some e => exact ⟨_, rfl⟩

/-- The application when a launch fails: in `session.start()`, or in the emission of `session.ready`. -/
inductive Failing (env : Calls) (key : Key) (id : Value) (app : BridgeState) (exc : Raised) :
    BridgeState → Prop
  | unstarted (hstart : env.start = some exc) : Failing env key id app exc (app.enter key)
  | unsent (hsend : env.send (.ready id) = some exc) :
      Failing env key id app exc (((app.enter key).begun app.entered).answer (.ready id))

/-- How the launch of a session ends. -/
inductive Launched (env : Calls) (key : Key) (id : Value) (app : BridgeState) :
    Ended Raised BridgeState Unit → Prop
  | ready (hstart : env.start = none) :
      Launched env key id app (.ok (), ((app.enter key).begun app.entered).answer (.ready id))
  | stuck {failing : BridgeState} {exc e : Raised} (h : Failing env key id app exc failing)
      (hsend : env.send (.startFailed id exc.str) = some e) :
      Launched env key id app (.error e, failing.answer (.startFailed id exc.str))
  | unwound {failing : BridgeState} {exc : Raised} (h : Failing env key id app exc failing) :
      Launched env key id app
        (ended (env.stop app.entered), (failing.answer (.startFailed id exc.str)).pop key)

/-- **What a launch can do.** -/
theorem launch_cases : Launched env key id app (outcome (launch env key id) app) := by
  have hfail : ∀ (exc : Raised) (failing : BridgeState), Failing env key id app exc failing →
      Launched env key id app
        (outcome (do emit env (.startFailed id exc.str); stopSession env key id false) failing) := by
    intro exc failing h
    have hthere : (failing.answer (.startFailed id exc.str)).sessions.lookup key = some app.entered := by
      cases h <;> exact AList.lookup_insert _
    rw [outcome_bind, outcome_emit]
    cases hsend : env.send (.startFailed id exc.str) with
    | some e => exact .stuck h hsend
    | none =>
      have hstop := outcome_stopSession_quiet env id hthere
      simp only [ended, next_ok, hstop]
      exact .unwound h
  simp only [launch, start, outcome_bind, outcome_get, next_ok, outcome_modify, outcome_tryCatch,
    outcome_call]
  cases hstart : env.start with
  | some e => exact hfail e _ (.unstarted hstart)
  | none =>
    cases hsend : env.send (.ready id) with
    | some e =>
      simp only [ended, next_ok, outcome_modify, outcome_emit, hsend, rescue_error]
      exact hfail e _ (.unsent hsend)
    | none =>
      simp only [ended, next_ok, outcome_modify, outcome_emit, hsend, rescue_ok]
      exact .ready hstart

/-- The session can be constructed: the pool and the credentials are there, and the constructor returns. -/
def Constructs (cfg : BridgeConfig) (env : Calls) (payload : Value) (app : BridgeState) : Prop :=
  cfg.mode = .mock ∨
    cfg.asrUrls ≠ [] ∧ ∃ rtcConfig, rtcConfigOf payload = some rtcConfig ∧
      env.construct ⟨sessionIdOf payload, rtcConfig,
        cfg.asrUrls.getD (app.asrRrIndex % cfg.asrUrls.length) "", cfg.ttsUrl, providerOf payload⟩ = none

/-- How the constructors end: they touch the round robin at most. -/
theorem construct_cases (cfg : BridgeConfig) (env : Calls) (payload : Value) (app : BridgeState) :
    ∃ i, (Constructs cfg env payload app ∧
        outcome (construct cfg env payload) app = (.ok (), { app with asrRrIndex := i })) ∨
      ¬ Constructs cfg env payload app ∧
        ∃ e, outcome (construct cfg env payload) app = (.error e, { app with asrRrIndex := i }) := by
  unfold Constructs construct
  by_cases hmock : cfg.mode = .mock
  · exact ⟨app.asrRrIndex, Or.inl (by simp [hmock])⟩
  by_cases hpool : cfg.asrUrls = []
  · exact ⟨app.asrRrIndex, Or.inr (by simp [hmock, hpool])⟩
  cases hconfig : rtcConfigOf payload with
  | none => exact ⟨app.asrRrIndex, Or.inr (by simp [hmock, hpool])⟩
  | some rtcConfig =>
    refine ⟨app.asrRrIndex + 1, ?_⟩
    cases hraised : env.construct ⟨sessionIdOf payload, rtcConfig,
        cfg.asrUrls.getD (app.asrRrIndex % cfg.asrUrls.length) "", cfg.ttsUrl,
        providerOf payload⟩ with
    | none => exact Or.inl (by
        simp [hmock, hpool, nextAsrUrl, hraised, ended, -List.getD_eq_getElem?_getD])
    | some e => exact Or.inr (by
        simp [hmock, hpool, nextAsrUrl, hraised, ended, -List.getD_eq_getElem?_getD])

theorem pop_of_absent (h : app.sessions.lookup key = none) : app.pop key = app := by
  have herase : app.sessions.erase key = app.sessions := by
    refine AList.ext_iff.mpr (List.kerase_of_notMem_keys ?_)
    exact fun hmem => AList.lookup_eq_none.mp h (AList.mem_keys.mp hmem)
  unfold BridgeState.pop
  rw [herase]

/-- The old session of a `session.start` leaves the table, whether its `stop()` raises or not. -/
theorem outcome_replace :
    outcome (do if ((← get).sessions.lookup key).isSome then stopSession env key id false) app =
      (ended ((app.sessions.lookup key).bind env.stop), app.pop key) := by
  cases h : app.sessions.lookup key with
  | none => simp [h, pop_of_absent h, ended]
  | some object => simp [h, outcome_stopSession_quiet env _ h]

/-- How a `session.start` ends; the new session meets the table without the old one. -/
inductive Started (cfg : BridgeConfig) (env : Calls) (key : Key) (payload : Value) (app : BridgeState) :
    Ended Raised BridgeState Unit → Prop
  /-- The `stop()` of the old session raises. -/
  | unstopped {e : Raised} (hstop : (app.sessions.lookup key).bind env.stop = some e) :
      Started cfg env key payload app (.error e, app.pop key)
  /-- The bridge is at its capacity. -/
  | rejected (hstop : (app.sessions.lookup key).bind env.stop = none)
      (hfull : cfg.maxSessions ≤ (app.pop key).sessions.entries.length) :
      Started cfg env key payload app
        (ended (env.send (.startFailed (sessionIdOf payload) BridgeApp.capacityMessage)),
          (app.pop key).answer (.startFailed (sessionIdOf payload) BridgeApp.capacityMessage))
  /-- No session can be constructed. -/
  | unbuilt {e : Raised} {i : ℕ} (hstop : (app.sessions.lookup key).bind env.stop = none)
      (hfree : ¬ cfg.maxSessions ≤ (app.pop key).sessions.entries.length)
      (hbuild : ¬ Constructs cfg env payload (app.pop key)) :
      Started cfg env key payload app (.error e, { app.pop key with asrRrIndex := i })
  /-- The session is launched. -/
  | launched {i : ℕ} {r : Ended Raised BridgeState Unit}
      (hstop : (app.sessions.lookup key).bind env.stop = none)
      (hfree : ¬ cfg.maxSessions ≤ (app.pop key).sessions.entries.length)
      (hbuild : Constructs cfg env payload (app.pop key))
      (hr : Launched env key (sessionIdOf payload) { app.pop key with asrRrIndex := i } r) :
      Started cfg env key payload app r

/-- **What a `session.start` can do.** -/
theorem startMessage_cases :
    Started cfg env key payload app (outcome (startMessage cfg env key payload) app) := by
  have hsplit : outcome (startMessage cfg env key payload) app =
      (outcome (do if ((← get).sessions.lookup key).isSome then
        stopSession env key (sessionIdOf payload) false) app).next fun _ => outcome (do
          if cfg.maxSessions ≤ (← get).sessions.entries.length then
            emit env (.startFailed (sessionIdOf payload) BridgeApp.capacityMessage)
          else
            construct cfg env payload
            launch env key (sessionIdOf payload)) := by
    cases h : app.sessions.lookup key <;> simp [startMessage, h]
  rw [hsplit, outcome_replace]
  cases hstop : (app.sessions.lookup key).bind env.stop with
  | some e => exact .unstopped hstop
  | none =>
    simp only [ended, next_ok, outcome_bind, outcome_get]
    split
    · rw [outcome_emit]
      exact .rejected hstop ‹_›
    · rename_i hfree
      rw [outcome_bind]
      obtain ⟨i, ⟨hbuild, hend⟩ | ⟨hbuild, e, hend⟩⟩ := construct_cases cfg env payload (app.pop key)
      · rw [hend]
        exact .launched hstop hfree hbuild launch_cases
      · rw [hend]
        exact .unbuilt hstop hfree hbuild

/-- How a message ends. -/
inductive Handled (cfg : BridgeConfig) (env : Calls) (payload : Value) (app : BridgeState) :
    Ended Raised BridgeState Unit → Prop
  | started {key : Key} {r : Ended Raised BridgeState Unit} (hkey : keyOf payload = some key)
      (htype : payload.strField "type" = some "session.start")
      (hr : Started cfg env key payload app r) : Handled cfg env payload app r
  | closed {key : Key} {object : ℕ} {r : Except Raised Unit} (hkey : keyOf payload = some key)
      (htype : payload.strField "type" = some "session.stop")
      (hthere : app.sessions.lookup key = some object) :
      Handled cfg env payload app (r, (app.pop key).answer (.closed (sessionIdOf payload) object))
  | kept {r : Except Raised Unit}
      (hstart : payload.strField "type" = some "session.start" → keyOf payload = none)
      (hstop : payload.strField "type" = some "session.stop" →
        ∀ key, keyOf payload = some key → app.sessions.lookup key = none) :
      Handled cfg env payload app (r, app)

theorem outcome_serve (key : Key) (raised : Option Raised) (app : BridgeState) :
    ∃ r, outcome (serve key raised) app = (r, app) := by
  cases h : app.sessions.lookup key with
  | none => exact ⟨.ok (), by simp [serve, h]⟩
  | some object => exact ⟨ended raised, by simp [serve, h]⟩

/-- **What `handle` can do.** -/
theorem handle_cases : Handled cfg env payload app (outcome (handle cfg env payload) app) := by
  unfold handle
  split
  · rename_i fields
    generalize hp : Value.object fields = payload
    generalize htype : payload.strField "type" = type
    simp only
    cases hkey : keyOf payload with
    | none =>
      have hkept : ∀ r, Handled cfg env payload app (r, app) := fun r =>
        .kept (fun _ => hkey) fun _ key h => absurd (hkey.symm.trans h) (by simp)
      split_ifs <;> exact hkept _
    | some key =>
      simp only [pure_bind]
      split_ifs with hstart hcommit hspeak hstop
      · exact .started hkey (htype.trans hstart) startMessage_cases
      · obtain ⟨r, hr⟩ := outcome_serve key env.commit app
        rw [hr]
        exact .kept (fun h => absurd (htype.symm.trans h) hstart)
          fun h => absurd (hcommit.symm.trans (htype.symm.trans h)) (by simp)
      · obtain ⟨r, hr⟩ := outcome_serve key env.speak app
        rw [hr]
        exact .kept (fun h => absurd (htype.symm.trans h) hstart)
          fun h => absurd (hspeak.symm.trans (htype.symm.trans h)) (by simp)
      · cases hthere : app.sessions.lookup key with
        | none =>
          rw [outcome_stopSession_none hthere]
          refine .kept (fun h => absurd (htype.symm.trans h) hstart) fun _ k hk => ?_
          rw [← Option.some.inj (hkey.symm.trans hk)]
          exact hthere
        | some object =>
          obtain ⟨r, hr⟩ := outcome_stopSession_notify env (sessionIdOf payload) hthere
          rw [hr]
          exact .closed hkey (htype.trans hstop) hthere
      · exact .kept (fun h => absurd (htype.symm.trans h) hstart)
          fun h => absurd (htype.symm.trans h) hstop
  · rename_i hobject
    have hget : ∀ k, payload.get k = none := fun k => by
      cases payload with
      | object fields => exact absurd rfl (hobject fields)
      | _ => rfl
    have hnone : ∀ k, payload.strField k = none := fun k => by rw [Value.strField, hget, Option.bind_none]
    exact .kept (fun h => absurd ((hnone _).symm.trans h) (by simp))
      fun h => absurd ((hnone _).symm.trans h) (by simp)

end Handling

end SenseVoice.Bridge
