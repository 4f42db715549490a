import SenseVoice.Json

/-!
# The bridge application (`BridgeApp` in `bridge/bridge/main.py`)

Model of `BridgeApp.handle`, `stop_session` and `stop_all_sessions` on one connection. `run` awaits
`handle` for one message at a time, so one handler runs, and it gives way to other tasks only where it
awaits a session or the socket. `Handler` says where it waits: `handle` runs it from its message to its
first wait, `resume` from one wait to the next. Both return the messages emitted on the way, in order.

* `sessions` are the keys of the dict in insertion order. What a session does is left out, except that
  it emits events of its own (`RunningEvent`) from the call of `start()` to the return of `stop()`
  (`emitting`).
* Whether `session.start()` raises is an input of `resume`. `session.stop()` does not raise here, nor
  do the constructors, which read keys that every `session.start` of the control plane has.
* `emit` raises once the loss of the connection shows (`linkLost`); in the start of a session that
  leaves `handle` with the session still in the table, and `run` stops it with all the others.
* A message without a text `sessionId` is passed over: the control plane sends none. The end of the
  process (`stop`) is left out.

Results: `handle_cases` and `resume_cases`, everything a handler can do between two waits.
-/

namespace SenseVoice.Bridge

/-! ## Messages -/

/-- A message of the given type for the session `id`. -/
structure Says (type : String) (m : Value) (id : String) : Prop where
  type_eq : m.strField "type" = some type
  names : m.strField "sessionId" = some id

theorem Says.type_unique {type type' : String} {m : Value} {id k : String} (h : Says type m id)
    (h' : Says type' m k) : type = type' :=
  Option.some.inj (h.type_eq.symm.trans h'.type_eq)

theorem Says.id_unique {type type' : String} {m : Value} {id k : String} (h : Says type m id)
    (h' : Says type' m k) : id = k :=
  Option.some.inj (h.names.symm.trans h'.names)

/-- The message names the session `id`. -/
def Names (m : Value) (id : String) : Prop := m.strField "sessionId" = some id

/-- The types of the events a running session emits. -/
def eventTypes : List String :=
  ["asr.partial", "asr.final", "trace.update", "asr.error", "tts.started", "tts.finished", "tts.error"]

/-- An event of the running session `id`. -/
structure RunningEvent where
  id : String
  type : String
  value : Value
  names : Says type value id
  known : type ∈ eventTypes

/-- What the bridge emits: the replies of `handle`, and the events of running sessions. `startFailed`
is the `asr.error` that answers a `session.start`. -/
inductive Emission where
  | ready (id : String)
  | startFailed (id message : String)
  | closed (id : String)
  | running (event : RunningEvent)

/-- The session an emission is about. -/
def Emission.id : Emission → String
  | .ready id => id
  | .startFailed id _ => id
  | .closed id => id
  | .running event => event.id

/-- The payload of `emit`. -/
def Emission.toValue : Emission → Value
  | .ready id => .json [("type", .string "session.ready"), ("sessionId", .string id)]
  | .startFailed id message =>
    .json [("type", .string "asr.error"), ("sessionId", .string id), ("message", .string message)]
  | .closed id => .json [("type", .string "session.closed"), ("sessionId", .string id)]
  | .running event => event.value

/-! ## The application -/

/-- Where the handler waits. -/
inductive Handler where
  /-- No handler runs: `run` waits for the next message. -/
  | idle
  /-- A `session.start` waits for the old session of its id to stop. -/
  | replacing (id : String)
  /-- It waits for `session.start()`. -/
  | starting (id : String)
  /-- It has emitted the failure of `session.start()`. -/
  | failing (id : String)
  /-- It waits for the failed session to stop. -/
  | unwinding (id : String)
  /-- It waits for `session.commit()` or `session.speak()`. -/
  | serving
  /-- A `session.stop` waits for the session to stop. -/
  | stopping (id : String)
deriving DecidableEq

/-- `BridgeApp`. -/
structure BridgeApp where
  maxSessions : Int
  sessions : List String
  handler : Handler

namespace BridgeApp

/-- The application when a connection begins. -/
def new (maxSessions : Int) : BridgeApp := ⟨maxSessions, [], .idle⟩

/-- The handler returns. -/
def finish (app : BridgeApp) : BridgeApp := { app with handler := .idle }

/-- `stop_session` up to its wait, at which the handler is at `next`. -/
def stopSession (id : String) (next : Handler) (app : BridgeApp) : BridgeApp :=
  if id ∈ app.sessions then
    { app with sessions := app.sessions.filter (· ≠ id), handler := next }
  else app.finish

/-- The message of a start that is rejected. -/
def capacityMessage : String := "Bridge is at its session capacity"

/-- A `session.start` from the capacity check to the call of `session.start()`. -/
def begin (id : String) (app : BridgeApp) : BridgeApp × List Emission :=
  if app.maxSessions ≤ app.sessions.length then (app.finish, [.startFailed id capacityMessage])
  else ({ app with sessions := app.sessions ++ [id], handler := .starting id }, [])

/-- `handle`, up to its first wait. -/
def handle (payload : Value) (app : BridgeApp) : BridgeApp × List Emission :=
  match payload.strField "sessionId" with
  | none => (app, [])
  | some id =>
    let type := payload.strField "type"
    if type = some "session.start" then
      if id ∈ app.sessions then (app.stopSession id (.replacing id), []) else app.begin id
    else if type = some "utterance.commit" ∨ type = some "tts.speak" then
      if id ∈ app.sessions then ({ app with handler := .serving }, []) else (app, [])
    else if type = some "session.stop" then
      if id ∈ app.sessions then (app.stopSession id (.stopping id), []) else (app, [])
    else (app, [])

/-- How the call the handler waits for comes back: the exception of `session.start()`, and whether the
next `emit` raises. -/
structure Outcome where
  failure : Option String
  linkLost : Bool

/-- `handle`, from one wait to the next. -/
def resume (o : Outcome) (app : BridgeApp) : BridgeApp × List Emission :=
  match app.handler with
  | .idle => (app, [])
  | .replacing id => app.begin id
  | .starting id =>
    -- both the `session.ready` and the `asr.error` raise
    if o.linkLost then (app.finish, [])
    else
      match o.failure with
      | none => (app.finish, [.ready id])
      | some message => ({ app with handler := .failing id }, [.startFailed id message])
  | .failing id => (app.stopSession id (.unwinding id), [])
  | .unwinding _ => (app.finish, [])
  | .serving => (app.finish, [])
  | .stopping id => (app.finish, [.closed id])

/-- A task of the session `id` may be running. -/
def emitting (id : String) (app : BridgeApp) : Bool :=
  id ∈ app.sessions || app.handler == .stopping id || app.handler == .replacing id

/-- `stop_all_sessions`, at the end of a connection. -/
def stopAllSessions (app : BridgeApp) : BridgeApp := { app with sessions := [] }

/-! ## Everything a handler can do -/

/-- The table without the session. -/
def without (id : String) (app : BridgeApp) : List String := app.sessions.filter (· ≠ id)

theorem mem_without {id k : String} {app : BridgeApp} :
    k ∈ app.without id ↔ k ∈ app.sessions ∧ k ≠ id := by
  unfold without
  rw [List.mem_filter, decide_eq_true_eq]

/-- The outcome of `begin`. -/
inductive Began (id : String) (app : BridgeApp) : BridgeApp × List Emission → Prop
  | rejected (message : String) : Began id app (app.finish, [.startFailed id message])
  | starting : Began id app ({ app with sessions := app.sessions ++ [id], handler := .starting id }, [])

theorem begin_cases (id : String) (app : BridgeApp) : Began id app (app.begin id) := by
  unfold begin
  split
  · exact .rejected _
  · exact .starting

/-- What `handle` does to the application with the message `m`. -/
inductive Handled (m : Value) (app : BridgeApp) : BridgeApp × List Emission → Prop
  | replaced {id : String} (hm : Says "session.start" m id) (hid : id ∈ app.sessions) :
      Handled m app
        ({ app with sessions := app.without id, handler := .replacing id }, [])
  | began {id : String} {r : BridgeApp × List Emission} (hm : Says "session.start" m id)
      (hid : id ∉ app.sessions) (hr : Began id app r) : Handled m app r
  | stopped {id : String} (hm : Says "session.stop" m id) (hid : id ∈ app.sessions) :
      Handled m app ({ app with sessions := app.without id, handler := .stopping id }, [])
  | passed {handler : Handler} (hs : ∀ id, ¬ Says "session.start" m id)
      (ht : ∀ id, Says "session.stop" m id → id ∉ app.sessions)
      (hh : handler = app.handler ∨ handler = .serving) :
      Handled m app ({ app with handler := handler }, [])

theorem stopSession_mem {id : String} {app : BridgeApp} (h : id ∈ app.sessions) (next : Handler) :
    app.stopSession id next = { app with sessions := app.without id, handler := next } := by
  unfold stopSession
  rw [if_pos h]
  rfl

/-- **What `handle` can do.** -/
theorem handle_cases (m : Value) (app : BridgeApp) : Handled m app (app.handle m) := by
  have hkeep : (∀ id, ¬ Says "session.start" m id) →
      (∀ id, Says "session.stop" m id → id ∉ app.sessions) → Handled m app (app, []) :=
    fun hs ht => .passed hs ht (Or.inl rfl)
  unfold handle
  split
  · rename_i hid
    exact hkeep (fun id h => absurd (hid.symm.trans h.names) (by simp))
      fun id h => absurd (hid.symm.trans h.names) (by simp)
  · rename_i id hid
    simp only
    split
    · rename_i hstart
      split
      · rw [stopSession_mem ‹_›]
        exact .replaced ⟨hstart, hid⟩ ‹_›
      · exact .began ⟨hstart, hid⟩ ‹_› (begin_cases id app)
    · rename_i hstart
      have hs : ∀ k, ¬ Says "session.start" m k := fun _ h => hstart h.type_eq
      split
      · rename_i hserve
        have ht : ∀ k, Says "session.stop" m k → k ∉ app.sessions := by
          intro k h
          rw [h.type_eq] at hserve
          exact absurd hserve (by simp)
        split
        · exact .passed hs ht (Or.inr rfl)
        · exact hkeep hs ht
      · split
        · rename_i hstop
          split
          · rw [stopSession_mem ‹_›]
            exact .stopped ⟨hstop, hid⟩ ‹_›
          · rename_i hno
            refine hkeep hs fun k h => ?_
            rwa [← Option.some.inj (hid.symm.trans h.names)]
        · rename_i hstop
          exact hkeep hs fun k h => absurd h.type_eq hstop

/-- A session in the table was there before or has just been started, and has not just been stopped. -/
theorem Handled.mem_sessions {m : Value} {app : BridgeApp} {r : BridgeApp × List Emission}
    (h : Handled m app r) {k : String} (hk : k ∈ r.1.sessions) :
    (k ∈ app.sessions ∨ Says "session.start" m k) ∧ ¬ Says "session.stop" m k := by
  cases h with
  | replaced hm =>
    exact ⟨Or.inl (mem_without.mp hk).1, fun hs => absurd (hm.type_unique hs) (by simp)⟩
  | began hm _ hr =>
    refine ⟨?_, fun hs => absurd (hm.type_unique hs) (by simp)⟩
    cases hr with
    | rejected => exact Or.inl hk
    | starting =>
      rcases List.mem_append.mp hk with hk | hk
      · exact Or.inl hk
      · rw [List.mem_singleton.mp hk]
        exact Or.inr hm
  | stopped hm =>
    obtain ⟨hin, hne⟩ := mem_without.mp hk
    exact ⟨Or.inl hin, fun hs => hne (hs.id_unique hm)⟩
  | passed _ ht => exact ⟨Or.inl hk, fun hs => ht k hs hk⟩

/-- What `resume` does to the application. -/
inductive Resumed (app : BridgeApp) : BridgeApp × List Emission → Prop
  | began {id : String} {r : BridgeApp × List Emission} (hh : app.handler = .replacing id)
      (hr : Began id app r) : Resumed app r
  | ready {id : String} (hh : app.handler = .starting id) : Resumed app (app.finish, [.ready id])
  | failed {id message : String} (hh : app.handler = .starting id) :
      Resumed app ({ app with handler := .failing id }, [.startFailed id message])
  | unwound {id : String} (hh : app.handler = .failing id) :
      Resumed app ({ app with sessions := app.without id, handler := .unwinding id }, [])
  | closed {id : String} (hh : app.handler = .stopping id) : Resumed app (app.finish, [.closed id])
  | returned (hh : ∀ id, app.handler = .failing id → id ∉ app.sessions)
      (ht : ∀ id, app.handler ≠ .stopping id) : Resumed app (app.finish, [])

/-- **What `resume` can do.** -/
theorem resume_cases (o : Outcome) (app : BridgeApp) : Resumed app (app.resume o) := by
  unfold resume
  split
  · rename_i hh
    have hsame : app.finish = app := by
      unfold finish
      rw [← hh]
    have hret : Resumed app (app.finish, []) :=
      .returned (fun _ h => absurd (hh.symm.trans h) (by simp))
        fun _ h => absurd (hh.symm.trans h) (by simp)
    rwa [hsame] at hret
  · rename_i id hh
    exact .began hh (begin_cases id app)
  · rename_i id hh
    split
    · exact .returned (fun _ h => absurd (hh.symm.trans h) (by simp))
        fun _ h => absurd (hh.symm.trans h) (by simp)
    · split
      · exact .ready hh
      · exact .failed hh
  · rename_i id hh
    by_cases hid : id ∈ app.sessions
    · rw [stopSession_mem hid]
      exact .unwound hh
    · unfold stopSession
      rw [if_neg hid]
      refine .returned (fun k h => ?_) fun _ h => absurd (hh.symm.trans h) (by simp)
      rwa [← Handler.failing.inj (hh.symm.trans h)]
  · rename_i hh
    exact .returned (fun _ h => absurd (hh.symm.trans h) (by simp))
      fun _ h => absurd (hh.symm.trans h) (by simp)
  · rename_i hh
    exact .returned (fun _ h => absurd (hh.symm.trans h) (by simp))
      fun _ h => absurd (hh.symm.trans h) (by simp)
  · rename_i id hh
    exact .closed hh

/-- Only a start that has replaced its session adds to the table after its first wait. -/
theorem Resumed.mem_sessions {app : BridgeApp} {r : BridgeApp × List Emission} (h : Resumed app r)
    (hn : ∀ id, app.handler ≠ .replacing id) {k : String} (hk : k ∈ r.1.sessions) :
    k ∈ app.sessions := by
  cases h with
  | began hh => exact absurd hh (hn _)
  | unwound => exact (mem_without.mp hk).1
  | _ => exact hk

end BridgeApp

end SenseVoice.Bridge
