import Mathlib.Logic.Relation
import SenseVoice.Bridge.Cleanup
import SenseVoice.Bridge.Handling
import SenseVoice.Bridge.ServiceLoop

/-!
# The service loop, its handlers and its rounds

`ServiceLoop.lean` interleaves `run`, its handlers and the calls of `stop`, `Handling.lean` has one call of
`handle` with every exception, and `Cleanup.lean` one round of `run` with every exception of its `finally`
block. They agree: a call of `handle` and a round of `run` are runs of the service loop in which nothing else
comes in between.

Results:
* **`handle_runs`**: the handler of any payload leaves the table as `handle` does, whatever its calls raise;
* **`round_runs`**: a `finally` block leaves the table as the round does, and `run` where the round leaves it,
  whatever the `stop()` of a session raises.
-/

namespace SenseVoice.Bridge.Loop

open Lib Handling

namespace Service

/-! ## A handler -/

/-- The message that a payload is. -/
def messageOf (payload : Value) (constructs : Bool) : Message Key :=
  match keyOf payload with
  | none => .other
  | some key =>
    let type := payload.strField "type"
    if type = some "session.start" then .start key constructs
    else if type = some "utterance.commit" ∨ type = some "tts.speak" then .serve key
    else if type = some "session.stop" then .stop key
    else .other

/-- A handler goes on from one wait to the next. -/
def Continues (maxSessions : ℤ) (s t : Service Key) : Prop :=
  ∃ raised constructs, step maxSessions s (.resumed raised constructs) = some t

/-- The service with the table of an application, and its handler at a place. -/
def serving (s : Service Key) (app : BridgeState) (stopped : List ℕ) (handler : HandlerAt Key) : Service Key :=
  { s with sessions := app.sessions, entered := app.entered, stopped := stopped, run := .serving handler }

/-- From here the handler comes to its end, and leaves the table of the application. -/
def Finishes (maxSessions : ℤ) (s t : Service Key) (app : BridgeState) : Prop :=
  ∃ stopped, Relation.ReflTransGen (Continues maxSessions) t (s.serving app stopped .idle)

section Handlers

variable {cfg : BridgeConfig} {env : Calls} {s t u : Service Key} {app app' : BridgeState} {stopped : List ℕ}
  {key : Key} {id payload : Value} {r : Ended Raised BridgeState Unit} {maxSessions : ℤ}

theorem finishes_idle (stopped : List ℕ) : Finishes maxSessions s (s.serving app stopped .idle) app :=
  ⟨stopped, .refl⟩

theorem Finishes.head (raised constructs : Bool) (h : step maxSessions t (.resumed raised constructs) = some u)
    (hu : Finishes maxSessions s u app) : Finishes maxSessions s t app := by
  obtain ⟨stopped, hrest⟩ := hu
  exact ⟨stopped, hrest.head ⟨raised, constructs, h⟩⟩

/-- The last wait. -/
theorem finishes_finishing (stopped : List ℕ) : Finishes maxSessions s (s.serving app stopped .finishing) app :=
  .head false false rfl (finishes_idle stopped)

theorem pop_serving (handler : HandlerAt Key) : (s.serving app stopped handler).pop key =
    (app.sessions.lookup key).map fun object => s.serving (app.pop key) (stopped ++ [object]) handler := rfl

theorem popLast_serving {object : ℕ} (h : app.sessions.lookup key = some object) (handler : HandlerAt Key) :
    (s.serving app stopped handler).popLast key =
      s.serving (app.pop key) (stopped ++ [object]) .finishing := by
  rw [popLast, pop_serving, h]
  rfl

theorem popLast_serving_absent (h : app.sessions.lookup key = none) (handler : HandlerAt Key) :
    (s.serving app stopped handler).popLast key = s.serving app stopped .idle := by
  rw [popLast, pop_serving, h]
  rfl

theorem startNew_full {handler : HandlerAt Key} (h : maxSessions ≤ app.sessions.entries.length)
    (constructs : Bool) : (s.serving app stopped handler).startNew maxSessions key constructs =
      s.serving app stopped .finishing := if_pos h

theorem startNew_free {handler : HandlerAt Key} (h : ¬ maxSessions ≤ app.sessions.entries.length)
    (constructs : Bool) : (s.serving app stopped handler).startNew maxSessions key constructs =
      if constructs then s.serving (app.enter key) stopped (.starting key) else s.serving app stopped .idle :=
  if_neg h

/-- A launch that has failed. -/
theorem failing_runs {failing : BridgeState} {exc : Raised} (h : Failing env key id app exc failing) :
    ∀ {v : BridgeState}, Finishes maxSessions s (s.serving (app.enter key) stopped (.failing key)) v →
      Finishes maxSessions s (s.serving (app.enter key) stopped (.starting key)) v := by
  intro v hv
  cases h with
  | unstarted => exact .head true false rfl hv
  | unsent => exact .head false false rfl (.head true false rfl hv)

/-- A start from `session.start()` on. -/
theorem launch_runs (hr : Launched env key id app r) :
    Finishes maxSessions s (s.serving (app.enter key) stopped (.starting key)) r.2 := by
  cases hr with
  | ready => exact .head false false rfl (.head false false rfl (finishes_idle stopped))
  | stuck h =>
    refine failing_runs h (.head true false rfl ?_)
    cases h <;> exact finishes_idle stopped
  | unwound h =>
    have hthere : (app.enter key).sessions.lookup key = some app.entered := AList.lookup_insert _
    have hlast : step maxSessions (s.serving (app.enter key) stopped (.failing key)) (.resumed false false) =
        some (s.serving ((app.enter key).pop key) (stopped ++ [app.entered]) .finishing) :=
      congrArg some (popLast_serving hthere _)
    refine failing_runs h (.head false false hlast ?_)
    cases h <;> exact finishes_finishing _

/-- A start from its capacity check on, if the old session has stopped. -/
theorem startNew_runs (stopped : List ℕ) (handler : HandlerAt Key) (hstop : (app.sessions.lookup key).bind env.stop = none)
    (hr : Started cfg env key payload app r) :
    ∃ constructs, Finishes cfg.maxSessions s
      ((s.serving (app.pop key) stopped handler).startNew cfg.maxSessions key constructs) r.2 := by
  cases hr with
  | unstopped h => exact absurd (hstop.symm.trans h) (by simp)
  | rejected _ hfull =>
    refine ⟨false, ?_⟩
    rw [startNew_full hfull]
    exact finishes_finishing stopped
  | unbuilt _ hfree =>
    refine ⟨false, ?_⟩
    rw [startNew_free hfree]
    exact finishes_idle stopped
  | @launched i _ _ hfree _ hl =>
    refine ⟨true, ?_⟩
    rw [startNew_free hfree]
    have hlaunch : Finishes cfg.maxSessions s
        (s.serving (BridgeState.enter key { app.pop key with asrRrIndex := i }) stopped (.starting key)) r.2 :=
      launch_runs hl
    exact hlaunch

/-- A `session.start`. -/
theorem start_runs (stopped : List ℕ) (hr : Started cfg env key payload app r) :
    ∃ constructs, Finishes cfg.maxSessions s
      ((s.serving app stopped .idle).handle cfg.maxSessions (.start key constructs)) r.2 := by
  cases hthere : app.sessions.lookup key with
  | none =>
    have hhandle : ∀ constructs, (s.serving app stopped .idle).handle cfg.maxSessions (.start key constructs) =
        (s.serving (app.pop key) stopped .idle).startNew cfg.maxSessions key constructs := fun constructs => by
      rw [handle, pop_serving, hthere, pop_of_absent hthere]
      rfl
    obtain ⟨constructs, h⟩ := startNew_runs (s := s) stopped .idle (by rw [hthere]; rfl) hr
    exact ⟨constructs, hhandle constructs ▸ h⟩
  | some object =>
    have hhandle : ∀ constructs, (s.serving app stopped .idle).handle cfg.maxSessions (.start key constructs) =
        s.serving (app.pop key) (stopped ++ [object]) (.replacing key) := fun constructs => by
      rw [handle, pop_serving, hthere]
      rfl
    cases hstop : (app.sessions.lookup key).bind env.stop with
    | some e =>
      refine ⟨false, (hhandle false).symm ▸ .head true false rfl ?_⟩
      cases hr with
      | unstopped => exact finishes_idle _
      | rejected h | unbuilt h | launched h => exact absurd (hstop.symm.trans h) (by simp)
    | none =>
      obtain ⟨constructs, h⟩ := startNew_runs (s := s) (stopped ++ [object]) (.replacing key) hstop hr
      exact ⟨constructs, (hhandle constructs).symm ▸ .head false constructs rfl h⟩

theorem messageOf_of_key (hkey : keyOf payload = some key) (constructs : Bool) :
    messageOf payload constructs =
      if payload.strField "type" = some "session.start" then .start key constructs
      else if payload.strField "type" = some "utterance.commit" ∨ payload.strField "type" = some "tts.speak" then
        .serve key
      else if payload.strField "type" = some "session.stop" then .stop key
      else .other := by
  rw [messageOf, hkey]

/-- A message that changes nothing: its handler returns at once, or after one wait. -/
theorem kept_runs (stopped : List ℕ) (hstart : payload.strField "type" = some "session.start" → keyOf payload = none)
    (hstop : payload.strField "type" = some "session.stop" →
      ∀ key, keyOf payload = some key → app.sessions.lookup key = none) :
    Finishes maxSessions s ((s.serving app stopped .idle).handle maxSessions (messageOf payload false)) app := by
  cases hkey : keyOf payload with
  | none =>
    rw [messageOf, hkey]
    exact finishes_idle stopped
  | some key =>
    rw [messageOf_of_key hkey, if_neg fun h => absurd (hkey.symm.trans (hstart h)) (by simp)]
    split_ifs with hserve hclose
    · -- the session is there, or the handler returns at once
      unfold handle
      dsimp only
      split_ifs
      · exact finishes_finishing stopped
      · exact finishes_idle stopped
    · rw [handle, popLast_serving_absent (hstop hclose key hkey)]
      exact finishes_idle stopped
    · exact finishes_idle stopped

/-- **A handler leaves the table as `handle` does**, for every payload and whatever its calls raise: `run` hands
the message to it, and after its waits with nothing else in between the table is that of `handle`. -/
theorem handle_runs (cfg : BridgeConfig) (env : Calls) (payload : Value) {s : Service Key} {app : BridgeState}
    (hrun : s.run = .serving .idle) (hsessions : s.sessions = app.sessions) (hentered : s.entered = app.entered) :
    ∃ constructs t, step cfg.maxSessions s (.message (messageOf payload constructs)) = some t ∧
      Finishes cfg.maxSessions s t (outcome (Handling.handle cfg env payload) app).2 := by
  have hs : s = s.serving app s.stopped .idle := by
    unfold serving
    rw [← hsessions, ← hentered, ← hrun]
  have hstep : ∀ m, step cfg.maxSessions s (.message m) =
      some ((s.serving app s.stopped .idle).handle cfg.maxSessions m) := fun m => by
    rw [← hs]
    unfold step
    rw [hrun]
  have hcases : Handled cfg env payload app (outcome (Handling.handle cfg env payload) app) := handle_cases
  generalize outcome (Handling.handle cfg env payload) app = r at hcases ⊢
  cases hcases with
  | started hkey htype hr =>
    obtain ⟨constructs, h⟩ := start_runs (s := s) s.stopped hr
    refine ⟨constructs, _, hstep _, ?_⟩
    rwa [messageOf_of_key hkey, if_pos htype]
  | closed hkey htype hthere =>
    refine ⟨false, _, hstep _, ?_⟩
    rw [messageOf_of_key hkey, if_neg (by simp [htype]), if_neg (by simp [htype]), if_pos htype, handle,
      popLast_serving hthere]
    exact finishes_finishing _
  | kept hstart hstop => exact ⟨false, _, hstep _, kept_runs s.stopped hstart hstop⟩

end Handlers

/-! ## A round -/

/-- `run` goes on in its `finally` block, and from its sleep to the next attempt. -/
def Proceeds (maxSessions : ℤ) (s t : Service String) : Prop :=
  (∃ raised, step maxSessions s (.swept raised) = some t) ∨ step maxSessions s .loop = some t

/-- `run` is where the loop of `run` is. -/
def Stands {ε : Type} (s : Service String) : Reconnect ε → Prop
  | .connecting backoff => s.run = .connecting ∧ s.backoff = backoff
  | .returned => s.run = .returned
  | .raised _ => s.run = .raised

section Rounds

variable {ε : Type} {s : Service String}

theorem keys_pop (object : ℕ) {id : String} {ids : List String} (hkeys : s.keys = id :: ids) :
    ({ s with sessions := s.sessions.erase id, stopped := s.stopped ++ [object] } : Service String).keys = ids := by
  have hnodup : (id :: ids).Nodup := hkeys ▸ List.nodup_reverse.mpr s.sessions.keys_nodup
  have hreverse : s.sessions.keys = (id :: ids).reverse := by
    rw [← hkeys, keys, List.reverse_reverse]
  unfold keys
  rw [AList.keys_erase, hreverse, List.Nodup.erase_eq_filter (List.nodup_reverse.mpr hnodup), List.filter_reverse,
    List.reverse_reverse, ← List.Nodup.erase_eq_filter hnodup, List.erase_cons_head]

/-- The sessions are stopped one after the other, until one raises. -/
theorem sweepOn_runs (maxSessions : ℤ) (stopError : String → Option ε) (cancelled : Bool) {ids : List String} (hkeys : s.keys = ids)
    (done : List String) :
    ∃ t, Relation.ReflTransGen (Proceeds maxSessions) (s.sweepOn cancelled ids) t ∧
      t.keys = (Cleanup.stopEach stopError ids ⟨ids, done⟩).1.sessions ∧
      ((∃ e, (Cleanup.stopEach stopError ids ⟨ids, done⟩).2 = some e ∧ t.run = .raised) ∨
        (Cleanup.stopEach stopError ids ⟨ids, done⟩).2 = none ∧
          ∃ u : Service String, u.stopping = s.stopping ∧ u.backoff = s.backoff ∧ t = u.afterFinally cancelled) := by
  induction ids generalizing s done with
  | nil =>
    have hkept : (s.afterFinally cancelled).keys = s.keys := by
      unfold afterFinally
      split_ifs <;> rfl
    exact ⟨_, .refl, hkept.trans hkeys, .inr ⟨rfl, s, rfl, rfl, rfl⟩⟩
  | cons id ids ih =>
    have hnodup : (id :: ids).Nodup := hkeys ▸ List.nodup_reverse.mpr s.sessions.keys_nodup
    have hmem : id ∈ s.keys := hkeys ▸ List.mem_cons_self
    obtain ⟨object, hobject⟩ := Table.mem_iff_lookup.mp (AList.mem_keys.mpr (List.mem_reverse.mp hmem))
    -- the session leaves the table, and `run` waits for it
    let t : Service String :=
      { s with
        sessions := s.sessions.erase id, stopped := s.stopped ++ [object], run := .sweeping cancelled ids }
    have hsweep : s.sweepOn cancelled (id :: ids) = t := by
      rw [sweepOn, sweep, pop, hobject]
      rfl
    have htkeys : t.keys = ids := keys_pop object hkeys
    rw [hsweep, Cleanup.stopEach, stopSession_head stopError hnodup done]
    cases herr : stopError id with
    | some e => exact ⟨{ t with run := .raised }, .single (.inl ⟨true, rfl⟩), htkeys, .inl ⟨e, rfl, rfl⟩⟩
    | none =>
      obtain ⟨u, hrun, hukeys, hend⟩ := ih htkeys (done ++ [id])
      exact ⟨u, hrun.head (.inl ⟨false, rfl⟩), hukeys, hend⟩

/-- **The `finally` block of a round.** With nothing else in between, `run` leaves the table as the round does and
comes to where the round leaves the loop, whatever the `stop()` of a session raises. -/
theorem round_runs (maxSessions : ℤ) (r : Round ε) (before : ℕ) {s : Service String} (hkeys : s.keys = r.sessions)
    (hstopping : s.stopping = r.stopping) (hbackoff : s.backoff = r.backoff before) :
    ∃ t next, Relation.ReflTransGen (Proceeds maxSessions) (s.finalize (r.ending = .cancelled)) t ∧
      t.keys = r.cleanup.1.sessions ∧ Reconnect.step (.connecting before) r = some next ∧ Stands t next := by
  obtain ⟨t, hrun, htkeys, hend⟩ := sweepOn_runs (s := { s with websocket := none }) maxSessions
    r.stopError (decide (r.ending = .cancelled)) hkeys []
  rw [finalize, hkeys]
  obtain ⟨e, herr, hraised⟩ | ⟨herr, u, hustopping, hubackoff, rfl⟩ := hend
  · refine ⟨t, .raised e, hrun, htkeys, ?_, hraised⟩
    have hcleanup : r.cleanup.2 = some e := herr
    unfold Reconnect.step
    rw [hcleanup]
  · have hcleanup : r.cleanup.2 = none := herr
    have hstop : u.stopping = r.stopping := hustopping.trans hstopping
    by_cases hover : r.ending = .cancelled ∨ r.stopping = true
    · -- the end of the loop
      refine ⟨_, .returned, hrun, htkeys, ?_, ?_⟩
      · unfold Reconnect.step
        rw [hcleanup]
        exact if_pos hover
      · rw [afterFinally, hstop, if_pos (by simpa using hover)]
        rfl
    · -- a sleep and the next attempt
      have hsleep : u.afterFinally (decide (r.ending = .cancelled)) =
          { u with run := .sleeping, waits := u.waits ++ [u.backoff] } := by
        rw [afterFinally, hstop, if_neg (by simpa using hover)]
      have hgoing : u.stopping = false := by
        rw [hstop]
        exact Bool.eq_false_iff.mpr fun h => hover (.inr h)
      rw [hsleep] at hrun htkeys
      have hloop : step maxSessions { u with run := .sleeping, waits := u.waits ++ [u.backoff] } .loop =
          some { u with
            run := .connecting, waits := u.waits ++ [u.backoff], backoff := min (u.backoff * 2) 20
            attempts := u.attempts + 1 } := by
        change some (loopHead _) = _
        rw [loopHead, if_neg (by simp [hgoing])]
      refine ⟨_, .connecting (min (r.backoff before * 2) 20), hrun.tail (.inr hloop), htkeys, ?_, rfl, ?_⟩
      · unfold Reconnect.step
        rw [hcleanup]
        exact if_neg hover
      · change min (u.backoff * 2) 20 = _
        rw [hubackoff]
        change min (s.backoff * 2) 20 = _
        rw [hbackoff]

end Rounds

end Service

end SenseVoice.Bridge.Loop
