import SenseVoice.Bridge.Handling

/-!
# The answer to a `session.start`

`handle` answers a `session.start` with `session.ready` or with `asr.error`. Five calls of it may raise:
the `stop()` of a session with the same id, the look-ups of the pool and of the credentials, the
constructor, and `session.start()`. Only the last one is inside the `try` that answers an exception.

Results: **`start_answered_iff`**, exactly when a start is answered as it should be.
-/

namespace SenseVoice.Bridge

open Lib Handling

/-- `handle` of a message: how it ends, and the application with the answers emitted. -/
def received (cfg : BridgeConfig) (env : Calls) (payload : Value) (app : BridgeState) :
    Ended Raised BridgeState Unit :=
  outcome (handle cfg env payload) { app with sent := [] }

/-- One answer about the session `id`, which tells whether it is there. -/
structure Answered (id : Value) (app : BridgeState) : Prop where
  one : ∃ a, app.sent = [a] ∧ (a = .ready id ∨ ∃ message, a = .startFailed id message)
  ready : Answer.ready id ∈ app.sent → ∃ key object, Key.ofValue id = some key ∧
    app.sessions.lookup key = some object ∧ object ∈ app.started
  failed : ∀ message, Answer.startFailed id message ∈ app.sent →
    ∀ key, Key.ofValue id = some key → app.sessions.lookup key = none

/-- Nothing raises before the `try`: the id is a key, the `stop()` of an old session of this id returns,
and then the bridge is full or the session can be constructed. -/
structure Unhindered (cfg : BridgeConfig) (env : Calls) (payload : Value) (app : BridgeState) (key : Key) :
    Prop where
  hashable : keyOf payload = some key
  stops : ∀ object, app.sessions.lookup key = some object → env.stop object = none
  starts : cfg.maxSessions ≤ (app.sessions.erase key).entries.length ∨ Constructs cfg env payload app

variable {cfg : BridgeConfig} {env : Calls} {key : Key} {id payload : Value} {app : BridgeState}
  {r : Ended Raised BridgeState Unit}

/-- A payload that names a type is an object. -/
theorem keyOf_of_strField {k s : String} (h : payload.strField k = some s) :
    keyOf payload = Key.ofValue (sessionIdOf payload) := by
  cases payload with
  | object fields => rfl
  | _ => simp [Value.strField, Value.get] at h

theorem not_answered_of_silent (h : app.sent = []) : ¬ Answered id app := by
  rintro ⟨⟨a, ha, -⟩, -, -⟩
  rw [h] at ha
  exact absurd ha (by simp)

/-- The one answer is that the start has failed, and the session is not in the table. -/
theorem answered_failed (message : String) (hkey : Key.ofValue id = some key)
    (hsent : app.sent = [.startFailed id message]) (hgone : app.sessions.lookup key = none) :
    Answered id app := by
  refine ⟨⟨_, hsent, Or.inr ⟨message, rfl⟩⟩, fun h => ?_, fun _ _ k hk => ?_⟩
  · rw [hsent] at h
    simp at h
  · rw [← Option.some.inj (hkey.symm.trans hk)]
    exact hgone

/-- A launch is answered, when the answers can be sent. -/
theorem Handling.Launched.answered (h : Launched env key id app r) (hsend : ∀ a, env.send a = none)
    (hkey : Key.ofValue id = some key) (hsent : app.sent = []) : Answered id r.2 := by
  have hfailing : ∀ exc failing, Failing env key id app exc failing → failing.sent = [] := by
    intro exc failing hf
    cases hf with
    | unstarted => exact hsent
    | unsent hsome => exact absurd (hsome.symm.trans (hsend _)) (by simp)
  cases h with
  | ready =>
    have hone : (((app.enter key).begun app.entered).answer (.ready id)).sent = [.ready id] := by
      simp [BridgeState.answer, BridgeState.begun, BridgeState.enter, hsent]
    refine ⟨⟨_, hone, Or.inl rfl⟩, fun _ => ?_, fun message hmem => ?_⟩
    · exact ⟨key, app.entered, hkey, AList.lookup_insert _, by simp [BridgeState.answer, BridgeState.begun]⟩
    · rw [hone] at hmem
      simp at hmem
  | stuck _ hsome => exact absurd (hsome.symm.trans (hsend _)) (by simp)
  | unwound hf =>
    rename_i failing exc
    refine answered_failed exc.str hkey ?_ (AList.lookup_erase _ _)
    change _ ++ [_] = _
    rw [hfailing _ _ hf]
    rfl

/-- The start is answered exactly if nothing raises before the `try`. -/
theorem Handling.Started.answered_iff (h : Started cfg env key payload app r) (hsend : ∀ a, env.send a = none)
    (hkey : Key.ofValue (sessionIdOf payload) = some key) (hsent : app.sent = []) :
    Answered (sessionIdOf payload) r.2 ↔
      (∀ object, app.sessions.lookup key = some object → env.stop object = none) ∧
        (cfg.maxSessions ≤ (app.sessions.erase key).entries.length ∨ Constructs cfg env payload app) := by
  have hstops : (app.sessions.lookup key).bind env.stop = none ↔
      ∀ object, app.sessions.lookup key = some object → env.stop object = none :=
    Option.bind_eq_none_iff
  rw [← hstops]
  cases h with
  | unstopped hstop =>
    refine ⟨fun ha => absurd ha (not_answered_of_silent hsent), fun hall => ?_⟩
    exact absurd (hstop.symm.trans hall.1) (by simp)
  | rejected hstop hfull =>
    refine ⟨fun _ => ⟨hstop, Or.inl hfull⟩, fun _ => ?_⟩
    refine answered_failed BridgeApp.capacityMessage hkey ?_ (AList.lookup_erase _ _)
    change app.sent ++ [_] = _
    rw [hsent]
    rfl
  | unbuilt hstop hfree hbuild =>
    refine ⟨fun ha => absurd ha (not_answered_of_silent hsent), fun hall => ?_⟩
    exact absurd (hall.2.resolve_left hfree) hbuild
  | launched hstop hfree hbuild hr =>
    exact ⟨fun _ => ⟨hstop, Or.inr hbuild⟩, fun _ => hr.answered hsend hkey hsent⟩

/-- **Every start gets an answer**, exactly when nothing raises before the `try` of `handle`. -/
theorem start_answered_iff (cfg : BridgeConfig) (env : Calls) (payload : Value) (app : BridgeState)
    (hsend : ∀ a, env.send a = none) (htype : payload.strField "type" = some "session.start") :
    Answered (sessionIdOf payload) (received cfg env payload app).2 ↔
      ∃ key, Unhindered cfg env payload app key := by
  have hkeyOf := keyOf_of_strField htype
  have hcases : Handled cfg env payload { app with sent := [] } (received cfg env payload app) :=
    handle_cases
  revert hcases
  generalize received cfg env payload app = r
  intro hcases
  cases hcases with
  | started hkey _ hr =>
    rename_i k _
    have hiff := hr.answered_iff hsend (hkeyOf ▸ hkey) rfl
    rw [hiff]
    constructor
    · exact fun h => ⟨k, hkey, h.1, h.2⟩
    · rintro ⟨key', hkey', hstops, hstarts⟩
      obtain rfl := Option.some.inj (hkey.symm.trans hkey')
      exact ⟨hstops, hstarts⟩
  | closed _ hstop => exact absurd (htype.symm.trans hstop) (by simp)
  | kept hstart =>
    refine ⟨fun ha => absurd ha (not_answered_of_silent rfl), ?_⟩
    rintro ⟨key', hkey', -, -⟩
    exact absurd ((hstart htype).symm.trans hkey') (by simp)

/-- In mock mode a start is answered. -/
theorem start_answered_mock :
    Answered (.string "s1") (received ⟨.mock, [], 64, none⟩
      ⟨fun _ => none, none, none, none, fun _ => none, fun _ => none⟩
      (.object [("sessionId", .string "s1"), ("type", .string "session.start")]) .new).2 :=
  (start_answered_iff ⟨.mock, [], 64, none⟩
    ⟨fun _ => none, none, none, none, fun _ => none, fun _ => none⟩
    (.object [("sessionId", .string "s1"), ("type", .string "session.start")]) .new
    (fun _ => rfl) (by rfl)).mpr
    ⟨.string "s1", rfl, fun _ _ => rfl, Or.inr (Or.inl rfl)⟩

/-- A start whose session cannot be constructed is not answered: the settings of the segmenter or of the
speech client cannot be read, say. -/
theorem start_unanswered :
    let cfg : BridgeConfig := ⟨.real, ["http://asr/"], 64, none⟩
    let env : Calls := ⟨fun _ => some (.other "could not convert string to float: 'loud'"),
      none, none, none, fun _ => none, fun _ => none⟩
    let payload : Value := .object [("agora", .object [("appId", .string "a"), ("channel", .string "c"),
      ("token", .string "t"), ("uid", .string "2")]), ("sessionId", .string "s1"),
      ("type", .string "session.start")]
    payload.strField "type" = some "session.start" ∧ (received cfg env payload .new).2.sent = [] ∧
      ¬ Answered (.string "s1") (received cfg env payload .new).2 := by
  refine ⟨rfl, rfl, ?_⟩
  exact not_answered_of_silent rfl

end SenseVoice.Bridge
