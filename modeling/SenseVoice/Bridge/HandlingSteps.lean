import SenseVoice.Bridge.StartAnswers

/-!
# A handler from wait to wait is one call of `handle`

`App.lean` follows a handler through its waits, `Handling.lean` runs it through. They agree where both
speak: a message with a text session id, sessions that stop and can be constructed, a socket that sends.

Results: **`handle_settles`**, the same table and the same messages, whether `session.start()` raises or not.
-/

namespace SenseVoice.Bridge

open Lib Handling

/-- A handler resumed after one wait. -/
def BridgeApp.wait (o : BridgeApp.Outcome) (r : BridgeApp × List Emission) : BridgeApp × List Emission :=
  ((r.1.resume o).1, r.2 ++ (r.1.resume o).2)

/-- A handler resumed until it returns: none waits more than four times. -/
def BridgeApp.settle (o : BridgeApp.Outcome) (r : BridgeApp × List Emission) : BridgeApp × List Emission :=
  BridgeApp.wait o (BridgeApp.wait o (BridgeApp.wait o (BridgeApp.wait o r)))

/-- The two tables have the same keys, in the same order. -/
def SameTable (app : BridgeApp) (state : BridgeState) : Prop :=
  state.sessions.keys = (app.sessions.map Key.string).reverse

variable {app : BridgeApp} {state : BridgeState} {id : String}

theorem SameTable.mem_iff (h : SameTable app state) :
    id ∈ app.sessions ↔ ∃ object, state.sessions.lookup (.string id) = some object := by
  rw [← Table.mem_iff_lookup, AList.mem_keys, h, List.mem_reverse, List.mem_map]
  constructor
  · exact fun hid => ⟨id, hid, rfl⟩
  · rintro ⟨k, hk, heq⟩
    exact Key.string.inj heq ▸ hk

theorem SameTable.length (h : SameTable app state) :
    state.sessions.entries.length = app.sessions.length := by
  have hlen := congrArg List.length h
  simpa [AList.keys, List.keys] using hlen

/-- `pop` of a key is the removal of the id. -/
theorem SameTable.pop (h : SameTable app state) (id : String) (handler : Handler) :
    SameTable { app with sessions := app.without id, handler := handler } (state.pop (.string id)) := by
  have hnodup : (state.sessions.keys).Nodup := state.sessions.keys_nodup
  unfold SameTable at h ⊢
  change (state.sessions.erase (.string id)).keys = _
  rw [AList.keys_erase, List.Nodup.erase_eq_filter hnodup, h, List.filter_reverse, List.filter_map]
  congr 2
  refine List.filter_congr fun k _ => ?_
  by_cases hk : k = id <;> simp [hk]

/-- A new entry is the last one. -/
theorem SameTable.enter (h : SameTable app state) (hnew : state.sessions.lookup (.string id) = none)
    (handler : Handler) : SameTable { app with sessions := app.sessions ++ [id], handler := handler }
      (state.enter (.string id)) := by
  unfold SameTable at h ⊢
  have hnot : Key.string id ∉ state.sessions.keys := fun hmem =>
    AList.lookup_eq_none.mp hnew (AList.mem_keys.mp hmem)
  change (state.sessions.insert (.string id) state.entered).keys = _
  rw [AList.keys_insert, List.erase_of_not_mem hnot, h, List.map_append, List.reverse_append]
  rfl

/-- A handler that has returned, with the same table and the same messages as `handle`. -/
structure Agrees (r : BridgeApp × List Emission) (state : BridgeState) : Prop where
  table : SameTable r.1 state
  idle : r.1.handler = .idle
  messages : r.2.map Emission.toValue = state.sent.map Answer.toValue

theorem wait_idle {o : BridgeApp.Outcome} {r : BridgeApp × List Emission} (h : r.1.handler = .idle) :
    BridgeApp.wait o r = r := by
  unfold BridgeApp.wait BridgeApp.resume
  simp [h]

theorem without_absent (h : id ∉ app.sessions) : app.without id = app.sessions := by
  refine List.filter_eq_self.mpr fun k hk => decide_eq_true ?_
  rintro rfl
  exact h hk

section Agreement

variable {cfg : BridgeConfig} {env : Calls} {m : Value}

/-- The outcome that the waits of a handler have: only `session.start()` may raise. -/
def startOutcome (env : Calls) : BridgeApp.Outcome := ⟨env.start.map Raised.str, false⟩

theorem begin_full (h : app.maxSessions ≤ app.sessions.length) :
    app.begin id = (app.finish, [.startFailed id BridgeApp.capacityMessage]) := if_pos h

theorem begin_free (h : ¬ app.maxSessions ≤ app.sessions.length) :
    app.begin id = ({ app with sessions := app.sessions ++ [id], handler := .starting id }, []) := if_neg h

/-- A start from `session.start()` on. -/
theorem launch_agrees (state : BridgeState) {r : Ended Raised BridgeState Unit} (htable : SameTable app state)
    (habsent : state.sessions.lookup (.string id) = none) (hid : sessionIdOf m = .string id)
    (hsent : state.sent = []) (hsend : ∀ a, env.send a = none)
    (hr : Launched env (.string id) (sessionIdOf m) state r) :
    Agrees (BridgeApp.wait (startOutcome env) (BridgeApp.wait (startOutcome env)
      (BridgeApp.wait (startOutcome env)
        ({ app with sessions := app.sessions ++ [id], handler := .starting id }, [])))) r.2 := by
  have henter := htable.enter habsent
  cases hr with
  | ready hstart =>
    have hfirst : BridgeApp.wait (startOutcome env)
        ({ app with sessions := app.sessions ++ [id], handler := .starting id }, []) =
        ({ app with sessions := app.sessions ++ [id], handler := .idle }, [.ready id]) := by
      simp [BridgeApp.wait, BridgeApp.resume, startOutcome, hstart, BridgeApp.finish]
    rw [hfirst, wait_idle rfl, wait_idle rfl]
    refine ⟨henter .idle, rfl, ?_⟩
    simp [BridgeState.answer, BridgeState.begun, BridgeState.enter, hsent, hid, Emission.toValue,
      Answer.toValue]
  | stuck _ hsome => exact absurd (hsome.symm.trans (hsend _)) (by simp)
  | @unwound failing exc hf =>
    cases hf with
    | unsent hsome => exact absurd (hsome.symm.trans (hsend _)) (by simp)
    | unstarted hstart =>
      have hmem : id ∈ app.sessions ++ [id] := List.mem_append_right _ List.mem_cons_self
      have hwaits : BridgeApp.wait (startOutcome env) (BridgeApp.wait (startOutcome env)
          (BridgeApp.wait (startOutcome env)
            ({ app with sessions := app.sessions ++ [id], handler := .starting id }, []))) =
          ({ app with
              sessions := BridgeApp.without id
                { app with sessions := app.sessions ++ [id], handler := .idle }
              handler := .idle }, [.startFailed id exc.str]) := by
        simp [BridgeApp.wait, BridgeApp.resume, startOutcome, hstart, BridgeApp.finish,
          BridgeApp.stopSession, hmem, BridgeApp.without]
      rw [hwaits]
      refine ⟨(henter .idle).pop id .idle, rfl, ?_⟩
      simp [BridgeState.answer, BridgeState.enter, BridgeState.pop, hsent, hid, Emission.toValue,
        Answer.toValue]

/-- A start from its capacity check on. -/
theorem begin_agrees (state : BridgeState) {r : Ended Raised BridgeState Unit}
    (htable : SameTable app (state.pop (.string id)))
    (hmax : app.maxSessions = cfg.maxSessions) (hid : sessionIdOf m = .string id)
    (hsent : state.sent = []) (hstop : ∀ object, env.stop object = none) (hsend : ∀ a, env.send a = none)
    (hbuild : ∀ state, Constructs cfg env m state) (hr : Started cfg env (.string id) m state r) :
    Agrees (BridgeApp.wait (startOutcome env) (BridgeApp.wait (startOutcome env)
      (BridgeApp.wait (startOutcome env) (app.begin id)))) r.2 := by
  cases hr with
  | unstopped hsome =>
    cases hlookup : state.sessions.lookup (.string id) with
    | none => exact absurd (hlookup ▸ hsome) (by simp)
    | some object => exact absurd (hlookup ▸ hsome) (by simp [hstop])
  | unbuilt _ _ hno => exact absurd (hbuild _) hno
  | rejected _ hfull =>
    rw [begin_full (by rw [hmax, ← htable.length]; exact hfull), wait_idle rfl, wait_idle rfl, wait_idle rfl]
    refine ⟨htable, rfl, ?_⟩
    simp [BridgeState.answer, BridgeState.pop, hsent, hid, Emission.toValue, Answer.toValue]
  | @launched i _ _ hfree _ hl =>
    rw [begin_free (by rw [hmax, ← htable.length]; exact hfree)]
    exact launch_agrees { state.pop (.string id) with asrRrIndex := i } htable
      (AList.lookup_erase _ _) hid hsent hsend hl

/-- **A handler from wait to wait is one call of `handle`.** -/
theorem handle_settles (htable : SameTable app state) (hidle : app.handler = .idle)
    (hmax : app.maxSessions = cfg.maxSessions) (hid : m.strField "sessionId" = some id)
    (hstop : ∀ object, env.stop object = none) (hsend : ∀ a, env.send a = none)
    (hbuild : ∀ state, Constructs cfg env m state) :
    Agrees (BridgeApp.settle (startOutcome env) (app.handle m)) (received cfg env m state).2 := by
  have hsid : sessionIdOf m = .string id := by
    obtain ⟨v, hv, hs⟩ := Option.bind_eq_some_iff.mp hid
    cases v with
    | string s => rw [sessionIdOf, hv]; exact congrArg Value.string (Option.some.inj hs)
    | _ => exact absurd hs (by simp [Value.asStr])
  have hkeyOf : keyOf m = some (.string id) := by
    rw [keyOf_of_strField hid, hsid]
    rfl
  have hcases : Handled cfg env m { state with sent := [] } (received cfg env m state) := handle_cases
  generalize received cfg env m state = r at hcases ⊢
  unfold BridgeApp.settle BridgeApp.handle
  simp only [hid]
  cases hcases with
  | @started key r hkey htype hr =>
    obtain rfl := Option.some.inj (hkey.symm.trans hkeyOf)
    rw [if_pos htype]
    by_cases hmem : id ∈ app.sessions
    · have hfirst : BridgeApp.wait (startOutcome env) (app.stopSession id (.replacing id), []) =
          BridgeApp.begin id { app with sessions := app.without id, handler := .replacing id } := by
        rw [BridgeApp.stopSession_mem hmem]
        simp [BridgeApp.wait, BridgeApp.resume]
      rw [if_pos hmem, hfirst]
      exact begin_agrees { state with sent := [] } (htable.pop id _) hmax hsid rfl hstop hsend
        hbuild hr
    · rw [if_neg hmem]
      have hpop := htable.pop id app.handler
      rw [without_absent hmem] at hpop
      have hagree := begin_agrees { state with sent := [] } hpop hmax hsid rfl hstop hsend
        hbuild hr
      rw [wait_idle hagree.idle]
      exact hagree
  | @closed key object r hkey htype hthere =>
    obtain rfl := Option.some.inj (hkey.symm.trans hkeyOf)
    have hmem : id ∈ app.sessions := htable.mem_iff.mpr ⟨object, hthere⟩
    have hfirst : BridgeApp.wait (startOutcome env) (app.stopSession id (.stopping id), []) =
        ({ app with sessions := app.without id, handler := .idle }, [.closed id]) := by
      rw [BridgeApp.stopSession_mem hmem]
      simp [BridgeApp.wait, BridgeApp.resume, BridgeApp.finish]
    rw [if_neg (by simp [htype]), if_neg (by simp [htype]), if_pos htype, if_pos hmem, hfirst,
      wait_idle rfl, wait_idle rfl, wait_idle rfl]
    refine ⟨htable.pop id .idle, rfl, ?_⟩
    simp [BridgeState.answer, BridgeState.pop, hsid, Emission.toValue, Answer.toValue]
  | kept hstart hstopped =>
    have hstay : Agrees (app, []) { state with sent := [] } := ⟨htable, hidle, rfl⟩
    have hstill : Agrees (BridgeApp.wait (startOutcome env) (BridgeApp.wait (startOutcome env)
        (BridgeApp.wait (startOutcome env) (BridgeApp.wait (startOutcome env) (app, [])))))
        { state with sent := [] } := by
      rw [wait_idle (r := (app, [])) hidle, wait_idle (r := (app, [])) hidle,
        wait_idle (r := (app, [])) hidle, wait_idle (r := (app, [])) hidle]
      exact hstay
    rw [if_neg fun htype => absurd (hkeyOf.symm.trans (hstart htype)) (by simp)]
    split_ifs with hserve hmem hstop' hmem
    · have hfirst : BridgeApp.wait (startOutcome env) ({ app with handler := .serving }, []) =
          (app, []) := by
        simp [BridgeApp.wait, BridgeApp.resume, BridgeApp.finish, ← hidle]
      rw [hfirst, wait_idle (r := (app, [])) hidle, wait_idle (r := (app, [])) hidle,
        wait_idle (r := (app, [])) hidle]
      exact hstay
    · exact hstill
    · obtain ⟨object, hobject⟩ := htable.mem_iff.mp hmem
      exact absurd (hobject.symm.trans (hstopped hstop' _ hkeyOf)) (by simp)
    · exact hstill
    · exact hstill

end Agreement

end SenseVoice.Bridge
