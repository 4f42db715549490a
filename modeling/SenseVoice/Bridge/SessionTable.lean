import SenseVoice.Bridge.StartAnswers
import SenseVoice.Lib.Run

/-!
# The session table of the bridge

`self.sessions` along a run: a message to `handle`, whatever raises in it, or the end of a connection,
where `stop_all_sessions` may be left by an exception. `run` logs the exceptions and goes on.

Results:
* `received_cases`: what one message does to the table and to the notices;
* `Tracked.step`: an object is in the table under one key, or its end may have been told, never both;
* **`session_table`**: capacity, isolation and notices in every run.
-/

namespace SenseVoice.Bridge

open Lib Handling

/-- A value that is this key. -/
def Key.toValue : Key → Value
  | .null => .null
  | .number q => .number (.float q)
  | .string s => .string s

/-- `stop_all_sessions`, oldest entry first. -/
def Handling.stopAll (env : Calls) : Handling Unit := do
  (← get).sessions.keys.reverse.forM fun key => stopSession env key key.toValue false

/-- What happens to the application. -/
inductive TableEvent where
  | message (payload : Value) (env : Calls)
  | lost (env : Calls)

/-- The application after an event; `sent` holds the answers to it. -/
def tableStep (cfg : BridgeConfig) (app : BridgeState) (event : TableEvent) : BridgeState :=
  match event with
  | .message payload env => (received cfg env payload app).2
  | .lost env => (outcome (stopAll env) { app with sent := [] }).2

/-- The steps of a run from the beginning of the process. -/
def tableRun (cfg : BridgeConfig) (es : List TableEvent) : List (Run.Taken BridgeState TableEvent) :=
  Run.trace (fun app event => some (tableStep cfg app event)) .new es

/-- The `session.closed` that an answer is: its session id, and the object it is about. -/
def Answer.notice : Answer → Option (Value × ℕ)
  | .closed id object => some (id, object)
  | _ => none

/-- The `session.closed` messages among the answers. -/
def notices (sent : List Answer) : List (Value × ℕ) := sent.filterMap Answer.notice

/-- The objects whose end the steps have told. -/
def told (xs : List (Run.Taken BridgeState TableEvent)) : List ℕ :=
  xs.flatMap fun x => (notices x.after.sent).map (·.2)

/-- What a message to `handle` does to the table, and the notices it is answered with. -/
structure MessageSafe (payload : Value) (before after : BridgeState) : Prop where
  others : ∀ k, keyOf payload ≠ some k → after.sessions.lookup k = before.sessions.lookup k
  stopped : payload.strField "type" = some "session.stop" →
    ∀ k, keyOf payload = some k → after.sessions.lookup k = none
  present : ∀ n ∈ notices after.sent, n.1 = sessionIdOf payload ∧
    ∃ k, keyOf payload = some k ∧ before.sessions.lookup k = some n.2

/-! ## One message -/

section Messages

variable {cfg : BridgeConfig} {env : Calls} {payload : Value} {key : Key} {id : Value}
  {app app' : BridgeState} {r : Ended Raised BridgeState Unit}

/-- What may become of the table: it stays; the entry of the key leaves it, which may be told; or a new
object takes a free place under the key, and may leave it again. -/
inductive Changed (cfg : BridgeConfig) (key : Option Key) (id : Value) (app app' : BridgeState) : Prop
  | kept (hs : app'.sessions = app.sessions) (he : app'.entered = app.entered)
      (hsent : notices app'.sent = [])
  | popped {k : Key} (hkey : key = some k) (hs : app'.sessions = app.sessions.erase k)
      (he : app'.entered = app.entered)
      (hsent : ∀ n ∈ notices app'.sent, n.1 = id ∧ app.sessions.lookup k = some n.2)
      (hone : (notices app'.sent).length ≤ 1)
  | entered {k : Key} (hkey : key = some k)
      (hfree : ((app.sessions.erase k).entries.length : ℤ) < cfg.maxSessions)
      (hs : app'.sessions = (app.sessions.erase k).insert k app.entered ∨
        app'.sessions = ((app.sessions.erase k).insert k app.entered).erase k)
      (he : app'.entered = app.entered + 1) (hsent : notices app'.sent = [])

theorem notices_append (sent sent' : List Answer) :
    notices (sent ++ sent') = notices sent ++ notices sent' := List.filterMap_append

/-- A launch puts the new object into the table, and tells no end. -/
theorem Handling.Launched.entered (h : Launched env key id app r) (hsent : notices app.sent = []) :
    (r.2.sessions = app.sessions.insert key app.entered ∨
        r.2.sessions = (app.sessions.insert key app.entered).erase key) ∧
      r.2.entered = app.entered + 1 ∧ notices r.2.sent = [] := by
  have hfailing : ∀ exc failing, Failing env key id app exc failing →
      failing.sessions = app.sessions.insert key app.entered ∧ failing.entered = app.entered + 1 ∧
        notices failing.sent = [] := by
    intro exc failing hf
    cases hf with
    | unstarted => exact ⟨rfl, rfl, hsent⟩
    | unsent =>
      refine ⟨rfl, rfl, ?_⟩
      change notices (app.sent ++ _) = []
      rw [notices_append, hsent]
      rfl
  cases h with
  | ready =>
    refine ⟨Or.inl rfl, rfl, ?_⟩
    change notices (app.sent ++ _) = []
    rw [notices_append, hsent]
    rfl
  | stuck hf =>
    obtain ⟨hs, he, hn⟩ := hfailing _ _ hf
    refine ⟨Or.inl hs, he, ?_⟩
    change notices (_ ++ _) = []
    rw [notices_append, hn]
    rfl
  | unwound hf =>
    obtain ⟨hs, he, hn⟩ := hfailing _ _ hf
    refine ⟨Or.inr (by rw [← hs]; rfl), he, ?_⟩
    change notices (_ ++ _) = []
    rw [notices_append, hn]
    rfl

/-- **What one message does.** -/
theorem received_cases (cfg : BridgeConfig) (env : Calls) (payload : Value) (app : BridgeState) :
    Changed cfg (keyOf payload) (sessionIdOf payload) app (received cfg env payload app).2 := by
  have hcases : Handled cfg env payload { app with sent := [] } (received cfg env payload app) :=
    handle_cases
  generalize received cfg env payload app = r at hcases ⊢
  cases hcases with
  | started hkey _ hr =>
    cases hr with
    | unstopped =>
      refine .popped hkey rfl rfl (fun n hn => absurd hn ?_) ?_
      · exact List.not_mem_nil
      · exact Nat.zero_le 1
    | rejected =>
      refine .popped hkey rfl rfl (fun n hn => absurd hn ?_) ?_
      · exact List.not_mem_nil
      · exact Nat.zero_le 1
    | unbuilt =>
      refine .popped hkey rfl rfl (fun n hn => absurd hn ?_) ?_
      · exact List.not_mem_nil
      · exact Nat.zero_le 1
    | launched _ hfree _ hl =>
      obtain ⟨hs, he, hn⟩ := hl.entered rfl
      exact .entered hkey (Int.not_le.mp hfree) hs he hn
  | closed hkey _ hthere =>
    refine .popped hkey rfl rfl (fun n hn => ?_) le_rfl
    obtain rfl := List.mem_singleton.mp hn
    exact ⟨rfl, hthere⟩
  | kept => exact .kept rfl rfl rfl

/-- A `session.stop` leaves its id absent. -/
theorem received_stop (htype : payload.strField "type" = some "session.stop")
    (hkey : keyOf payload = some key) :
    (received cfg env payload app).2.sessions.lookup key = none := by
  have hcases : Handled cfg env payload { app with sent := [] } (received cfg env payload app) :=
    handle_cases
  generalize received cfg env payload app = r at hcases ⊢
  cases hcases with
  | started _ hstart => exact absurd (htype.symm.trans hstart) (by simp)
  | closed hk =>
    obtain rfl := Option.some.inj (hk.symm.trans hkey)
    exact AList.lookup_erase _ _
  | kept _ hstop => exact hstop htype key hkey

/-- Only the entry of the message's key changes. -/
theorem Changed.others {k' : Option Key} (h : Changed cfg k' id app app') {k : Key} (hk : k' ≠ some k) :
    app'.sessions.lookup k = app.sessions.lookup k := by
  cases h with
  | kept hs => rw [hs]
  | popped hkey hs =>
    have hne : ¬ k = _ := fun heq => hk (heq ▸ hkey)
    rw [hs, Table.lookup_erase_eq, if_neg hne]
  | entered hkey _ hs =>
    have hne : ¬ k = _ := fun heq => hk (heq ▸ hkey)
    rcases hs with hs | hs
    · rw [hs, Table.lookup_insert_eq, if_neg hne, Table.lookup_erase_eq, if_neg hne]
    · rw [hs, Table.lookup_erase_eq, if_neg hne, Table.lookup_insert_eq, if_neg hne,
        Table.lookup_erase_eq, if_neg hne]

/-- The capacity is kept. -/
theorem Changed.room {k' : Option Key} (h : Changed cfg k' id app app')
    (hroom : (app.sessions.entries.length : ℤ) ≤ cfg.maxSessions) :
    (app'.sessions.entries.length : ℤ) ≤ cfg.maxSessions := by
  cases h with
  | kept hs => rwa [hs]
  | @popped k hkey hs =>
    have hle := Table.length_erase_le app.sessions k
    rw [hs]
    omega
  | @entered k hkey hfree hs =>
    have hle := Table.length_insert_le (app.sessions.erase k) k app.entered
    have hle' := Table.length_erase_le ((app.sessions.erase k).insert k app.entered) k
    rcases hs with hs | hs <;> rw [hs] <;> omega

/-- An object in the table was there before under the same key, or has just entered. -/
theorem Changed.lookup {k' : Option Key} (h : Changed cfg k' id app app') {k : Key} {object : ℕ}
    (hl : app'.sessions.lookup k = some object) :
    app.sessions.lookup k = some object ∨
      object = app.entered ∧ app'.entered = app.entered + 1 ∧ k' = some k := by
  by_cases hk : k' = some k
  · cases h with
    | kept hs => exact Or.inl (hs ▸ hl)
    | popped hkey hs =>
      obtain rfl := Option.some.inj (hk.symm.trans hkey)
      rw [hs, AList.lookup_erase] at hl
      exact absurd hl (by simp)
    | entered hkey _ hs he =>
      obtain rfl := Option.some.inj (hk.symm.trans hkey)
      rcases hs with hs | hs
      · rw [hs, AList.lookup_insert] at hl
        exact Or.inr ⟨(Option.some.inj hl).symm, he, hk⟩
      · rw [hs, AList.lookup_erase] at hl
        exact absurd hl (by simp)
  · rw [h.others hk] at hl
    exact Or.inl hl

end Messages

/-! ## The end of a connection -/

section Cleanup

variable {env : Calls} {app : BridgeState}

/-- The loop of `stop_all_sessions` only takes entries from the table. -/
structure Shrunk (app app' : BridgeState) : Prop where
  lookup : ∀ k object, app'.sessions.lookup k = some object → app.sessions.lookup k = some object
  length : app'.sessions.entries.length ≤ app.sessions.entries.length
  entered : app'.entered = app.entered
  sent : app'.sent = app.sent

theorem Shrunk.refl (app : BridgeState) : Shrunk app app := ⟨fun _ _ h => h, le_rfl, rfl, rfl⟩

theorem Shrunk.trans {a b c : BridgeState} (h : Shrunk a b) (h' : Shrunk b c) : Shrunk a c where
  lookup k object hl := h.lookup k object (h'.lookup k object hl)
  length := h'.length.trans h.length
  entered := h'.entered.trans h.entered
  sent := h'.sent.trans h.sent

theorem shrunk_stopSession (env : Calls) (app : BridgeState) (key : Key) (id : Value) :
    Shrunk app (outcome (stopSession env key id false) app).2 := by
  cases h : app.sessions.lookup key with
  | none =>
    rw [outcome_stopSession_none h]
    exact .refl app
  | some object =>
    rw [outcome_stopSession_quiet env id h]
    refine ⟨fun k o hl => ?_, Table.length_erase_le _ _, rfl, rfl⟩
    have hl : (app.sessions.erase key).lookup k = some o := hl
    rw [Table.lookup_erase_eq] at hl
    split at hl
    · exact absurd hl (by simp)
    · exact hl

theorem shrunk_stopEach (keys : List Key) :
    Shrunk app (outcome (keys.forM fun key => stopSession env key key.toValue false) app).2 := by
  induction keys generalizing app with
  | nil => exact .refl app
  | cons key keys ih =>
    change Shrunk app (outcome (stopSession env key key.toValue false >>= fun _ =>
      keys.forM fun key => stopSession env key key.toValue false) app).2
    rw [outcome_bind]
    have hfirst := shrunk_stopSession env app key key.toValue
    generalize outcome (stopSession env key key.toValue false) app = r at hfirst ⊢
    obtain ⟨r, app₁⟩ := r
    cases r with
    | error e => exact hfirst
    | ok _ => exact hfirst.trans ih

theorem shrunk_stopAll : Shrunk app (outcome (stopAll env) app).2 := by
  unfold stopAll
  rw [outcome_bind, outcome_get, next_ok]
  exact shrunk_stopEach _

end Cleanup

/-! ## Runs -/

section Runs

variable {cfg : BridgeConfig} {app : BridgeState}

/-- The objects of the table and the objects `gone` whose end was told: each has entered, none twice. -/
structure Tracked (cfg : BridgeConfig) (gone : List ℕ) (app : BridgeState) : Prop where
  room : (app.sessions.entries.length : ℤ) ≤ cfg.maxSessions
  entered : ∀ k object, app.sessions.lookup k = some object → object < app.entered
  apart : ∀ k k' object, app.sessions.lookup k = some object → app.sessions.lookup k' = some object → k = k'
  absent : ∀ object ∈ gone, object < app.entered ∧ ∀ k, app.sessions.lookup k ≠ some object
  nodup : gone.Nodup

/-- The end of a connection tells nothing. -/
theorem Tracked.lost {gone : List ℕ} (h : Tracked cfg gone app) {app' : BridgeState}
    (hs : Shrunk { app with sent := [] } app') :
    Tracked cfg (gone ++ (notices app'.sent).map (·.2)) app' := by
  have hnone : (notices app'.sent).map (·.2) = [] := by
    rw [hs.sent]
    rfl
  have hlength : app'.sessions.entries.length ≤ app.sessions.entries.length := hs.length
  have hentered : app'.entered = app.entered := hs.entered
  rw [hnone, List.append_nil]
  refine ⟨by have := h.room; omega, fun k o hl => ?_, fun k k' o hl hl' => ?_, fun o ho => ?_, h.nodup⟩
  · rw [hentered]
    exact h.entered k o (hs.lookup k o hl)
  · exact h.apart k k' o (hs.lookup k o hl) (hs.lookup k' o hl')
  · obtain ⟨hlt, hno⟩ := h.absent o ho
    exact ⟨hentered ▸ hlt, fun k hl => hno k (hs.lookup k o hl)⟩

/-- A message tells at most the end of the object it has taken from the table. -/
theorem Tracked.message {gone : List ℕ} (h : Tracked cfg gone app) {key : Option Key} {id : Value}
    {app' : BridgeState} (hc : Changed cfg key id app app') :
    Tracked cfg (gone ++ (notices app'.sent).map (·.2)) app' := by
  have hle : app.entered ≤ app'.entered := by
    cases hc with
    | kept _ he => omega
    | popped _ _ he => omega
    | entered _ _ _ he => omega
  have hnew : ∀ k o, app'.sessions.lookup k = some o → o < app'.entered := by
    intro k o hl
    rcases hc.lookup hl with hl | ⟨rfl, he, -⟩
    · exact lt_of_lt_of_le (h.entered k o hl) hle
    · omega
  -- an object that is gone is not the new one
  have hgone : ∀ o ∈ gone, o < app'.entered ∧ ∀ k, app'.sessions.lookup k ≠ some o := by
    intro o ho
    obtain ⟨hlt, hno⟩ := h.absent o ho
    refine ⟨lt_of_lt_of_le hlt hle, fun k hl => ?_⟩
    rcases hc.lookup hl with hl | ⟨rfl, -, -⟩
    · exact hno k hl
    · exact absurd hlt (lt_irrefl _)
  have hapart : ∀ k k' o, app'.sessions.lookup k = some o → app'.sessions.lookup k' = some o → k = k' := by
    intro k k' o hl hl'
    rcases hc.lookup hl with hl | ⟨rfl, -, hk⟩
    · rcases hc.lookup hl' with hl' | ⟨rfl, -, -⟩
      · exact h.apart k k' o hl hl'
      · exact absurd (h.entered k _ hl) (lt_irrefl _)
    · rcases hc.lookup hl' with hl' | ⟨-, -, hk'⟩
      · exact absurd (h.entered k' _ hl') (lt_irrefl _)
      · exact Option.some.inj (hk.symm.trans hk')
  have hkeep : notices app'.sent = [] → Tracked cfg (gone ++ (notices app'.sent).map (·.2)) app' := by
    intro hnone
    rw [hnone, List.map_nil, List.append_nil]
    exact ⟨hc.room h.room, hnew, hapart, hgone, h.nodup⟩
  cases hc with
  | kept _ _ hsent => exact hkeep hsent
  | entered _ _ _ _ hsent => exact hkeep hsent
  | @popped k hkey hs he hsent hone =>
    cases hn : notices app'.sent with
    | nil => exact hn ▸ hkeep hn
    | cons n rest =>
      obtain rfl : rest = [] := by
        rw [hn, List.length_cons] at hone
        exact List.length_eq_zero_iff.mp (by omega)
      obtain ⟨-, hthere⟩ := hsent n (by rw [hn]; exact List.mem_cons_self)
      have hlast : n.2 < app'.entered ∧ ∀ k', app'.sessions.lookup k' ≠ some n.2 := by
        refine ⟨lt_of_lt_of_le (h.entered k n.2 hthere) hle, fun k' hl => ?_⟩
        rw [hs, Table.lookup_erase_eq] at hl
        split at hl
        · exact absurd hl (by simp)
        · exact absurd (h.apart k' k n.2 hl hthere) ‹_›
      refine ⟨by rw [hs]; have := Table.length_erase_le app.sessions k; have := h.room; omega, hnew, hapart,
        fun o ho => ?_, ?_⟩
      · rcases List.mem_append.mp ho with ho | ho
        · exact hgone o ho
        · rw [List.mem_singleton.mp ho]
          exact hlast
      · refine List.nodup_append.mpr ⟨h.nodup, List.nodup_singleton _, fun o ho o' ho' => ?_⟩
        rw [List.mem_singleton.mp ho']
        rintro rfl
        exact (h.absent n.2 ho).2 k hthere

/-- One step. -/
theorem Tracked.step {gone : List ℕ} (h : Tracked cfg gone app) (event : TableEvent) :
    Tracked cfg (gone ++ (notices (tableStep cfg app event).sent).map (·.2)) (tableStep cfg app event) := by
  cases event with
  | message payload env => exact h.message (received_cases cfg env payload app)
  | lost env => exact h.lost shrunk_stopAll

/-- A message leaves the other entries alone, and tells of its own. -/
theorem messageSafe (cfg : BridgeConfig) (env : Calls) (payload : Value) (app : BridgeState) :
    MessageSafe payload app (received cfg env payload app).2 := by
  have hc := received_cases cfg env payload app
  refine ⟨fun k hk => hc.others hk, fun htype k hk => received_stop htype hk, fun n hn => ?_⟩
  cases hc with
  | kept _ _ hsent => exact absurd hn (by simp [hsent])
  | entered _ _ _ _ hsent => exact absurd hn (by simp [hsent])
  | popped hkey _ _ hsent =>
    obtain ⟨hid, hthere⟩ := hsent n hn
    exact ⟨hid, _, hkey, hthere⟩

/-- **The session table.** In every run the table stays within the capacity; a message changes the entry of
its own id only, and a `session.stop` leaves it absent; `session.closed` answers a message whose id was
there, and is emitted once at most for every object that entered the table. -/
theorem session_table (cfg : BridgeConfig) (hmax : 0 ≤ cfg.maxSessions) (es : List TableEvent) :
    (∀ x ∈ tableRun cfg es, (x.after.sessions.entries.length : ℤ) ≤ cfg.maxSessions) ∧
      (∀ x ∈ tableRun cfg es, ∀ payload env, x.event = .message payload env →
        MessageSafe payload x.before x.after) ∧
      (told (tableRun cfg es)).Nodup := by
  have hinv : ∀ {past : List (Run.Taken BridgeState TableEvent)} {s e t}, Tracked cfg (told past) s →
      some (tableStep cfg s e) = some t → Tracked cfg (told (past ++ [⟨s, e, t⟩])) t := by
    intro past s e t h ht
    obtain rfl := Option.some.inj ht
    unfold told at h ⊢
    rw [List.flatMap_append]
    simpa using h.step e
  have hnew : Tracked cfg (told []) .new := by
    refine ⟨hmax, fun k o hl => ?_, fun k k' o hl => ?_, fun o ho => absurd ho List.not_mem_nil,
      List.nodup_nil⟩
    · exact absurd hl (by simp [BridgeState.new])
    · exact absurd hl (by simp [BridgeState.new])
  refine ⟨fun x hx => ?_, fun x hx payload env hevent => ?_, ?_⟩
  · obtain ⟨pre, post, hsplit⟩ := List.append_of_mem hx
    have hbefore := Run.forall_history (I := fun past s => Tracked cfg (told past) s) hnew
      (fun past s e t h ht => hinv h ht) hsplit
    have hstep := (Run.mem_trace hx).2
    exact (hinv hbefore hstep).room
  · have hstep := (Run.mem_trace hx).2
    rw [hevent] at hstep
    rw [← Option.some.inj hstep]
    exact messageSafe cfg env payload x.before
  · exact (Run.history_final (I := fun past s => Tracked cfg (told past) s) hnew
      (fun past s e t h ht => hinv h ht) es).nodup

/-- A session that is started, stopped, and stopped once more: its end is told once. -/
theorem session_table_stop_twice :
    let env : Calls := ⟨fun _ => none, none, none, none, fun _ => none, fun _ => none⟩
    let start : Value := .object [("sessionId", .string "s1"), ("type", .string "session.start")]
    let stop : Value := .object [("sessionId", .string "s1"), ("type", .string "session.stop")]
    let run := tableRun ⟨.mock, [], 1, none⟩ [.message start env, .message stop env, .message stop env]
    told run = [0] ∧ (told run).Nodup :=
  ⟨by decide +kernel, (session_table ⟨.mock, [], 1, none⟩ (by decide) _).2.2⟩

end Runs

end SenseVoice.Bridge
