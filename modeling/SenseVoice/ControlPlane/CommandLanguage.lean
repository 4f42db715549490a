import SenseVoice.ControlPlane.Links

/-!
# The command language towards the bridge

The messages the control plane puts on bridge links for one session should read
`session.start (utterance.commit | tts.speak)* session.stop?`. `create_session` opens the language and
`delete_session`, the teardown of `client_socket` and `session_reaper` end it. The teardown and the
reaper look at the session's state before they send; `forward_session_command`, `speak_text` and
`delete_session` only look whether the record exists.

`Forwards` and `Stops` say, from the event and the state before it, that a step carries a command or a
stop to a live link.

Results:
* `step_log`: what one event adds to the log of one session;
* `stopped_iff`: the log of a session has a `session.stop` exactly if an earlier step stopped it;
* **`commandLanguage_iff`**: in every run that draws no UUID twice, all logs are in the language and
  no command on a closed session is accepted, exactly if no command is forwarded for a closed session
  and nothing is forwarded or stopped again after a stop.
-/

namespace SenseVoice.ControlPlane

open Lib Run

variable {cfg : Config} {digest : String → String} {s t : System} {e : Event}

/-! ## The log of a session -/

/-- The type of a message, when it names the session. -/
def typeFor (id : Uuid) (p : Uuid × Value) : Option (Option String) :=
  if p.2.strField "sessionId" = some id then some (p.2.strField "type") else none

/-- The types of the messages for the session on any bridge link, oldest first. -/
def AppState.commandLog (a : AppState) (id : Uuid) : List (Option String) :=
  a.bridgeOut.filterMap (typeFor id)

/-- The first message is the only `session.start`, and nothing follows a `session.stop`. -/
def WellFormed (l : List (Option String)) : Prop :=
  (l ≠ [] → l.head? = some (some "session.start")) ∧ some "session.start" ∉ l.tail ∧
    some "session.stop" ∉ l.dropLast

instance (l : List (Option String)) : Decidable (WellFormed l) :=
  inferInstanceAs (Decidable (_ ∧ _))

/-- A message other than `session.start` extends a log exactly if the session was not stopped. -/
theorem wellFormed_snoc {l : List (Option String)} {m : Option String} (hl : WellFormed l)
    (hne : l ≠ []) (hm : m ≠ some "session.start") :
    WellFormed (l ++ [m]) ↔ some "session.stop" ∉ l := by
  obtain ⟨hhead, hstart, -⟩ := hl
  unfold WellFormed
  rw [List.dropLast_concat, List.head?_append_of_ne_nil l hne, List.tail_append_of_ne_nil hne]
  constructor
  · exact fun h => h.2.2
  · intro h
    refine ⟨fun _ => hhead hne, ?_, h⟩
    rw [List.mem_append, List.mem_singleton]
    rintro (hs | hs)
    · exact hstart hs
    · exact hm hs.symm

/-! ## Steps that write to a log -/

/-- The step forwards a commit or speak for the session to a live link. -/
def Forwards (x : Taken System Event) (id : Uuid) : Prop :=
  x.before.app.liveBridge.isSome = true ∧ id ∈ x.before.app.inner.sessions ∧
    (x.event = .command (.commit id) ∨
      ∃ body fields, x.event = .command (.speak id body) ∧ speakFields body = .ok fields)

/-- The step carries out a deletion of the record, a teardown of the open session or its expiry, while
a live link is registered. -/
def Stops (x : Taken System Event) (id : Uuid) : Prop :=
  x.before.app.liveBridge.isSome = true ∧
    (x.event = .command (.delete id) ∧ id ∈ x.before.app.inner.sessions ∨
      (∃ socketId, x.event = .clientClose id socketId ∧ x.before.app.sessionOpen id = true) ∨
      ∃ now r, x.event = .reaper now ∧ x.before.app.inner.sessions.lookup id = some r ∧
        r.expired now = true)

/-- What a step adds to the log of the session `id`. -/
inductive LogStep (x : Taken System Event) (id : Uuid) :
    List (Option String) → List (Option String) → Prop
  | same {l : List (Option String)} (hs : ¬ Stops x id) (hf : ¬ Forwards x id) : LogStep x id l l
  | stop {l : List (Option String)} (hs : Stops x id) (hf : ¬ Forwards x id) :
      LogStep x id l (l ++ [some "session.stop"])
  | forward {l : List (Option String)} {m : String} (hs : ¬ Stops x id) (hf : Forwards x id)
      (hm : m = "utterance.commit" ∨ m = "tts.speak") : LogStep x id l (l ++ [some m])
  | start {l : List (Option String)} {i : CreateInput} (he : x.event = .createSession i)
      (hid : i.id = id) : LogStep x id l (l ++ [some "session.start"])

theorem stops_record {x : Taken System Event} {id : Uuid} (h : Stops x id) :
    ∃ r, x.before.app.inner.sessions.lookup id = some r := by
  rcases h.2 with ⟨-, hr⟩ | ⟨-, -, ho⟩ | ⟨-, r, -, hr, -⟩
  · exact Table.mem_iff_lookup.mp hr
  · obtain ⟨r, hr, -⟩ := sessionOpen_iff.mp ho
    exact ⟨r, hr⟩
  · exact ⟨r, hr⟩

theorem typeFor_message (id : Uuid) (link : Uuid) {m : Value} {type : String} {k : Uuid}
    (htype : m.strField "type" = some type) (hid : m.strField "sessionId" = some k) :
    typeFor id (link, m) = if k = id then some (some type) else none := by
  simp [typeFor, htype, hid]

theorem typeFor_sessionMessage (id link : Uuid) (type : String) (k : Uuid) :
    typeFor id (link, sessionMessage type k) = if k = id then some (some type) else none :=
  typeFor_message id link (sessionMessage_strFields type k).1 (sessionMessage_strFields type k).2

/-- The fields `speak_text` adds are neither the type nor the session id. -/
theorem speakFields_names {body : Option SpeakRequest} {fields : List (String × Value)}
    (h : speakFields body = .ok fields) :
    ∀ f ∈ fields, f.1 = "text" ∨ f.1 = "voice" ∨ f.1 = "speed" ∨ f.1 = "instruct" := by
  unfold speakFields at h
  split at h
  · exact absurd h (by simp)
  · rename_i request
    simp only at h
    split at h
    · exact absurd h (by simp)
    · split at h
      · exact absurd h (by simp)
      · split at h
        · exact absurd h (by simp)
        · split at h
          · exact absurd h (by simp)
          · obtain rfl := Except.ok.inj h
            intro f hf
            simp only [List.mem_append, List.mem_singleton, Option.mem_toList,
              Option.map_eq_some_iff] at hf
            rcases hf with ((rfl | ⟨_, -, rfl⟩) | ⟨_, -, rfl⟩) | ⟨_, -, rfl⟩
            all_goals simp

/-- Every refusal of `speak_text` is a `400`. -/
theorem speakFields_error {body : Option SpeakRequest} {r : Reply} (h : speakFields body = .error r) :
    r.status = 400 := by
  unfold speakFields at h
  split at h
  · obtain rfl := Except.error.inj h
    rfl
  · simp only at h
    split at h
    · obtain rfl := Except.error.inj h
      rfl
    · split at h
      · obtain rfl := Except.error.inj h
        rfl
      · split at h
        · obtain rfl := Except.error.inj h
          rfl
        · split at h
          · obtain rfl := Except.error.inj h
            rfl
          · exact absurd h (by simp)

/-- The type and the session of a `tts.speak`. -/
theorem speak_strFields (k : Uuid) {body : Option SpeakRequest} {fields : List (String × Value)}
    (h : speakFields body = .ok fields) :
    ((sessionMessage "tts.speak" k).extend (.object fields)).strField "type" = some "tts.speak" ∧
      ((sessionMessage "tts.speak" k).extend (.object fields)).strField "sessionId" = some k := by
  refine ⟨type_extend _ _ fun f hf => ?_, sessionId_extend _ _ fun f hf => ?_⟩
  all_goals
    rcases speakFields_names h f hf with hn | hn | hn | hn <;> rw [hn] <;> decide

theorem typeFor_speak (id link k : Uuid) {body : Option SpeakRequest}
    {fields : List (String × Value)} (h : speakFields body = .ok fields) :
    typeFor id (link, (sessionMessage "tts.speak" k).extend (.object fields)) =
      if k = id then some (some "tts.speak") else none :=
  typeFor_message id link (speak_strFields k h).1 (speak_strFields k h).2

/-- What one send adds to the log. -/
theorem filterMap_bridgeSends {a : AppState} {m : Value} {id : Uuid} {o : Option (Option String)}
    (hm : ∀ link, typeFor id (link, m) = o) :
    (a.bridgeSends m).filterMap (typeFor id) = if a.liveBridge.isSome then o.toList else [] := by
  unfold AppState.bridgeSends
  cases a.liveBridge with
  | none => rfl
  | some link =>
    rw [Option.map_some, Option.toList_some, List.filterMap_cons, hm, Option.isSome_some, if_pos rfl]
    cases o <;> rfl

/-- A loop over distinct ids that sends one message each. -/
theorem filterMap_nodup {l : List Uuid} (hn : l.Nodup) (id : Uuid) (m : Option String) :
    l.filterMap (fun k => if k = id then some m else none) = if id ∈ l then [m] else [] := by
  induction l with
  | nil => rfl
  | cons k l ih =>
    obtain ⟨hk, hn⟩ := List.nodup_cons.mp hn
    rw [List.filterMap_cons, ih hn]
    by_cases hid : k = id
    · subst hid
      simp [hk]
    · simp [hid, Ne.symm hid]

theorem nodup_expiredIds {a : AppState} (hk : KeyedById a) (now : Nat) :
    (expiredIds now a).Nodup := by
  have hkeys : expiredIds now a = Table.keysWhere (fun _ r => r.expired now) a.inner.sessions := by
    unfold expiredIds closeWhere Table.keysWhere
    refine List.map_congr_left fun e he => ?_
    exact hk e.1 e.2 (Table.lookup_eq_some.mpr (List.mem_of_mem_filter he))
  rw [hkeys]
  exact Table.nodup_keysWhere _ _

/-- What a reaper pass adds to the log. -/
theorem filterMap_reaper {a : AppState} (hk : KeyedById a) (now : Nat) (id : Uuid) :
    ((expiredIds now a).flatMap fun k => a.bridgeSends (sessionMessage "session.stop" k)).filterMap
        (typeFor id) =
      if a.liveBridge.isSome ∧ id ∈ expiredIds now a then [some "session.stop"] else [] := by
  rw [List.filterMap_flatMap]
  have hone : ∀ k, (a.bridgeSends (sessionMessage "session.stop" k)).filterMap (typeFor id) =
      if a.liveBridge.isSome then
        (if k = id then some (some "session.stop") else none).toList else [] :=
    fun k => filterMap_bridgeSends fun link => typeFor_sessionMessage id link _ k
  simp only [hone]
  cases hl : a.liveBridge.isSome with
  | false => simp
  | true =>
    simp only [if_true, true_and]
    rw [← filterMap_nodup (nodup_expiredIds hk now) id (some "session.stop"),
      List.filterMap_eq_flatMap_toList]

/-! ### The writing events, one by one -/

theorem stops_delete {k id : Uuid} :
    Stops ⟨s, .command (.delete k), t⟩ id ↔
      s.app.liveBridge.isSome = true ∧ k = id ∧ (s.app.inner.sessions.lookup k).isSome = true := by
  unfold Stops
  simp only [Event.command.injEq, Command.delete.injEq, reduceCtorEq, false_and, exists_false,
    or_false, AList.lookup_isSome]
  refine and_congr_right fun _ => and_congr_right fun hk => ?_
  rw [hk]

theorem stops_close {k socketId id : Uuid} :
    Stops ⟨s, .clientClose k socketId, t⟩ id ↔
      s.app.liveBridge.isSome = true ∧ k = id ∧ s.app.sessionOpen k = true := by
  unfold Stops
  simp only [Event.clientClose.injEq, reduceCtorEq, false_and, exists_false, or_false, false_or]
  refine and_congr_right fun _ => ⟨?_, ?_⟩
  · rintro ⟨_, ⟨rfl, -⟩, ho⟩
    exact ⟨rfl, ho⟩
  · rintro ⟨rfl, ho⟩
    exact ⟨socketId, ⟨rfl, rfl⟩, ho⟩

theorem stops_reaper (hk : KeyedById s.app) {now : Nat} {id : Uuid} :
    Stops ⟨s, .reaper now, t⟩ id ↔
      s.app.liveBridge.isSome = true ∧ id ∈ expiredIds now s.app := by
  unfold Stops
  simp only [Event.reaper.injEq, reduceCtorEq, false_and, exists_false, false_or]
  refine and_congr_right fun _ => ?_
  unfold expiredIds
  rw [mem_closeWhere_ids hk]
  constructor
  · rintro ⟨_, r, rfl, hr, hx⟩
    exact ⟨r, hr, hx⟩
  · rintro ⟨r, hr, hx⟩
    exact ⟨now, r, rfl, hr, hx⟩

theorem forwards_commit {k id : Uuid} :
    Forwards ⟨s, .command (.commit k), t⟩ id ↔
      s.app.liveBridge.isSome = true ∧ k = id ∧ (s.app.inner.sessions.lookup k).isSome = true := by
  unfold Forwards
  simp only [Event.command.injEq, Command.commit.injEq, reduceCtorEq, false_and, exists_false,
    or_false, AList.lookup_isSome]
  refine and_congr_right fun _ => ⟨?_, ?_⟩
  · rintro ⟨hr, rfl⟩
    exact ⟨rfl, hr⟩
  · rintro ⟨rfl, hr⟩
    exact ⟨hr, rfl⟩

theorem forwards_speak {k id : Uuid} {body : Option SpeakRequest} {fields : List (String × Value)}
    (hb : speakFields body = .ok fields) :
    Forwards ⟨s, .command (.speak k body), t⟩ id ↔
      s.app.liveBridge.isSome = true ∧ k = id ∧ (s.app.inner.sessions.lookup k).isSome = true := by
  unfold Forwards
  simp only [Event.command.injEq, Command.speak.injEq, reduceCtorEq, false_or, AList.lookup_isSome]
  refine and_congr_right fun _ => ⟨?_, ?_⟩
  · rintro ⟨hr, _, _, ⟨rfl, rfl⟩, -⟩
    exact ⟨rfl, hr⟩
  · rintro ⟨rfl, hr⟩
    exact ⟨hr, body, fields, ⟨rfl, rfl⟩, hb⟩

theorem not_forwards_speak {k id : Uuid} {body : Option SpeakRequest} {r : Reply}
    (hb : speakFields body = .error r) : ¬ Forwards ⟨s, .command (.speak k body), t⟩ id := by
  rintro ⟨-, -, he | ⟨_, fields, he, hf⟩⟩
  · exact absurd he (by simp)
  · obtain ⟨-, rfl⟩ := Command.speak.inj (Event.command.inj he)
    exact absurd (hb.symm.trans hf) (by simp)

/-- An event that is no command carries none. -/
theorem not_forwards {x : Taken System Event} {id : Uuid} (hc : ∀ c, x.event ≠ .command c) :
    ¬ Forwards x id := by
  rintro ⟨-, -, he | ⟨_, _, he, -⟩⟩
  · exact hc _ he
  · exact hc _ he

theorem LogStep.of_stop {x : Taken System Event} {id : Uuid} {l added : List (Option String)}
    {p : Prop} [Decidable p] (hs : Stops x id ↔ p) (hf : ¬ Forwards x id)
    (ha : added = if p then [some "session.stop"] else []) : LogStep x id l (l ++ added) := by
  rw [ha]
  split
  · exact .stop (hs.mpr ‹_›) hf
  · rw [List.append_nil]
    exact .same (fun h => absurd (hs.mp h) ‹_›) hf

theorem LogStep.of_forward {x : Taken System Event} {id : Uuid} {l added : List (Option String)}
    {p : Prop} [Decidable p] {m : String} (hf : Forwards x id ↔ p) (hs : ¬ Stops x id)
    (hm : m = "utterance.commit" ∨ m = "tts.speak")
    (ha : added = if p then [some m] else []) : LogStep x id l (l ++ added) := by
  rw [ha]
  split
  · exact .forward hs (hf.mpr ‹_›) hm
  · rw [List.append_nil]
    exact .same hs fun h => absurd (hf.mp h) ‹_›

/-- A step whose event is none of those that send does not write to the log. -/
theorem LogStep.quiet {x : Taken System Event} {id : Uuid} {l : List (Option String)}
    (hc : ∀ c, x.event ≠ .command c) (ht : ∀ k socketId, x.event ≠ .clientClose k socketId)
    (hr : ∀ now, x.event ≠ .reaper now) : LogStep x id l l := by
  refine .same ?_ (not_forwards hc)
  rintro ⟨-, ⟨he, -⟩ | ⟨socketId, he, -⟩ | ⟨now, r, he, -⟩⟩
  · exact hc _ he
  · exact ht _ _ he
  · exact hr _ he

/-- What a conditional send of one message adds to the log. -/
theorem filterMap_sendIf {a : AppState} {m : Value} {type : String} {id k : Uuid} {c : Bool}
    (hm : ∀ link, typeFor id (link, m) = if k = id then some (some type) else none) :
    (if c then a.bridgeSends m else []).filterMap (typeFor id) =
      if a.liveBridge.isSome = true ∧ k = id ∧ c = true then [some type] else [] := by
  cases c with
  | false => simp
  | true =>
    rw [if_pos rfl, filterMap_bridgeSends hm]
    by_cases hk : k = id <;> by_cases hl : a.liveBridge.isSome = true <;> simp [hk, hl]

/-- **What one event adds to the log of one session.** -/
theorem step_log {x : Taken System Event} (h : step cfg digest x.before x.event = some x.after)
    (hk : KeyedById x.before.app) (id : Uuid) :
    LogStep x id (x.before.app.commandLog id) (x.after.app.commandLog id) := by
  obtain ⟨s, e, t⟩ := x
  simp only at h hk ⊢
  by_cases hcr : ∃ i, e = .createSession i
  · obtain ⟨i, rfl⟩ := hcr
    have hq : ∀ {l : List (Option String)}, LogStep ⟨s, .createSession i, t⟩ id l l :=
      .quiet (fun _ he => absurd he (by simp)) (fun _ _ he => absurd he (by simp))
        fun _ he => absurd he (by simp)
    unfold AppState.commandLog
    rw [step_app h, Event.apply]
    rcases createSession_states digest cfg i s.app with
      ⟨g, h1⟩ | ⟨-, g, h1⟩ | ⟨-, link, owner, g, creds, -, hc, h1⟩
    · rw [h1]
      exact hq
    · rw [h1]
      exact hq
    · obtain ⟨htype, hid⟩ := startEvent_fields hc owner
      have hone := typeFor_message id link.id htype hid
      rw [h1, createdState, List.filterMap_append, List.filterMap_cons, hone]
      by_cases hid : i.id = id
      · rw [if_pos hid]
        exact .start rfl hid
      · rw [if_neg hid]
        simpa using hq
  · have hout := step_bridgeOut h fun i hi => hcr ⟨i, hi⟩
    unfold AppState.commandLog
    rw [hout, List.filterMap_append]
    generalize s.app.bridgeOut.filterMap (typeFor id) = l
    cases e with
    | createSession i => exact absurd ⟨i, rfl⟩ hcr
    | command c =>
      cases c with
      | commit k =>
        refine .of_forward forwards_commit ?_ (Or.inl rfl) ?_
        · simp [Stops]
        · exact filterMap_sendIf fun link => typeFor_sessionMessage id link _ k
      | speak k body =>
        cases hb : speakFields body with
        | error reply =>
          simp only [Event.sends, hb, List.filterMap_nil, List.append_nil]
          exact .same (by simp [Stops]) (not_forwards_speak hb)
        | ok fields =>
          refine .of_forward (forwards_speak hb) ?_ (Or.inr rfl) ?_
          · simp [Stops]
          · simp only [Event.sends, hb]
            exact filterMap_sendIf fun link => typeFor_speak id link k hb
      | delete k =>
        refine .of_stop stops_delete (by simp [Forwards]) ?_
        exact filterMap_sendIf fun link => typeFor_sessionMessage id link _ k
    | clientClose k socketId =>
      refine .of_stop stops_close (not_forwards fun _ he => absurd he (by simp)) ?_
      exact filterMap_sendIf fun link => typeFor_sessionMessage id link _ k
    | reaper now =>
      exact .of_stop (stops_reaper hk) (not_forwards fun _ he => absurd he (by simp))
        (filterMap_reaper hk now id)
    | _ =>
      simp only [Event.sends, List.filterMap_nil, List.append_nil]
      exact .quiet (fun _ he => absurd he (by simp)) (fun _ _ he => absurd he (by simp))
        fun _ he => absurd he (by simp)

/-! ## Logs along a run -/

/-- A session was stopped by an earlier step exactly if its log has a `session.stop`. -/
theorem stopped_iff {es : List Event} {pre post : List (Taken System Event)}
    {x : Taken System Event} (h : trace cfg digest es = pre ++ x :: post) (id : Uuid) :
    some "session.stop" ∈ x.before.app.commandLog id ↔ ∃ y ∈ pre, Stops y id := by
  suffices hI : KeyedById x.before.app ∧
      ∀ id, some "session.stop" ∈ x.before.app.commandLog id ↔ ∃ y ∈ pre, Stops y id from hI.2 id
  refine forall_history (I := fun past s => KeyedById s.app ∧
    ∀ id, some "session.stop" ∈ s.app.commandLog id ↔ ∃ y ∈ past, Stops y id) ?_ ?_ h
  · exact ⟨keyedById_init, fun id => by simp [System.init, AppState.new, AppState.commandLog]⟩
  · rintro past s e t ⟨hk, hI⟩ hstep
    refine ⟨keyedById_step hstep hk, fun id => ?_⟩
    have hlog := step_log (x := ⟨s, e, t⟩) hstep hk id
    simp only [List.mem_append, List.mem_singleton, or_and_right, exists_or, exists_eq_left]
    rw [← hI id]
    simp only at hlog
    generalize s.app.commandLog id = l at hlog ⊢
    generalize t.app.commandLog id = l' at hlog ⊢
    cases hlog with
    | same hs => simp [hs]
    | stop hs => simp [hs]
    | forward hs _ hm => rcases hm with rfl | rfl <;> simp [hs]
    | start he =>
      have hs : ¬ Stops ⟨s, e, t⟩ id := by
        rintro ⟨-, ⟨he', -⟩ | ⟨_, he', -⟩ | ⟨_, _, he', -⟩⟩ <;>
          exact absurd (he.symm.trans he') (by simp)
      simp [hs]

/-- A record's log has begun, and a log that has begun is that of a drawn id. -/
structure Logged (s : System) : Prop where
  begun : ∀ id r, s.app.inner.sessions.lookup id = some r → s.app.commandLog id ≠ []
  drawn : ∀ id, s.app.commandLog id ≠ [] → id ∈ s.drawn

theorem logged_init : Logged System.init where
  begun _ _ h := absurd h (by simp [System.init, AppState.new, Inner.empty])
  drawn _ h := absurd rfl h

theorem Logged.step (hl : Logged s) (h : ControlPlane.step cfg digest s e = some t)
    (hk : KeyedById s.app)
    (hd : ∀ id r, s.app.inner.sessions.lookup id = some r → id ∈ s.drawn) : Logged t := by
  have hlog := step_log (x := ⟨s, e, t⟩) h hk
  simp only at hlog
  have hgrow : ∀ id, s.app.commandLog id ≠ [] → t.app.commandLog id ≠ [] := by
    intro id hne
    have := hlog id
    generalize t.app.commandLog id = l' at this ⊢
    cases this with
    | same => exact hne
    | stop => simp
    | forward => simp
    | start => simp
  refine ⟨fun id r hr => ?_, fun id hne => ?_⟩
  · by_cases hcr : ∃ i, e = .createSession i ∧ i.id = id
    · obtain ⟨i, rfl, rfl⟩ := hcr
      have happ := step_app h
      rw [Event.apply] at happ
      rcases createSession_states digest cfg i s.app with
        ⟨g, h1⟩ | ⟨-, g, h1⟩ | ⟨-, link, owner, g, creds, -, hc, h1⟩
      · rw [happ, h1] at hr
        exact hgrow _ (hl.begun _ r hr)
      · rw [happ, h1] at hr
        exact hgrow _ (hl.begun _ r hr)
      · obtain ⟨htype, hid⟩ := startEvent_fields hc owner
        have hone := typeFor_message i.id link.id htype hid
        rw [if_pos rfl] at hone
        rw [happ, h1, createdState, AppState.commandLog, List.filterMap_append, List.filterMap_cons,
          hone]
        simp
    · have hs := step_session h id
      rw [hr] at hs
      generalize hb : s.app.inner.sessions.lookup id = o at hs
      cases hs with
      | same => exact hgrow id (hl.begun id _ hb)
      | marked => exact hgrow id (hl.begun id _ hb)
      | closed => exact hgrow id (hl.begun id _ hb)
      | created he hid => exact absurd ⟨_, he, hid⟩ hcr
  · have hold : s.app.commandLog id ≠ [] → id ∈ t.drawn := fun hne => drawn_mono h (hl.drawn id hne)
    have hrec : (∃ r, s.app.inner.sessions.lookup id = some r) → id ∈ t.drawn := by
      rintro ⟨r, hr⟩
      exact drawn_mono h (hd id r hr)
    have := hlog id
    generalize t.app.commandLog id = l' at this hne
    cases this with
    | same => exact hold hne
    | stop hs => exact hrec (stops_record hs)
    | forward _ hf => exact hrec (Table.mem_iff_lookup.mp hf.2.1)
    | start he hid =>
      simp only at he
      rw [step_drawn h, he, ← hid]
      exact List.mem_append_left _ List.mem_cons_self

/-- One step extends well-formed logs to well-formed logs exactly if it reaches no stopped session. -/
theorem wellFormed_step {x : Taken System Event}
    (h : step cfg digest x.before x.event = some x.after) (hf : FreshStep x)
    (hk : KeyedById x.before.app) (hl : Logged x.before)
    (hw : ∀ id, WellFormed (x.before.app.commandLog id)) :
    (∀ id, WellFormed (x.after.app.commandLog id)) ↔
      ∀ id, Stops x id ∨ Forwards x id → some "session.stop" ∉ x.before.app.commandLog id := by
  refine forall_congr' fun id => ?_
  have hlog := step_log h hk id
  have hwf := hw id
  have hbegun : Stops x id ∨ Forwards x id → x.before.app.commandLog id ≠ [] := by
    rintro (hs | hf)
    · obtain ⟨r, hr⟩ := stops_record hs
      exact hl.begun id r hr
    · obtain ⟨r, hr⟩ := Table.mem_iff_lookup.mp hf.2.1
      exact hl.begun id r hr
  have hdrawn := hl.drawn id
  generalize x.before.app.commandLog id = l at hlog hwf hbegun hdrawn ⊢
  generalize x.after.app.commandLog id = l' at hlog ⊢
  cases hlog with
  | same hs hfw => exact iff_of_true hwf fun hor => absurd hor (by simp [hs, hfw])
  | stop hs hfw =>
    rw [wellFormed_snoc hwf (hbegun (Or.inl hs)) (by decide)]
    simp [hs]
  | @forward m hs hfw hm =>
    rw [wellFormed_snoc hwf (hbegun (Or.inr hfw)) (by rcases hm with rfl | rfl <;> decide)]
    simp [hfw]
  | @start i he hid =>
    have hempty : l = [] := by
      by_contra hne
      refine hf.2 id ?_ (hdrawn hne)
      rw [he, ← hid]
      exact List.mem_cons_self
    subst hempty
    exact iff_of_true (by decide) fun _ => by simp

/-! ## Commands that are accepted -/

/-- A command answered `202` finds its session open. -/
def AcceptsOpen (x : Taken System Event) : Prop :=
  ∀ c, x.event = .command c → (runCommand c x.before.app).2.status = 202 →
    x.before.app.sessionOpen c.id = true

/-- A forwarded message is answered `202` exactly if the record exists and the link is live. -/
theorem forward_accepted {id : Uuid} {m : Value} {a : AppState} :
    (forward id m a).2.status = 202 ↔ a.liveBridge.isSome = true ∧ id ∈ a.inner.sessions := by
  rcases forward_cases id m a with ⟨-, hst, hn⟩ | ⟨r, link, hr, hl, h1⟩
  · refine iff_of_false hst ?_
    rintro ⟨hlive, hrec⟩
    obtain ⟨r, hr⟩ := Table.mem_iff_lookup.mp hrec
    rcases hn with hn | hn
    · exact absurd (hr.symm.trans hn) (by simp)
    · exact absurd hlive (by simp [hn])
  · refine iff_of_true (by rw [h1]; rfl) ⟨by rw [hl]; rfl, Table.mem_iff_lookup.mpr ⟨r, hr⟩⟩

/-- A command is answered `202` exactly if it is forwarded. -/
theorem accepted_iff {x : Taken System Event} {c : Command} (he : x.event = .command c) :
    (runCommand c x.before.app).2.status = 202 ↔ Forwards x c.id := by
  unfold Forwards
  rw [he]
  cases c with
  | commit id =>
    rw [runCommand, commitUtterance, forward_accepted, Command.id]
    simp
  | speak id body =>
    rw [runCommand, speakText, Command.id]
    cases hb : speakFields body with
    | error reply =>
      refine iff_of_false ?_ ?_
      · simp [speakFields_error hb]
      · rintro ⟨-, -, he' | ⟨_, fields, he', hf⟩⟩
        · exact absurd he' (by simp)
        · obtain ⟨-, rfl⟩ := Command.speak.inj (Event.command.inj he')
          exact absurd (hb.symm.trans hf) (by simp)
    | ok fields =>
      simp only
      rw [forward_accepted]
      simp [hb]
  | delete id =>
    refine iff_of_false ?_ (by simp)
    rw [runCommand]
    unfold deleteSession
    split <;> simp [sessionNotFound, renderError]

/-! ## The language of a run -/

/-- **The command language, exactly.** In a run that draws no UUID twice: every session's messages
start with its only `session.start` and nothing follows a `session.stop`, and every command answered
`202` finds its session open, exactly if no command is forwarded for a session that is not open and,
after a step has stopped a session, no later step stops it again or forwards a command for it. -/
theorem commandLanguage_iff {es : List Event} (hf : FreshRun cfg digest es) :
    ((∀ t ∈ states cfg digest es, ∀ id, WellFormed (t.app.commandLog id)) ∧
        ∀ x ∈ trace cfg digest es, AcceptsOpen x) ↔
      (∀ x ∈ trace cfg digest es, ∀ id, Forwards x id → x.before.app.sessionOpen id = true) ∧
        (trace cfg digest es).Pairwise fun x y => ∀ id, Stops x id →
          ¬ Stops y id ∧ ¬ Forwards y id := by
  have hlogged : ∀ x ∈ trace cfg digest es, Logged x.before :=
    before_of_trace logged_init fun x hx hl =>
      hl.step (mem_trace hx).2 (keyedById_before x hx)
        (before_of_trace (P := fun s => ∀ id r, s.app.inner.sessions.lookup id = some r → id ∈ s.drawn)
          (fun _ _ h => absurd h (by simp [System.init, AppState.new, Inner.empty]))
          (fun _ hx h => records_drawn_step (mem_trace hx).2 h) x hx)
  have hwf : (∀ t ∈ states cfg digest es, ∀ id, WellFormed (t.app.commandLog id)) ↔
      ∀ x ∈ trace cfg digest es, ∀ id, Stops x id ∨ Forwards x id →
        some "session.stop" ∉ x.before.app.commandLog id := by
    refine states_iff_trace (fun _ => (by decide : WellFormed [])) fun x hx hw => ?_
    exact wellFormed_step (mem_trace hx).2 (hf x hx) (keyedById_before x hx) (hlogged x hx) hw
  have hpair : (∀ x ∈ trace cfg digest es, ∀ id, Stops x id ∨ Forwards x id →
        some "session.stop" ∉ x.before.app.commandLog id) ↔
      (trace cfg digest es).Pairwise fun x y => ∀ id, Stops x id →
        ¬ Stops y id ∧ ¬ Forwards y id := by
    rw [pairwise_iff_split]
    constructor
    · intro h pre y post hsplit x hx id hs
      have hno := h y (by rw [hsplit]; simp) id
      rw [stopped_iff hsplit id] at hno
      exact ⟨fun hst => hno (Or.inl hst) ⟨x, hx, hs⟩, fun hfw => hno (Or.inr hfw) ⟨x, hx, hs⟩⟩
    · intro h y hy id hor hstop
      obtain ⟨pre, post, hsplit⟩ := List.append_of_mem hy
      obtain ⟨x, hx, hs⟩ := (stopped_iff hsplit id).mp hstop
      have := h pre y post hsplit x hx id hs
      rcases hor with hst | hfw
      · exact this.1 hst
      · exact this.2 hfw
  have hacc : (∀ x ∈ trace cfg digest es, AcceptsOpen x) ↔
      ∀ x ∈ trace cfg digest es, ∀ id, Forwards x id → x.before.app.sessionOpen id = true := by
    refine forall₂_congr fun x _ => ⟨fun h id hfw => ?_, fun h c he hst => ?_⟩
    · rcases hfw.2.2 with he | ⟨body, fields, he, -⟩
      · exact h _ he ((accepted_iff he).mpr hfw)
      · exact h _ he ((accepted_iff he).mpr hfw)
    · exact h c.id ((accepted_iff he).mp hst)
  rw [hwf, hpair, hacc, and_comm]

/-- `commandLanguage_iff` on a run with a commit and a deletion. -/
theorem commandLanguage_commit :
    let es := [.connect "link", .create "first" 0] ++ Event.operate (.commit "first") ++
      Event.operate (.delete "first")
    ((∀ t ∈ states livekitProductionConfig id es, ∀ k, WellFormed (t.app.commandLog k)) ∧
        ∀ x ∈ trace livekitProductionConfig id es, AcceptsOpen x) ↔
      (∀ x ∈ trace livekitProductionConfig id es, ∀ k, Forwards x k →
          x.before.app.sessionOpen k = true) ∧
        (trace livekitProductionConfig id es).Pairwise fun x y => ∀ k, Stops x k →
          ¬ Stops y k ∧ ¬ Forwards y k :=
  commandLanguage_iff (by decide +kernel)

/-- The operator deletes a session and then commits on it. -/
def commitAfterDeleteRun : List Event :=
  [.connect "link", .create "first" 0] ++ Event.operate (.delete "first") ++
    Event.operate (.commit "first")

/-- The commit is answered `202` and follows the `session.stop`. -/
theorem commit_after_stop :
    livekitProductionConfig.validate.toBool = true ∧
      FreshRun livekitProductionConfig id commitAfterDeleteRun ∧
      (final livekitProductionConfig id commitAfterDeleteRun).app.commandLog "first" =
        [some "session.start", some "session.stop", some "utterance.commit"] ∧
      ¬ ((∀ t ∈ states livekitProductionConfig id commitAfterDeleteRun,
            ∀ k, WellFormed (t.app.commandLog k)) ∧
          ∀ x ∈ trace livekitProductionConfig id commitAfterDeleteRun, AcceptsOpen x) := by
  refine ⟨by decide +kernel, by decide +kernel, by decide +kernel, fun h => ?_⟩
  have hbad := h.1 _ (final_mem_states System.init commitAfterDeleteRun) "first"
  exact absurd hbad (by decide +kernel)

end SenseVoice.ControlPlane
