import SenseVoice.ControlPlane.ClientLoop
import SenseVoice.ControlPlane.Stamping
import SenseVoice.Page.Observations

/-!
# What the page attributes to the control plane

`handle_bridge_event` stamps every message it relays with `metrics.vps.relayQueueMs`, the time that this
message waited; the page merges all messages of an utterance into one record. So the time of the final result
stays in the record only until the next `trace.update` of the bridge, which has a time of its own and overwrites
it. The updates that answer an acknowledgement are not stamped.

* `Arrival` is a message on the page's socket: relayed, with the readings of one call, or the answer to an
  acknowledgement.
* `carriedRelay` is what a message makes of the recorded time, if it touches it: `stamp` puts the time there
  (`carriedRelay_stamp`), unless `metrics` or `vps` is in the message and no object.

Results:
* `vpsRelay_merge`: the recorded time after a merge;
* `recorded_received`: what one message makes of the record of an utterance;
* **`attribution_iff`**: after the final result the observation has its time, and the total computed from it, at
  every later moment exactly if no later message of the utterance carries another time.
-/

namespace SenseVoice.Page

open Lib ControlPlane

/-! ## The messages -/

/-- A message on the page's socket. -/
inductive Arrival where
  | relayed (message : Value) (receivedAt started finished enqueuedAt : ℕ)
  | acknowledged (id : Uuid) (delivery : Delivery) (ackRttMs : ℚ)

/-- The times of a call of `handle_bridge_event`. -/
def relayTimes (receivedAt started finished enqueuedAt : ℕ) : RelayTimes :=
  ⟨receivedAt, .float (elapsedMs started finished), enqueuedAt⟩

/-- What the page gets. -/
def Arrival.event : Arrival → Value
  | .relayed message receivedAt started finished enqueuedAt =>
    stamp message (relayTimes receivedAt started finished enqueuedAt)
  | .acknowledged id delivery ackRttMs => ackUpdate id delivery ackRttMs

/-- A message that `insert_metric` can stamp. -/
def Stampable (message : Value) : Prop :=
  ∃ fields, message = .object fields ∧ ∃ metrics, (fields.lookup "metrics").getD (.object []) = .object metrics ∧
    ∃ names, (metrics.lookup "vps").getD (.object []) = .object names

/-- What the group `vps` of a message makes of the recorded time, if it touches it. -/
def relayIn : Value → Option ℚ
  | .object names => (names.lookup "relayQueueMs").map fun v => (asFiniteNumber (some v)).getD 0
  | _ => some 0

/-- What the metrics of a message make of it. -/
def carriedRelay (metrics : Option Value) : Option ℚ := (metrics.bind fun v => v.get "vps").bind relayIn

/-- The page merges the message into the record of the utterance. -/
def Concerns (utteranceId : String) (event : Value) : Prop :=
  event.get "utteranceId" = some (.string utteranceId) ∧
    (event.strField "type" = some "asr.final" ∨
      event.strField "type" = some "trace.update" ∧ utteranceId ≠ "")

/-! ## Merging -/

/-- A field after merging: the source's, merged into the target's, or the target's. -/
theorem lookup_mergeFields (target fields : List (String × Value)) (k : String) :
    (mergeFields target fields).lookup k =
      ((fields.lookup k).map (mergeValue (target.lookup k))).or (target.lookup k) := by
  induction fields with
  | nil => rfl
  | cons f rest ih =>
    obtain ⟨k', v⟩ := f
    rw [mergeFields, Value.lookup_setField, Value.lookup_cons_eq]
    by_cases h : k = k'
    · subst h
      simp
    · rw [if_neg h, if_neg h, ih]

/-- A number that is merged is taken from the source. -/
theorem asFiniteNumber_mergeValue (current : Option Value) (v : Value) :
    asFiniteNumber (some (mergeValue current v)) = asFiniteNumber (some v) := by
  cases v with
  | object fields => simp [mergeValue, asFiniteNumber, toNumber]
  | _ => rfl

/-- The names of a group that is no object cannot be read. -/
theorem lookup_objectOrEmpty (current : Option Value) (k : String) :
    (objectOrEmpty current).lookup k = current.bind fun v => v.get k := by
  cases current with
  | none => rfl
  | some v => cases v <;> rfl

/-- **The recorded time after a merge** is the one the message carries, or the old one. -/
theorem vpsRelay_merge (metrics : List (String × Value)) (source : Option Value) :
    vpsRelay (mergeObjects metrics source) = (carriedRelay source).getD (vpsRelay metrics) := by
  cases source with
  | none => rfl
  | some v =>
    cases v with
    | object fields =>
      have hcarried : carriedRelay (some (.object fields)) = (fields.lookup "vps").bind relayIn := rfl
      rw [hcarried]
      unfold mergeObjects vpsRelay metricAt
      rw [lookup_mergeFields]
      cases fields.lookup "vps" with
      | none => rfl
      | some v =>
        rw [Option.map_some, Option.some_or, Option.bind_some, Option.bind_some]
        cases v with
        | object names =>
          rw [mergeValue, Value.get_object, lookup_mergeFields, lookup_objectOrEmpty, relayIn]
          cases names.lookup "relayQueueMs" with
          | none => rfl
          | some w =>
            rw [Option.map_some, Option.some_or, asFiniteNumber_mergeValue]
            rfl
        | _ => rfl
    | _ => rfl

/-! ## What a stamped message carries -/

theorem stampable_iff {message : Value} : Stampable message ↔ HasRoom message "vps" := by
  rw [hasRoom_iff "relayQueueMs"]
  simp only [metricKeys, Value.room_cons, Value.room_nil, and_true]
  rfl

/-- The time at its path is the time carried. -/
theorem carriedRelay_of_follow {event v : Value}
    (h : event.follow (metricPath "vps" "relayQueueMs") = some v) :
    carriedRelay (event.get "metrics") = some ((asFiniteNumber (some v)).getD 0) := by
  obtain ⟨metrics, hmetrics, h⟩ := Option.bind_eq_some_iff.mp h
  obtain ⟨vps, hvps, h⟩ := Option.bind_eq_some_iff.mp h
  obtain ⟨w, hw, hend⟩ := Option.bind_eq_some_iff.mp h
  obtain rfl := Option.some.inj hend
  rw [Value.child_key] at hmetrics hvps
  unfold carriedRelay
  rw [hmetrics, Option.bind_some, hvps, Option.bind_some]
  cases vps with
  | object names =>
    have hlookup : names.lookup "relayQueueMs" = some w := hw
    simp only [relayIn, hlookup, Option.map_some]
  | _ => exact absurd hw (by simp [Value.child])

/-- **A stamped message carries its own time.** -/
theorem carriedRelay_stamp {message : Value} (h : Stampable message) (times : RelayTimes) :
    carriedRelay ((stamp message times).get "metrics") = some times.relayMs.toRat := by
  have hset := (stamped_stamp message times).set (stampable_iff.mp h)
    ("relayQueueMs", .number times.relayMs) (by simp [vpsMetrics])
  rw [carriedRelay_of_follow hset]
  simp [asFiniteNumber, toNumber]

/-- A message that cannot be stamped is relayed as it is, without a time. -/
theorem carriedRelay_unstamped {message : Value} (h : ¬ Stampable message) (times : RelayTimes) :
    ∀ x ∈ carriedRelay ((stamp message times).get "metrics"), x = 0 := by
  intro x hx
  rw [(stamped_stamp message times).unchanged (mt stampable_iff.mpr h)] at hx
  obtain ⟨vps, hvps, hrelay⟩ := Option.bind_eq_some_iff.mp hx
  obtain ⟨metrics, hmetrics, hget⟩ := Option.bind_eq_some_iff.mp hvps
  cases message with
  | object fields =>
    cases metrics with
    | object groups =>
      cases vps with
      | object names =>
        refine absurd ⟨fields, rfl, groups, ?_, names, ?_⟩ h
        · rw [show fields.lookup "metrics" = _ from hmetrics, Option.getD_some]
        · rw [show groups.lookup "vps" = _ from hget, Option.getD_some]
      | _ => exact (Option.some.inj hrelay).symm
    | _ => exact absurd hget (by simp [Value.get])
  | _ => exact absurd hmetrics (by simp [Value.get])

/-- Hundredths of a millisecond. -/
def IsCenti (x : ℚ) : Prop := ∃ k : ℤ, x = k / 100

theorem isCenti_elapsedMs (started now : ℕ) : IsCenti (elapsedMs started now) := ⟨_, rfl⟩

/-- They are not rounded. -/
theorem roundMetric_centi {x : ℚ} (h : IsCenti x) : roundMetric (some x) = some x := by
  obtain ⟨k, rfl⟩ := h
  have hfloor : ⌊(k / 100 * 100 + 1 / 2 : ℚ)⌋ = k := by
    rw [div_mul_cancel₀ _ (by norm_num), Int.floor_intCast_add]
    norm_num
  rw [roundMetric, Option.map_some, hfloor]

/-- A message carries hundredths of a millisecond. -/
theorem isCenti_carriedRelay (a : Arrival) : ∀ x ∈ carriedRelay (a.event.get "metrics"), IsCenti x := by
  intro x hx
  cases a with
  | relayed message receivedAt started finished enqueuedAt =>
    by_cases h : Stampable message
    · have hstamp : carriedRelay ((Arrival.relayed message receivedAt started finished enqueuedAt).event.get
          "metrics") = some (elapsedMs started finished) := carriedRelay_stamp h _
      rw [hstamp, Option.mem_some_iff] at hx
      exact hx ▸ isCenti_elapsedMs started finished
    · rw [carriedRelay_unstamped h _ x hx]
      exact ⟨0, by norm_num⟩
  | acknowledged id delivery ackRttMs =>
    simp [Arrival.event, ackUpdate, carriedRelay, Value.json, Value.lookup_setField] at hx

/-! ## The record of an utterance -/

/-- The trace of an utterance. -/
def recorded (utteranceId : String) (r : Runtime) : Option Trace := mapGet (some (.string utteranceId)) r.traces

/-- The observation of an utterance. -/
def shown (utteranceId : String) (r : Runtime) : Option Observation :=
  r.observations.find? fun o => sameKey o.utteranceId (some (.string utteranceId))

/-- The time in the control plane that the page shows is `relayMs`, and the total is computed from it. -/
def Attributed (utteranceId : String) (relayMs : ℚ) (r : Runtime) : Prop :=
  ∃ o, shown utteranceId r = some o ∧ o.vpsRelayMs = some relayMs ∧
    o.totalEstimatedMs = roundMetric (totalEstimated o.raw.metrics relayMs)

theorem shown_eq {r : Runtime} (h : r.Consistent) (utteranceId : String) :
    shown utteranceId r = (recorded utteranceId r).map observe := by
  have hlist : ∀ entries, Keyed entries →
      (entries.map fun e => observe e.2).find? (fun o => sameKey o.utteranceId (some (.string utteranceId))) =
        (mapGet (some (.string utteranceId)) entries).map observe := by
    intro entries hkeyed
    induction entries with
    | nil => rfl
    | cons e rest ih =>
      obtain ⟨hhead, htail⟩ := List.forall_mem_cons.mp hkeyed
      have hid : (observe e.2).utteranceId = e.1 := hhead
      rw [List.map_cons, List.find?_cons, mapGet_cons, hid, ih htail]
      by_cases hkey : sameKey e.1 (some (.string utteranceId)) = true
      · simp [hkey]
      · simp [hkey]
  rw [shown, h.observed]
  exact hlist _ h.keyed

/-- The page shows a time of hundredths as it is recorded. -/
theorem attributed_iff {r : Runtime} (h : r.Consistent) {utteranceId : String} {trace : Trace} {relayMs : ℚ}
    (ht : recorded utteranceId r = some trace) (hcenti : IsCenti (vpsRelay trace.metrics)) :
    Attributed utteranceId relayMs r ↔ vpsRelay trace.metrics = relayMs := by
  have hshown : shown utteranceId r = some (observe trace) := by rw [shown_eq h, ht, Option.map_some]
  have hrelay : (observe trace).vpsRelayMs = some (vpsRelay trace.metrics) := roundMetric_centi hcenti
  unfold Attributed
  rw [hshown]
  constructor
  · rintro ⟨o, ho, hms, -⟩
    obtain rfl := Option.some.inj ho
    exact Option.some.inj (hrelay.symm.trans hms)
  · rintro rfl
    exact ⟨observe trace, rfl, hrelay, rfl⟩

theorem sameKey_string {id : Option Value} {utteranceId : String} :
    sameKey id (some (.string utteranceId)) = true ↔ id = some (.string utteranceId) := by
  unfold sameKey
  split <;> grind

/-- What is recorded of an utterance once a trace has been stored, under its id or another one. -/
theorem recorded_mapSet (utteranceId : String) {id : Option Value} {trace : Trace} {r : Runtime} (r' : Runtime)
    (h : r'.traces = mapSet id trace r.traces) :
    (id = some (.string utteranceId) → recorded utteranceId r' = some trace) ∧
      (id ≠ some (.string utteranceId) → recorded utteranceId r' = recorded utteranceId r) := by
  have hstored : recorded utteranceId r' =
      if sameKey id (some (.string utteranceId)) = true then some trace else recorded utteranceId r := by
    rw [recorded, h, mapGet_mapSet]
    rfl
  rw [hstored]
  exact ⟨fun hid => if_pos (sameKey_string.mpr hid), fun hid => if_neg (mt sameKey_string.mp hid)⟩

/-- A final result is merged into the record of its utterance. -/
theorem recorded_final (utteranceId : String) {event : Value} (now : ℚ) (r : Runtime)
    (h : event.strField "type" = some "asr.final") :
    (event.get "utteranceId" = some (.string utteranceId) →
        ∃ trace, recorded utteranceId (r.act (.received event now)) = some trace ∧
          trace.metrics = mergeObjects (traceIn (some (.string utteranceId)) r.traces).metrics
            (event.get "metrics")) ∧
      (event.get "utteranceId" ≠ some (.string utteranceId) →
        recorded utteranceId (r.act (.received event now)) = recorded utteranceId r) := by
  rw [Runtime.act_final h]
  have hstored := recorded_mapSet utteranceId (r.recordFinalEvent event now) rfl
  refine ⟨fun hid => ⟨_, hstored.1 hid, ?_⟩, hstored.2⟩
  rw [hid]

/-- So is an update, unless the utterance has the empty id. -/
theorem recorded_update (utteranceId : String) {event : Value} (now : ℚ) (r : Runtime)
    (h : event.strField "type" = some "trace.update") :
    (event.get "utteranceId" = some (.string utteranceId) ∧ utteranceId ≠ "" →
        ∃ trace, recorded utteranceId (r.act (.received event now)) = some trace ∧
          trace.metrics = mergeObjects (traceIn (some (.string utteranceId)) r.traces).metrics
            (event.get "metrics")) ∧
      (¬ (event.get "utteranceId" = some (.string utteranceId) ∧ utteranceId ≠ "") →
        recorded utteranceId (r.act (.received event now)) = recorded utteranceId r) := by
  rw [Runtime.act_update h]
  by_cases hfalsy : falsy (event.get "utteranceId") = true
  · have hsame : r.recordTraceUpdate event = r := if_pos hfalsy
    rw [hsame]
    refine ⟨?_, fun _ => rfl⟩
    rintro ⟨hid, hne⟩
    rw [hid] at hfalsy
    exact absurd (by simpa [falsy] using hfalsy) hne
  · have hstored := recorded_mapSet utteranceId (r.recordTraceUpdate event) (by
      unfold Runtime.recordTraceUpdate
      rw [if_neg hfalsy]
      rfl)
    constructor
    · rintro ⟨hid, -⟩
      exact ⟨_, hstored.1 hid, by rw [hid]⟩
    · intro hnot
      refine hstored.2 fun hid => hnot ⟨hid, ?_⟩
      rintro rfl
      exact hfalsy (by rw [hid]; rfl)

/-- **A message of the utterance is merged into its record**, and no other message touches it. -/
theorem recorded_received (utteranceId : String) (event : Value) (now : ℚ) (r : Runtime) :
    (Concerns utteranceId event → ∃ trace, recorded utteranceId (r.act (.received event now)) = some trace ∧
        trace.metrics = mergeObjects (traceIn (some (.string utteranceId)) r.traces).metrics
          (event.get "metrics")) ∧
      (¬ Concerns utteranceId event →
        recorded utteranceId (r.act (.received event now)) = recorded utteranceId r) := by
  by_cases hfinal : event.strField "type" = some "asr.final"
  · obtain ⟨hmerged, hkept⟩ := recorded_final utteranceId now r hfinal
    exact ⟨fun hc => hmerged hc.1, fun hnot => hkept fun hid => hnot ⟨hid, Or.inl hfinal⟩⟩
  by_cases hupdate : event.strField "type" = some "trace.update"
  · obtain ⟨hmerged, hkept⟩ := recorded_update utteranceId now r hupdate
    constructor
    · rintro ⟨hid, hf | ⟨-, hne⟩⟩
      · exact absurd hf hfinal
      · exact hmerged ⟨hid, hne⟩
    · exact fun hnot => hkept fun hid => hnot ⟨hid.1, Or.inr ⟨hupdate, hid.2⟩⟩
  · constructor
    · rintro ⟨-, hf | ⟨hu, -⟩⟩
      · exact absurd hf hfinal
      · exact absurd hu hupdate
    · intro _
      rw [recorded, Runtime.act_traces hfinal hupdate]
      rfl

/-- The recorded time after one message of the utterance. -/
theorem vpsRelay_received {utteranceId : String} {event : Value} (h : Concerns utteranceId event) (now : ℚ)
    (r : Runtime) :
    ∃ trace, recorded utteranceId (r.act (.received event now)) = some trace ∧
      vpsRelay trace.metrics = (carriedRelay (event.get "metrics")).getD
        (vpsRelay (traceIn (some (.string utteranceId)) r.traces).metrics) := by
  obtain ⟨trace, ht, hmetrics⟩ := (recorded_received utteranceId event now r).1 h
  exact ⟨trace, ht, by rw [hmetrics, vpsRelay_merge]⟩

/-- What the page has recorded of an utterance is the time `relayMs`. -/
def HasRelay (utteranceId : String) (relayMs : ℚ) (r : Runtime) : Prop :=
  ∃ trace, recorded utteranceId r = some trace ∧ vpsRelay trace.metrics = relayMs

/-- The message leaves a recorded time as it is. -/
def Keeps (utteranceId : String) (relayMs : ℚ) (a : Arrival) : Prop :=
  Concerns utteranceId a.event → ∀ x ∈ carriedRelay (a.event.get "metrics"), x = relayMs

theorem HasRelay.received {utteranceId : String} {relayMs : ℚ} {r : Runtime} (h : HasRelay utteranceId relayMs r)
    {a : Arrival} (ha : Keeps utteranceId relayMs a) (now : ℚ) :
    HasRelay utteranceId relayMs (r.act (.received a.event now)) := by
  obtain ⟨trace, ht, hrelay⟩ := h
  by_cases hc : Concerns utteranceId a.event
  · obtain ⟨trace', ht', hrelay'⟩ := vpsRelay_received hc now r
    refine ⟨trace', ht', ?_⟩
    have hold : traceIn (some (.string utteranceId)) r.traces = trace := by
      rw [traceIn, show mapGet (some (.string utteranceId)) r.traces = some trace from ht, Option.getD_some]
    rw [hrelay', hold, hrelay]
    cases hx : carriedRelay (a.event.get "metrics") with
    | none => rfl
    | some x => exact ha hc x hx
  · exact ⟨trace, ((recorded_received utteranceId a.event now r).2 hc).trans ht, hrelay⟩

/-- A message that arrives. -/
def arrives (a : Arrival × ℚ) : Action := .received a.1.event a.2

theorem HasRelay.run {utteranceId : String} {relayMs : ℚ} {later : List (Arrival × ℚ)}
    (hkeeps : ∀ a ∈ later, Keeps utteranceId relayMs a.1) {r : Runtime} (h : HasRelay utteranceId relayMs r) :
    HasRelay utteranceId relayMs ((later.map arrives).foldl Runtime.act r) := by
  induction later generalizing r with
  | nil => exact h
  | cons a later ih =>
    obtain ⟨hhead, htail⟩ := List.forall_mem_cons.mp hkeeps
    exact ih htail (h.received hhead a.2)

/-- A final result that the control plane has stamped leaves its own time. -/
theorem HasRelay.final {utteranceId : String} {message : Value} (htype : message.strField "type" = some "asr.final")
    (hid : message.get "utteranceId" = some (.string utteranceId)) (hstamp : Stampable message)
    (receivedAt started finished enqueuedAt : ℕ) (now : ℚ) (r : Runtime) :
    HasRelay utteranceId (elapsedMs started finished)
      (r.act (arrives (.relayed message receivedAt started finished enqueuedAt, now))) := by
  set a : Arrival := .relayed message receivedAt started finished enqueuedAt
  have hconcerns : Concerns utteranceId a.event := by
    refine ⟨?_, Or.inl ((stamp_strField message _ (by decide)).trans htype)⟩
    change (stamp message _).get "utteranceId" = _
    unfold stamp
    rw [insertMetric_get _ _ _ _ (by decide), insertMetric_get _ _ _ _ (by decide),
      insertMetric_get _ _ _ _ (by decide), hid]
  obtain ⟨trace, ht, hrelay⟩ := vpsRelay_received hconcerns now r
  refine ⟨trace, ht, ?_⟩
  rw [hrelay]
  change (carriedRelay ((stamp message _).get "metrics")).getD _ = _
  rw [carriedRelay_stamp hstamp, Option.getD_some]
  rfl

/-- **Latency attribution.** After the final result of an utterance has been processed, the page shows at every
later moment the time for which the control plane held it, and a total computed from this time, exactly if no
later message of the utterance carries another time. -/
theorem attribution_iff (before : List Action) {utteranceId : String} {message : Value}
    (htype : message.strField "type" = some "asr.final")
    (hid : message.get "utteranceId" = some (.string utteranceId)) (hstamp : Stampable message)
    (receivedAt started finished enqueuedAt : ℕ) (now : ℚ) (later : List (Arrival × ℚ)) :
    (∀ seen, seen <+: later → Attributed utteranceId (elapsedMs started finished)
        (Runtime.run (before ++ arrives (.relayed message receivedAt started finished enqueuedAt, now) ::
          seen.map arrives))) ↔
      ∀ a ∈ later, Keeps utteranceId (elapsedMs started finished) a.1 := by
  set final : Arrival × ℚ := (.relayed message receivedAt started finished enqueuedAt, now) with hfinal
  set relayMs := elapsedMs started finished
  have hcenti : IsCenti relayMs := isCenti_elapsedMs started finished
  have hrun : ∀ seen : List (Arrival × ℚ), Runtime.run (before ++ arrives final :: seen.map arrives) =
      (seen.map arrives).foldl Runtime.act ((Runtime.run before).act (arrives final)) := by
    intro seen
    rw [Runtime.run, List.foldl_append, List.foldl_cons]
    rfl
  have hfirst : HasRelay utteranceId relayMs ((Runtime.run before).act (arrives final)) :=
    HasRelay.final htype hid hstamp receivedAt started finished enqueuedAt now (Runtime.run before)
  constructor
  · intro hall a ha hc x hx
    obtain ⟨seen, rest, rfl⟩ := List.append_of_mem ha
    have hattr := hall (seen ++ [a]) ⟨rest, by simp⟩
    obtain ⟨trace, ht, hrelay⟩ := vpsRelay_received hc a.2
      ((seen.map arrives).foldl Runtime.act ((Runtime.run before).act (arrives final)))
    rw [Option.mem_def.mp hx, Option.getD_some] at hrelay
    have hlast : Runtime.run (before ++ arrives final :: (seen ++ [a]).map arrives) =
        ((seen.map arrives).foldl Runtime.act ((Runtime.run before).act (arrives final))).act
          (.received a.1.event a.2) := by
      rw [hrun, List.map_append, List.foldl_append]
      rfl
    rw [← hlast] at ht
    have hcenti' : IsCenti (vpsRelay trace.metrics) := hrelay ▸ isCenti_carriedRelay a.1 x hx
    exact hrelay.symm.trans ((attributed_iff (Runtime.run_consistent _) ht hcenti').mp hattr)
  · rintro hkeeps seen ⟨rest, rfl⟩
    obtain ⟨trace, ht, hrelay⟩ := HasRelay.run (fun a ha => hkeeps a (List.mem_append_left _ ha)) hfirst
    rw [← hrun] at ht
    exact (attributed_iff (Runtime.run_consistent _) ht (hrelay ▸ hcenti)).mpr hrelay

/-- A final result of the bridge. -/
def finalMessage : Value :=
  .json [("type", .string "asr.final"), ("sessionId", .string "first"), ("utteranceId", .string "first:1"),
    ("text", .string "你好"), ("metrics", .json [("bridge", .json [("asrTotalMs", .number (.unsigned 300)),
      ("endpointMs", .number (.unsigned 650))])])]

/-- The update that `_transcribe` sends after it. -/
def updateMessage : Value :=
  .json [("type", .string "trace.update"), ("sessionId", .string "first"), ("utteranceId", .string "first:1"),
    ("seq", .number (.unsigned 1)), ("eventType", .string "asr.final"),
    ("metrics", .json [("bridge", .json [("resultWebSocketSendMs", .number (.float (6 / 5)))])])]

theorem finalMessage_stampable : Stampable finalMessage := ⟨_, rfl, _, rfl, _, rfl⟩

/-- The final result waits five milliseconds, and its delivery is acknowledged. -/
theorem attribution_acknowledged :
    Stampable finalMessage ∧
      ∀ seen, seen <+: [(Arrival.acknowledged "first" ⟨"asr.final", "first:1", 1⟩ 40, (1040 : ℚ))] →
        Attributed "first:1" (elapsedMs 0 5000000)
          (Runtime.run ([] ++ arrives (.relayed finalMessage 0 0 5000000 0, 1000) :: seen.map arrives)) := by
  refine ⟨finalMessage_stampable, (attribution_iff [] (by decide +kernel) rfl finalMessage_stampable 0 0 5000000 0
    1000 _).mpr ?_⟩
  intro a ha hc x hx
  obtain rfl := List.mem_singleton.mp ha
  simp [Arrival.event, ackUpdate, carriedRelay, Value.json, Value.lookup_setField] at hx

/-- The final result waits five milliseconds, and the update after it a hundredth. -/
def finalAndUpdate : List Action :=
  [arrives (.relayed finalMessage 0 0 5000000 0, 1000), arrives (.relayed updateMessage 0 0 10000 0, 1001)]

/-- The update after a final result replaces its time, and the total. -/
theorem update_replaces_relay :
    (shown "first:1" (Runtime.run (finalAndUpdate.take 1))).map
        (fun o => (o.vpsRelayMs, o.totalEstimatedMs)) = some (some 5, some 955) ∧
      (shown "first:1" (Runtime.run finalAndUpdate)).map
        (fun o => (o.vpsRelayMs, o.totalEstimatedMs)) = some (some (1 / 100), some (95001 / 100)) ∧
      ¬ Attributed "first:1" (elapsedMs 0 5000000) (Runtime.run finalAndUpdate) := by
  have hshown : (shown "first:1" (Runtime.run finalAndUpdate)).map
      (fun o => (o.vpsRelayMs, o.totalEstimatedMs)) = some (some (1 / 100), some (95001 / 100)) := by
    decide +kernel
  refine ⟨by decide +kernel, hshown, ?_⟩
  rintro ⟨o, ho, hrelay, -⟩
  rw [ho, Option.map_some, hrelay] at hshown
  have hsame : some (elapsedMs 0 5000000) = some (1 / 100) := congrArg Prod.fst (Option.some.inj hshown)
  exact absurd hsame (by decide +kernel)

end SenseVoice.Page
