import SenseVoice.Bridge.RealSession
import SenseVoice.Lib.FirstSeen
import SenseVoice.Page.Percentiles

/-!
# The samples that the page counts (`renderObservability` in `app.js`)

Model of `renderObservability`, over the records of `Observations.lean`, and what its samples are: the page shows the
number of observations and percentiles of their latencies, and says that it has no final result while there is none.

* The panel has the values it shows; `formatMs` and the HTML around them are left out. The line on the network's
  quality is not in `Runtime`.
* A key is the same as itself unless it is an object or an array; the bridge sends strings.

Results:
* `keys_run`: the traces are those of the finals and updates since the last clear, one for each utterance;
* **`sample_set_iff`**: the samples are the final results exactly if every update is for an utterance that has one.
-/

namespace SenseVoice.Page

open Lib FirstSeen

/-! ## `renderObservability` -/

/-- What the panel shows. -/
structure Panel where
  sampleCount : ℕ
  /-- `exportMetrics.disabled` and `clearMetrics.disabled`. -/
  disabled : Bool
  latestLatency : Option ℚ
  p50Latency : Option ℚ
  p95Latency : Option ℚ
  traceText : Option Value
  stages : List (String × ℚ)

namespace Runtime

/-- `latencies`. -/
def latencies (r : Runtime) : List ℚ := r.observations.filterMap Observation.totalEstimatedMs

/-- `formatMs` shows `null` and `undefined` alike. -/
def latencyAt (ratio : ℚ) (r : Runtime) : Option ℚ := (percentile (r.latencies.map jsNumber) ratio).join

/-- `renderObservability`. -/
def renderObservability (r : Runtime) : Panel :=
  match r.observations.getLast? with
  | none => ⟨0, true, none, none, none, some (.string "尚未收到最终识别结果。"), []⟩
  | some latest =>
    { sampleCount := r.observations.length
      disabled := false
      latestLatency := latest.totalEstimatedMs
      p50Latency := r.latencyAt (1 / 2)
      p95Latency := r.latencyAt (95 / 100)
      traceText := valueOr latest.text "—"
      stages := [
        ("RTC 网络传输", latest.agoraNetworkMs.getD 0), ("Bridge 断句端点", latest.endpointMs.getD 0),
        ("OminiX ASR 推理", latest.asrInferenceMs.getD 0), ("VPS 转发及交付", latest.vpsRelayMs.getD 0)] }

theorem sampleCount_eq (r : Runtime) : r.renderObservability.sampleCount = r.observations.length := by
  unfold renderObservability
  cases h : r.observations.getLast? with
  | none => rw [List.getLast?_eq_none_iff.mp h, List.length_nil]
  | some latest => rfl

end Runtime

/-! ## The utterances of a run -/

/-- The utterance of an `asr.final`. -/
def Action.final : Action → Option (Option Value)
  | received event _ => if event.strField "type" = some "asr.final" then some (event.get "utteranceId") else none
  | _ => none

/-- The utterance of a `trace.update` that names one. -/
def Action.update : Action → Option (Option Value)
  | received event _ =>
    if event.strField "type" = some "trace.update" ∧ falsy (event.get "utteranceId") = false then
      some (event.get "utteranceId")
    else none
  | _ => none

/-- The utterance whose trace is written. -/
def Action.written (a : Action) : Option (Option Value) := a.final.or a.update

/-- The actions behind the last clear. -/
def sinceClear (actions : List Action) : List Action :=
  actions.foldl (fun since a => match a with
    | .clear => []
    | a => since ++ [a]) []

/-- The samples are the finals: one for each utterance that has one, and the panel shows their number. -/
structure SampleSet (r : Runtime) (finals : List (Option Value)) : Prop where
  once : r.observations.Pairwise fun o o' => sameKey o.utteranceId o'.utteranceId = false
  complete : ∀ id ∈ finals, ∃ o ∈ r.observations, sameKey o.utteranceId id = true
  sound : ∀ o ∈ r.observations, ∃ id ∈ finals, sameKey o.utteranceId id = true
  count : r.renderObservability.sampleCount = (firstSeen sameKey finals).length

/-- Writing a key adds it, if it is new. -/
theorem keys_mapSet {α : Type} (key : Option Value) (value : α) (entries : List (Option Value × α)) :
    (mapSet key value entries).map Prod.fst = addNew sameKey (entries.map Prod.fst) key := by
  unfold addNew
  induction entries with
  | nil => rfl
  | cons e rest ih =>
    unfold mapSet
    by_cases hkey : sameKey e.1 key = true
    · simp [hkey]
    · rw [if_neg hkey, List.map_cons, ih, List.map_cons, List.any_cons, Bool.eq_false_iff.mpr hkey, Bool.false_or]
      split <;> rfl

namespace Runtime

theorem run_concat (actions : List Action) (a : Action) : run (actions ++ [a]) = (run actions).act a := by
  unfold run
  rw [List.foldl_append]
  rfl

/-- What an action does to the traces: it writes one, or leaves them, or clears them. -/
theorem keys_act (r : Runtime) {a : Action} (ha : a ≠ .clear) :
    (r.act a).traces.map Prod.fst = a.written.elim (r.traces.map Prod.fst) (addNew sameKey (r.traces.map Prod.fst)) := by
  cases a with
  | received event now =>
    by_cases hfinal : event.strField "type" = some "asr.final"
    · rw [act_final hfinal]
      simp only [Action.written, Action.final, if_pos hfinal, Option.some_or, Option.elim_some]
      exact keys_mapSet _ _ _
    by_cases hupdate : event.strField "type" = some "trace.update"
    · rw [act_update hupdate]
      unfold recordTraceUpdate
      by_cases hid : falsy (event.get "utteranceId") = true
      · simp [Action.written, Action.final, Action.update, hupdate, hid]
      · simp only [Action.written, Action.final, Action.update, hupdate, hid]
        simp only [Option.some.injEq, String.reduceEq, if_false, Option.none_or, and_self, if_true, Option.elim_some,
          Bool.false_eq_true]
        exact keys_mapSet _ _ _
    · rw [act_traces hfinal hupdate]
      simp [Action.written, Action.final, Action.update, hfinal, hupdate]
  | commitFailed committedAt =>
    unfold act
    dsimp only
    split <;> rfl
  | clear => exact absurd rfl ha
  | _ => rfl

/-- The utterances written since the last clear. -/
def written (actions : List Action) : List (Option Value) := (sinceClear actions).filterMap Action.written

theorem sinceClear_concat (actions : List Action) {a : Action} (ha : a ≠ .clear) :
    sinceClear (actions ++ [a]) = sinceClear actions ++ [a] := by
  unfold sinceClear
  rw [List.foldl_append]
  cases a with
  | clear => exact absurd rfl ha
  | _ => rfl

/-- **The traces are those written since the last clear, one for each utterance.** -/
theorem keys_run (actions : List Action) :
    (run actions).traces.map Prod.fst = firstSeen sameKey (written actions) := by
  induction actions using List.reverseRecOn with
  | nil => rfl
  | append_singleton actions a ih =>
    rw [run_concat]
    by_cases ha : a = .clear
    · subst ha
      unfold written sinceClear
      rw [List.foldl_append]
      rfl
    · have hwritten : written (actions ++ [a]) = written actions ++ a.written.toList := by
        unfold written
        rw [sinceClear_concat actions ha, List.filterMap_append]
        cases hw : a.written <;> simp [hw]
      rw [keys_act _ ha, ih, hwritten]
      cases a.written with
      | none => rw [Option.toList_none, List.append_nil, Option.elim_none]
      | some id => exact (firstSeen_concat _ id).symm

/-- The observations have these utterances too. -/
theorem observed_run (actions : List Action) :
    (run actions).observations.map Observation.utteranceId = firstSeen sameKey (written actions) := by
  have hconsistent := run_consistent actions
  rw [← keys_run, hconsistent.observed, List.map_map]
  exact List.map_congr_left fun e he => hconsistent.keyed e he

/-! ## The samples -/

/-- The utterances with a final since the last clear. -/
def finals (actions : List Action) : List (Option Value) := (sinceClear actions).filterMap Action.final

/-- The utterances with an update since then. -/
def updates (actions : List Action) : List (Option Value) := (sinceClear actions).filterMap Action.update

theorem mem_written {actions : List Action} {id : Option Value} :
    id ∈ written actions ↔ id ∈ finals actions ∨ id ∈ updates actions := by
  have hdisjoint : ∀ a : Action, a.written = some id ↔ a.final = some id ∨ a.update = some id := by
    intro a
    cases a with
    | received event now =>
      unfold Action.written Action.final Action.update
      by_cases hfinal : event.strField "type" = some "asr.final"
      · simp [hfinal]
      · simp [hfinal]
    | _ => simp [Action.written, Action.final, Action.update]
  unfold written finals updates
  simp only [List.mem_filterMap, hdisjoint]
  constructor
  · rintro ⟨a, ha, hfinal | hupdate⟩
    · exact Or.inl ⟨a, ha, hfinal⟩
    · exact Or.inr ⟨a, ha, hupdate⟩
  · rintro (⟨a, ha, hfinal⟩ | ⟨a, ha, hupdate⟩)
    · exact ⟨a, ha, Or.inl hfinal⟩
    · exact ⟨a, ha, Or.inr hupdate⟩

/-- A sample for each utterance that was written, and for no other. -/
theorem exists_observation {actions : List Action} {id : Option Value} (hid : id ∈ written actions)
    (hkey : sameKey id id = true) : ∃ o ∈ (run actions).observations, sameKey o.utteranceId id = true := by
  obtain ⟨k, hk, hsame⟩ := exists_firstSeen hid hkey
  rw [← observed_run] at hk
  obtain ⟨o, ho, rfl⟩ := List.mem_map.mp hk
  exact ⟨o, ho, hsame⟩

theorem written_of_observation {actions : List Action} {o : Observation} (ho : o ∈ (run actions).observations) :
    o.utteranceId ∈ written actions := by
  have hmem := List.mem_map_of_mem (f := Observation.utteranceId) ho
  rw [observed_run] at hmem
  exact mem_of_mem_firstSeen hmem

/-- **The samples are the final results since the last clear, exactly if every update since then is for an utterance
that has one**, in any order of results and updates. -/
theorem sample_set_iff (actions : List Action) (hkeys : ∀ id ∈ written actions, sameKey id id = true) :
    SampleSet (run actions) (finals actions) ↔
      ∀ id ∈ updates actions, ∃ final ∈ finals actions, sameKey final id = true := by
  constructor
  · intro h id hid
    have hwritten := mem_written.mpr (Or.inr hid)
    obtain ⟨o, ho, hsame⟩ := exists_observation hwritten (hkeys id hwritten)
    obtain ⟨final, hfinal, hsame'⟩ := h.sound o ho
    exact ⟨final, hfinal, sameKey_trans (sameKey_symm hsame') hsame⟩
  · intro h
    have hcover : ∀ id ∈ written actions, ∃ final ∈ finals actions, sameKey id final = true := by
      intro id hid
      rcases mem_written.mp hid with hfinal | hupdate
      · exact ⟨id, hfinal, hkeys id hid⟩
      · obtain ⟨final, hfinal, hsame⟩ := h id hupdate
        exact ⟨final, hfinal, sameKey_symm hsame⟩
    have hback : ∀ final ∈ finals actions, ∃ id ∈ written actions, sameKey final id = true := fun final hfinal =>
      ⟨final, mem_written.mpr (Or.inl hfinal), hkeys final (mem_written.mpr (Or.inl hfinal))⟩
    refine ⟨?_, fun id hid => ?_, fun o ho => hcover _ (written_of_observation ho), ?_⟩
    · have honce := pairwise_firstSeen sameKey (written actions)
      rw [← observed_run] at honce
      exact List.pairwise_map.mp honce
    · have hwritten := mem_written.mpr (Or.inl hid)
      exact exists_observation hwritten (hkeys id hwritten)
    · rw [sampleCount_eq, ← List.length_map (f := Observation.utteranceId), observed_run]
      exact length_firstSeen_eq (fun _ _ => sameKey_symm) (fun _ _ _ => sameKey_trans) hcover hback

/-- A result of the bridge and the update that `_transcribe` sends after it. -/
def resultAndUpdate (final : Bool) : List Action :=
  [.received ((Bridge.AsrMessage.result ⟨final, 1, 1, "你好", .object [], 0⟩).toValue "first") 1000,
    .received ((Bridge.AsrMessage.trace ⟨final, 1, 1, "你好", .object [], 0⟩ 1 (.float 2)).toValue "first") 1001]

theorem sample_set_iff_final :
    SampleSet (run (resultAndUpdate true)) (finals (resultAndUpdate true)) ↔
      ∀ id ∈ updates (resultAndUpdate true), ∃ final ∈ finals (resultAndUpdate true), sameKey final id = true :=
  sample_set_iff (resultAndUpdate true) (by decide +kernel)

/-- The update after a partial result makes a sample without any final result. -/
theorem partial_update_counted :
    finals (resultAndUpdate false) = [] ∧ (run (resultAndUpdate false)).renderObservability.sampleCount = 1 ∧
      ¬ SampleSet (run (resultAndUpdate false)) (finals (resultAndUpdate false)) := by
  have hcount : (run (resultAndUpdate false)).renderObservability.sampleCount = 1 := by decide +kernel
  have hnone : finals (resultAndUpdate false) = [] := List.eq_nil_of_length_eq_zero (by decide +kernel)
  refine ⟨hnone, hcount, fun h => ?_⟩
  have hsame := h.count
  rw [hcount, hnone] at hsame
  exact absurd hsame (by decide)

end Runtime

end SenseVoice.Page
