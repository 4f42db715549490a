import SenseVoice.Page.Percentiles

/-!
# The page's trace file and the report made of it

`exportObservations` writes the file that `summarize_trace.py` is for. The two have no common format:

* the file is an array, and the report starts with `report.get`, which a `list` does not have;
* under the name that the report looks for, the observations would not count either: the page writes no
  `complete`;
* nor would their metrics be found, which the page writes under `raw`.

Results:
* `summarizeReport_ok`: the report of an object with observations;
* `summarizeReport_export`, `summarizeReport_wrapped`: what the report makes of the file, and of the file under
  the name `observations`;
* `nestedNumber_toValue`: an observation of the file has none of the report's metrics;
* **`report_never_agrees`**: no run of the page gives a file whose report agrees with the page.
-/

namespace SenseVoice.Page

open Bridge

/-! ## What the report should say -/

/-- The utterances that have received a final result since the last clear. -/
def addFinal (ids : List (Option Value)) : Action → List (Option Value)
  | .received event _ =>
    if event.strField "type" = some "asr.final" then
      let utteranceId := event.get "utteranceId"
      if ids.any (sameKey · utteranceId) then ids else ids ++ [utteranceId]
    else ids
  | .clear => []
  | _ => ids

/-- The utterances with a final result, after some actions. -/
def finalIds (actions : List Action) : List (Option Value) := actions.foldl addFinal []

/-- The stored values of a metric, of these utterances. -/
def storedValues (r : Runtime) (ids : List (Option Value)) (path : List String) : List ℚ :=
  ids.filterMap fun id => (mapGet id r.traces).bind fun trace => nestedNumber (.object trace.metrics) path

/-- The report of the file says what the page has stored. -/
def Agrees (actions : List Action) : Prop :=
  ∃ report, summarizeReport (Runtime.run actions).exportObservations = .ok report ∧
    report.samples = (finalIds actions).length ∧
    List.Forall₂ (fun (row : ReportRow) (m : ReportMetric) => row.label = m.label ∧
      row.values.Perm (storedValues (Runtime.run actions) (finalIds actions) m.path)) report.rows reportMetrics

/-! ## What it says -/

/-- **The report of the file raises**, whatever the page has received. -/
theorem summarizeReport_export (r : Runtime) :
    summarizeReport r.exportObservations = .error (.attributeError "list") := rfl

/-- An object literal has the names it is written with. -/
theorem jsObject_get {fields : List (String × Option Value)} {k : String} (h : ∀ f ∈ fields, f.1 ≠ k) :
    (jsObject fields).get k = none := by
  have hnames : ∀ f ∈ fields.filterMap fun f => f.2.map fun v => (f.1, v), f.1 ≠ k := by
    intro f hf
    obtain ⟨g, hg, hgf⟩ := List.mem_filterMap.mp hf
    obtain ⟨v, -, rfl⟩ := Option.map_eq_some_iff.mp hgf
    exact h g hg
  exact Value.lookup_setFields_of_ne [] _ k hnames

/-- The page writes no `complete`. -/
theorem completeObservation_toValue (o : Observation) : completeObservation o.toValue = none := by
  have hcomplete : o.toValue.get "complete" = none := by
    unfold Observation.toValue
    refine jsObject_get ?_
    simp
  change (if (o.toValue.get "complete").bind Value.asBool = some true then some _ else none) = none
  rw [hcomplete]
  exact if_neg (by simp)

/-- The page writes the metrics under `raw`, where the report does not look. -/
theorem nestedNumber_toValue (o : Observation) :
    ∀ m ∈ reportMetrics, nestedNumber ((o.toValue.get "metrics").getD (.object [])) m.path = none := by
  have hmetrics : o.toValue.get "metrics" = none := by
    unfold Observation.toValue
    refine jsObject_get ?_
    simp
  rw [hmetrics, Option.getD_none]
  decide

/-- **A report is made of every object with observations**: the complete ones count, and the columns are
quantiles. -/
theorem summarizeReport_ok {fields : List (String × Value)} {items : List Value}
    (h : fields.lookup "observations" = some (.array items)) :
    summarizeReport (.object fields) = .ok
      { exportedAt := (fields.lookup "exportedAt").getD (.string "未知")
        samples := (items.filterMap completeObservation).length
        rows := reportMetrics.map (quantileRow (items.filterMap completeObservation)) } := by
  have hrows : ∀ observations, reportMetrics.mapM (reportRow observations) =
      (Except.ok (reportMetrics.map (quantileRow observations)) : Except ReportError _) := fun observations => by
    have hrow : reportRow observations = fun m => pure (quantileRow observations m) :=
      funext fun m => reportRow_eq observations m
    rw [hrow, List.mapM_pure]
    rfl
  have hfound : pyGet (.object fields) "observations" = .ok (some (.array items)) := congrArg Except.ok h
  unfold summarizeReport
  rw [hfound]
  change (reportMetrics.mapM (reportRow (items.filterMap completeObservation)) >>= _) = _
  rw [hrows]
  rfl

/-- Under the name that the report looks for, no observation counts and no metric has a value. -/
theorem summarizeReport_wrapped (r : Runtime) :
    ∃ report, summarizeReport (.json [("observations", r.exportObservations)]) = .ok report ∧
      report.samples = 0 ∧ ∀ row ∈ report.rows, row.values = [] := by
  have hnone : (r.observations.map Observation.toValue).filterMap completeObservation = [] := by
    rw [List.filterMap_eq_nil_iff, List.forall_mem_map]
    exact fun o _ => completeObservation_toValue o
  refine ⟨_, summarizeReport_ok rfl, ?_, ?_⟩
  · rw [hnone]
    rfl
  · intro row hrow
    obtain ⟨m, -, rfl⟩ := List.mem_map.mp hrow
    rw [hnone]
    rfl

/-- **No run of the page gives a file whose report agrees with the page.** -/
theorem report_never_agrees (actions : List Action) : ¬ Agrees actions := by
  rintro ⟨report, hreport, -, -⟩
  rw [summarizeReport_export] at hreport
  exact absurd hreport (by simp)

/-- A page that has received one result. -/
def oneFinal : List Action := [.received (.json [("type", .string "asr.final"),
  ("utteranceId", .string "first:1"), ("text", .string "你好"),
  ("metrics", .json [("bridge", .json [("asrTotalMs", .number (.unsigned 300))])])]) 1000]

/-- The page has a sample and the value of a metric; the report of its file raises. -/
theorem one_final_not_reported :
    (finalIds oneFinal).length = 1 ∧
      storedValues (Runtime.run oneFinal) (finalIds oneFinal) ["bridge", "asrTotalMs"] = [300] ∧
      summarizeReport (Runtime.run oneFinal).exportObservations = .error (.attributeError "list") ∧
      ¬ Agrees oneFinal := by
  refine ⟨by decide +kernel, by decide +kernel, rfl, ?_⟩
  rintro ⟨report, hreport, -, -⟩
  exact absurd (hreport.symm.trans (summarizeReport_export _)) (by simp)

end SenseVoice.Page
