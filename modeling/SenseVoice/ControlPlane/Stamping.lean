import SenseVoice.ControlPlane.Relay
import SenseVoice.JsonPath

/-!
# Stamping a metric changes nothing else

`insert_metric` is a write at the path `metrics.<group>.<name>`, and `handle_bridge_event` does three of them
before it relays a message.

* `insertMetricInPlace` is the function with every write on its way down, the created levels included;
  `insertMetric` does the same in one go.
* `Stamped` is what a list of metrics written into one group leaves of an event.

Results:
* `insertMetricInPlace_eq`: giving up leaves no created level behind;
* `stamped_all`: a list of metrics, by induction on it;
* **`metric_stamping`**: one metric, two metrics in either order, and the message that is relayed.
-/

namespace SenseVoice.ControlPlane

open Value

/-- The path of a metric, by its keys. -/
def metricKeys (group name : String) : List String := ["metrics", group, name]

def metricPath (group name : String) : List PathStep := keyPath (metricKeys group name)

/-- The event is an object, and `metrics` and the group are objects or absent. -/
structure HasRoom (event : Value) (group : String) : Prop where
  object : event.IsObject
  metrics : ∀ w, event.follow [.key "metrics"] = some w → w.IsObject
  group : ∀ w, event.follow [.key "metrics", .key group] = some w → w.IsObject

/-- What the metrics, written into the group one after the other, leave of an event. -/
structure Stamped (group : String) (metrics : List (String × Value)) (event stamped : Value) : Prop where
  set : HasRoom event group → ∀ x ∈ metrics, stamped.follow (metricPath group x.1) = some x.2
  unchanged : ¬ HasRoom event group → stamped = event
  frame : ∀ path, (∀ x ∈ metrics, Apart (metricPath group x.1) path) → stamped.follow path = event.follow path

/-! ## The writes in place -/

/-- `entry(key).or_insert_with(|| Value::Object(Default::default()))` on the object at the path above. -/
def orInsertObject (keys : List String) (event : Value) : Value :=
  match event.follow (keyPath keys) with
  | some _ => event
  | none => (insertAt (.object []) keys event).getD event

/-- `insert_metric`, write by write. A `&mut Value` into the event is the path it was taken at. -/
def insertMetricInPlace (event : Value) (group name : String) (value : Value) : Value :=
  match event with
  | .object _ =>
    let event := orInsertObject ["metrics"] event
    match event.follow (keyPath ["metrics"]) with
    | some (.object _) =>
      let event := orInsertObject ["metrics", group] event
      match event.follow (keyPath ["metrics", group]) with
      | some (.object _) => (insertAt value (metricKeys group name) event).getD event
      | _ => event
    | _ => event
  | _ => event

variable {event : Value} {group name : String} {value : Value}

/-- **Giving up leaves no created level behind.** -/
theorem insertMetricInPlace_eq (event : Value) (group name : String) (value : Value) :
    insertMetricInPlace event group name value = insertMetric event group name value := by
  cases event with
  | object fields =>
    cases hm : fields.lookup "metrics" with
    | none =>
      simp [insertMetricInPlace, insertMetric, orInsertObject, keyPath, metricKeys, follow, child, insertAt,
        lookup_setField, setField_setField, hm]
    | some w =>
      cases w with
      | object metrics =>
        cases hg : metrics.lookup group with
        | none =>
          simp [insertMetricInPlace, insertMetric, orInsertObject, keyPath, metricKeys, follow, child, insertAt,
            lookup_setField, setField_setField, hm, hg]
        | some w =>
          cases w with
          | object names =>
            simp [insertMetricInPlace, insertMetric, orInsertObject, keyPath, metricKeys, follow, child, insertAt,
              hm, hg]
          | _ => simp [insertMetricInPlace, insertMetric, orInsertObject, keyPath, follow, child, hm, hg]
      | _ => simp [insertMetricInPlace, insertMetric, orInsertObject, keyPath, follow, child, hm]
  | _ => rfl

/-! ## One metric -/

/-- The function is one write at the path. -/
theorem insertMetric_eq (event : Value) (group name : String) (value : Value) :
    insertMetric event group name value = (insertAt value (metricKeys group name) event).getD event := by
  unfold insertMetric metricKeys
  cases event with
  | object fields =>
    cases hm : (fields.lookup "metrics").getD (.object []) with
    | object metrics =>
      cases hg : (metrics.lookup group).getD (.object []) with
      | object names => simp [insertAt, hm, hg]
      | _ => simp [insertAt, hm, hg]
    | _ => simp [insertAt, hm]
  | _ => rfl

/-- There is room for the metric exactly if the write succeeds. -/
theorem hasRoom_iff (name : String) : HasRoom event group ↔ Room event (metricKeys group name) := by
  constructor
  · rintro ⟨hevent, hmetrics, hgroup⟩ above habove hne w hw
    rcases above with _ | ⟨a, _ | ⟨b, _ | ⟨c, above⟩⟩⟩
    · obtain rfl := Option.some.inj hw
      exact hevent
    · obtain ⟨rfl, -⟩ := List.cons_prefix_cons.mp habove
      exact hmetrics w hw
    · obtain ⟨rfl, hrest⟩ := List.cons_prefix_cons.mp habove
      obtain ⟨rfl, -⟩ := List.cons_prefix_cons.mp hrest
      exact hgroup w hw
    · refine absurd (habove.eq_of_length_le ?_) hne
      simp [metricKeys]
  · intro h
    refine ⟨h [] List.nil_prefix (by simp [metricKeys]) event rfl, fun w hw => ?_, fun w hw => ?_⟩
    · exact h ["metrics"] (by simp [metricKeys]) (by simp [metricKeys]) w hw
    · exact h ["metrics", group] (by simp [metricKeys]) (by simp [metricKeys]) w hw

/-- The two cases of `insert_metric`. -/
theorem insertMetric_cases (event : Value) (group name : String) (value : Value) :
    HasRoom event group ∧
        insertAt value (metricKeys group name) event = some (insertMetric event group name value) ∨
      ¬ HasRoom event group ∧ insertAt value (metricKeys group name) event = none ∧
        insertMetric event group name value = event := by
  rw [insertMetric_eq, hasRoom_iff name, ← @insertAt_isSome_iff value]
  cases insertAt value (metricKeys group name) event with
  | none => exact Or.inr ⟨by simp, rfl, rfl⟩
  | some e => exact Or.inl ⟨rfl, rfl⟩

/-- Stamping neither makes room nor takes it. -/
theorem hasRoom_insertMetric : HasRoom (insertMetric event group name value) group ↔ HasRoom event group := by
  rcases insertMetric_cases event group name value with ⟨hroom, hwrite⟩ | ⟨hroom, -, hsame⟩
  · refine iff_of_true ((hasRoom_iff name).mpr fun above habove hne w hw => ?_) hroom
    obtain ⟨u, hu, hobject⟩ := follow_insertAt_above hwrite habove hne
    rw [hw] at hu
    obtain rfl := Option.some.inj hu
    exact hobject
  · rw [hsame]

theorem apart_metricPath {group' name' : String} (hne : (group, name) ≠ (group', name')) :
    Apart (metricPath group name) (metricPath group' name') := by
  constructor
  · intro h
    have heq := h.eq_of_length rfl
    simp [metricPath, metricKeys, keyPath] at heq
    exact hne (Prod.ext heq.1 heq.2)
  · intro h
    have heq := h.eq_of_length rfl
    simp [metricPath, metricKeys, keyPath] at heq
    exact hne (Prod.ext heq.1.symm heq.2.symm)

/-- **Stampings of different metrics commute.** -/
theorem insertMetric_comm {group' name' : String} (hne : (group, name) ≠ (group', name'))
    (event value value' : Value) :
    insertMetric (insertMetric event group name value) group' name' value' =
      insertMetric (insertMetric event group' name' value') group name value := by
  have hapart := apart_metricPath hne
  rcases insertMetric_cases event group name value with ⟨-, h₁⟩ | ⟨-, h₁, hsame⟩
  · rcases insertMetric_cases event group' name' value' with ⟨-, h₂⟩ | ⟨-, h₂, hsame'⟩
    · obtain ⟨e₃, hleft, hright⟩ := insertAt_diamond hapart h₁ h₂
      rw [insertMetric_eq (insertMetric event group name value), hleft,
        insertMetric_eq (insertMetric event group' name' value') group, hright]
      rfl
    · rw [hsame', insertMetric_eq (insertMetric event group name value),
        insertAt_eq_none_of_apart hapart h₁ h₂, Option.getD_none]
  · rw [hsame]
    rcases insertMetric_cases event group' name' value' with ⟨-, h₂⟩ | ⟨-, -, hsame'⟩
    · rw [insertMetric_eq (insertMetric event group' name' value') group,
        insertAt_eq_none_of_apart hapart.symm h₂ h₁, Option.getD_none]
    · rw [hsame', hsame]

theorem stamped_one (event : Value) (group name : String) (value : Value) :
    Stamped group [(name, value)] event (insertMetric event group name value) := by
  rcases insertMetric_cases event group name value with ⟨hroom, hwrite⟩ | ⟨hroom, -, hsame⟩
  · refine ⟨fun _ x hx => ?_, fun hno => absurd hroom hno, fun path hpath => ?_⟩
    · rw [List.mem_singleton.mp hx]
      exact follow_insertAt hwrite
    · exact follow_insertAt_of_apart hwrite (hpath _ List.mem_cons_self)
  · refine ⟨fun hyes => absurd hyes hroom, fun _ => hsame, fun path _ => ?_⟩
    rw [hsame]

/-! ## Several metrics -/

/-- The metrics of one group, written one after the other. -/
def insertMetrics (group : String) (metrics : List (String × Value)) (event : Value) : Value :=
  metrics.foldl (fun event x => insertMetric event group x.1 x.2) event

/-- **A list of metrics with different names.** What is written stays, since the later ones are apart from it. -/
theorem stamped_all {metrics : List (String × Value)} (hnames : (metrics.map Prod.fst).Nodup) (event : Value) :
    Stamped group metrics event (insertMetrics group metrics event) := by
  induction metrics generalizing event with
  | nil => exact ⟨fun _ x hx => absurd hx List.not_mem_nil, fun _ => rfl, fun _ _ => rfl⟩
  | cons x metrics ih =>
    obtain ⟨name, value⟩ := x
    obtain ⟨hnew, hnames⟩ := List.nodup_cons.mp hnames
    have hfirst := stamped_one event group name value
    have hrest := ih hnames (insertMetric event group name value)
    refine ⟨fun hroom x hx => ?_, fun hroom => ?_, fun path hpath => ?_⟩
    · rcases List.mem_cons.mp hx with rfl | hx
      · refine (hrest.frame _ fun y hy => apart_metricPath fun hsame => ?_).trans
          (hfirst.set hroom _ List.mem_cons_self)
        refine hnew ?_
        rw [← (Prod.mk.inj hsame).2]
        exact List.mem_map_of_mem hy
      · exact hrest.set (hasRoom_insertMetric.mpr hroom) x hx
    · exact (hrest.unchanged fun h => hroom (hasRoom_insertMetric.mp h)).trans (hfirst.unchanged hroom)
    · refine (hrest.frame path fun y hy => hpath y (List.mem_cons_of_mem _ hy)).trans (hfirst.frame path ?_)
      intro y hy
      rw [List.mem_singleton.mp hy]
      exact hpath _ List.mem_cons_self

/-- The three metrics of a relayed message. -/
def vpsMetrics (times : RelayTimes) : List (String × Value) :=
  [("bridgeEventReceivedAtUnixMs", .number (.unsigned times.receivedAt)),
    ("relayQueueMs", .number times.relayMs),
    ("clientEnqueuedAtUnixMs", .number (.unsigned times.enqueuedAt))]

theorem stamped_stamp (event : Value) (times : RelayTimes) :
    Stamped "vps" (vpsMetrics times) event (stamp event times) :=
  stamped_all (by simp [vpsMetrics]) event

/-! ## The relayed message -/

theorem relay_sends (id : Uuid) (event : Value) (times : RelayTimes) (a : AppState) :
    (relay id event times a).clientOut = a.clientOut ∨
      ∃ u, (relay id event times a).clientOut = a.clientOut ++ [(u, stamp event times)] := by
  unfold relay
  cases a.inner.clients.lookup id with
  | none => exact Or.inl rfl
  | some client =>
    dsimp only
    rw [AppState.sendClient_clientOut]
    split
    · exact Or.inr ⟨client.id, rfl⟩
    · exact Or.inl (List.append_nil _)

/-- What `handle_bridge_event` sends: nothing, or the message with its metrics. -/
theorem handleBridgeEvent_sends (message : Option Value) (times : RelayTimes) (a : AppState) :
    (handleBridgeEvent message times a).clientOut = a.clientOut ∨
      ∃ event u, message = some event ∧
        (handleBridgeEvent message times a).clientOut = a.clientOut ++ [(u, stamp event times)] := by
  unfold handleBridgeEvent
  cases hparse : BridgeEvent.parse message with
  | none => exact Or.inl rfl
  | some b =>
    have hmessage := (parse_some hparse).1
    dsimp only
    unfold applyBridgeEvent
    split
    · rename_i kind _ _
      -- the write of the state sends nothing
      cases kind.state with
      | none =>
        rcases relay_sends b.id b.message times a with hnone | ⟨u, hsent⟩
        · exact Or.inl hnone
        · exact Or.inr ⟨b.message, u, hmessage, hsent⟩
      | some state =>
        rcases relay_sends b.id b.message times (a.setState b.id state) with hnone | ⟨u, hsent⟩
        · exact Or.inl hnone
        · exact Or.inr ⟨b.message, u, hmessage, hsent⟩
    · exact Or.inl rfl

/-- What `handle_bridge_event` sends differs from the bridge's message at its metrics only. -/
def RelaysStamped (message : Option Value) (times : RelayTimes) (a : AppState) : Prop :=
  (handleBridgeEvent message times a).clientOut = a.clientOut ∨
    ∃ event u sent, message = some event ∧ Stamped "vps" (vpsMetrics times) event sent ∧
      (handleBridgeEvent message times a).clientOut = a.clientOut ++ [(u, sent)]

/-- **Metric stamping changes nothing else.** The value is set at its path whenever there is room for it, an event
without room is left as it was (no created level stays), and every path apart from it leads where it led; the order
of two different metrics does not matter; and the message that is relayed differs from the bridge's in the three
metrics only. -/
theorem metric_stamping :
    (∀ event group name value,
      insertMetricInPlace event group name value = insertMetric event group name value ∧
      Stamped group [(name, value)] event (insertMetric event group name value)) ∧
    (∀ event group name value group' name' value', (group, name) ≠ (group', name') →
      insertMetric (insertMetric event group name value) group' name' value' =
        insertMetric (insertMetric event group' name' value') group name value) ∧
    ∀ message times a, RelaysStamped message times a := by
  refine ⟨fun event group name value => ?_, fun event group name value group' name' value' hne => ?_,
    fun message times a => ?_⟩
  · exact ⟨insertMetricInPlace_eq event group name value, stamped_one event group name value⟩
  · exact insertMetric_comm hne event value value'
  · rcases handleBridgeEvent_sends message times a with hnone | ⟨event, u, hmessage, hsent⟩
    · exact Or.inl hnone
    · exact Or.inr ⟨event, u, stamp event times, hmessage, stamped_stamp event times, hsent⟩

end SenseVoice.ControlPlane
