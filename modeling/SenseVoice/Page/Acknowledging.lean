import SenseVoice.ControlPlane.Delivery
import SenseVoice.Lib.Binary64
import SenseVoice.Page.Attribution

/-!
# A page and the loop of its socket

The page of `app.js` at one end of an event socket, `client_socket` at the other: the page acknowledges every
final result it handles (the end of `recordFinalEvent`), the loop answers with an update, and the page merges the
update into its records. `Wire` has both ends and what is under way between them, in order.

* The loop sends what comes out of its channel (`send`, any message at any time) and handles the texts it gets
  (`reply`); the page handles its messages (`handle`), and does what else it does to its records (`act`: a commit,
  or the user clearing them, at any time). `leave` is the end of the page's part: `cleanupLocal` has closed the
  socket, and nothing is sent on it any more.
* The page has any records when the socket is opened (`opened`).
* `runtime.session` is set before the socket is opened and until it is closed, and it is the session of the socket.
* A number goes through `JSON.parse` and `JSON.stringify` in what the page sends (`jsonNumber`).

Results:
* `wire_sublist`: in every run what is acknowledged are final results that were sent, in their order, none more
  often than it was sent;
* **`wire_conserved`**: while the loop's map does not overflow and the page does not leave, the results that are
  acknowledged, those whose acknowledgement is under way and those that are under way are what was sent;
* **`finals_timed`**: then every final result ends with its delivery time in the page's record of its utterance,
  unless the records were cleared after its answer had come.
-/

namespace SenseVoice.Page

open Lib ControlPlane

/-! ## What the page sends -/

/-- A number after `JSON.parse` and `JSON.stringify`, as the control plane reads it. -/
def jsonNumber (n : Number) : Value :=
  match Binary64.nearest? |n.toRat| with
  | none => .null
  | some m =>
    let q := if n.toRat < 0 then -m.value else m.value
    if q.den = 1 ∧ 0 ≤ q ∧ q < 2 ^ 64 then .number (.unsigned q.num.toNat)
    else if q.den = 1 ∧ -2 ^ 63 ≤ q ∧ q < 0 then .number (.negative q.num)
    else .number (.float q)

/-- A field of an event, sent back. Numbers inside arrays and objects are left as they are: nothing reads them. -/
def sentBack : Value → Value
  | .number n => jsonNumber n
  | v => v

/-- What `recordFinalEvent` sends. -/
def resultAck (sessionId : Uuid) (event : Value) : Value :=
  jsObject [("type", some (.string "client.result_ack")), ("sessionId", some (.string sessionId)),
    ("utteranceId", (event.get "utteranceId").map sentBack), ("eventType", some (.string "asr.final")),
    ("seq", (event.get "seq").map sentBack)]

/-- What a call of `handleServerEvent` sends. -/
def Call.sends (sessionId : Uuid) : Call → Option Value
  | .recordFinalEvent event => some (resultAck sessionId event)
  | _ => none

/-! ## Both ends -/

/-- A page, the loop of its socket, and what is under way between them. -/
structure Wire where
  loop : ClientLoop := {}
  toPage : List Value := []
  toControl : List Value := []
  page : Runtime := {}
  isOpen : Bool := true
  /-- What the loop has sent out of its channel, and the results it has answered. -/
  sent : List Value := []
  answered : List Delivery := []

/-- What happens to them. -/
inductive WireEvent where
  | send (message : Value) (now : ℕ)
  | reply (now : ℕ)
  | handle (now : ℚ)
  | act (action : Action)
  | leave

namespace Wire

variable (id : Uuid)

/-- The loop has sent a message. -/
def send (message : Value) (now : ℕ) (w : Wire) : Wire :=
  { w with
    loop := w.loop.track message now
    toPage := w.toPage ++ [message]
    sent := w.sent ++ [message] }

/-- The page handles a message. -/
def handle (message : Value) (rest : List Value) (now : ℚ) (w : Wire) : Wire :=
  { w with
    toPage := rest
    page := w.page.act (.received message now)
    toControl := w.toControl ++
      if w.isOpen then (handleServerEvent message).filterMap (Call.sends id) else [] }

/-- The loop handles a text. -/
def reply (text : Value) (rest : List Value) (now : ℕ) (w : Wire) : Wire :=
  match w.loop.acknowledge id (some text) now with
  | (l, none) => { w with loop := l, toControl := rest }
  | (l, some update) =>
    { w with
      loop := l
      toControl := rest
      toPage := w.toPage ++ [update]
      answered := w.answered ++ (clientDeliveryAck text id).toList }

/-- One event. -/
def step (w : Wire) : WireEvent → Option Wire
  | .send message now => some (w.send message now)
  | .reply now =>
    match w.toControl with
    | [] => none
    | text :: rest => some (w.reply id text rest now)
  | .handle now =>
    match w.toPage with
    | [] => none
    | message :: rest => some (w.handle id message rest now)
  -- messages come over the socket only
  | .act (.received _ _) => none
  | .act action => some { w with page := w.page.act action }
  | .leave => some { w with isOpen := false }

/-- The socket of a page with these records is opened. -/
def opened (page : Runtime) : Wire := { page := page }

/-- The state after these events. -/
def after (page : Runtime) (events : List WireEvent) : Wire := Run.final (step id) (opened page) events

end Wire

/-! ## Finals and their acknowledgements -/

/-- The final result that a message is. -/
def finalOf (message : Value) : Option Delivery :=
  (resultDelivery message).filter fun d => d.eventType = "asr.final"

/-- A final result names its utterance and its number, which a page can read: `RealSession` counts from 1. -/
def Readable (message : Value) : Prop :=
  message.strField "type" = some "asr.final" → ∃ d, IsResult message d ∧ d.sequence ≤ 2 ^ 53

theorem finalOf_iff {message : Value} {d : Delivery} :
    finalOf message = some d ↔ IsResult message d ∧ d.eventType = "asr.final" := by
  unfold finalOf
  rw [Option.filter_eq_some_iff, resultDelivery_iff, decide_eq_true_eq]

/-- An integer that a double holds is sent back as it is. -/
theorem jsonNumber_unsigned {n : ℕ} (h : n ≤ 2 ^ 53) : jsonNumber (.unsigned n) = .number (.unsigned n) := by
  have hbelow : ((n : ℕ) : ℚ) * 2 ^ (0 : ℤ) < Binary64.overflow := by
    have hn : (n : ℚ) ≤ 2 ^ 53 := by exact_mod_cast h
    have hone : ∀ k : ℤ, 0 ≤ k → (1 : ℚ) ≤ 2 ^ k := fun k hk => one_le_zpow₀ one_le_two hk
    calc (n : ℚ) * 2 ^ (0 : ℤ) ≤ 2 ^ 53 := by rwa [zpow_zero, mul_one]
      _ < (2 ^ 54 - 1) * 1 := by norm_num
      _ ≤ (2 ^ 54 - 1) * 2 ^ (970 : ℤ) := mul_le_mul_of_nonneg_left (hone 970 (by decide)) (by norm_num)
      _ = Binary64.overflow := Binary64.overflow_eq.symm
  have hvalue : (⟨n, 0, h, by norm_num, hbelow⟩ : Binary64.Magnitude).value = n := by
    simp [Binary64.Magnitude.value]
  have hrat : (Number.unsigned n).toRat = n := rfl
  have hnearest := Binary64.nearest?_value ⟨n, 0, h, by norm_num, hbelow⟩
  rw [hvalue] at hnearest
  obtain ⟨m, hm, hmn⟩ := Option.map_eq_some_iff.mp hnearest
  have habs : |(n : ℚ)| = n := abs_of_nonneg (Nat.cast_nonneg n)
  have hneg : ¬ (n : ℚ) < 0 := not_lt.mpr (Nat.cast_nonneg n)
  have hlt : (n : ℚ) < 2 ^ 64 := by exact_mod_cast Nat.lt_of_le_of_lt h (by norm_num)
  unfold jsonNumber
  rw [hrat, habs, hm]
  simp only [hneg, if_false, hmn, Rat.den_natCast, Nat.cast_nonneg, hlt, and_self, if_true, Rat.num_natCast,
    Int.toNat_natCast]

/-- **The page acknowledges the final result that it handles.** -/
theorem isAck_resultAck (id : Uuid) {message : Value} {d : Delivery} (h : finalOf message = some d)
    (hseq : d.sequence ≤ 2 ^ 53) : IsAck id (resultAck id message) d := by
  obtain ⟨hresult, hfinal⟩ := finalOf_iff.mp h
  obtain ⟨v, hv, hstring⟩ := Option.bind_eq_some_iff.mp hresult.utteranceId
  obtain ⟨w, hw, hnumber⟩ := Option.bind_eq_some_iff.mp hresult.sequence
  have hvalue : v = .string d.utteranceId := by
    cases v <;> simp [Value.asStr] at hstring
    rw [hstring]
  have hwalue : w = .number (.unsigned d.sequence) := by
    cases w with
    | number n => cases n <;> simp [Value.asU64] at hnumber; rw [hnumber]
    | _ => simp [Value.asU64] at hnumber
  unfold resultAck jsObject
  refine ⟨?_, ?_, hresult.valid, ?_, ?_, ?_⟩ <;>
    simp [hv, hw, hvalue, hwalue, jsonNumber_unsigned hseq, hfinal, sentBack, Value.json, Value.strField,
      Value.lookup_setField, Value.asStr, Value.asU64]

/-- The calls for a message that is no final result send nothing. -/
theorem sends_other {id : Uuid} {message : Value} (h : message.strField "type" ≠ some "asr.final") :
    (handleServerEvent message).filterMap (Call.sends id) = [] := by
  unfold handleServerEvent
  simp only [h, if_false]
  split_ifs <;> rfl

theorem sends_final {id : Uuid} {message : Value} (h : message.strField "type" = some "asr.final") :
    (handleServerEvent message).filterMap (Call.sends id) = [resultAck id message] := by
  unfold handleServerEvent
  simp only [h, Option.some.injEq, String.reduceEq, if_false, if_true]
  rfl

/-- What the page sends for a message, as the control plane reads it: an acknowledgement of the final result that
the message is. -/
theorem acks_handled (id : Uuid) {message : Value} (h : Readable message) :
    ((handleServerEvent message).filterMap (Call.sends id)).map (clientDeliveryAck · id) =
      (finalOf message).toList.map some := by
  by_cases htype : message.strField "type" = some "asr.final"
  · obtain ⟨d, hresult, hseq⟩ := h htype
    have hfinal : finalOf message = some d :=
      finalOf_iff.mpr ⟨hresult, Option.some.inj (hresult.eventType.symm.trans htype)⟩
    rw [sends_final htype, hfinal, List.map_singleton, clientDeliveryAck_iff.mpr (isAck_resultAck id hfinal hseq)]
    rfl
  · have hnone : finalOf message = none := by
      rw [Option.eq_none_iff_forall_ne_some]
      intro d hd
      obtain ⟨hresult, hfinal⟩ := finalOf_iff.mp hd
      exact htype (hfinal ▸ hresult.eventType)
    rw [sends_other htype, hnone]
    rfl

/-- An update is no final result. -/
theorem finalOf_ackUpdate (id : Uuid) (d : Delivery) (ackRttMs : ℚ) : finalOf (ackUpdate id d ackRttMs) = none := by
  have htype : (ackUpdate id d ackRttMs).strField "type" = some "trace.update" := (ackUpdate_fields id d ackRttMs).1
  rw [Option.eq_none_iff_forall_ne_some]
  intro e he
  obtain ⟨hresult, hfinal⟩ := finalOf_iff.mp he
  exact absurd (htype.symm.trans (hfinal ▸ hresult.eventType)) (by simp)

/-! ## What is under way -/

namespace Wire

variable {id : Uuid} {w v : Wire}

/-- The final results that were sent. -/
def sentFinals (w : Wire) : List Delivery := w.sent.filterMap finalOf

/-- The results that are acknowledged, those whose acknowledgement is under way, and those that are. -/
def underWay (id : Uuid) (w : Wire) : List Delivery :=
  w.answered ++ (w.toControl.filterMap (clientDeliveryAck · id) ++ w.toPage.filterMap finalOf)

/-- Every text that is under way acknowledges something, and every message can be read. -/
structure Legible (id : Uuid) (w : Wire) : Prop where
  texts : ∀ text ∈ w.toControl, (clientDeliveryAck text id).isSome = true
  messages : ∀ message ∈ w.toPage, Readable message

/-- What an event makes of both ends. -/
inductive Stepped (id : Uuid) (w : Wire) : WireEvent → Wire → Prop
  | sent (message : Value) (now : ℕ) : Stepped id w (.send message now) (w.send message now)
  | replied {text : Value} {rest : List Value} (hcontrol : w.toControl = text :: rest) (now : ℕ) :
      Stepped id w (.reply now) (w.reply id text rest now)
  | handled {message : Value} {rest : List Value} (hpage : w.toPage = message :: rest) (now : ℚ) :
      Stepped id w (.handle now) (w.handle id message rest now)
  | acted {action : Action} (hown : ∀ event now, action ≠ .received event now) :
      Stepped id w (.act action) { w with page := w.page.act action }
  | left : Stepped id w .leave { w with isOpen := false }

theorem step_cases {e : WireEvent} (h : step id w e = some v) : Stepped id w e v := by
  cases e with
  | send message now =>
    obtain rfl := Option.some.inj h
    exact .sent message now
  | reply now =>
    cases hcontrol : w.toControl with
    | nil => simp [step, hcontrol] at h
    | cons text rest =>
      simp only [step, hcontrol] at h
      obtain rfl := Option.some.inj h
      exact .replied hcontrol now
  | handle now =>
    cases hpage : w.toPage with
    | nil => simp [step, hpage] at h
    | cons message rest =>
      simp only [step, hpage] at h
      obtain rfl := Option.some.inj h
      exact .handled hpage now
  | act action =>
    cases action with
    | received event now => cases h
    | _ =>
      obtain rfl := Option.some.inj h
      exact .acted fun event now => by simp
  | leave =>
    obtain rfl := Option.some.inj h
    exact .left

/-- How the loop handles an acknowledgement. -/
theorem reply_cases {text : Value} {d : Delivery} (hack : clientDeliveryAck text id = some d) (rest : List Value)
    (now : ℕ) (w : Wire) :
    (w.loop.pendingDeliveries.lookup (deliveryKey d) = none ∧
        w.reply id text rest now = { w with toControl := rest }) ∨
      ∃ sentAt, w.loop.pendingDeliveries.lookup (deliveryKey d) = some sentAt ∧
        w.reply id text rest now =
          { w with
            loop := { w.loop with pendingDeliveries := w.loop.pendingDeliveries.erase (deliveryKey d) }
            toControl := rest
            toPage := w.toPage ++ [ackUpdate id d (elapsedMs sentAt now)]
            answered := w.answered ++ [d] } := by
  unfold reply
  rcases acknowledge_cases w.loop now (clientDeliveryAck_iff.mp hack) with ⟨hnone, hsame⟩ | ⟨sentAt, hsome, hstep⟩
  · exact Or.inl ⟨hnone, by rw [hsame]⟩
  · exact Or.inr ⟨sentAt, hsome, by rw [hstep, hack]; rfl⟩

/-! ### Runs that lose nothing -/

/-- What is sent out of the channel can be read by the page. -/
def Legal (e : WireEvent) : Prop := ∀ message now, e = .send message now → Readable message

/-- The loop has room for the result that it sends. -/
def HasRoom (x : Run.Taken Wire WireEvent) : Prop :=
  ∀ message now, x.event = .send message now → (resultDelivery message).isSome = true →
    x.before.loop.pendingDeliveries.entries.length < maxPendingDeliveries

/-- The loop has room for what it sends, no result is sent twice, and the page stays. -/
structure Lossless (id : Uuid) (page : Runtime) (events : List WireEvent) : Prop where
  legal : ∀ e ∈ events, Legal e
  stays : .leave ∉ events
  room : ∀ x ∈ Run.trace (step id) (opened page) events, HasRoom x
  distinct : (after id page events).sentFinals.Nodup

/-- What was sent stays sent. -/
theorem sent_of_final (bs : List WireEvent) (w : Wire) : w.sent <+: (Run.final (step id) w bs).sent := by
  refine Run.final_of_step (P := fun t : Wire => w.sent <+: t.sent) (fun t e u ht hstep => ?_)
    (List.prefix_refl _) bs
  cases step_cases hstep with
  | sent message now =>
    exact ht.trans (List.prefix_append _ _)
  | @replied text rest hcontrol now =>
    have hsame : (t.reply id text rest now).sent = t.sent := by
      unfold reply
      split <;> rfl
    rwa [hsame]
  | @handled message rest hpage now =>
    exact ht
  | acted hown =>
    exact ht
  | left =>
    exact ht

theorem sent_of_trace {page : Runtime} {es : List WireEvent} {x : Run.Taken Wire WireEvent}
    (h : x ∈ Run.trace (step id) (opened page) es) :
    x.before.sent <+: (after id page es).sent := by
  obtain ⟨⟨as, bs, rfl, hbefore⟩, -⟩ := Run.mem_trace h
  rw [after, Run.final_append, hbefore]
  exact sent_of_final _ _

/-- The map has at most the results that were sent. -/
theorem pending_le (h : w.loop.pendingDeliveries.entries.length ≤ (w.sent.filterMap resultDelivery).length)
    {e : WireEvent} (hstep : step id w e = some v) :
    v.loop.pendingDeliveries.entries.length ≤ (v.sent.filterMap resultDelivery).length := by
  cases step_cases hstep with
  | sent message now =>
    simp only [send, List.filterMap_append, List.length_append]
    cases hresult : resultDelivery message with
    | none =>
      unfold ClientLoop.track
      rw [hresult]
      exact Nat.le_trans h (Nat.le_add_right _ _)
    | some d =>
      have hkept : (keptPending w.loop).entries.length ≤ w.loop.pendingDeliveries.entries.length := by
        unfold keptPending
        split
        · exact Nat.zero_le _
        · exact Nat.le_refl _
      have hinsert := Table.length_insert_le (keptPending w.loop) (deliveryKey d) now
      rw [track_result hresult]
      simp only [List.filterMap_cons, hresult, List.filterMap_nil, List.length_singleton]
      omega
  | @replied text rest hcontrol now =>
    cases hack : clientDeliveryAck text id with
    | none =>
      have hnone : w.loop.acknowledge id (some text) now = (w.loop, none) := by
        unfold ClientLoop.acknowledge
        rw [Option.bind_some, hack]
      unfold reply
      rw [hnone]
      exact h
    | some d =>
      rcases reply_cases hack rest now w with ⟨-, hreply⟩ | ⟨sentAt, -, hreply⟩ <;> rw [hreply]
      · exact h
      · exact Nat.le_trans (Table.length_erase_le _ _) h
  | @handled message rest hpage now =>
    exact h
  | acted hown =>
    exact h
  | left =>
    exact h

/-- A socket that carries no more results than the map may hold never overflows it. -/
theorem hasRoom_of_few (id : Uuid) (page : Runtime) (events : List WireEvent)
    (h : ((after id page events).sent.filterMap resultDelivery).length ≤ maxPendingDeliveries) :
    ∀ x ∈ Run.trace (step id) (opened page) events, HasRoom x := by
  intro x hx message now hevent hresult
  have hbefore := Run.before_of_trace (s := opened page) (P := fun w : Wire =>
    w.loop.pendingDeliveries.entries.length ≤ (w.sent.filterMap resultDelivery).length) (Nat.le_refl 0)
    (fun y hy hw => pending_le hw (Run.mem_trace hy).2) x hx
  -- the message is one of the results that are sent
  obtain ⟨⟨as, bs, rfl, hat⟩, hstep⟩ := Run.mem_trace hx
  rw [hevent] at hstep
  have hafter : x.after.sent <+: (after id page (as ++ x.event :: bs)).sent := by
    rw [hevent, after, Run.final_append, hat, Run.final, hstep]
    exact sent_of_final bs x.after
  have hsent : x.after.sent = x.before.sent ++ [message] := by
    rw [← Option.some.inj hstep]
    rfl
  have hcount := (hafter.filterMap resultDelivery).length_le
  obtain ⟨d, hd⟩ := Option.isSome_iff_exists.mp hresult
  rw [hsent, List.filterMap_append, List.length_append, List.filterMap_cons, hd] at hcount
  simp only [List.filterMap_nil, List.length_singleton] at hcount
  omega

/-- A final result is sent, acknowledged and answered. -/
def oneResult : List WireEvent :=
  [.send (.json [("type", .string "asr.final"), ("sessionId", .string "s"), ("utteranceId", .string "s:1"),
    ("seq", .number (.unsigned 1)), ("text", .string "hello")]) 0, .handle 5, .reply 9000000, .handle 11]

theorem oneResult_lossless : Lossless "s" {} oneResult := by
  have hsent : ((after "s" {} oneResult).sent.filterMap resultDelivery).length = 1 := by decide +kernel
  refine ⟨?_, by simp [oneResult], hasRoom_of_few _ _ _ (by rw [hsent]; decide), by decide +kernel⟩
  intro e he message now hevent _
  subst hevent
  simp only [oneResult, List.mem_cons, WireEvent.send.injEq, reduceCtorEq, List.not_mem_nil, or_false] at he
  obtain ⟨rfl, -⟩ := he
  refine ⟨⟨"asr.final", "s:1", 1⟩, ⟨rfl, ?_, ?_, ?_⟩, by norm_num⟩ <;>
    simp [Value.json, Value.strField, Value.lookup_setField, Value.asStr, Value.asU64]

/-! ### Safety -/

theorem legible_opened (id : Uuid) (page : Runtime) : Legible id (opened page) :=
  ⟨by simp [opened], by simp [opened]⟩

theorem legible_send (h : Legible id w) {message : Value} (hm : Readable message) (now : ℕ) :
    Legible id (w.send message now) := by
  refine ⟨h.texts, fun m hmem => ?_⟩
  rcases List.mem_append.mp hmem with hmem | hmem
  · exact h.messages m hmem
  · exact List.mem_singleton.mp hmem ▸ hm

theorem legible_handle (h : Legible id w) {message : Value} {rest : List Value}
    (hpage : w.toPage = message :: rest) (now : ℚ) : Legible id (w.handle id message rest now) := by
  have hmessages := h.messages
  rw [hpage, List.forall_mem_cons] at hmessages
  refine ⟨fun text htext => ?_, hmessages.2⟩
  rcases List.mem_append.mp htext with htext | htext
  · exact h.texts text htext
  · split at htext
    · have hack := List.mem_map_of_mem (f := (clientDeliveryAck · id)) htext
      rw [acks_handled id hmessages.1] at hack
      obtain ⟨d, -, hd⟩ := List.mem_map.mp hack
      rw [← hd]
      rfl
    · exact absurd htext List.not_mem_nil

theorem readable_ackUpdate (id : Uuid) (d : Delivery) (ackRttMs : ℚ) : Readable (ackUpdate id d ackRttMs) := by
  intro htype
  exact absurd ((ackUpdate_fields id d ackRttMs).1.symm.trans htype) (by simp)

theorem legible_reply (h : Legible id w) {text : Value} {rest : List Value} (hcontrol : w.toControl = text :: rest)
    (now : ℕ) : Legible id (w.reply id text rest now) := by
  have htexts := h.texts
  rw [hcontrol, List.forall_mem_cons] at htexts
  obtain ⟨d, hd⟩ := Option.isSome_iff_exists.mp htexts.1
  rcases reply_cases hd rest now w with ⟨-, hreply⟩ | ⟨sentAt, -, hreply⟩ <;> rw [hreply]
  · exact ⟨htexts.2, h.messages⟩
  · refine ⟨htexts.2, fun m hmem => ?_⟩
    rcases List.mem_append.mp hmem with hmem | hmem
    · exact h.messages m hmem
    · exact List.mem_singleton.mp hmem ▸ readable_ackUpdate id d _

/-- What a handled message makes of the acknowledgements under way. -/
theorem acks_handle (h : Legible id w) {message : Value} {rest : List Value} (hpage : w.toPage = message :: rest)
    (now : ℚ) :
    (w.handle id message rest now).toControl.filterMap (clientDeliveryAck · id) =
      w.toControl.filterMap (clientDeliveryAck · id) ++ if w.isOpen then (finalOf message).toList else [] := by
  have hread : Readable message := h.messages message (hpage ▸ List.mem_cons_self)
  have hacks : ((handleServerEvent message).filterMap (Call.sends id)).filterMap (clientDeliveryAck · id) =
      (finalOf message).toList := by
    have hmap := congrArg (List.filterMap fun o => o) (acks_handled id hread)
    rw [List.filterMap_map, List.filterMap_map] at hmap
    simpa using hmap
  unfold handle
  rw [List.filterMap_append]
  cases w.isOpen with
  | true => simp only [if_true, hacks]
  | false => rfl

theorem finals_cons {message : Value} {rest : List Value} :
    (message :: rest).filterMap finalOf = (finalOf message).toList ++ rest.filterMap finalOf := by
  rw [List.filterMap_cons]
  cases finalOf message <;> rfl

theorem acks_cons {text : Value} {rest : List Value} :
    (text :: rest).filterMap (clientDeliveryAck · id) =
      (clientDeliveryAck text id).toList ++ rest.filterMap (clientDeliveryAck · id) := by
  rw [List.filterMap_cons]
  cases clientDeliveryAck text id <;> rfl

theorem underWay_send (message : Value) (now : ℕ) :
    underWay id (w.send message now) = underWay id w ++ (finalOf message).toList := by
  simp only [underWay, send, List.filterMap_append, finals_cons, List.filterMap_nil, List.append_nil,
    List.append_assoc]

theorem sentFinals_send (message : Value) (now : ℕ) :
    (w.send message now).sentFinals = w.sentFinals ++ (finalOf message).toList := by
  simp only [sentFinals, send, List.filterMap_append, finals_cons, List.filterMap_nil, List.append_nil]

/-- An acknowledgement that is answered is under way no more, and acknowledged. -/
theorem underWay_answered {text : Value} {rest : List Value} {d : Delivery} (hcontrol : w.toControl = text :: rest)
    (hd : clientDeliveryAck text id = some d) {l : ClientLoop} {ackRttMs : ℚ} :
    underWay id { w with
      loop := l
      toControl := rest
      toPage := w.toPage ++ [ackUpdate id d ackRttMs]
      answered := w.answered ++ [d] } = underWay id w := by
  simp only [underWay, hcontrol, acks_cons, hd, Option.toList_some, List.filterMap_append, finals_cons,
    finalOf_ackUpdate, Option.toList_none, List.filterMap_nil, List.append_nil, List.append_assoc]

/-- In every run, what is under way was sent. -/
structure Ordered (id : Uuid) (w : Wire) : Prop where
  legible : Legible id w
  finals : (underWay id w).Sublist w.sentFinals

theorem ordered_step (h : Ordered id w) {e : WireEvent} (he : Legal e) (hstep : step id w e = some v) :
    Ordered id v := by
  cases step_cases hstep with
  | sent message now =>
    refine ⟨legible_send h.legible (he message now rfl) now, ?_⟩
    rw [underWay_send, sentFinals_send]
    exact h.finals.append (List.Sublist.refl _)
  | @replied text rest hcontrol now =>
    refine ⟨legible_reply h.legible hcontrol now, ?_⟩
    obtain ⟨d, hd⟩ := Option.isSome_iff_exists.mp (h.legible.texts text (hcontrol ▸ List.mem_cons_self))
    rcases reply_cases hd rest now w with ⟨-, hreply⟩ | ⟨sentAt, -, hreply⟩ <;> rw [hreply]
    · have hdropped : (underWay id { w with toControl := rest }).Sublist (underWay id w) := by
        simp only [underWay, hcontrol, acks_cons, List.append_assoc]
        exact (List.sublist_append_right _ _).append_left _
      exact hdropped.trans h.finals
    · rw [underWay_answered hcontrol hd]
      exact h.finals
  | @handled message rest hpage now =>
    refine ⟨legible_handle h.legible hpage now, ?_⟩
    have hmoved : (underWay id (w.handle id message rest now)).Sublist (underWay id w) := by
      rw [underWay, acks_handle h.legible hpage, underWay, hpage, finals_cons, List.append_assoc]
      refine ((List.Sublist.append ?_ (List.Sublist.refl _)).append_left _).append_left _
      cases w.isOpen with
      | true => exact List.Sublist.refl _
      | false => exact List.nil_sublist _
    exact hmoved.trans h.finals
  | acted hown =>
    exact ⟨⟨h.legible.texts, h.legible.messages⟩, h.finals⟩
  | left =>
    exact ⟨⟨h.legible.texts, h.legible.messages⟩, h.finals⟩

/-- **What is acknowledged was sent**, in the same order and no more often, whatever happens. -/
theorem wire_sublist (id : Uuid) (page : Runtime) (events : List WireEvent) (hlegal : ∀ e ∈ events, Legal e) :
    (after id page events).answered.Sublist (after id page events).sentFinals := by
  have hordered : Ordered id (after id page events) := by
    refine Run.forall_states (P := Ordered id) ⟨legible_opened id page, List.Sublist.refl _⟩ (fun x hx h => ?_) _
      (Run.final_mem_states _ _)
    obtain ⟨⟨as, bs, hes, -⟩, hstep⟩ := Run.mem_trace hx
    exact ordered_step h (hlegal x.event (by simp [hes])) hstep
  exact (List.sublist_append_left _ _).trans hordered.finals

theorem wire_sublist_one : (after "s" {} oneResult).answered.Sublist (after "s" {} oneResult).sentFinals :=
  wire_sublist "s" {} oneResult oneResult_lossless.legal

/-! ### Nothing is lost -/

/-- The results under way are all that was sent, and the loop knows them. -/
structure Conserved (id : Uuid) (w : Wire) : Prop where
  legible : Legible id w
  stays : w.isOpen = true
  finals : underWay id w = w.sentFinals
  known : ∀ d ∈ w.toControl.filterMap (clientDeliveryAck · id) ++ w.toPage.filterMap finalOf,
    (w.loop.pendingDeliveries.lookup (deliveryKey d)).isSome = true

/-- A delivery that is under way is one of a result. -/
theorem valid_underWay {d : Delivery}
    (h : d ∈ w.toControl.filterMap (clientDeliveryAck · id) ++ w.toPage.filterMap finalOf) : d.Valid := by
  rcases List.mem_append.mp h with h | h
  · obtain ⟨text, -, hd⟩ := List.mem_filterMap.mp h
    exact (clientDeliveryAck_iff.mp hd).valid
  · obtain ⟨message, -, hd⟩ := List.mem_filterMap.mp h
    exact (finalOf_iff.mp hd).1.valid

/-- Tracking a message keeps what is known, if there is room. -/
theorem known_track {message : Value} {now : ℕ} {l : ClientLoop} {k : String}
    (hroom : (resultDelivery message).isSome = true → l.pendingDeliveries.entries.length < maxPendingDeliveries)
    (h : (l.pendingDeliveries.lookup k).isSome = true) :
    ((l.track message now).pendingDeliveries.lookup k).isSome = true := by
  cases hresult : resultDelivery message with
  | none =>
    unfold ClientLoop.track
    rwa [hresult]
  | some d =>
    have hkept : keptPending l = l.pendingDeliveries := if_neg (Nat.not_le_of_lt (hroom (by rw [hresult]; rfl)))
    rw [track_result hresult, hkept, Table.lookup_insert_eq]
    split
    · rfl
    · exact h

/-- A final result is known from its sending on. -/
theorem known_sent {message : Value} {now : ℕ} {l : ClientLoop} {d : Delivery} (h : finalOf message = some d) :
    ((l.track message now).pendingDeliveries.lookup (deliveryKey d)).isSome = true := by
  rw [track_result (resultDelivery_iff.mpr (finalOf_iff.mp h).1), Table.lookup_insert_eq, if_pos rfl]
  rfl

theorem conserved_step (h : Conserved id w) {e : WireEvent} (he : Legal e) (hleave : e ≠ .leave)
    (hroom : HasRoom ⟨w, e, v⟩) (hnodup : w.sentFinals.Nodup) (hstep : step id w e = some v) : Conserved id v := by
  cases step_cases hstep with
  | sent message now =>
    refine ⟨legible_send h.legible (he message now rfl) now, h.stays, ?_, fun d hd => ?_⟩
    · rw [underWay_send, sentFinals_send, h.finals]
    · simp only [send, List.filterMap_append, finals_cons, List.filterMap_nil, List.append_nil] at hd ⊢
      rw [← List.append_assoc, List.mem_append] at hd
      rcases hd with hd | hd
      · exact known_track (hroom message now rfl) (h.known d hd)
      · exact known_sent (Option.mem_toList.mp hd)
  | @replied text rest hcontrol now =>
    have hlegible := legible_reply h.legible hcontrol now
    obtain ⟨d, hd⟩ := Option.isSome_iff_exists.mp (h.legible.texts text (hcontrol ▸ List.mem_cons_self))
    have hknown := h.known
    have hvalid : ∀ e ∈ w.toControl.filterMap (clientDeliveryAck · id) ++ w.toPage.filterMap finalOf, e.Valid :=
      fun e he => valid_underWay he
    have hdistinct := h.finals ▸ hnodup
    unfold underWay at hdistinct
    rw [hcontrol, acks_cons, hd, Option.toList_some, List.append_assoc, List.singleton_append]
      at hknown hvalid hdistinct
    rw [List.forall_mem_cons] at hknown hvalid
    have hnotin := (List.nodup_cons.mp (List.nodup_append.mp hdistinct).2.1).1
    rcases reply_cases hd rest now w with ⟨hnone, -⟩ | ⟨sentAt, -, hreply⟩
    · rw [hnone] at hknown
      exact absurd hknown.1 (by simp)
    · rw [hreply] at hlegible ⊢
      refine ⟨hlegible, h.stays, (underWay_answered hcontrol hd).trans h.finals, fun e he => ?_⟩
      rw [List.filterMap_append, finals_cons, finalOf_ackUpdate] at he
      simp only [Option.toList_none, List.filterMap_nil, List.append_nil] at he
      have hkey : deliveryKey e ≠ deliveryKey d := fun hkey =>
        hnotin (deliveryKey_injective (hvalid.2 e he) hvalid.1 hkey ▸ he)
      rw [Table.lookup_erase_eq, if_neg hkey]
      exact hknown.2 e he
  | @handled message rest hpage now =>
    have hacks := acks_handle h.legible hpage now
    rw [h.stays, if_pos rfl] at hacks
    have hflow : (w.handle id message rest now).toControl.filterMap (clientDeliveryAck · id) ++
        rest.filterMap finalOf =
        w.toControl.filterMap (clientDeliveryAck · id) ++ w.toPage.filterMap finalOf := by
      rw [hacks, hpage, finals_cons, List.append_assoc]
    refine ⟨legible_handle h.legible hpage now, h.stays, ?_, fun d hd => h.known d (hflow ▸ hd)⟩
    refine Eq.trans ?_ h.finals
    exact congrArg (w.answered ++ ·) hflow
  | acted hown => exact ⟨⟨h.legible.texts, h.legible.messages⟩, h.stays, h.finals, h.known⟩
  | left => exact absurd rfl hleave

theorem conserved_after {page : Runtime} {events : List WireEvent} (h : Lossless id page events) :
    Conserved id (after id page events) := by
  have hopened : Conserved id (opened page) := ⟨legible_opened id page, rfl, rfl, by simp [opened]⟩
  refine Run.forall_states (P := Conserved id) hopened (fun x hx hw => ?_) _ (Run.final_mem_states _ _)
  obtain ⟨⟨as, bs, hes, -⟩, hstep⟩ := Run.mem_trace hx
  refine conserved_step hw (h.legal x.event (by simp [hes])) ?_ (h.room x hx) ?_ hstep
  · rintro hleave
    exact h.stays (by simp [hes, hleave])
  · exact h.distinct.sublist ((sent_of_trace hx).sublist.filterMap _)

/-- **Nothing is lost** while the loop has room for the results it sends and the page stays: the final results that
are acknowledged, those whose acknowledgement is under way, and those under way to the page are, in this order,
what was sent. -/
theorem wire_conserved (id : Uuid) (page : Runtime) (events : List WireEvent) (h : Lossless id page events) :
    underWay id (after id page events) = (after id page events).sentFinals :=
  (conserved_after h).finals

theorem wire_conserved_one : underWay "s" (after "s" {} oneResult) = (after "s" {} oneResult).sentFinals :=
  wire_conserved "s" {} oneResult oneResult_lossless

end Wire

/-! ## The delivery times on the page -/

/-- The time between the sending of a result and its acknowledgement, in the record of an utterance. -/
def deliveryMs (metrics : List (String × Value)) : Option Value := metricAt metrics "delivery" "vpsBrowserAckRttMs"

/-- The page has a delivery time of the utterance. -/
def Timed (utteranceId : String) (r : Runtime) : Prop :=
  ∃ trace, recorded utteranceId r = some trace ∧ (deliveryMs trace.metrics).isSome = true

/-- The message brings no delivery time. -/
def Untimed (message : Value) : Prop := ((message.get "metrics").bind fun v => v.get "delivery") = none

/-- A message without one leaves the time that is recorded. -/
theorem deliveryMs_merge_untimed {message : Value} (h : Untimed message) (metrics : List (String × Value)) :
    deliveryMs (mergeObjects metrics (message.get "metrics")) = deliveryMs metrics := by
  unfold Untimed at h
  cases hmetrics : message.get "metrics" with
  | none => rfl
  | some v =>
    rw [hmetrics, Option.bind_some] at h
    cases v with
    | object fields =>
      have hnone : fields.lookup "delivery" = none := h
      unfold deliveryMs metricAt mergeObjects
      rw [lookup_mergeFields, hnone]
      rfl
    | _ => rfl

/-- An answer brings the time. -/
theorem deliveryMs_merge_ackUpdate (id : Uuid) (d : Delivery) (ackRttMs : ℚ) (metrics : List (String × Value)) :
    (deliveryMs (mergeObjects metrics ((ackUpdate id d ackRttMs).get "metrics"))).isSome = true := by
  have hmetrics : (ackUpdate id d ackRttMs).get "metrics" = some (.json [("delivery",
      .json [("vpsBrowserAckRttMs", .number (.float ackRttMs)),
        ("estimatedVpsToBrowserMs", .number (.float (roundHalfUp (ackRttMs * 50) / 100)))])]) := by
    simp [ackUpdate, Value.json, Value.lookup_setField]
  rw [hmetrics]
  simp [deliveryMs, metricAt, mergeObjects, Value.json, lookup_mergeFields, Value.lookup_setField, mergeValue]

theorem concerns_ackUpdate (id : Uuid) {d : Delivery} (h : d.utteranceId ≠ "") (ackRttMs : ℚ) :
    Concerns d.utteranceId (ackUpdate id d ackRttMs) := by
  refine ⟨?_, Or.inr ⟨(ackUpdate_fields id d ackRttMs).1, h⟩⟩
  simp [ackUpdate, Value.json, Value.lookup_setField]

/-- A message that brings a time, or none, leaves an utterance timed. -/
theorem Timed.received {utteranceId : String} {r : Runtime} (h : Timed utteranceId r) {message : Value}
    (hm : Untimed message ∨ ∃ id d ackRttMs, message = ackUpdate id d ackRttMs) (now : ℚ) :
    Timed utteranceId (r.act (.received message now)) := by
  obtain ⟨trace, hrecorded, htimed⟩ := h
  obtain ⟨hmerged, hkept⟩ := recorded_received utteranceId message now r
  by_cases hconcerns : Concerns utteranceId message
  · obtain ⟨trace', hrecorded', hmetrics⟩ := hmerged hconcerns
    have htrace : traceIn (some (.string utteranceId)) r.traces = trace := by
      have hget : mapGet (some (.string utteranceId)) r.traces = some trace := hrecorded
      rw [traceIn, hget, Option.getD_some]
    refine ⟨trace', hrecorded', ?_⟩
    rw [hmetrics, htrace]
    rcases hm with hm | ⟨id, d, ackRttMs, rfl⟩
    · rw [deliveryMs_merge_untimed hm]
      exact htimed
    · exact deliveryMs_merge_ackUpdate id d ackRttMs _
  · exact ⟨trace, (hkept hconcerns).trans hrecorded, htimed⟩

/-- The answer to an acknowledgement times its utterance. -/
theorem timed_ackUpdate (id : Uuid) {d : Delivery} (h : d.utteranceId ≠ "") (ackRttMs : ℚ) (now : ℚ) (r : Runtime) :
    Timed d.utteranceId (r.act (.received (ackUpdate id d ackRttMs) now)) := by
  obtain ⟨trace, hrecorded, hmetrics⟩ :=
    (recorded_received d.utteranceId _ now r).1 (concerns_ackUpdate id h ackRttMs)
  exact ⟨trace, hrecorded, by rw [hmetrics]; exact deliveryMs_merge_ackUpdate id d ackRttMs _⟩

/-- What the page does by itself keeps the times, unless it clears its records. -/
theorem Timed.acted {utteranceId : String} {r : Runtime} (h : Timed utteranceId r) {action : Action}
    (hown : ∀ event now, action ≠ .received event now) (hclear : action ≠ .clear) :
    Timed utteranceId (r.act action) := by
  have hsame : (r.act action).traces = r.traces := by
    cases action with
    | received event now => exact absurd rfl (hown event now)
    | commitFailed committedAt =>
      unfold Runtime.act
      dsimp only
      split <;> rfl
    | clear => exact absurd rfl hclear
    | _ => rfl
  obtain ⟨trace, hrecorded, htimed⟩ := h
  refine ⟨trace, ?_, htimed⟩
  unfold recorded at hrecorded ⊢
  rwa [hsame]

namespace Wire

variable {id : Uuid} {w v : Wire} {old : Delivery → Prop}

/-- The answer to the acknowledgement of a result has come: the page has handled it. -/
def Settled (id : Uuid) (w : Wire) (d : Delivery) : Prop :=
  d ∈ w.answered ∧ ∀ ackRttMs, ackUpdate id d ackRttMs ∉ w.toPage

/-- The answered results are timed, or their answer is under way, but for old ones. -/
structure Timely (id : Uuid) (old : Delivery → Prop) (w : Wire) : Prop where
  legible : Legible id w
  messages : ∀ message ∈ w.toPage, Untimed message ∨ ∃ id d ackRttMs, message = ackUpdate id d ackRttMs
  timed : ∀ d ∈ w.answered, d.utteranceId ≠ "" →
    old d ∨ Timed d.utteranceId w.page ∨ ∃ ackRttMs, ackUpdate id d ackRttMs ∈ w.toPage

theorem timely_step (h : Timely id old w) {e : WireEvent} (he : Legal e)
    (huntimed : ∀ message now, e = .send message now → Untimed message) (hclear : e = .act .clear → ∀ d, old d)
    (hstep : step id w e = some v) : Timely id old v := by
  cases step_cases hstep with
  | sent message now =>
    refine ⟨legible_send h.legible (he message now rfl) now, fun m hm => ?_, fun d hd hne => ?_⟩
    · rcases List.mem_append.mp hm with hm | hm
      · exact h.messages m hm
      · exact Or.inl (List.mem_singleton.mp hm ▸ huntimed message now rfl)
    · rcases h.timed d hd hne with hold | htimed | ⟨ackRttMs, hmem⟩
      · exact Or.inl hold
      · exact Or.inr (Or.inl htimed)
      · exact Or.inr (Or.inr ⟨ackRttMs, List.mem_append_left _ hmem⟩)
  | @replied text rest hcontrol now =>
    have hlegible := legible_reply h.legible hcontrol now
    obtain ⟨d, hd⟩ := Option.isSome_iff_exists.mp (h.legible.texts text (hcontrol ▸ List.mem_cons_self))
    rcases reply_cases hd rest now w with ⟨-, hreply⟩ | ⟨sentAt, -, hreply⟩ <;> rw [hreply] at hlegible ⊢
    · exact ⟨hlegible, h.messages, h.timed⟩
    · refine ⟨hlegible, fun m hm => ?_, fun e he hne => ?_⟩
      · rcases List.mem_append.mp hm with hm | hm
        · exact h.messages m hm
        · exact Or.inr ⟨id, d, _, List.mem_singleton.mp hm⟩
      · rcases List.mem_append.mp he with he | he
        · rcases h.timed e he hne with hold | htimed | ⟨ackRttMs, hmem⟩
          · exact Or.inl hold
          · exact Or.inr (Or.inl htimed)
          · exact Or.inr (Or.inr ⟨ackRttMs, List.mem_append_left _ hmem⟩)
        · obtain rfl := List.mem_singleton.mp he
          exact Or.inr (Or.inr ⟨_, List.mem_append_right _ (List.mem_singleton.mpr rfl)⟩)
  | @handled message rest hpage now =>
    have hmessages := h.messages
    rw [hpage, List.forall_mem_cons] at hmessages
    refine ⟨legible_handle h.legible hpage now, hmessages.2, fun d hd hne => ?_⟩
    rcases h.timed d hd hne with hold | htimed | ⟨ackRttMs, hmem⟩
    · exact Or.inl hold
    · exact Or.inr (Or.inl (htimed.received hmessages.1 now))
    · rw [hpage] at hmem
      rcases List.mem_cons.mp hmem with rfl | hmem
      · exact Or.inr (Or.inl (timed_ackUpdate id hne ackRttMs now w.page))
      · exact Or.inr (Or.inr ⟨ackRttMs, hmem⟩)
  | @acted action hown =>
    refine ⟨⟨h.legible.texts, h.legible.messages⟩, h.messages, fun d hd hne => ?_⟩
    by_cases hcleared : action = .clear
    · exact Or.inl (hclear (hcleared ▸ rfl) d)
    · rcases h.timed d hd hne with hold | htimed | hmem
      · exact Or.inl hold
      · exact Or.inr (Or.inl (htimed.acted hown hcleared))
      · exact Or.inr (Or.inr hmem)
  | left =>
    exact ⟨⟨h.legible.texts, h.legible.messages⟩, h.messages, h.timed⟩

/-- A run from a state where the answered results are timed, in which the page clears nothing that counts. -/
theorem timely_run (h : Timely id old w) {events : List WireEvent} (hlegal : ∀ e ∈ events, Legal e)
    (huntimed : ∀ message now, .send message now ∈ events → Untimed message)
    (hclear : .act .clear ∈ events → ∀ d, old d) : Timely id old (Run.final (step id) w events) := by
  refine Run.forall_states (P := Timely id old) h (fun x hx hw => ?_) _ (Run.final_mem_states _ _)
  obtain ⟨⟨as, bs, hes, -⟩, hstep⟩ := Run.mem_trace hx
  have hmem : x.event ∈ events := by simp [hes]
  exact timely_step hw (hlegal x.event hmem) (fun message now hevent => huntimed message now (hevent ▸ hmem))
    (fun hevent => hclear (hevent ▸ hmem)) hstep

/-- What has been answered so far is old, or its answer is under way. -/
theorem timely_settled (h : Timely id (fun _ => True) w) : Timely id (Settled id w) w := by
  refine ⟨h.legible, h.messages, fun d hd _ => ?_⟩
  by_cases hmem : ∃ ackRttMs, ackUpdate id d ackRttMs ∈ w.toPage
  · exact Or.inr (Or.inr hmem)
  · exact Or.inl ⟨hd, not_exists.mp hmem⟩

/-- **Every final result ends with its delivery time**: once nothing is under way, the page has the time in the
record of each utterance that a final result was sent for, but for those whose answer had come when the records
were last cleared (after the events `pre`). -/
theorem finals_timed (id : Uuid) (page : Runtime) (pre post : List WireEvent) (h : Lossless id page (pre ++ post))
    (huntimed : ∀ message now, .send message now ∈ pre ++ post → Untimed message)
    (hkept : .act .clear ∉ post)
    (hpage : (after id page (pre ++ post)).toPage = []) (hcontrol : (after id page (pre ++ post)).toControl = []) :
    ∀ d ∈ (after id page (pre ++ post)).sentFinals, d.utteranceId ≠ "" → ¬ Settled id (after id page pre) d →
      Timed d.utteranceId (after id page (pre ++ post)).page := by
  have hbefore : Timely id (fun _ => True) (after id page pre) :=
    timely_run ⟨legible_opened id page, by simp [opened], by simp [opened]⟩
      (fun e he => h.legal e (List.mem_append_left _ he))
      (fun message now he => huntimed message now (List.mem_append_left _ he)) (fun _ _ => trivial)
  have htimely : Timely id (Settled id (after id page pre)) (after id page (pre ++ post)) := by
    have hsplit : after id page (pre ++ post) = Run.final (step id) (after id page pre) post := Run.final_append _ _ _
    rw [hsplit]
    exact timely_run (timely_settled hbefore) (fun e he => h.legal e (List.mem_append_right _ he))
      (fun message now he => huntimed message now (List.mem_append_right _ he)) (fun hclear => absurd hclear hkept)
  intro d hd hne hunsettled
  have hall := (conserved_after h).finals
  simp only [underWay, hpage, hcontrol, List.filterMap_nil, List.append_nil] at hall
  rcases htimely.timed d (hall ▸ hd) hne with hold | htimed | ⟨ackRttMs, hmem⟩
  · exact absurd hold hunsettled
  · exact htimed
  · rw [hpage] at hmem
    exact absurd hmem List.not_mem_nil

/-- Another final result, after the records were cleared. -/
def nextResult : List WireEvent :=
  [.send (.json [("type", .string "asr.final"), ("sessionId", .string "s"), ("utteranceId", .string "s:2"),
    ("seq", .number (.unsigned 2)), ("text", .string "again")]) 20, .handle 25, .reply 29000000, .handle 31]

theorem finals_timed_cleared : Timed "s:2" (after "s" {} ((oneResult ++ [.act .clear]) ++ nextResult)).page := by
  have hsends : ∀ message now, .send message now ∈ (oneResult ++ [.act .clear]) ++ nextResult →
      Readable message ∧ Untimed message := by
    intro message now he
    simp only [oneResult, nextResult, List.mem_append, List.mem_cons, WireEvent.send.injEq, reduceCtorEq,
      List.not_mem_nil, or_false] at he
    rcases he with ⟨rfl, -⟩ | ⟨rfl, -⟩
    · refine ⟨fun _ => ⟨⟨"asr.final", "s:1", 1⟩, ⟨rfl, ?_, ?_, ?_⟩, by norm_num⟩, ?_⟩ <;>
        simp [Untimed, Value.json, Value.strField, Value.lookup_setField, Value.asStr, Value.asU64]
    · refine ⟨fun _ => ⟨⟨"asr.final", "s:2", 2⟩, ⟨rfl, ?_, ?_, ?_⟩, by norm_num⟩, ?_⟩ <;>
        simp [Untimed, Value.json, Value.strField, Value.lookup_setField, Value.asStr, Value.asU64]
  have hlossless : Lossless "s" {} ((oneResult ++ [.act .clear]) ++ nextResult) := by
    have hsent : ((after "s" {} ((oneResult ++ [.act .clear]) ++ nextResult)).sent.filterMap
        resultDelivery).length = 2 := by decide +kernel
    refine ⟨?_, by simp [oneResult, nextResult], hasRoom_of_few _ _ _ (by rw [hsent]; decide), by decide +kernel⟩
    rintro e he message now rfl
    exact (hsends message now he).1
  have hpage : (after "s" {} ((oneResult ++ [.act .clear]) ++ nextResult)).toPage.length = 0 := by decide +kernel
  have hcontrol : (after "s" {} ((oneResult ++ [.act .clear]) ++ nextResult)).toControl.length = 0 := by decide +kernel
  refine finals_timed "s" {} (oneResult ++ [.act .clear]) nextResult hlossless
    (fun message now he => (hsends message now he).2) (by simp [nextResult]) (List.length_eq_zero_iff.mp hpage)
    (List.length_eq_zero_iff.mp hcontrol) ⟨"asr.final", "s:2", 2⟩ (by decide +kernel) (by decide) ?_
  exact fun hsettled => absurd hsettled.1 (by decide +kernel)

end Wire

end SenseVoice.Page
