import SenseVoice.ControlPlane.ClientLoop

/-!
# Acknowledgements and the results they are of

What one client socket does with the results it has sent and the acknowledgements it gets, read off the history
of the socket instead of `pending_deliveries`. A result is outstanding since its last sending, until it is
acknowledged, or the map overflows and is cleared.

* `LoopEvent` is what the loop handles: a message that went out, a text that came in. `loop_handles` says which
  of them a loop of the whole system has handled.
* `IsResult`, `IsAck` say what `result_delivery` and `client_delivery_ack` accept.

Results:
* `deliveryKey_injective`: the key of a result tells its three parts, whatever its utterance id is;
* `lookup_iff_outstanding`: `pending_deliveries` holds exactly what is outstanding;
* **`acknowledgement_matching`**: a text is answered exactly if it acknowledges an outstanding result.
-/

namespace SenseVoice.ControlPlane

open Lib

/-! ## Keys -/

/-- The event type is one of a result. -/
def Delivery.Valid (d : Delivery) : Prop := isResult d.eventType = true

theorem Delivery.Valid.cases {d : Delivery} (h : d.Valid) :
    d.eventType = "asr.partial" ∨ d.eventType = "asr.final" := by
  simpa [Delivery.Valid, isResult] using h

/-- A list is split at its last separator in one way. -/
theorem split_last {α : Type} {c : α} {xs ys ds es : List α} (hds : c ∉ ds) (hes : c ∉ es)
    (h : xs ++ c :: ds = ys ++ c :: es) : xs = ys ∧ ds = es := by
  rcases Run.split_split h with ⟨hxs, -, hrest⟩ | ⟨mid, rfl⟩ | ⟨mid, rfl⟩
  · exact ⟨hxs, hrest⟩
  · exact absurd (List.mem_append_right mid List.mem_cons_self) hds
  · exact absurd (List.mem_append_right mid List.mem_cons_self) hes

theorem colon_notMem_repr (n : ℕ) : ':' ∉ (Nat.repr n).toList := by
  rw [Nat.toList_repr]
  intro h
  have hdigit : (':' : Char).isDigit = true := Nat.isDigit_of_mem_toDigits (by decide) (by decide) h
  exact absurd hdigit (by decide)

theorem toList_deliveryKey (d : Delivery) : (deliveryKey d).toList =
    (d.eventType.toList ++ ':' :: d.utteranceId.toList) ++ ':' :: (Nat.repr d.sequence).toList := by
  unfold deliveryKey
  simp [String.toList_append]

/-- **The key tells the result**: the last colon stands before the digits, the first after the event type. -/
theorem deliveryKey_injective {d d' : Delivery} (h : d.Valid) (h' : d'.Valid)
    (hkey : deliveryKey d = deliveryKey d') : d = d' := by
  have hlist := congrArg String.toList hkey
  rw [toList_deliveryKey, toList_deliveryKey] at hlist
  obtain ⟨hrest, hdigits⟩ := split_last (colon_notMem_repr _) (colon_notMem_repr _) hlist
  have hsequence : d.sequence = d'.sequence := Text.repr_injective (String.toList_inj.mp hdigits)
  have hparts : d.eventType = d'.eventType ∧ d.utteranceId = d'.utteranceId := by
    rcases h.cases with he | he <;> rcases h'.cases with he' | he' <;> rw [he, he'] at hrest ⊢
    · exact ⟨rfl, String.toList_inj.mp (by simpa using hrest)⟩
    · exact absurd hrest (by simp)
    · exact absurd hrest (by simp)
    · exact ⟨rfl, String.toList_inj.mp (by simpa using hrest)⟩
  cases d
  cases d'
  simp only [Delivery.mk.injEq]
  exact ⟨hparts.1, hparts.2, hsequence⟩

/-! ## Results and acknowledgements -/

/-- The message is the result `d`. -/
structure IsResult (message : Value) (d : Delivery) : Prop where
  valid : d.Valid
  eventType : message.strField "type" = some d.eventType
  utteranceId : message.strField "utteranceId" = some d.utteranceId
  sequence : (message.get "seq").bind Value.asU64 = some d.sequence

/-- The text acknowledges the result `d` of the session. -/
structure IsAck (id : Uuid) (text : Value) (d : Delivery) : Prop where
  type : text.strField "type" = some "client.result_ack"
  sessionId : text.strField "sessionId" = some id
  valid : d.Valid
  eventType : text.strField "eventType" = some d.eventType
  utteranceId : text.strField "utteranceId" = some d.utteranceId
  sequence : (text.get "seq").bind Value.asU64 = some d.sequence

theorem resultDelivery_iff {message : Value} {d : Delivery} :
    resultDelivery message = some d ↔ IsResult message d := by
  obtain ⟨eventType, utteranceId, sequence⟩ := d
  unfold resultDelivery
  constructor
  · intro h
    obtain ⟨eventType', htype, h⟩ := Option.bind_eq_some_iff.mp h
    split at h
    · rename_i hvalid
      obtain ⟨utteranceId', hutterance, h⟩ := Option.bind_eq_some_iff.mp h
      obtain ⟨sequence', hsequence, h⟩ := Option.bind_eq_some_iff.mp h
      obtain ⟨rfl, rfl, rfl⟩ := Delivery.mk.inj (Option.some.inj h)
      exact ⟨hvalid, htype, hutterance, hsequence⟩
    · exact absurd h (by simp)
  · rintro ⟨hvalid, htype, hutterance, hsequence⟩
    have hresult : isResult eventType = true := hvalid
    simp [htype, hresult, hutterance, hsequence]

theorem clientDeliveryAck_iff {id : Uuid} {text : Value} {d : Delivery} :
    clientDeliveryAck text id = some d ↔ IsAck id text d := by
  obtain ⟨eventType, utteranceId, sequence⟩ := d
  unfold clientDeliveryAck
  constructor
  · intro h
    obtain ⟨type, htype, hscoped⟩ := Option.bind_eq_some_iff.mp h
    obtain ⟨sessionId, hsession, hscoped⟩ := Option.bind_eq_some_iff.mp hscoped
    by_cases hscope : type ≠ "client.result_ack" ∨ sessionId ≠ id
    · rw [if_pos hscope] at hscoped
      exact absurd hscoped (by simp)
    · rw [if_neg hscope] at hscoped
      obtain ⟨htype', hsession'⟩ : type = "client.result_ack" ∧ sessionId = id := by
        simpa [not_or] using hscope
      obtain ⟨eventType', hevent, hresult⟩ := Option.bind_eq_some_iff.mp hscoped
      split at hresult
      · rename_i hvalid
        obtain ⟨utteranceId', hutterance, hread⟩ := Option.bind_eq_some_iff.mp hresult
        obtain ⟨sequence', hsequence, hread⟩ := Option.bind_eq_some_iff.mp hread
        obtain ⟨rfl, rfl, rfl⟩ := Delivery.mk.inj (Option.some.inj hread)
        exact ⟨htype' ▸ htype, hsession' ▸ hsession, hvalid, hevent, hutterance, hsequence⟩
      · exact absurd hresult (by simp)
  · rintro ⟨htype, hsession, hvalid, hevent, hutterance, hsequence⟩
    have hresult : isResult eventType = true := hvalid
    simp [htype, hsession, hevent, hresult, hutterance, hsequence]

/-! ## The history of a socket -/

/-- What a loop handles: a message that went out, or a text that came in (`none` when it is no JSON), with the
time of its clock. -/
inductive LoopEvent where
  | sent (message : Value) (now : Nat)
  | text (parsed : Option Value) (now : Nat)

namespace ClientLoop

/-- What an event leaves, and the answer to it. -/
def handle (id : Uuid) (e : LoopEvent) (l : ClientLoop) : ClientLoop × Option Value :=
  match e with
  | .sent message now => (l.track message now, none)
  | .text parsed now => l.acknowledge id parsed now

end ClientLoop

/-- One event of a loop, with the loop before and after it. -/
abbrev LoopStep := Run.Taken ClientLoop LoopEvent

section History

variable (id : Uuid)

/-- The steps of a new loop of the session. -/
def handling (es : List LoopEvent) : List LoopStep := Run.trace (fun l e => some (l.handle id e).1) {} es

/-- The loop they leave. -/
def loopAfter (es : List LoopEvent) : ClientLoop := Run.final (fun l e => some (l.handle id e).1) {} es

/-- What a step answers. -/
def answer (x : LoopStep) : Option Value := (x.before.handle id x.event).2

/-- The step sends the result `d`. -/
def Sends (d : Delivery) (now : Nat) (x : LoopStep) : Prop :=
  ∃ message, x.event = .sent message now ∧ IsResult message d

/-- The step answers an acknowledgement of `d`. -/
def Acknowledges (d : Delivery) (x : LoopStep) : Prop :=
  ∃ text now, x.event = .text (some text) now ∧ IsAck id text d ∧ (answer id x).isSome = true

/-- The step sends a result when `pending_deliveries` is full, which clears it first. -/
def Overflows (x : LoopStep) : Prop :=
  (∃ d now, Sends d now x) ∧ maxPendingDeliveries ≤ x.before.pendingDeliveries.entries.length

/-- The result was last sent at that time, and since then neither acknowledged nor dropped. -/
def Outstanding (d : Delivery) (sentAt : Nat) (past : List LoopStep) : Prop :=
  ∃ pre x mid, past = pre ++ x :: mid ∧ Sends d sentAt x ∧
    ∀ y ∈ mid, (∀ now, ¬ Sends d now y) ∧ ¬ Acknowledges id d y ∧ ¬ Overflows y

variable {id} {d : Delivery} {past : List LoopStep} {x : LoopStep} {sentAt : Nat}

theorem not_outstanding_nil : ¬ Outstanding id d sentAt [] := by
  rintro ⟨pre, x, mid, h, -⟩
  exact absurd h (by simp)

/-- One more step. -/
theorem outstanding_concat : Outstanding id d sentAt (past ++ [x]) ↔
    Sends d sentAt x ∨ Outstanding id d sentAt past ∧ (∀ now, ¬ Sends d now x) ∧ ¬ Acknowledges id d x ∧
      ¬ Overflows x := by
  constructor
  · rintro ⟨pre, y, mid, hsplit, hsends, hmid⟩
    rcases Run.split_concat hsplit with ⟨rfl, rfl, rfl⟩ | ⟨mid', rfl, rfl⟩
    · exact Or.inl hsends
    · refine Or.inr ⟨⟨pre, y, mid', rfl, hsends, fun z hz => hmid z (List.mem_append_left _ hz)⟩, ?_⟩
      exact hmid x (List.mem_append_right _ List.mem_cons_self)
  · rintro (hsends | ⟨⟨pre, y, mid, rfl, hsends, hmid⟩, hx⟩)
    · exact ⟨past, x, [], rfl, hsends, fun z hz => absurd hz List.not_mem_nil⟩
    · refine ⟨pre, y, mid ++ [x], by simp, hsends, fun z hz => ?_⟩
      rcases List.mem_append.mp hz with hz | hz
      · exact hmid z hz
      · rwa [List.mem_singleton.mp hz]

/-! ## What the map holds -/

/-- The map holds the results that are outstanding, each with the time of its last sending, and is never
fuller than its bound. -/
structure Holds (id : Uuid) (past : List LoopStep) (l : ClientLoop) : Prop where
  lookup : ∀ d sentAt, d.Valid →
    (l.pendingDeliveries.lookup (deliveryKey d) = some sentAt ↔ Outstanding id d sentAt past)
  bounded : l.pendingDeliveries.entries.length ≤ maxPendingDeliveries

theorem holds_init : Holds id [] {} where
  lookup := by
    intro d sentAt _
    constructor
    · intro h
      exact absurd h (by simp)
    · intro h
      exact absurd h not_outstanding_nil
  bounded := Nat.zero_le _

/-- A step that is about no result, or about another one, leaves this one as it was. -/
theorem outstanding_concat_of_other (hsends : ∀ now, ¬ Sends d now x) (hack : ¬ Acknowledges id d x)
    (hover : ¬ Overflows x) : Outstanding id d sentAt (past ++ [x]) ↔ Outstanding id d sentAt past := by
  rw [outstanding_concat]
  constructor
  · rintro (hnow | ⟨hold, -⟩)
    · exact absurd hnow (hsends sentAt)
    · exact hold
  · exact fun hold => Or.inr ⟨hold, hsends, hack, hover⟩

/-- What an overflow leaves of the map. -/
def keptPending (l : ClientLoop) : Table String Nat :=
  if maxPendingDeliveries ≤ l.pendingDeliveries.entries.length then ∅ else l.pendingDeliveries

theorem track_result {message : Value} {now : Nat} {l : ClientLoop} (h : resultDelivery message = some d) :
    (l.track message now).pendingDeliveries = (keptPending l).insert (deliveryKey d) now := by
  unfold ClientLoop.track keptPending
  rw [h]

/-- A message is a sending of the result it is. -/
theorem sends_iff {l l' : ClientLoop} {message : Value} {now now' : Nat} :
    Sends d now' ⟨l, .sent message now, l'⟩ ↔ resultDelivery message = some d ∧ now' = now := by
  constructor
  · rintro ⟨message', hevent, hd⟩
    obtain ⟨rfl, rfl⟩ := LoopEvent.sent.inj hevent
    exact ⟨resultDelivery_iff.mpr hd, rfl⟩
  · rintro ⟨hresult, rfl⟩
    exact ⟨message, rfl, resultDelivery_iff.mp hresult⟩

theorem not_acknowledges_sent {l l' : ClientLoop} {message : Value} {now : Nat} :
    ¬ Acknowledges id d ⟨l, .sent message now, l'⟩ := by
  rintro ⟨text, now', hevent, -⟩
  exact LoopEvent.noConfusion hevent

/-- A message that is no result is not tracked. -/
theorem holds_untracked {l : ClientLoop} (h : Holds id past l) {message : Value} (now : Nat)
    (hresult : resultDelivery message = none) :
    Holds id (past ++ [⟨l, .sent message now, l.track message now⟩]) (l.track message now) := by
  have hsends : ∀ d now', ¬ Sends d now' ⟨l, .sent message now, l.track message now⟩ := by
    intro d now' hsends
    rw [sends_iff, hresult] at hsends
    exact absurd hsends.1 (by simp)
  have hsame : l.track message now = l := by
    unfold ClientLoop.track
    rw [hresult]
  refine ⟨fun d sentAt hvalid => ?_, by rw [hsame]; exact h.bounded⟩
  rw [outstanding_concat_of_other (hsends d) not_acknowledges_sent fun hover => ?_, hsame]
  · exact h.lookup d sentAt hvalid
  · obtain ⟨⟨d', now', hd'⟩, -⟩ := hover
    exact hsends d' now' hd'

/-- A result is tracked from its sending on, and an overflow drops the others. -/
theorem holds_tracked {l : ClientLoop} (h : Holds id past l) {message : Value} (now : Nat) {d₀ : Delivery}
    (hresult : resultDelivery message = some d₀) :
    Holds id (past ++ [⟨l, .sent message now, l.track message now⟩]) (l.track message now) := by
  have hsent : Sends d₀ now ⟨l, .sent message now, l.track message now⟩ := sends_iff.mpr ⟨hresult, rfl⟩
  have hover : Overflows ⟨l, .sent message now, l.track message now⟩ ↔
      maxPendingDeliveries ≤ l.pendingDeliveries.entries.length := and_iff_right ⟨d₀, now, hsent⟩
  have honly : ∀ d now', Sends d now' ⟨l, .sent message now, l.track message now⟩ → d = d₀ ∧ now' = now := by
    intro d now' hd
    obtain ⟨hsame, hnow⟩ := sends_iff.mp hd
    exact ⟨Option.some.inj (hsame.symm.trans hresult), hnow⟩
  refine ⟨fun d sentAt hvalid => ?_, ?_⟩
  · rw [track_result hresult, Table.lookup_insert_eq, outstanding_concat]
    by_cases hd : d = d₀
    · subst hd
      rw [if_pos rfl]
      constructor
      · intro hnow
        obtain rfl := Option.some.inj hnow
        exact Or.inl hsent
      · rintro (hnow | ⟨-, hno, -⟩)
        · rw [(honly d sentAt hnow).2]
        · exact absurd hsent (hno now)
    · have hkey : deliveryKey d ≠ deliveryKey d₀ := fun hkey =>
        hd (deliveryKey_injective hvalid (resultDelivery_iff.mp hresult).valid hkey)
      have hno : ∀ now', ¬ Sends d now' ⟨l, .sent message now, l.track message now⟩ :=
        fun now' hnow => hd (honly d now' hnow).1
      rw [if_neg hkey, hover]
      unfold keptPending
      split
      · rename_i hfull
        constructor
        · intro hlookup
          exact absurd hlookup (by simp)
        · rintro (hnow | ⟨-, -, -, hroom⟩)
          · exact absurd hnow (hno sentAt)
          · exact absurd hfull hroom
      · rename_i hroom
        rw [h.lookup d sentAt hvalid]
        constructor
        · exact fun hold => Or.inr ⟨hold, hno, not_acknowledges_sent, hroom⟩
        · rintro (hnow | ⟨hold, -⟩)
          · exact absurd hnow (hno sentAt)
          · exact hold
  · rw [track_result hresult]
    have hle := Table.length_insert_le (keptPending l) (deliveryKey d₀) now
    have hkept : (keptPending l).entries.length < maxPendingDeliveries := by
      unfold keptPending
      split
      · decide
      · rename_i hroom
        exact Nat.lt_of_not_le hroom
    omega

/-- A text is answered where the map has the key. -/
theorem acknowledge_cases (l : ClientLoop) (now : Nat) {text : Value} (hack : IsAck id text d) :
    (l.pendingDeliveries.lookup (deliveryKey d) = none ∧ l.acknowledge id (some text) now = (l, none)) ∨
      ∃ sentAt, l.pendingDeliveries.lookup (deliveryKey d) = some sentAt ∧
        l.acknowledge id (some text) now =
          ({ l with pendingDeliveries := l.pendingDeliveries.erase (deliveryKey d) },
            some (ackUpdate id d (elapsedMs sentAt now))) := by
  unfold ClientLoop.acknowledge
  rw [Option.bind_some, clientDeliveryAck_iff.mpr hack]
  dsimp only
  cases hlookup : l.pendingDeliveries.lookup (deliveryKey d) with
  | none => exact Or.inl ⟨rfl, rfl⟩
  | some sentAt => exact Or.inr ⟨sentAt, rfl, rfl⟩

/-- A text that acknowledges nothing is passed over. -/
theorem acknowledge_none {l : ClientLoop} {parsed : Option Value} {now : Nat}
    (h : ∀ text d, parsed = some text → ¬ IsAck id text d) : l.acknowledge id parsed now = (l, none) := by
  have hnone : (parsed.bind fun value => clientDeliveryAck value id) = none := by
    rw [Option.bind_eq_none_iff]
    intro text htext
    cases hack : clientDeliveryAck text id with
    | none => rfl
    | some d => exact absurd (clientDeliveryAck_iff.mp hack) (h text d htext)
  unfold ClientLoop.acknowledge
  rw [hnone]

/-- A text sends nothing. -/
theorem not_sends_text {l l' : ClientLoop} {parsed : Option Value} {now : Nat} :
    ∀ d now', ¬ Sends d now' ⟨l, .text parsed now, l'⟩ := by
  rintro d now' ⟨message, hevent, -⟩
  exact LoopEvent.noConfusion hevent

theorem answer_text {l l' : ClientLoop} {parsed : Option Value} {now : Nat} :
    answer id ⟨l, .text parsed now, l'⟩ = (l.acknowledge id parsed now).2 := rfl

theorem not_overflows_text {l l' : ClientLoop} {parsed : Option Value} {now : Nat} :
    ¬ Overflows ⟨l, .text parsed now, l'⟩ := by
  rintro ⟨⟨d, now', hsends⟩, -⟩
  exact not_sends_text d now' hsends

/-- One text acknowledges one result. -/
theorem IsAck.unique {text : Value} {d d' : Delivery} (h : IsAck id text d) (h' : IsAck id text d') : d = d' :=
  Option.some.inj ((clientDeliveryAck_iff.mpr h).symm.trans (clientDeliveryAck_iff.mpr h'))

/-- A text without an answer changes nothing. -/
theorem holds_unanswered {l : ClientLoop} (h : Holds id past l) {parsed : Option Value} {now : Nat}
    (hsame : l.acknowledge id parsed now = (l, none)) :
    Holds id (past ++ [⟨l, .text parsed now, (l.acknowledge id parsed now).1⟩])
      (l.acknowledge id parsed now).1 := by
  refine ⟨fun d sentAt hvalid => ?_, by rw [hsame]; exact h.bounded⟩
  rw [outstanding_concat_of_other (not_sends_text d) ?_ not_overflows_text, hsame]
  · exact h.lookup d sentAt hvalid
  · rintro ⟨text, now', hevent, -, hanswer⟩
    obtain ⟨rfl, rfl⟩ := LoopEvent.text.inj hevent
    rw [answer_text, hsame] at hanswer
    exact absurd hanswer (by simp)

/-- An answer takes its result out of the map, and no other one. -/
theorem holds_answered {l : ClientLoop} (h : Holds id past l) {text : Value} {now : Nat} {d₀ : Delivery}
    {update : Value} (hack : IsAck id text d₀)
    (hstep : l.acknowledge id (some text) now =
      ({ l with pendingDeliveries := l.pendingDeliveries.erase (deliveryKey d₀) }, some update)) :
    Holds id (past ++ [⟨l, .text (some text) now, (l.acknowledge id (some text) now).1⟩])
      (l.acknowledge id (some text) now).1 := by
  have hdone : Acknowledges id d₀ ⟨l, .text (some text) now, (l.acknowledge id (some text) now).1⟩ := by
    refine ⟨text, now, rfl, hack, ?_⟩
    rw [answer_text, hstep]
    rfl
  refine ⟨fun d sentAt hvalid => ?_, ?_⟩
  · by_cases hd : d = d₀
    · subst hd
      rw [outstanding_concat]
      constructor
      · intro hlookup
        rw [hstep] at hlookup
        exact absurd hlookup (by simp)
      · rintro (hnow | ⟨-, -, hno, -⟩)
        · exact absurd hnow (not_sends_text d sentAt)
        · exact absurd hdone hno
    · have hother : ¬ Acknowledges id d ⟨l, .text (some text) now, (l.acknowledge id (some text) now).1⟩ := by
        rintro ⟨text', now', hevent, hack', -⟩
        obtain ⟨htext, -⟩ := LoopEvent.text.inj hevent
        obtain rfl := Option.some.inj htext
        exact hd (hack'.unique hack)
      have hkey : deliveryKey d ≠ deliveryKey d₀ :=
        fun hkey => hd (deliveryKey_injective hvalid hack.valid hkey)
      rw [outstanding_concat_of_other (not_sends_text d) hother not_overflows_text, hstep]
      dsimp only
      rw [Table.lookup_erase_eq, if_neg hkey]
      exact h.lookup d sentAt hvalid
  · rw [hstep]
    exact Nat.le_trans (Table.length_erase_le _ _) h.bounded

/-- **One step** keeps the map as the history tells. -/
theorem holds_step {l : ClientLoop} (h : Holds id past l) (e : LoopEvent) :
    Holds id (past ++ [⟨l, e, (l.handle id e).1⟩]) (l.handle id e).1 := by
  cases e with
  | sent message now =>
    cases hresult : resultDelivery message with
    | none => exact holds_untracked h now hresult
    | some d₀ => exact holds_tracked h now hresult
  | text parsed now =>
    by_cases hack : ∃ text d₀, parsed = some text ∧ IsAck id text d₀
    · obtain ⟨text, d₀, rfl, hack⟩ := hack
      rcases acknowledge_cases l now hack with ⟨-, hsame⟩ | ⟨sentAt, -, hstep⟩
      · exact holds_unanswered h hsame
      · exact holds_answered h hack hstep
    · exact holds_unanswered h (acknowledge_none fun text d htext hd => hack ⟨text, d, htext, hd⟩)

/-- **`pending_deliveries` holds exactly what is outstanding**, before every step. -/
theorem lookup_iff_outstanding {es : List LoopEvent} {post : List LoopStep}
    (h : handling id es = past ++ x :: post) : Holds id past x.before := by
  refine Run.forall_history (I := Holds id) holds_init ?_ h
  intro past l e l' hl hstep
  obtain rfl := Option.some.inj hstep
  exact holds_step hl e

/-- The map is bounded in every state of a loop. -/
theorem pending_bounded (id : Uuid) (es : List LoopEvent) :
    (loopAfter id es).pendingDeliveries.entries.length ≤ maxPendingDeliveries := by
  have hholds : Holds id (handling id es) (loopAfter id es) := by
    refine Run.history_final (I := Holds id) holds_init ?_ es
    intro past l e l' hl hstep
    obtain rfl := Option.some.inj hstep
    exact holds_step hl e
  exact hholds.bounded

/-- When a step answers, and what. -/
theorem answer_iff {es : List LoopEvent} {post : List LoopStep} (h : handling id es = past ++ x :: post)
    (update : Value) : answer id x = some update ↔
      ∃ text now d sentAt, x.event = .text (some text) now ∧ IsAck id text d ∧ Outstanding id d sentAt past ∧
        update = ackUpdate id d (elapsedMs sentAt now) := by
  have hholds := lookup_iff_outstanding h
  unfold answer ClientLoop.handle
  cases hevent : x.event with
  | sent message now =>
    constructor
    · intro hnone
      exact absurd hnone (by simp)
    · rintro ⟨text, now', d, sentAt, hno, -⟩
      exact LoopEvent.noConfusion hno
  | text parsed now =>
    dsimp only
    constructor
    · intro hsome
      by_cases hack : ∃ text d, parsed = some text ∧ IsAck id text d
      · obtain ⟨text, d, rfl, hack⟩ := hack
        rcases acknowledge_cases x.before now hack with ⟨-, hsame⟩ | ⟨sentAt, hlookup, hstep⟩
        · rw [hsame] at hsome
          exact absurd hsome (by simp)
        · rw [hstep] at hsome
          have houtstanding := (hholds.lookup d sentAt hack.valid).mp hlookup
          exact ⟨text, now, d, sentAt, rfl, hack, houtstanding, (Option.some.inj hsome).symm⟩
      · rw [acknowledge_none fun text d htext hd => hack ⟨text, d, htext, hd⟩] at hsome
        exact absurd hsome (by simp)
    · rintro ⟨text, now', d, sentAt, hsame, hack, houtstanding, rfl⟩
      obtain ⟨rfl, rfl⟩ := LoopEvent.text.inj hsame
      have hlookup := (hholds.lookup d sentAt hack.valid).mpr houtstanding
      rcases acknowledge_cases x.before now hack with ⟨hnone, -⟩ | ⟨sentAt', hlookup', hstep⟩
      · rw [hnone] at hlookup
        exact absurd hlookup (by simp)
      · rw [hlookup] at hlookup'
        obtain rfl := Option.some.inj hlookup'
        rw [hstep]

/-- Between two acknowledgements of a result it was sent again. -/
theorem resent_between {es : List LoopEvent} {mid post : List LoopStep} {y z : LoopStep}
    (h : handling id es = past ++ y :: (mid ++ z :: post)) (hy : Acknowledges id d y) (hz : Acknowledges id d z) :
    ∃ x ∈ mid, ∃ now, Sends d now x := by
  obtain ⟨text, now, hevent, hack, hanswer⟩ := hz
  obtain ⟨update, hupdate⟩ := Option.isSome_iff_exists.mp hanswer
  have hsplit : handling id es = (past ++ y :: mid) ++ z :: post := by
    rw [h]
    simp
  obtain ⟨text', now', d', sentAt, hevent', hack', ⟨pre, x, later, hpast, hsends, hlater⟩, -⟩ :=
    (answer_iff hsplit update).mp hupdate
  obtain ⟨htext, -⟩ := LoopEvent.text.inj (hevent.symm.trans hevent')
  obtain rfl := Option.some.inj htext
  obtain rfl := hack'.unique hack
  -- the last sending is not before `y`, since nothing acknowledges after it
  rcases Run.split_split hpast with ⟨-, rfl, -⟩ | ⟨between, rfl⟩ | ⟨between, rfl⟩
  · obtain ⟨message, hsent, -⟩ := hsends
    obtain ⟨_, _, htext, -⟩ := hy
    exact LoopEvent.noConfusion (hsent.symm.trans htext)
  · exact ⟨x, List.mem_append_right _ List.mem_cons_self, sentAt, hsends⟩
  · exact absurd hy (hlater y (List.mem_append_right _ List.mem_cons_self)).2.1

/-- What the update says. -/
theorem ackUpdate_fields (id : Uuid) (d : Delivery) (ackRttMs : Rat) :
    (ackUpdate id d ackRttMs).strField "type" = some "trace.update" ∧
      (ackUpdate id d ackRttMs).strField "sessionId" = some id ∧
      (ackUpdate id d ackRttMs).strField "eventType" = some d.eventType ∧
      (ackUpdate id d ackRttMs).strField "utteranceId" = some d.utteranceId ∧
      ((ackUpdate id d ackRttMs).get "seq").bind Value.asU64 = some d.sequence := by
  simp [ackUpdate, Value.json, Value.strField, Value.lookup_setField, Value.asStr, Value.asU64]

end History

/-! ## Every history -/

/-- What acknowledgements come to on one socket. -/
structure Matched (id : Uuid) (es : List LoopEvent) : Prop where
  answered : ∀ past x post, handling id es = past ++ x :: post → ∀ update, answer id x = some update ↔
    ∃ text now d sentAt, x.event = .text (some text) now ∧ IsAck id text d ∧ Outstanding id d sentAt past ∧
      update = ackUpdate id d (elapsedMs sentAt now)
  once : ∀ past y mid z post d, handling id es = past ++ y :: (mid ++ z :: post) → Acknowledges id d y →
    Acknowledges id d z → ∃ x ∈ mid, ∃ now, Sends d now x
  bounded : (loopAfter id es).pendingDeliveries.entries.length ≤ maxPendingDeliveries

/-- **Acknowledgements match results.** A text is answered exactly if it acknowledges a result of the session that
was sent on the socket and is outstanding since its last sending; the update is about that result and its sending;
no sending is acknowledged twice; the map is bounded; and the keys tell results apart. -/
theorem acknowledgement_matching (id : Uuid) (es : List LoopEvent) :
    Matched id es ∧
      (∀ (d : Delivery) (ackRttMs : Rat),
        (ackUpdate id d ackRttMs).strField "type" = some "trace.update" ∧
        (ackUpdate id d ackRttMs).strField "sessionId" = some id ∧
        (ackUpdate id d ackRttMs).strField "eventType" = some d.eventType ∧
        (ackUpdate id d ackRttMs).strField "utteranceId" = some d.utteranceId ∧
        ((ackUpdate id d ackRttMs).get "seq").bind Value.asU64 = some d.sequence) ∧
      ∀ d d' : Delivery, d.Valid → d'.Valid → deliveryKey d = deliveryKey d' → d = d' where
  left := ⟨fun _ _ _ h => answer_iff h, fun _ _ _ _ _ _ h => resent_between h, pending_bounded id es⟩
  right := ⟨ackUpdate_fields id, fun _ _ h h' => deliveryKey_injective h h'⟩

/-! ## The loops of the control plane -/

/-- What the loop of a socket has handled, by one more step of the system. -/
def handledBy (id socketId : Uuid) (es : List LoopEvent) (x : Run.Taken Served ServedEvent) : List LoopEvent :=
  match x.event with
  | .control (.clientOpen id' socketId') => if (id', socketId') = (id, socketId) then [] else es
  | .outbound id' socketId' true now =>
    if (id', socketId') = (id, socketId) then
      es ++ ((x.before.sys.app.clientLog socketId)[(x.before.loops (id, socketId)).taken]?.map
        (LoopEvent.sent · now)).toList
    else es
  | .inbound id' socketId' (.text parsed) _ now =>
    if (id', socketId') = (id, socketId) then es ++ [.text parsed now] else es
  | _ => es

/-- What the loop of a socket has handled in a run. -/
def handled (id socketId : Uuid) (xs : List (Run.Taken Served ServedEvent)) : List LoopEvent :=
  xs.foldl (handledBy id socketId) []

section Loops

variable {id socketId : Uuid} {l l' : ClientLoop}

/-- What an event does to the map depends on the map alone. -/
theorem handle_pending (h : l.pendingDeliveries = l'.pendingDeliveries) (e : LoopEvent) :
    (l.handle id e).1.pendingDeliveries = (l'.handle id e).1.pendingDeliveries := by
  cases e with
  | sent message now =>
    change (l.track message now).pendingDeliveries = (l'.track message now).pendingDeliveries
    unfold ClientLoop.track
    cases resultDelivery message with
    | none => exact h
    | some d => simp only [h]
  | text parsed now =>
    change (l.acknowledge id parsed now).1.pendingDeliveries = (l'.acknowledge id parsed now).1.pendingDeliveries
    unfold ClientLoop.acknowledge
    cases parsed.bind fun value => clientDeliveryAck value id with
    | none => exact h
    | some d =>
      simp only [h]
      cases l'.pendingDeliveries.lookup (deliveryKey d) with
      | none => exact h
      | some sentAt => rfl

theorem loopAfter_concat (id : Uuid) (es : List LoopEvent) (e : LoopEvent) :
    loopAfter id (es ++ [e]) = ((loopAfter id es).handle id e).1 := Run.final_concat rfl

/-- The loop has the map that what it has handled leaves, as long as it runs. -/
def Tracks (id socketId : Uuid) (xs : List (Run.Taken Served ServedEvent)) (s : Served) : Prop :=
  (s.loops (id, socketId)).running = true →
    (s.loops (id, socketId)).pendingDeliveries = (loopAfter id (handled id socketId xs)).pendingDeliveries

theorem handled_concat (xs : List (Run.Taken Served ServedEvent)) (x : Run.Taken Served ServedEvent) :
    handled id socketId (xs ++ [x]) = handledBy id socketId (handled id socketId xs) x := by
  unfold handled
  rw [List.foldl_append]
  rfl

variable {xs : List (Run.Taken Served ServedEvent)} {s t : Served}

/-- A step of another socket. -/
theorem Tracks.other (h : Tracks id socketId xs s) {x : Run.Taken Served ServedEvent}
    (hloop : t.loops (id, socketId) = s.loops (id, socketId))
    (hhandled : handledBy id socketId (handled id socketId xs) x = handled id socketId xs) :
    Tracks id socketId (xs ++ [x]) t := by
  unfold Tracks
  rw [handled_concat, hhandled, hloop]
  exact h

theorem tracks_control (h : Tracks id socketId xs s) {cfg : Config} {digest : String → String} {c : Event}
    (ht : Served.step cfg digest s (.control c) = some t) : Tracks id socketId (xs ++ [⟨s, .control c, t⟩]) t := by
  simp only [Served.step] at ht
  split at ht
  · obtain ⟨sys, -, rfl⟩ := Option.map_eq_some_iff.mp ht
    cases c with
    | clientOpen id' socketId' =>
      by_cases hsame : (id', socketId') = (id, socketId)
      · intro _
        rw [handled_concat]
        simp [handledBy, Served.beginLoop, hsame, loopAfter, Run.final]
      · refine h.other ?_ (if_neg hsame)
        exact Function.update_of_ne (Ne.symm hsame) _ _
    | _ => exact h.other rfl rfl
  · exact absurd ht (by simp)

/-- What one message does to the loops: those of other sockets are as they were. -/
theorem loops_outbound {id' socketId' : Uuid} {sent : Bool} {now : Nat}
    (ht : s.outbound id' socketId' sent now = some t) :
    ∃ l, t.loops = Function.update s.loops (id', socketId') l ∧ (l.running = true → sent = true ∧
      ∃ message, (s.sys.app.clientLog socketId')[(s.loops (id', socketId')).taken]? = some message ∧
        l.pendingDeliveries = ((s.loops (id', socketId')).track message now).pendingDeliveries) := by
  unfold Served.outbound at ht
  dsimp only at ht
  split at ht
  · rename_i message hmessage
    obtain rfl := Option.some.inj ht
    cases sent with
    | false =>
      refine ⟨_, rfl, fun hrunning => ?_⟩
      exact absurd hrunning (by simp)
    | true =>
      refine ⟨_, rfl, fun _ => ⟨rfl, message, hmessage, ?_⟩⟩
      unfold ClientLoop.track
      cases resultDelivery message <;> rfl
  · split at ht
    · exact absurd ht (by simp)
    · obtain rfl := Option.some.inj ht
      refine ⟨_, rfl, fun hrunning => ?_⟩
      exact absurd hrunning (by simp)

/-- What one frame does to the loops. -/
theorem loops_inbound (id' socketId' : Uuid) (frame : ClientFrame) (sent : Bool) (now : Nat) (s : Served) :
    ∃ l, (s.inbound id' socketId' frame sent now).loops = Function.update s.loops (id', socketId') l ∧
      (l.running = true → frame = .other ∧ l = s.loops (id', socketId') ∨
        ∃ parsed, frame = .text parsed ∧ l.pendingDeliveries =
          ((s.loops (id', socketId')).acknowledge id' parsed now).1.pendingDeliveries) := by
  cases frame with
  | text parsed =>
    unfold Served.inbound
    dsimp only
    split
    · rename_i l hack
      exact ⟨l, rfl, fun _ => Or.inr ⟨parsed, rfl, by rw [hack]⟩⟩
    · rename_i l update hack
      cases sent with
      | false =>
        refine ⟨_, rfl, fun hrunning => ?_⟩
        exact absurd hrunning (by simp)
      | true => exact ⟨l, rfl, fun _ => Or.inr ⟨parsed, rfl, by rw [hack]⟩⟩
  | ended =>
    refine ⟨_, rfl, fun hrunning => ?_⟩
    exact absurd hrunning (by simp)
  | other => exact ⟨_, (Function.update_eq_self _ _).symm, fun _ => Or.inl ⟨rfl, rfl⟩⟩

theorem tracks_outbound (h : Tracks id socketId xs s) {id' socketId' : Uuid} {sent : Bool} {now : Nat}
    (hserves : s.serves id' socketId' = true) (ht : s.outbound id' socketId' sent now = some t) :
    Tracks id socketId (xs ++ [⟨s, .outbound id' socketId' sent now, t⟩]) t := by
  obtain ⟨l, hloops, hl⟩ := loops_outbound ht
  by_cases hsame : (id', socketId') = (id, socketId)
  · obtain ⟨rfl, rfl⟩ := Prod.mk.inj hsame
    intro hrunning
    rw [hloops, Function.update_self] at hrunning ⊢
    obtain ⟨rfl, message, hmessage, hpending⟩ := hl hrunning
    have hbefore := h (Bool.and_eq_true_iff.mp hserves).2
    rw [hpending, handled_concat]
    simp only [handledBy, if_true, hmessage, Option.map_some, Option.toList_some]
    rw [loopAfter_concat]
    exact handle_pending hbefore (.sent message now)
  · refine h.other (by rw [hloops, Function.update_of_ne (Ne.symm hsame)]) ?_
    cases sent with
    | false => rfl
    | true => exact if_neg hsame

theorem tracks_inbound (h : Tracks id socketId xs s) {id' socketId' : Uuid} {frame : ClientFrame} {sent : Bool}
    {now : Nat} (hserves : s.serves id' socketId' = true) :
    Tracks id socketId
      (xs ++ [⟨s, .inbound id' socketId' frame sent now, s.inbound id' socketId' frame sent now⟩])
      (s.inbound id' socketId' frame sent now) := by
  obtain ⟨l, hloops, hl⟩ := loops_inbound id' socketId' frame sent now s
  by_cases hsame : (id', socketId') = (id, socketId)
  · obtain ⟨rfl, rfl⟩ := Prod.mk.inj hsame
    intro hrunning
    have hbefore := h (Bool.and_eq_true_iff.mp hserves).2
    rw [hloops, Function.update_self] at hrunning ⊢
    rw [handled_concat]
    rcases hl hrunning with ⟨rfl, rfl⟩ | ⟨parsed, rfl, hpending⟩
    · exact hbefore
    · simp only [handledBy, if_true]
      rw [loopAfter_concat, hpending]
      exact handle_pending hbefore (.text parsed now)
  · refine h.other (by rw [hloops, Function.update_of_ne (Ne.symm hsame)]) ?_
    cases frame with
    | text parsed => exact if_neg hsame
    | _ => rfl

/-- **A loop of the system is a loop with a history**: while it runs, its map is what the messages it has sent
and the texts it has got since its opening leave. -/
theorem loop_handles (cfg : Config) (digest : String → String) (es : List ServedEvent) (id socketId : Uuid) :
    Tracks id socketId (Served.trace cfg digest es) (Served.final cfg digest es) := by
  refine Run.history_final (I := Tracks id socketId) (fun _ => rfl) ?_ es
  intro past s e t hs ht
  cases e with
  | control c => exact tracks_control hs ht
  | outbound id' socketId' sent now =>
    simp only [Served.step] at ht
    split at ht
    · rename_i hserves
      exact tracks_outbound hs hserves ht
    · exact absurd ht (by simp)
  | inbound id' socketId' frame sent now =>
    simp only [Served.step] at ht
    split at ht
    · rename_i hserves
      obtain rfl := Option.some.inj ht
      exact tracks_inbound hs hserves
    · exact absurd ht (by simp)

end Loops

end SenseVoice.ControlPlane
