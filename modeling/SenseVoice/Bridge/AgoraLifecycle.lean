import SenseVoice.Bridge.AgoraReceiver

/-!
# The life of the Agora connections

What the methods of `AgoraReceiver` make of the SDK's services and connections, in any run of a bridge process and
whatever the SDK does with each call. How a method ends is said once, by an inductive predicate (`Stopped`,
`ServiceStarted`, `ConnectionCreated`, `Required`); the invariant, what a method leaves to the other receivers and
when `start` returns are read off these.

Results:
* **`start_returns_iff`**: `start` returns exactly if the SDK accepts all it asks;
* **`objects_used_while_alive`**: services and connections are used only from their making to their release;
* **`connections_released_or_held`**: each connection made has been released, or exactly one receiver holds it;
* **`failed_start_released`**: a start that raises has released what it made, or the next `stop` of the receiver
  does, whenever it comes.
-/

namespace SenseVoice.Bridge

open Lib

/-! ## The methods keep the invariant -/

namespace AgoraReceiver

open Process

variable {sdk : Sdk} {p : Process} {i : ℕ}

@[simp] theorem outcome_ask (call : SdkCall) (p : Process) :
    outcome (ask sdk call) p = (sdk call, p.made call (sdk call)) := by
  unfold ask
  rw [outcome_bind, outcome_modify, next_ok]
  cases sdk call <;> rfl

/-- How a stop ends. -/
inductive Stopped (sdk : Sdk) (i : ℕ) (p : Process) : Ended Raised Process Unit → Prop
  /-- There is no connection. -/
  | idle (hnone : p.connectionOf i = none) : Stopped sdk i p (.ok (), p)
  /-- The release raises: the connection is kept. -/
  | kept {c : ℕ} {e : Raised} (hc : p.connectionOf i = some c)
      (hrelease : sdk (.onConnection c .release) = .error e) :
      Stopped sdk i p (.error e, (p.made (.onConnection c .disconnect) (sdk (.onConnection c .disconnect))).made
        (.onConnection c .release) (.error e))
  /-- The connection is released, whether the disconnection raises or not. -/
  | released {c : ℕ} {reply : Reply} {r : Except Raised Unit} (hc : p.connectionOf i = some c)
      (hrelease : sdk (.onConnection c .release) = .ok reply) :
      Stopped sdk i p
        (r, (p.made (.onConnection c .disconnect) (sdk (.onConnection c .disconnect))).dropped i c reply)

/-- **What a stop can do.** -/
theorem stop_cases (sdk : Sdk) (i : ℕ) (p : Process) : Stopped sdk i p (outcome (stop sdk i) p) := by
  unfold stop
  rw [outcome_bind, outcome_get, next_ok]
  cases hc : p.connectionOf i with
  | none => exact .idle hc
  | some c =>
    have hclose : ∀ q, outcome (do
        discard (ask sdk (.onConnection c .release))
        modify (Process.setConnection i none)) q =
        (outcome (discard (ask sdk (.onConnection c .release))) q).next
          fun _ t => (.ok ⟨⟩, t.setConnection i none) := fun q => outcome_bind _ _ q
    simp only [outcome_tryFinally, Ended.anyway, hclose, outcome_discard, outcome_ask]
    cases hrelease : sdk (.onConnection c .release) with
    | error e =>
      have hkept : Stopped sdk i p _ := .kept hc hrelease
      cases hdisconnect : sdk (.onConnection c .disconnect) <;> rw [hdisconnect] at hkept <;> exact hkept
    | ok reply =>
      have hdropped : ∀ r, Stopped sdk i p (r, _) := fun r => .released hc hrelease
      cases hdisconnect : sdk (.onConnection c .disconnect) <;> rw [hdisconnect] at hdropped <;> exact hdropped _

/-- How the service is found, or made. -/
inductive ServiceStarted (sdk : Sdk) (appid : String) (p : Process) : Ended Raised Process ℕ → Prop
  | refused {e : Raised} (hs : p.service = none)
      (hanswer : ∀ reply, sdk (.initializeService p.services appid) = .ok reply → reply.negative = true) :
      ServiceStarted sdk appid p
        (.error e, p.newService.made (.initializeService p.services appid)
          (sdk (.initializeService p.services appid)))
  | initialized {reply : Reply} (hs : p.service = none)
      (hanswer : sdk (.initializeService p.services appid) = .ok reply) (hreply : reply.negative = false) :
      ServiceStarted sdk appid p (.ok p.services, p.initialized appid reply)
  | switching {s : ℕ} {e : Raised} (hs : p.service = some s) (happid : p.appid ≠ some appid) :
      ServiceStarted sdk appid p (.error e, p)
  | present {s : ℕ} (hs : p.service = some s) (happid : p.appid = some appid) :
      ServiceStarted sdk appid p (.ok s, p)

theorem startService_cases (sdk : Sdk) (appid : String) (p : Process) :
    ServiceStarted sdk appid p (outcome (startService sdk appid) p) := by
  unfold startService
  rw [outcome_bind, outcome_get, next_ok]
  cases hs : p.service with
  | none =>
    simp only [outcome_bind, outcome_modify, next_ok, outcome_ask]
    cases hanswer : sdk (.initializeService p.services appid) with
    | error e =>
      have hrefused : ServiceStarted sdk appid p (.error e, _) := .refused hs fun reply h =>
        absurd (hanswer.symm.trans h) (by simp)
      rwa [hanswer] at hrefused
    | ok reply =>
      cases hreply : reply.negative with
      | true =>
        have hrefused : ∀ e, ServiceStarted sdk appid p (.error e, _) := fun e => .refused hs fun reply' h =>
          Except.ok.inj (hanswer.symm.trans h) ▸ hreply
        rw [hanswer] at hrefused
        simp only [next_ok, hreply, if_true]
        exact hrefused _
      | false =>
        simp only [next_ok, hreply, Bool.false_eq_true, if_false]
        exact .initialized hs hanswer hreply
  | some s =>
    by_cases happid : p.appid = some appid
    · simp only [happid, ne_eq, not_true_eq_false, if_false]
      exact .present hs happid
    · simp only [ne_eq, happid, not_false_eq_true, if_true]
      exact .switching hs happid

/-- How a connection is made. -/
inductive ConnectionCreated (sdk : Sdk) (i s : ℕ) (p : Process) : Ended Raised Process ℕ → Prop
  | uncreated {e : Raised}
      (hanswer : sdk (.createRtcConnection s) = .ok .none ∨ ∃ e, sdk (.createRtcConnection s) = .error e) :
      ConnectionCreated sdk i s p (.error e, p.made (.createRtcConnection s) (sdk (.createRtcConnection s)))
  | created {reply : Reply} (hanswer : sdk (.createRtcConnection s) = .ok reply) (hreply : reply ≠ .none) :
      ConnectionCreated sdk i s p (.ok p.connections, p.created i s reply)

theorem createConnection_cases (sdk : Sdk) (i s : ℕ) (p : Process) :
    ConnectionCreated sdk i s p (outcome (createConnection sdk i s) p) := by
  unfold createConnection
  rw [outcome_bind, outcome_ask]
  cases hanswer : sdk (.createRtcConnection s) with
  | error e =>
    have huncreated : ConnectionCreated sdk i s p (.error e, _) := .uncreated (Or.inr ⟨e, hanswer⟩)
    rwa [hanswer] at huncreated
  | ok reply =>
    rw [next_ok]
    by_cases hreply : reply = .none
    · subst hreply
      have huncreated : ∀ e, ConnectionCreated sdk i s p (.error e, _) := fun e => .uncreated (Or.inl hanswer)
      rw [hanswer] at huncreated
      exact huncreated _
    · simp only [hreply, if_false]
      exact .created hanswer hreply

/-- How one of the calls of `setUp` ends. -/
inductive Required (sdk : Sdk) (i c : ℕ) (s : SetUp) (p : Process) : Ended Raised Process Unit → Prop
  | raised {e : Raised} (hanswer : sdk (.onConnection c s.operation) = .error e) :
      Required sdk i c s p (.error e, p.made (.onConnection c s.operation) (.error e))
  | accepted {result : Reply} (hanswer : sdk (.onConnection c s.operation) = .ok result)
      (hrefuses : s.refuses result = false) :
      Required sdk i c s p (.ok (), p.made (.onConnection c s.operation) (.ok result))
  | refused {result : Reply} {e : Raised} (hanswer : sdk (.onConnection c s.operation) = .ok result)
      (hrefuses : s.refuses result = true) :
      Required sdk i c s p (.error e, (outcome (stop sdk i) (p.made (.onConnection c s.operation) (.ok result))).2)

theorem require_cases (sdk : Sdk) (i c : ℕ) (s : SetUp) (p : Process) :
    Required sdk i c s p (outcome (require sdk i c s) p) := by
  unfold require
  rw [outcome_bind, outcome_ask]
  cases hanswer : sdk (.onConnection c s.operation) with
  | error e => exact .raised hanswer
  | ok result =>
    rw [next_ok]
    cases hrefuses : s.refuses result with
    | false => exact .accepted hanswer hrefuses
    | true =>
      have hrefused : ∀ e, Required sdk i c s p (.error e, _) := fun e => .refused hanswer hrefuses
      simp only [if_true, outcome_bind]
      revert hrefused
      cases outcome (stop sdk i) (p.made (.onConnection c s.operation) (.ok result)) with
      | mk r t => cases r <;> exact fun hrefused => hrefused _

theorem connectionOf_stop {c : ℕ} (hrelease : ∀ c, ∃ reply, sdk (.onConnection c .release) = .ok reply) :
    (outcome (stop sdk i) p).2.connectionOf i ≠ some c := by
  have hstop := stop_cases sdk i p
  generalize outcome (stop sdk i) p = r at hstop ⊢
  cases hstop with
  | idle hnone => rw [hnone]; simp
  | @kept d e hd he =>
    obtain ⟨reply, hreply⟩ := hrelease d
    exact absurd (he.symm.trans hreply) (by simp)
  | @released d reply r hd hrelease =>
    intro hc
    exact ((connectionOf_dropped (p := p.made _ _) hd).mp hc).1 rfl

/-- A computation keeps the invariant, whether it returns or raises. -/
abbrev Keeps {α : Type} (m : Receiving α) : Prop := Triple Coherent m (fun _ => Coherent) fun _ => Coherent

theorem stop_kept (sdk : Sdk) (i : ℕ) : Keeps (stop sdk i) := by
  intro p h
  have hstop := stop_cases sdk i p
  generalize outcome (stop sdk i) p = r at hstop ⊢
  cases hstop with
  | idle hnone => exact h
  | kept hc hrelease => exact (h.made hc .disconnect _ (Or.inl (by simp))).made hc .release _ (Or.inr ⟨_, rfl⟩)
  | @released c reply r hc hrelease =>
    have hdropped := (h.made hc .disconnect (sdk (.onConnection c .disconnect)) (Or.inl (by simp))).dropped hc reply
    exact meets_const.mpr hdropped

/-- What a failed start leaves: no connection, unless the SDK has raised. -/
def Failed (sdk : Sdk) (i : ℕ) (p : Process) : Prop :=
  Coherent p ∧ ((∀ call, ∃ reply, sdk call = .ok reply) → p.connectionOf i = none)

theorem stop_failed (sdk : Sdk) (i : ℕ) :
    Triple Coherent (stop sdk i) (fun _ => Failed sdk i) fun _ => Failed sdk i := by
  have hnone : ∀ p, (∀ call, ∃ reply, sdk call = .ok reply) → (outcome (stop sdk i) p).2.connectionOf i = none :=
    fun p hsdk => Option.eq_none_iff_forall_ne_some.mpr fun c =>
      connectionOf_stop fun c => hsdk (.onConnection c .release)
  intro p h
  have hkept := stop_kept sdk i p h
  have hgone := hnone p
  revert hkept hgone
  cases outcome (stop sdk i) p with
  | mk r t => cases r <;> exact And.intro

theorem startService_kept (appid : String) :
    Triple (fun p => Coherent p ∧ Fresh i p) (startService sdk appid)
      (fun s p => (Coherent p ∧ Fresh i p) ∧ p.service = some s) fun _ => Failed sdk i := by
  intro p h
  have hcases := startService_cases sdk appid p
  generalize outcome (startService sdk appid) p = r at hcases ⊢
  cases hcases with
  | refused hs hanswer => exact ⟨h.1.uninitialized hs appid hanswer, fun _ => h.2.2⟩
  | initialized hs hanswer hreply => exact ⟨⟨h.1.initialized hs appid hreply, h.2⟩, rfl⟩
  | switching hs happid => exact ⟨h.1, fun _ => h.2.2⟩
  | present hs happid => exact ⟨h, hs⟩

/-- The receiver has the connection. -/
def Holding (i c : ℕ) (p : Process) : Prop := Coherent p ∧ p.connectionOf i = some c

theorem createConnection_kept (s : ℕ) :
    Triple (fun p => (Coherent p ∧ Fresh i p) ∧ p.service = some s) (createConnection sdk i s)
      (fun c => Holding i c) fun _ => Failed sdk i := by
  intro p h
  have hcases := createConnection_cases sdk i s p
  generalize outcome (createConnection sdk i s) p = r at hcases ⊢
  cases hcases with
  | uncreated hanswer => exact ⟨h.1.1.uncreated h.2 hanswer, fun _ => h.1.2.2⟩
  | created hanswer hreply =>
    exact ⟨h.1.1.created h.2 h.1.2 hreply, (connectionOf_created h.1.2).mpr (Or.inl ⟨rfl, rfl⟩)⟩

/-- No call of `setUp` is a release. -/
theorem operation_ne_release {r : AgoraReceiver} {s : SetUp} (hs : s ∈ r.setUp) : s.operation ≠ .release := by
  unfold setUp at hs
  simp only [List.mem_cons, List.not_mem_nil, or_false] at hs
  rcases hs with rfl | rfl | rfl | rfl | rfl | rfl | rfl | rfl <;> simp

theorem require_kept {c : ℕ} {s : SetUp} (hs : s.operation ≠ .release) :
    Triple (Holding i c) (require sdk i c s) (fun _ => Holding i c) fun _ => Failed sdk i := by
  intro p h
  have hcases := require_cases sdk i c s p
  generalize outcome (require sdk i c s) p = r at hcases ⊢
  cases hcases with
  | @raised e hanswer =>
    refine ⟨h.1.made h.2 _ _ (Or.inl hs), fun hsdk => ?_⟩
    obtain ⟨reply, hreply⟩ := hsdk (.onConnection c s.operation)
    exact absurd (hanswer.symm.trans hreply) (by simp)
  | accepted hanswer hrefuses => exact ⟨h.1.made h.2 _ _ (Or.inl hs), h.2⟩
  | @refused result e hanswer hrefuses =>
    exact meets_const.mp (stop_failed sdk i _ (h.1.made h.2 s.operation (.ok result) (Or.inl hs)))

/-- **What `start` leaves**, whether it returns or raises. -/
theorem start_kept (sdk : Sdk) (i : ℕ) (r : AgoraReceiver) :
    Triple (fun p => Coherent p ∧ Fresh i p) (start sdk i r) (fun _ => Coherent) fun _ => Failed sdk i := by
  refine (startService_kept r.appid).bind fun s => (createConnection_kept s).bind fun c => ?_
  exact (Triple.forM r.setUp fun u hu => require_kept (operation_ne_release hu)).mono
    (fun _ => id) (fun _ _ h => h.1) fun _ _ => id

theorem connectionOf_construct (r : AgoraReceiver) (hr : r.connection = none) :
    (p.construct r).connectionOf i = p.connectionOf i := by
  unfold connectionOf construct
  by_cases h : i < p.receivers.length
  · simp [List.getElem?_append_left h]
  · rw [List.getElem?_append_right (Nat.le_of_not_lt h), List.getElem?_eq_none (Nat.le_of_not_lt h)]
    cases i - p.receivers.length with
    | zero => exact hr
    | succ k => rfl

/-- A receiver that has been constructed is fresh. -/
theorem coherent_construct (h : Coherent p) {r : AgoraReceiver} (hr : r.connection = none) :
    Coherent (p.construct r) ∧ Fresh p.receivers.length (p.construct r) := by
  have hof : ∀ i, (p.construct r).connectionOf i = p.connectionOf i := fun i => connectionOf_construct r hr
  refine ⟨⟨h.orderly, ?_, h.services.same rfl rfl rfl (fun _ _ => Iff.rfl) fun _ => Iff.rfl⟩, ?_, ?_⟩
  · refine ⟨h.connections.count, ?_, ?_, ?_⟩ <;> simp only [hof]
    · exact h.connections.held
    · exact h.connections.once
    · exact h.connections.found
  · simp [construct]
  · rw [hof]
    simp [connectionOf]

theorem begin_kept (appid channel token : String) (uid : ℤ) : Keeps (begin sdk appid channel token uid) := by
  refine Triple.bind_get fun p h => ?_
  rw [outcome_bind, outcome_set, next_ok]
  exact (start_kept _ _ _ _ (coherent_construct h rfl)).mono (fun _ _ => id) fun _ _ h => h.1

/-- A method that makes at most one call on the connection, and does not release it. -/
theorem onConnection_kept {α : Type} (none' : α) {rest : ℕ → Receiving α}
    (hrest : ∀ c, Triple (Holding i c) (rest c) (fun _ => Coherent) fun _ => Coherent) :
    Keeps (do
      match (← get).connectionOf i with
      | none => return none'
      | some c => rest c) := by
  refine Triple.bind_get fun p h => ?_
  cases hc : p.connectionOf i with
  | none => exact h
  | some c => exact hrest c p ⟨h, hc⟩

theorem ask_kept {c : ℕ} {op : Operation} (hop : op ≠ .release) :
    Triple (Holding i c) (ask sdk (.onConnection c op)) (fun _ => Coherent) fun _ => Coherent := by
  intro p h
  have hmade : Coherent (p.made (.onConnection c op) (sdk (.onConnection c op))) := h.1.made h.2 _ _ (Or.inl hop)
  rw [outcome_ask]
  cases hanswer : sdk (.onConnection c op) <;> rw [hanswer] at hmade <;> exact hmade

theorem pushReady_kept (i : ℕ) : Keeps (pushReady sdk i) :=
  onConnection_kept false fun _ => (ask_kept (by simp)).bind fun _ => Triple.pure fun _ => id

theorem pushPcm_kept (i : ℕ) (pcm : Pcm) (sampleRate channels : ℕ) :
    Keeps (pushPcm sdk i pcm sampleRate channels) := by
  refine onConnection_kept false fun c => ?_
  by_cases hpcm : pcm = []
  · rw [if_pos hpcm]
    exact Triple.pure fun _ h => h.1
  · rw [if_neg hpcm]
    exact (ask_kept (by simp)).bind fun _ => Triple.pure fun _ => id

theorem clearAudioBuffer_kept (i : ℕ) (track : Bool) : Keeps (clearAudioBuffer sdk i track) := by
  refine onConnection_kept () fun c => ?_
  cases track with
  | false => exact Triple.pure fun _ h => h.1
  | true =>
    intro p h
    have hmade := h.1.made h.2 .clearSenderBuffer (sdk (.onConnection c .clearSenderBuffer)) (Or.inl (by simp))
    simp only [if_true, outcome_tryCatch, outcome_discard, outcome_ask]
    cases hanswer : sdk (.onConnection c .clearSenderBuffer) <;> rw [hanswer] at hmade <;> exact hmade

theorem shutdownService_kept : Keeps (shutdownService sdk) := by
  refine Triple.bind_get fun p h => ?_
  cases hs : p.service with
  | none => exact h
  | some s =>
    simp only [outcome_bind, outcome_discard, outcome_ask]
    cases sdk (.releaseService s) with
    | error e => exact h.unreleased hs e
    | ok reply => exact h.shutDown hs

theorem method_kept (sdk : Sdk) (e : AgoraEvent) : Keeps (e.method sdk) := by
  cases e with
  | begin appid channel token uid => exact begin_kept appid channel token uid
  | stop i => exact stop_kept sdk i
  | pushReady i =>
    exact (pushReady_kept i).bind fun _ => Triple.pure fun _ => id
  | pushPcm i pcm sampleRate channels =>
    exact (pushPcm_kept i pcm sampleRate channels).bind fun _ => Triple.pure fun _ => id
  | clearAudioBuffer i track => exact clearAudioBuffer_kept i track
  | shutdownService => exact shutdownService_kept

/-! ### Other receivers -/

/-- The other receivers have the connections they have in `q`. -/
def Others (i : ℕ) (q p : Process) : Prop := ∀ j, j ≠ i → p.connectionOf j = q.connectionOf j

/-- The computation leaves the connections of the other receivers. -/
abbrev Local (i : ℕ) (q : Process) {α : Type} (m : Receiving α) : Prop :=
  Triple (Others i q) m (fun _ => Others i q) fun _ => Others i q

variable {q : Process}

theorem stop_local (sdk : Sdk) (i : ℕ) : Local i q (stop sdk i) := by
  intro p h
  have hstop := stop_cases sdk i p
  generalize outcome (stop sdk i) p = r at hstop ⊢
  cases hstop with
  | idle hnone => exact h
  | kept hc hrelease => exact h
  | @released c reply r hc hrelease =>
    exact meets_const.mpr fun j hj => (connectionOf_setConnection_ne hj).trans (h j hj)

theorem start_local (sdk : Sdk) (i : ℕ) (r : AgoraReceiver) : Local i q (start sdk i r) := by
  have hservice : Local i q (startService sdk r.appid) := by
    intro p h
    have hcases := startService_cases sdk r.appid p
    generalize outcome (startService sdk r.appid) p = r at hcases ⊢
    cases hcases <;> exact h
  have hcreate : ∀ s, Local i q (createConnection sdk i s) := by
    intro s p h
    have hcases := createConnection_cases sdk i s p
    generalize outcome (createConnection sdk i s) p = r at hcases ⊢
    cases hcases with
    | uncreated hanswer => exact h
    | created hanswer hreply => exact fun j hj => (connectionOf_setConnection_ne hj).trans (h j hj)
  have hrequire : ∀ c s, Local i q (require sdk i c s) := by
    intro c s p h
    have hcases := require_cases sdk i c s p
    generalize outcome (require sdk i c s) p = r at hcases ⊢
    cases hcases with
    | raised hanswer => exact h
    | accepted hanswer hrefuses => exact h
    | @refused result e hanswer hrefuses =>
      exact meets_const.mp (stop_local sdk i (p.made (.onConnection c s.operation) (.ok result)) h)
  exact hservice.bind fun s => (hcreate s).bind fun c => Triple.forM _ fun u _ => hrequire c u

/-! ## When a start returns -/

/-- The SDK accepts everything that a start asks. -/
structure Accepted (sdk : Sdk) (r : AgoraReceiver) (p : Process) : Prop where
  service : p.service = none →
    ∃ reply, sdk (.initializeService p.services r.appid) = .ok reply ∧ reply.negative = false
  appid : ∀ s, p.service = some s → p.appid = some r.appid
  connection : ∃ reply, sdk (.createRtcConnection (p.service.getD p.services)) = .ok reply ∧ reply ≠ .none
  calls : ∀ s ∈ r.setUp, ∃ reply, sdk (.onConnection p.connections s.operation) = .ok reply ∧ s.refuses reply = false

theorem setUp_returns_iff (sdk : Sdk) (i c : ℕ) (ss : List SetUp) (p : Process) :
    (outcome (ss.forM (require sdk i c)) p).1 = .ok () ↔
      ∀ s ∈ ss, ∃ reply, sdk (.onConnection c s.operation) = .ok reply ∧ s.refuses reply = false := by
  induction ss generalizing p with
  | nil => simp
  | cons s ss ih =>
    have hcases := require_cases sdk i c s p
    have hcons : (s :: ss).forM (require sdk i c) = require sdk i c s >>= fun _ => ss.forM (require sdk i c) := rfl
    rw [hcons, outcome_bind, List.forall_mem_cons]
    generalize outcome (require sdk i c s) p = r at hcases ⊢
    cases hcases with
    | raised hanswer => simp [hanswer]
    | accepted hanswer hrefuses => rw [next_ok, ih, hanswer]; simp [hrefuses]
    | refused hanswer hrefuses => simp [hanswer, hrefuses]

/-- **When a start returns**: exactly if the SDK accepts all of it. -/
theorem start_returns_iff (sdk : Sdk) (i : ℕ) (r : AgoraReceiver) (p : Process) :
    (outcome (start sdk i r) p).1 = .ok () ↔ Accepted sdk r p := by
  have hservice := startService_cases sdk r.appid p
  unfold start
  rw [outcome_bind]
  generalize outcome (startService sdk r.appid) p = s at hservice ⊢
  have hcreate : ∀ s q, q.connections = p.connections →
      ((outcome (createConnection sdk i s >>= fun c => r.setUp.forM (require sdk i c)) q).1 = .ok () ↔
        (∃ reply, sdk (.createRtcConnection s) = .ok reply ∧ reply ≠ .none) ∧
          ∀ s ∈ r.setUp, ∃ reply, sdk (.onConnection p.connections s.operation) = .ok reply ∧
            s.refuses reply = false) := by
    intro s q hq
    have hcases := createConnection_cases sdk i s q
    rw [outcome_bind]
    generalize outcome (createConnection sdk i s) q = r at hcases ⊢
    cases hcases with
    | uncreated hanswer => rcases hanswer with hanswer | ⟨e, hanswer⟩ <;> simp [hanswer]
    | created hanswer hreply => rw [next_ok, setUp_returns_iff, hanswer, hq]; simp [hreply]
  cases hservice with
  | refused hs hanswer =>
    refine iff_of_false (by simp) fun h => ?_
    obtain ⟨reply, hreply, hok⟩ := h.service hs
    exact absurd ((hanswer reply hreply).symm.trans hok) (by simp)
  | @initialized reply hs hanswer hreply =>
    rw [next_ok, hcreate _ (p.initialized r.appid reply) rfl]
    refine ⟨fun h => ⟨fun _ => ⟨_, hanswer, hreply⟩, fun s hs' => ?_, ?_, h.2⟩, fun h => ⟨?_, h.calls⟩⟩
    · exact absurd (hs.symm.trans hs') (by simp)
    · rw [hs]
      exact h.1
    · have hconnection := h.connection
      rwa [hs] at hconnection
  | switching hs happid =>
    exact iff_of_false (by simp) fun h => happid (h.appid _ hs)
  | present hs happid =>
    rw [next_ok, hcreate _ p rfl]
    refine ⟨fun h => ⟨fun hnone => ?_, fun _ _ => happid, ?_, h.2⟩, fun h => ⟨?_, h.calls⟩⟩
    · exact absurd (hs.symm.trans hnone) (by simp)
    · rw [hs]
      exact h.1
    · have hconnection := h.connection
      rwa [hs] at hconnection

end AgoraReceiver

/-! ## Runs -/

variable {c : ℕ}

open Process AgoraReceiver in
/-- The invariant holds after any events. -/
theorem coherent_after (events : List (AgoraEvent × Sdk)) : Coherent (Process.after events) := by
  refine Run.final_of_step (fun p e q hp hstep => ?_) coherent_start events
  obtain rfl := Option.some.inj hstep
  exact meets_const.mp (method_kept e.2 e.1 p hp)

/-- **The SDK's objects are used only while they are alive**, whatever the SDK answers. -/
theorem objects_used_while_alive (events : List (AgoraEvent × Sdk)) : Orderly (Process.after events).calls :=
  (coherent_after events).orderly

/-- **No connection is lost**: one that was made has been released, or exactly one receiver still holds it. -/
theorem connections_released_or_held (events : List (AgoraEvent × Sdk))
    (hc : c < connectionsMade (Process.after events).calls) :
    Released c (Process.after events).calls ∧ (∀ i, (Process.after events).connectionOf i ≠ some c) ∨
      ¬ Released c (Process.after events).calls ∧ ∃! i, (Process.after events).connectionOf i = some c := by
  have hcoherent := (coherent_after events).connections
  by_cases hreleased : Released c (Process.after events).calls
  · exact Or.inl ⟨hreleased, fun i hi => (hcoherent.held i c hi).2 hreleased⟩
  · obtain ⟨i, hi⟩ := hcoherent.found c (hcoherent.count.symm ▸ hc) hreleased
    exact Or.inr ⟨hreleased, i, hi, fun j hj => hcoherent.once j i c hj hi⟩

/-- An SDK that refuses to connect and accepts everything else. -/
def unreachableSdk : Sdk := fun call =>
  match call with
  | .onConnection _ (.connect _ _ _) => .ok (.int (-2))
  | _ => .ok .object

theorem connections_released_or_held_unreachable :
    Released 0 (Process.after [(.begin "app" "room" "token" 7, unreachableSdk)]).calls ∧
        (∀ i, (Process.after [(.begin "app" "room" "token" 7, unreachableSdk)]).connectionOf i ≠ some 0) ∨
      ¬ Released 0 (Process.after [(.begin "app" "room" "token" 7, unreachableSdk)]).calls ∧
        ∃! i, (Process.after [(.begin "app" "room" "token" 7, unreachableSdk)]).connectionOf i = some 0 :=
  connections_released_or_held [(.begin "app" "room" "token" 7, unreachableSdk)] (by decide)

namespace AgoraReceiver

open Process

variable {sdk : Sdk} {p q : Process} {i : ℕ}

/-- If the other receivers have the connections they had, what was made in between has been released, or the
receiver has it. -/
theorem released_or_held_of_others (hp : Coherent p) (hq : Coherent q) (hothers : Others i p q)
    (hold : connectionsMade p.calls ≤ c) (hnew : c < connectionsMade q.calls) :
    Released c q.calls ∨ q.connectionOf i = some c := by
  by_cases hreleased : Released c q.calls
  · exact Or.inl hreleased
  · obtain ⟨j, hj⟩ := hq.connections.found c (hq.connections.count.symm ▸ hnew) hreleased
    by_cases hji : j = i
    · exact Or.inr (hji ▸ hj)
    · have hlt := (hp.connections.held j c ((hothers j hji).symm.trans hj)).1
      rw [hp.connections.count] at hlt
      exact absurd hlt (Nat.not_lt_of_le hold)

/-- What a `begin` that raises leaves. -/
theorem begin_failed {appid channel token : String} {uid : ℤ} {e : Raised} (hp : Coherent p)
    (hfail : outcome (begin sdk appid channel token uid) p = (.error e, q)) :
    Failed sdk p.receivers.length q ∧ Others p.receivers.length p q := by
  have hconstruct := coherent_construct hp (r := new appid channel token uid) rfl
  have hothers : Others p.receivers.length p (p.construct (new appid channel token uid)) :=
    fun j _ => connectionOf_construct _ rfl
  unfold begin at hfail
  rw [outcome_bind, outcome_get, next_ok, outcome_bind, outcome_set, next_ok] at hfail
  have hkept := start_kept sdk p.receivers.length (new appid channel token uid) _ hconstruct
  have hlocal := start_local sdk p.receivers.length (new appid channel token uid) _ hothers
  rw [hfail] at hkept hlocal
  exact ⟨hkept, hlocal⟩

end AgoraReceiver

namespace AgoraReceiver

open Process

variable {sdk : Sdk} {p q : Process} {i j : ℕ}

/-! ### What becomes of one connection -/

/-- The connection has been released, or a receiver other than `j` has it. -/
def Elsewhere (c i j : ℕ) (p : Process) : Prop := Released c p.calls ∨ i ≠ j ∧ p.connectionOf i = some c

theorem Elsewhere.same (h : Elsewhere c i j p) (hcalls : p.calls <+: q.calls)
    (hof : i ≠ j → q.connectionOf i = p.connectionOf i) : Elsewhere c i j q := by
  rcases h with ⟨reply, hreply⟩ | ⟨hne, hc⟩
  · exact Or.inl ⟨reply, hcalls.subset hreply⟩
  · exact Or.inr ⟨hne, (hof hne).trans hc⟩

/-- The computation leaves the connections of receivers other than `j`, and what has been released. -/
abbrev Leaves (c i j : ℕ) {α : Type} (m : Receiving α) : Prop :=
  Triple (Elsewhere c i j) m (fun _ => Elsewhere c i j) fun _ => Elsewhere c i j

theorem ask_leaves (sdk : Sdk) (call : SdkCall) : Leaves c i j (ask sdk call) := by
  intro p h
  rw [outcome_ask]
  exact meets_const.mpr (h.same (List.prefix_append _ _) fun _ => rfl)

theorem stop_leaves (sdk : Sdk) (j : ℕ) : Leaves c i j (stop sdk j) := by
  intro p h
  have hstop := stop_cases sdk j p
  generalize outcome (stop sdk j) p = r at hstop ⊢
  cases hstop with
  | idle hnone => exact h
  | kept hd hrelease => exact h.same ((List.prefix_append _ _).trans (List.prefix_append _ _)) fun _ => rfl
  | @released d reply r hd hrelease =>
    refine meets_const.mpr (h.same ((List.prefix_append _ _).trans (List.prefix_append _ _)) fun hne => ?_)
    exact connectionOf_setConnection_ne hne

theorem start_leaves (sdk : Sdk) (j : ℕ) (r : AgoraReceiver) : Leaves c i j (start sdk j r) := by
  have hservice : Leaves c i j (startService sdk r.appid) := by
    intro p h
    have hcases := startService_cases sdk r.appid p
    generalize outcome (startService sdk r.appid) p = r at hcases ⊢
    cases hcases with
    | refused hs hanswer => exact h.same (List.prefix_append _ _) fun _ => rfl
    | initialized hs hanswer hreply => exact h.same (List.prefix_append _ _) fun _ => rfl
    | switching hs happid => exact h
    | present hs happid => exact h
  have hcreate : ∀ s, Leaves c i j (createConnection sdk j s) := by
    intro s p h
    have hcases := createConnection_cases sdk j s p
    generalize outcome (createConnection sdk j s) p = r at hcases ⊢
    cases hcases with
    | uncreated hanswer => exact h.same (List.prefix_append _ _) fun _ => rfl
    | created hanswer hreply =>
      exact h.same (List.prefix_append _ _) fun hne => connectionOf_setConnection_ne hne
  have hrequire : ∀ d s, Leaves c i j (require sdk j d s) := by
    intro d s p h
    have hmade : ∀ answer, Elsewhere c i j (p.made (.onConnection d s.operation) answer) := fun answer =>
      h.same (List.prefix_append _ _) fun _ => rfl
    have hcases := require_cases sdk j d s p
    generalize outcome (require sdk j d s) p = r at hcases ⊢
    cases hcases with
    | raised hanswer => exact hmade _
    | accepted hanswer hrefuses => exact hmade _
    | @refused result e hanswer hrefuses =>
      exact meets_const.mp (stop_leaves sdk j _ (hmade (.ok result)))
  exact hservice.bind fun s => (hcreate s).bind fun d => Triple.forM _ fun u _ => hrequire d u

theorem begin_leaves {appid channel token : String} {uid : ℤ} (h : Elsewhere c i p.receivers.length p) :
    (outcome (begin sdk appid channel token uid) p).Meets (fun _ => Elsewhere c i p.receivers.length)
      fun _ => Elsewhere c i p.receivers.length := by
  unfold begin
  rw [outcome_bind, outcome_get, next_ok, outcome_bind, outcome_set, next_ok]
  exact start_leaves sdk _ _ _ (h.same List.prefix_rfl fun _ => connectionOf_construct _ rfl)

/-- The methods that neither start nor stop a receiver. -/
theorem method_leaves (sdk : Sdk) {e : AgoraEvent} (hbegin : ∀ appid channel token uid, e ≠ .begin appid channel token uid)
    (hstop : ∀ k, e ≠ .stop k) : Leaves c i j (e.method sdk) := by
  have hconnection : ∀ {α : Type} (k : ℕ) (none' : α) {rest : ℕ → Receiving α}, (∀ d, Leaves c i j (rest d)) →
      Leaves c i j (do
        match (← get).connectionOf k with
        | none => return none'
        | some d => rest d) := by
    intro α k none' rest hrest
    refine Triple.bind_get fun p h => ?_
    cases p.connectionOf k with
    | none => exact h
    | some d => exact hrest d p h
  cases e with
  | begin appid channel token uid => exact absurd rfl (hbegin _ _ _ _)
  | stop k => exact absurd rfl (hstop k)
  | pushReady k =>
    exact (hconnection k false fun _ => (ask_leaves _ _).bind fun _ => Triple.pure fun _ => id).bind
      fun _ => Triple.pure fun _ => id
  | pushPcm k pcm sampleRate channels =>
    refine (hconnection k false fun d => ?_).bind fun _ => Triple.pure fun _ => id
    by_cases hpcm : pcm = []
    · rw [if_pos hpcm]
      exact Triple.pure fun _ => id
    · rw [if_neg hpcm]
      exact (ask_leaves _ _).bind fun _ => Triple.pure fun _ => id
  | clearAudioBuffer k track =>
    refine hconnection k () fun d => ?_
    cases track with
    | false => exact Triple.pure fun _ => id
    | true =>
      intro p h
      have hask := ask_leaves sdk (.onConnection d .clearSenderBuffer) p h
      simp only [if_true, outcome_tryCatch, outcome_discard]
      revert hask
      cases outcome (ask sdk (.onConnection d .clearSenderBuffer)) p with
      | mk r t => cases r <;> exact id
  | shutdownService =>
    refine Triple.bind_get fun p h => ?_
    cases hs : p.service with
    | none => exact h
    | some s =>
      have hask := ask_leaves sdk (.releaseService s) p h
      simp only [outcome_bind, outcome_discard]
      revert hask
      cases outcome (ask sdk (.releaseService s)) p with
      | mk r t =>
        cases r with
        | ok reply => exact fun hask => hask.same List.prefix_rfl fun _ => rfl
        | error e => exact id

theorem elsewhere_self : Elsewhere c i i p ↔ Released c p.calls := or_iff_left fun h => h.1 rfl

/-- What has been released stays released. -/
theorem released_method (h : Released c p.calls) (e : AgoraEvent) (sdk : Sdk) :
    Released c (outcome (e.method sdk) p).2.calls := by
  have hself : ∀ i, Elsewhere c i i p := fun i => elsewhere_self.mpr h
  cases e with
  | begin appid channel token uid => exact elsewhere_self.mp (meets_const.mp (begin_leaves (hself _)))
  | stop k => exact elsewhere_self.mp (meets_const.mp (stop_leaves sdk k p (hself k)))
  | _ => exact elsewhere_self.mp (meets_const.mp (method_leaves sdk (by simp) (by simp) p (hself 0)))

/-- **One event** leaves a connection with its receiver, or it releases it. -/
theorem held_method (h : p.connectionOf i = some c) (e : AgoraEvent) (sdk : Sdk) :
    Released c (outcome (e.method sdk) p).2.calls ∨ (outcome (e.method sdk) p).2.connectionOf i = some c := by
  have helse : ∀ j, i ≠ j → Elsewhere c i j p := fun j hne => Or.inr ⟨hne, h⟩
  cases e with
  | begin appid channel token uid =>
    have hne : i ≠ p.receivers.length := Nat.ne_of_lt (lt_of_connectionOf h)
    exact (meets_const.mp (begin_leaves (helse _ hne))).imp_right And.right
  | stop k =>
    by_cases hk : i = k
    · subst hk
      have hstop := stop_cases sdk i p
      change Released c (outcome (stop sdk i) p).2.calls ∨ (outcome (stop sdk i) p).2.connectionOf i = some c
      generalize outcome (stop sdk i) p = r at hstop ⊢
      cases hstop with
      | idle hnone => exact Or.inr h
      | kept hd hrelease => exact Or.inr h
      | released hd hrelease => exact Or.inl (released_dropped.mpr (Or.inr (Option.some.inj (h.symm.trans hd))))
    · exact (meets_const.mp (stop_leaves sdk k p (helse k hk))).imp_right And.right
  | _ =>
    exact (meets_const.mp (method_leaves sdk (by simp) (by simp) p (helse (i + 1) (by omega)))).imp_right And.right

/-- A stop whose release returns releases the connection. -/
theorem released_stop (hrelease : ∀ d, ∃ reply, sdk (.onConnection d .release) = .ok reply)
    (h : Released c p.calls ∨ p.connectionOf i = some c) : Released c (outcome (stop sdk i) p).2.calls := by
  rcases h with h | h
  · exact released_method h (.stop i) sdk
  · exact (held_method h (.stop i) sdk).resolve_right (connectionOf_stop hrelease)

/-- **Any events** leave a connection with its receiver, or one of them releases it. -/
theorem accounted_run (h : Released c p.calls ∨ p.connectionOf i = some c) (events : List (AgoraEvent × Sdk)) :
    Released c (Run.final Process.step p events).calls ∨
      (Run.final Process.step p events).connectionOf i = some c := by
  refine Run.final_of_step (P := fun q : Process => Released c q.calls ∨ q.connectionOf i = some c)
    (fun q e t hq hstep => ?_) h events
  obtain rfl := Option.some.inj hstep
  rcases hq with hq | hq
  · exact Or.inl (released_method hq e.1 e.2)
  · exact held_method hq e.1 e.2

theorem released_run (h : Released c p.calls) (events : List (AgoraEvent × Sdk)) :
    Released c (Run.final Process.step p events).calls := by
  refine Run.final_of_step (P := fun q : Process => Released c q.calls) (fun q e t hq hstep => ?_) h events
  obtain rfl := Option.some.inj hstep
  exact released_method hq e.1 e.2

end AgoraReceiver

open AgoraReceiver in
/-- **A failed start leaves nothing behind**: what it made is released at once, unless the SDK itself raised, and
then by the next `stop` of the receiver, whatever happens before and after it. -/
theorem failed_start_released (events : List (AgoraEvent × Sdk)) {sdk : Sdk} {appid channel token : String}
    {uid : ℤ} {e : Raised} {q : Process}
    (hfail : outcome (begin sdk appid channel token uid) (Process.after events) = (.error e, q))
    (hold : connectionsMade (Process.after events).calls ≤ c) (hnew : c < connectionsMade q.calls) :
    ((∀ call, ∃ reply, sdk call = .ok reply) → Released c q.calls) ∧
      ∀ (mid rest : List (AgoraEvent × Sdk)) (stopSdk : Sdk),
        (∀ d, ∃ reply, stopSdk (.onConnection d .release) = .ok reply) →
        Released c (Process.after (events ++ (.begin appid channel token uid, sdk) :: mid ++
          (.stop (Process.after events).receivers.length, stopSdk) :: rest)).calls := by
  have hp := coherent_after events
  obtain ⟨⟨hq, hnone⟩, hothers⟩ := begin_failed hp hfail
  have hleft := released_or_held_of_others hp hq hothers hold hnew
  refine ⟨fun hsdk => hleft.resolve_right ?_, fun mid rest stopSdk hrelease => ?_⟩
  · rw [hnone hsdk]
    simp
  · have hbegin : Process.step (Process.after events) (.begin appid channel token uid, sdk) = some q := by
      change some (outcome (begin sdk appid channel token uid) (Process.after events)).2 = some q
      rw [hfail]
    have hrun : Process.after (events ++ (.begin appid channel token uid, sdk) :: mid ++
        (.stop (Process.after events).receivers.length, stopSdk) :: rest) = Run.final Process.step
          (outcome (stop stopSdk (Process.after events).receivers.length) (Run.final Process.step q mid)).2 rest := by
      have hmid : Run.final Process.step (Process.after events) ((.begin appid channel token uid, sdk) :: mid) =
          Run.final Process.step q mid := by rw [Run.final, hbegin]
      rw [Process.after, Run.final_append, Run.final_append, ← Process.after, hmid]
      rfl
    rw [hrun]
    exact released_run (released_stop hrelease (accounted_run hleft mid)) rest

open AgoraReceiver in
theorem failed_start_released_unreachable :
    ((∀ call, ∃ reply, unreachableSdk call = .ok reply) →
        Released 0 (outcome (begin unreachableSdk "app" "room" "token" 7) (Process.after [])).2.calls) ∧
      ∀ (mid rest : List (AgoraEvent × Sdk)) (stopSdk : Sdk),
        (∀ d, ∃ reply, stopSdk (.onConnection d .release) = .ok reply) →
        Released 0 (Process.after ([] ++ (.begin "app" "room" "token" 7, unreachableSdk) :: mid ++
          (.stop 0, stopSdk) :: rest)).calls :=
  failed_start_released [] (e := .runtimeError "Agora connection failed: -2") rfl (by decide) (by decide)

end SenseVoice.Bridge
