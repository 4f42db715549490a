import SenseVoice.ControlPlane.Relay
import SenseVoice.Page.Events

/-!
# Whether the page knows that its session is ready

Readiness reaches the page by the relayed `session.ready`, or, when the socket is opened after the
bridge's message, only by the state in the `session.snapshot`. `handleServerEvent` has no branch for the
snapshot, so in the second order the page is never told.

Results:
* `labels_of_relayed`: what a relayed message makes of the session label;
* **`showsReady_iff`**: in a run that draws no UUID twice, the page of every registered link has marked
  a ready session ready, and shows it so, exactly if no link is opened for a session that is ready.
-/

namespace SenseVoice.Page

open Lib ControlPlane

variable {cfg : Config} {digest : String → String} {s t : System} {e : Event}

/-- Every page whose socket is registered has marked its session ready and shows it so, if it is. -/
def ShowsReady (a : AppState) : Prop :=
  ∀ id u r, a.inner.clients.lookup id = some ⟨u⟩ → a.inner.sessions.lookup id = some r →
    r.state = .ready →
    .markReady ∈ calls (a.clientLog u) ∧ sessionLabel (calls (a.clientLog u)) = readyLabel

/-- The step opens a link for a session that is ready. -/
def OpensReady (x : Run.Taken System Event) : Prop :=
  ∃ id u r, OpensLink x id u r ∧ r.state = .ready

/-! ## What the page does with its messages -/

/-- The page makes nothing of a snapshot. -/
theorem handleServerEvent_snapshot (id : Uuid) (st : SessionState) (online : Bool) :
    handleServerEvent (snapshot id st online) = [] := by
  have htype : (snapshot id st online).strField "type" = some "session.snapshot" := by
    rw [snapshot_fields]
    rfl
  simp [handleServerEvent, htype]

/-- A relayed message has the type and the effect of the bridge's message. -/
theorem addressed_kind {id : Uuid} {m : Value} (h : addressed e id = some m) :
    ∃ type kind, m.strField "type" = some type ∧ EventKind.ofType type = some kind ∧
      e.marks id = kind.state := by
  cases e with
  | bridgeMessage v message times =>
    simp only [addressed, Option.bind_eq_some_iff] at h
    obtain ⟨b, hb, h⟩ := h
    split at h
    · rename_i hid
      obtain rfl := Option.some.inj h
      obtain ⟨-, -, type, htype, hkind⟩ := parse_some hb
      obtain ⟨kind, hk⟩ := Option.isSome_iff_exists.mp hid.2
      refine ⟨type, kind, by rw [stamp_strField _ _ (by decide), htype], hkind ▸ hk, ?_⟩
      simp only [Event.marks, marks, hb, Option.bind_some, if_pos hid.1, hk]
    · exact absurd h (by simp)
  | _ => exact absurd h (by simp [addressed])

/-- A message that writes a state is accepted. -/
theorem addressed_of_marks {id : Uuid} {st : SessionState} (h : e.marks id = some st) :
    ∃ m, addressed e id = some m := by
  cases e with
  | bridgeMessage v message times =>
    simp only [Event.marks, marks, Option.bind_eq_some_iff] at h
    obtain ⟨b, hb, h⟩ := h
    split at h
    · rename_i hid
      obtain ⟨kind, hk, -⟩ := Option.bind_eq_some_iff.mp h
      refine ⟨stamp b.message times, ?_⟩
      simp only [addressed, hb, Option.bind_some, hid, hk, Option.isSome_some, and_self, if_true]
    · exact absurd h (by simp)
  | _ => exact absurd h (by simp [Event.marks])

theorem ofType_ready {type : String} (h : EventKind.ofType type = some .ready) :
    type = "session.ready" := by
  unfold EventKind.ofType at h
  split at h
  · assumption
  · split at h
    · exact absurd h (by simp)
    · split at h
      · exact absurd h (by simp)
      · split at h <;> exact absurd h (by simp)

theorem ofType_relayed {type : String} (h : EventKind.ofType type = some .relayed) :
    type ∈ ["asr.partial", "asr.final", "trace.update", "tts.started", "tts.finished",
      "tts.error"] := by
  unfold EventKind.ofType at h
  split at h
  · exact absurd h (by simp)
  · split at h
    · exact absurd h (by simp)
    · split at h
      · exact absurd h (by simp)
      · split at h
        · assumption
        · exact absurd h (by simp)

/-- **What a relayed message makes of the label**: one that writes `"ready"` makes the page mark its
session ready, and one that writes no state leaves the label. -/
theorem labels_of_relayed {a : AppState} {id : Uuid} {m : Value} (h : relayed e a id = some m) :
    (e.marks id = some .ready → ∃ d, d.label = none ∧ handleServerEvent m = [.markReady, d]) ∧
      (e.marks id = none → ∀ d ∈ handleServerEvent m, d.label = none) := by
  obtain ⟨type, kind, htype, hkind, hmarks⟩ := addressed_kind (relayed_eq_some.mp h).2
  rw [hmarks]
  refine ⟨fun hready => ?_, fun hnone => ?_⟩
  · have hk : kind = .ready := by cases kind <;> simp_all [EventKind.state]
    subst hk
    obtain rfl := ofType_ready hkind
    exact ⟨.log "会话已就绪" none, rfl, by simp only [handleServerEvent, htype, if_true]⟩
  · have hk : kind = .relayed := by cases kind <;> simp_all [EventKind.state]
    subst hk
    have hmem := ofType_relayed hkind
    simp only [List.mem_cons, List.not_mem_nil, or_false] at hmem
    rcases hmem with rfl | rfl | rfl | rfl | rfl | rfl <;> simp [handleServerEvent, htype, Call.label]

/-! ## One step -/

/-- The state a session is in is the state its record was left in. -/
theorem ready_before (h : step cfg digest s e = some t) {id : Uuid} {r : Session}
    (hr : t.app.inner.sessions.lookup id = some r) (hready : r.state = .ready) :
    (∃ r₀, s.app.inner.sessions.lookup id = some r₀) ∧ e.marks id = some .ready ∨
      s.app.inner.sessions.lookup id = some r ∧ e.marks id = none := by
  have hs := step_session h id
  generalize hb : s.app.inner.sessions.lookup id = before at hs
  generalize ha : t.app.inner.sessions.lookup id = after at hs
  rw [ha] at hr
  cases hs with
  | same hm =>
    refine Or.inr ⟨hr, hm.resolve_left ?_⟩
    rw [hr]
    exact Option.some_ne_none r
  | marked hm =>
    obtain rfl := Option.some.inj hr
    exact Or.inl ⟨⟨_, rfl⟩, hready ▸ hm⟩
  | closed ho hc =>
    obtain rfl := Option.some.inj hr
    exact absurd hready (by simp [Session.close])
  | removed he hx => exact absurd hr (by simp)
  | created he hid hcap =>
    obtain rfl := Option.some.inj hr
    exact absurd hready (by simp [newSession])

/-- Opening a link leaves every record. -/
theorem sessions_of_opensLink {x : Run.Taken System Event} {id u : Uuid} {r : Session}
    (h : step cfg digest x.before x.event = some x.after) (ho : OpensLink x id u r) :
    x.after.app.inner.sessions.lookup id = some r := by
  have hs := step_session h id
  rw [ho.1, ho.2.1] at hs
  generalize x.after.app.inner.sessions.lookup id = after at hs
  cases hs with
  | same hm => rfl
  | marked hm => exact absurd hm (by simp [Event.marks])
  | closed hopen hc => cases hc
  | removed he hx => exact absurd he (by simp)
  | created he hid hcap => exact absurd he (by simp)

/-- **A step from pages that show readiness** ends in such pages exactly if it opens no link for a
ready session. -/
theorem showsReady_step {x : Run.Taken System Event}
    (h : step cfg digest x.before x.event = some x.after) (hl : Linked x.before)
    (hc : ClientLinked x.before) (hk : KeyedById x.before.app) (hf : FreshStep x)
    (hs : ShowsReady x.before.app) : ShowsReady x.after.app ↔ ¬ OpensReady x := by
  constructor
  · rintro ht ⟨id, u, r, ho, hready⟩
    obtain ⟨hreg, hlog⟩ := opensLink_step h hl hc hf ho
    have hmark := (ht id u r hreg (sessions_of_opensLink h ho) hready).1
    rw [hlog, calls_singleton, firstMessage, handleServerEvent_snapshot] at hmark
    exact absurd hmark List.not_mem_nil
  · intro hno id u r hu hr hready
    rcases ClientLinked.before hk h hu with ⟨hold, -⟩ | ⟨hopens, ho⟩
    · -- the link was registered before the step
      cases link_step h hl hc hk hf hold with
      | leaves hout hn hc' hl' => exact absurd hu (hout id)
      | stays hstay hlog =>
        rw [hlog, calls_append]
        rcases ready_before h hr hready with ⟨⟨r₀, hr₀⟩, hmarks⟩ | ⟨hr₀, hmarks⟩
        · obtain ⟨m, hm⟩ := addressed_of_marks hmarks
          have hrel : relayed x.event x.before.app id = some m :=
            relayed_eq_some.mpr ⟨by rw [hr₀]; rfl, hm⟩
          obtain ⟨d, hd, hcalls⟩ := (labels_of_relayed hrel).1 hmarks
          rw [hrel, Option.toList_some, calls_singleton, hcalls]
          refine ⟨by simp, sessionLabel_markReady fun d' hd' => ?_⟩
          rw [List.mem_singleton.mp hd', hd]
        · obtain ⟨hmark, hlabel⟩ := hs id u r hold hr₀ hready
          refine ⟨List.mem_append_left _ hmark, ?_⟩
          cases hrel : relayed x.event x.before.app id with
          | none => simpa using hlabel
          | some m =>
            rw [Option.toList_some, calls_singleton,
              sessionLabel_append ((labels_of_relayed hrel).2 hmarks), hlabel]
    · -- the step opens the link
      obtain ⟨r₀, hr₀, hopen⟩ := sessionOpen_iff.mp ho
      have hlink : OpensLink x id u r₀ := ⟨hopens, hr₀, hopen⟩
      have hsame := sessions_of_opensLink h hlink
      rw [hr] at hsame
      obtain rfl := Option.some.inj hsame
      exact absurd ⟨id, u, r, hlink, hready⟩ hno

/-! ## Runs -/

/-- **Which runs keep the pages informed.** In a run that draws no UUID twice, every page whose link is
registered has marked its session ready in every state where the session is ready, and shows it so,
exactly if no link was opened for a session that was ready. -/
theorem showsReady_iff {es : List Event} (hf : FreshRun cfg digest es) :
    (∀ t ∈ states cfg digest es, ShowsReady t.app) ↔
      ∀ x ∈ trace cfg digest es, ¬ OpensReady x := by
  refine Run.states_iff_trace ?_ fun x hx => ?_
  · intro id u r hu
    exact absurd hu (by simp [System.init, AppState.new, Inner.empty])
  · exact showsReady_step (Run.mem_trace hx).2 (linked_before hf x hx) (clientLinked_before hf x hx)
      (keyedById_before x hx) (hf x hx)

/-- `showsReady_iff` on the order in which the browser connects first. -/
theorem showsReady_browser_first :
    ShowsReady (final livekitProductionConfig id (beforeOpen ++ [.clientOpen "first" "browser",
      .bridgeSays "link" (sessionMessage "session.ready" "first")])).app := by
  refine (showsReady_iff (by decide +kernel)).mpr ?_ _ (Run.final_mem_states _ _)
  -- no session is ready before the browser opens its socket
  have hstarting : ∀ x ∈ trace livekitProductionConfig id (beforeOpen ++ [.clientOpen "first" "browser",
      .bridgeSays "link" (sessionMessage "session.ready" "first")]),
      ∀ p ∈ x.before.app.inner.sessions.entries, p.2.state = .starting := by
    decide +kernel
  rintro x hx ⟨k, u, r, ⟨-, hr, -⟩, hready⟩
  have hstate := hstarting x hx ⟨k, r⟩ (AList.mem_lookup_iff.mp hr)
  exact absurd (hready.symm.trans hstate) (by simp)

/-- In the other order the bridge's message is handled when no link is there, and the page of the link
opened then has only the snapshot. -/
theorem ready_unseen :
    livekitProductionConfig.validate.toBool = true ∧
      FreshRun livekitProductionConfig id (beforeOpen ++
        [.bridgeSays "link" (sessionMessage "session.ready" "first"),
          .clientOpen "first" "browser"]) ∧
      ¬ ∀ t ∈ states livekitProductionConfig id (beforeOpen ++
        [.bridgeSays "link" (sessionMessage "session.ready" "first"),
          .clientOpen "first" "browser"]), ShowsReady t.app := by
  refine ⟨by decide +kernel, by decide +kernel, fun h => ?_⟩
  have hmark := (h _ (Run.final_mem_states _ _) "first" "browser"
    ⟨"first", "first-ticket", .ready, 900000, none, none⟩ (by decide +kernel) (by decide +kernel)
    rfl).1
  have hnone : calls ((final livekitProductionConfig id (beforeOpen ++
      [.bridgeSays "link" (sessionMessage "session.ready" "first"),
        .clientOpen "first" "browser"])).app.clientLog "browser") = [] := by
    have hlog : (final livekitProductionConfig id (beforeOpen ++
        [.bridgeSays "link" (sessionMessage "session.ready" "first"),
          .clientOpen "first" "browser"])).app.clientLog "browser" =
        [snapshot "first" .ready true] := by rfl
    rw [hlog, calls_singleton, handleServerEvent_snapshot]
  exact absurd (hnone ▸ hmark) List.not_mem_nil

end SenseVoice.Page
