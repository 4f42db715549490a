import SenseVoice.ControlPlane.Steps

/-!
# Admission control, and whether closed is final

`create_session` admits a session only below `SESSION_CAPACITY`, and five paths close one. Both the
bound and the finality of `"closed"` rest on nobody reopening a closed session. One writer of
`session.state` does: `handle_bridge_event` writes `"ready"` or `"error"` without looking at the old
state, so a `session.ready` or `asr.error` that crosses a deletion **revives** the session
(`Event.revives`).

Results:
* `activeSessions_step`: an event that revives nothing adds an open session only below capacity;
  `activeSessions_revive`: a revival adds exactly one;
* **`activeSessions_le_capacity_iff`**: in every run, the bound holds in all states exactly if no
  session is revived while the plane is full;
* **`closed_final_iff`**: in every run that draws no UUID twice, closed sessions stay closed and
  unusable exactly if no session is revived.
-/

namespace SenseVoice.ControlPlane

open Lib

variable {cfg : Config} {digest : String → String} {s t : System} {e : Event}

/-! ## The number of open sessions -/

theorem mem_openKeys {a : AppState} {k : Uuid} :
    k ∈ Table.keysWhere (fun _ r => r.isOpen) a.inner.sessions ↔ a.sessionOpen k = true := by
  rw [Table.mem_keysWhere, sessionOpen_iff]

/-- An event that revives nothing opens a session only by creating it below capacity. -/
theorem activeSessions_step (h : step cfg digest s e = some t)
    (hr : ∀ id, e.revives s.app id = false) :
    t.app.activeSessions ≤ s.app.activeSessions ∨
      s.app.activeSessions < cfg.sessionCapacity ∧
        t.app.activeSessions ≤ s.app.activeSessions + 1 := by
  by_cases hc : ∃ i, e = .createSession i ∧ s.app.activeSessions < cfg.sessionCapacity
  · obtain ⟨i, he, hcap⟩ := hc
    refine Or.inr ⟨hcap, Table.countWhere_le_succ i.id fun k hk => ?_⟩
    rcases open_before h (mem_openKeys.mp hk) with ho | hv | ⟨i', he', hid, -⟩
    · exact Or.inr (mem_openKeys.mpr ho)
    · exact absurd hv (by simp [hr k])
    · obtain rfl := Event.createSession.inj (he.symm.trans he')
      exact Or.inl hid.symm
  · refine Or.inl (Table.countWhere_le fun k hk => ?_)
    rcases open_before h (mem_openKeys.mp hk) with ho | hv | ⟨i, he, -, hcap⟩
    · exact mem_openKeys.mpr ho
    · exact absurd hv (by simp [hr k])
    · exact absurd ⟨i, he, hcap⟩ hc

/-- A bridge message leaves the sessions it does not name as they are. -/
theorem lookup_of_marks_ne (h : step cfg digest s e = some t) {id k : Uuid}
    (hr : e.revives s.app id = true) (hk : k ≠ id) :
    t.app.inner.sessions.lookup k = s.app.inner.sessions.lookup k := by
  obtain ⟨r, st, -, -, hm, -⟩ := revives_iff.mp hr
  cases e with
  | bridgeMessage socketId message times =>
    rw [step_app h]
    have hnone : marks message k = none := by
      cases hmk : marks message k with
      | none => rfl
      | some st' => exact absurd (marks_unique (e := .bridgeMessage socketId message times) hmk hm) hk
    rw [Event.apply, (handleBridgeEvent_frame message times s.app).1 k]
    unfold markSession
    rw [hnone]
    exact Option.map_id'
  | _ => exact absurd hm (by simp [Event.marks])

/-- A revival makes exactly one more session count. -/
theorem activeSessions_revive (h : step cfg digest s e = some t) {id : Uuid}
    (hr : e.revives s.app id = true) :
    t.app.activeSessions = s.app.activeSessions + 1 := by
  obtain ⟨r, st, hl, hro, hm, -⟩ := revives_iff.mp hr
  have hclosed : s.app.sessionOpen id = false := by simp [AppState.sessionOpen, hl, hro]
  refine Table.countWhere_succ id (fun hk => ?_) fun k => ?_
  · exact absurd (mem_openKeys.mp hk) (by simp [hclosed])
  · rw [mem_openKeys, mem_openKeys]
    by_cases hk : k = id
    · subst hk
      exact iff_of_true (open_of_revives h hr) (Or.inl rfl)
    · unfold AppState.sessionOpen
      rw [lookup_of_marks_ne h hr hk, or_iff_right hk]

/-- **Admission control, exactly.** The number of sessions that are not closed stays within
`SESSION_CAPACITY` in every state of a run exactly if no closed session is revived by a bridge
message while the plane is full. -/
theorem activeSessions_le_capacity_iff (cfg : Config) (digest : String → String) (es : List Event) :
    (∀ t ∈ states cfg digest es, t.app.activeSessions ≤ cfg.sessionCapacity) ↔
      ∀ x ∈ trace cfg digest es,
        ¬ (x.before.app.activeSessions = cfg.sessionCapacity ∧
          ∃ id, x.event.revives x.before.app id = true) := by
  refine Run.states_iff_trace (Nat.zero_le _) fun x hx hle => ?_
  have h := (Run.mem_trace hx).2
  by_cases hr : ∃ id, x.event.revives x.before.app id = true
  · obtain ⟨id, hid⟩ := hr
    rw [activeSessions_revive h hid]
    constructor
    · rintro hlt ⟨hfull, -⟩
      omega
    · intro hno
      have : x.before.app.activeSessions ≠ cfg.sessionCapacity := fun hfull => hno ⟨hfull, id, hid⟩
      omega
  · have hnone : ∀ id, x.event.revives x.before.app id = false := fun id => by
      by_contra hv
      exact hr ⟨id, by simpa using hv⟩
    refine iff_of_true ?_ fun hfull => hr hfull.2
    rcases activeSessions_step h hnone with hle' | ⟨hlt, hle'⟩ <;> omega

/-- A deletion, a new admission in the freed slot, and then the first session's late
`session.ready`. -/
def lateReadyRun : List Event :=
  [.connect "link", .create "first" 0] ++ Event.operate (.delete "first") ++
    [.create "second" 0, .bridgeSays "link" (sessionMessage "session.ready" "first")]

/-- The bound fails: one slot, two open sessions. -/
theorem capacity_exceeded :
    livekitProductionConfig.validate.toBool = true ∧
      FreshRun livekitProductionConfig id lateReadyRun ∧
      ¬ ∀ t ∈ states livekitProductionConfig id lateReadyRun,
        t.app.activeSessions ≤ livekitProductionConfig.sessionCapacity := by
  decide +kernel

/-! ## Closed is final -/

/-- The session exists and its state is `"closed"`. -/
def AppState.sessionClosed (a : AppState) (id : Uuid) : Bool :=
  (a.inner.sessions.lookup id).any fun s => !s.isOpen

/-- The session can be used: its ticket authorises a request or a socket, a socket can be registered
for it, or it counts as active. -/
def AppState.Usable (a : AppState) (id : Uuid) : Prop :=
  (∃ ticket, ticketAuthorized a id ticket = true) ∨
  (∃ ticket, socketTicketValid a id ticket = true) ∨
  (∃ socketId, (clientOpen id socketId a).isSome = true) ∨
  id ∈ Table.keysWhere (fun _ r => r.isOpen) a.inner.sessions

theorem usable_iff {a : AppState} {id : Uuid} : a.Usable id ↔ a.sessionOpen id = true := by
  unfold AppState.Usable
  rw [mem_openKeys]
  constructor
  · rintro (⟨ticket, h⟩ | ⟨ticket, h⟩ | ⟨socketId, h⟩ | h)
    · unfold ticketAuthorized at h
      unfold AppState.sessionOpen
      cases hl : a.inner.sessions.lookup id with
      | none => rw [hl] at h; exact absurd h (by simp)
      | some r => rw [hl] at h; simp only [Option.any_some, Bool.and_eq_true] at h; exact h.1
    · unfold socketTicketValid at h
      unfold AppState.sessionOpen
      cases hl : a.inner.sessions.lookup id with
      | none => rw [hl] at h; exact absurd h (by simp)
      | some r => rw [hl] at h; simp only [Option.any_some, Bool.and_eq_true] at h; exact h.2
    · obtain ⟨b, hb⟩ := Option.isSome_iff_exists.mp h
      exact sessionOpen_iff.mpr (clientOpen_some hb).1
    · exact h
  · exact fun h => Or.inr (Or.inr (Or.inr h))

/-- A closed session of the earlier state is gone or closed in the later one, and unusable. -/
def StaysClosed (t u : System) : Prop :=
  ∀ id, t.app.sessionClosed id = true →
    (u.app.inner.sessions.lookup id = none ∨ u.app.sessionClosed id = true) ∧ ¬ u.app.Usable id

theorem not_open_iff {a : AppState} {id : Uuid} :
    a.sessionOpen id = false ↔ a.inner.sessions.lookup id = none ∨ a.sessionClosed id = true := by
  unfold AppState.sessionOpen AppState.sessionClosed
  cases a.inner.sessions.lookup id with
  | none => simp
  | some r => simp

/-- Without a revival, a drawn id whose session is not open never has an open session again. -/
theorem not_open_step {x : Run.Taken System Event} (h : step cfg digest x.before x.event = some x.after)
    (hf : FreshStep x) (hr : ∀ id, x.event.revives x.before.app id = false) (id : Uuid)
    (hb : id ∈ x.before.drawn ∧ x.before.app.sessionOpen id = false) :
    id ∈ x.after.drawn ∧ x.after.app.sessionOpen id = false := by
  obtain ⟨hd, hclosed⟩ := hb
  refine ⟨drawn_mono h hd, ?_⟩
  by_contra ho
  rcases open_before h (by simpa using ho) with ho' | hv | ⟨i, he, hid, -⟩
  · exact absurd ho' (by simp [hclosed])
  · exact absurd hv (by simp [hr id])
  · refine hf.2 id ?_ hd
    rw [he, ← hid]
    exact List.mem_cons_self

/-- A revival breaks finality. -/
theorem not_closed_final {x : Run.Taken System Event} {es : List Event}
    (hx : x ∈ trace cfg digest es) {id : Uuid} (hv : x.event.revives x.before.app id = true) :
    ¬ (states cfg digest es).Pairwise StaysClosed := by
  intro hp
  obtain ⟨r, st, hl, hro, -⟩ := revives_iff.mp hv
  have hclosed : x.before.app.sessionClosed id = true := by simp [AppState.sessionClosed, hl, hro]
  exact (Run.step_of_pairwise hp x hx id hclosed).2
    (usable_iff.mpr (open_of_revives (Run.mem_trace hx).2 hv))

/-- **Closed is final, exactly.** In a run that draws no UUID twice, every session once closed is
from then on gone or closed, and unusable, exactly if no bridge message revives a closed session. -/
theorem closed_final_iff {es : List Event} (hf : FreshRun cfg digest es) :
    (states cfg digest es).Pairwise StaysClosed ↔
      ∀ x ∈ trace cfg digest es, ∀ id, x.event.revives x.before.app id = false := by
  constructor
  · intro hp x hx id
    by_contra hv
    exact not_closed_final hx (by simpa using hv) hp
  · intro hr
    have hp : (states cfg digest es).Pairwise fun t u => ∀ id,
        id ∈ t.drawn ∧ t.app.sessionOpen id = false →
          id ∈ u.drawn ∧ u.app.sessionOpen id = false :=
      Run.pairwise_states (P := fun id t => id ∈ t.drawn ∧ t.app.sessionOpen id = false)
        fun x hx id hb => not_open_step (Run.mem_trace hx).2 (hf x hx) (hr x hx) id hb
    refine hp.imp_of_mem fun {t u} ht _ htu id hclosed => ?_
    have hex : ∃ r, t.app.inner.sessions.lookup id = some r := by
      unfold AppState.sessionClosed at hclosed
      cases hl : t.app.inner.sessions.lookup id with
      | none => rw [hl] at hclosed; exact absurd hclosed (by simp)
      | some r => exact ⟨r, rfl⟩
    obtain ⟨r, hl⟩ := hex
    have hno := (htu id ⟨records_drawn ht id r hl, not_open_iff.mpr (Or.inr hclosed)⟩).2
    refine ⟨not_open_iff.mp hno, fun hu => ?_⟩
    exact absurd (usable_iff.mp hu) (by simp [hno])

/-- The run of `closed_final_iff` with a deletion and no late message. -/
theorem closed_final_deleted :
    (states livekitProductionConfig id
        ([.connect "link", .create "first" 0] ++ Event.operate (.delete "first"))).Pairwise
        StaysClosed ↔
      ∀ x ∈ trace livekitProductionConfig id
        ([.connect "link", .create "first" 0] ++ Event.operate (.delete "first")),
        ∀ k, x.event.revives x.before.app k = false :=
  closed_final_iff (by decide +kernel)

/-- A deleted session is usable again after its late `session.ready`. -/
theorem closed_session_revived :
    livekitProductionConfig.validate.toBool = true ∧
      FreshRun livekitProductionConfig id lateReadyRun ∧
      ¬ (states livekitProductionConfig id lateReadyRun).Pairwise StaysClosed := by
  have hv : ∃ x ∈ trace livekitProductionConfig id lateReadyRun,
      x.event.revives x.before.app "first" = true := by decide +kernel
  obtain ⟨x, hx, hv⟩ := hv
  exact ⟨by decide +kernel, by decide +kernel, not_closed_final hx hv⟩

end SenseVoice.ControlPlane
